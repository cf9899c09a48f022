import TagTree.Proofs.Walk

/-!
# Sections

A record and everything that it claims inside it make up a section. Where records fall into sections
one behind the other, a walk at the top visits just the records with which sections begin.
-/

namespace TagTree

namespace Layout

/-- Records fall into sections, each of which is a record and those inside it. The places and tags
of the records with which sections begin are given. -/
inductive Sections :
    (start : Nat) → (records : List Record) → (tops : List (Nat × Tag)) → Prop where
  | nil (start : Nat) : Sections start [] []
  | cons {start : Nat} {record : Record} {rest : List Record} {tops : List (Nat × Tag)}
      (inner : List Record) (claims : record.extent = record.size + size inner)
      (behind : Sections (start + record.extent) rest tops) :
      Sections start (record :: (inner ++ rest)) ((start, record.tag) :: tops)

section Claims

variable {record : Record} {inner : List Record}

theorem size_section (rest : List Record) (claims : record.extent = record.size + size inner) :
    size (record :: (inner ++ rest)) = record.extent + size rest := by
  rw [size_cons, size_append, claims, Nat.add_assoc]

theorem placed_section (start : Nat) (rest : List Record)
    (claims : record.extent = record.size + size inner) :
    placed start (record :: (inner ++ rest)) =
      (start, record) ::
        (placed (start + record.size) inner ++ placed (start + record.extent) rest) := by
  rw [placed, placed_append, Nat.add_assoc, ← claims]

end Claims

namespace Sections

variable {start : Nat} {records more : List Record} {tops others : List (Nat × Tag)}

theorem append (front : Sections start records tops)
    (behind : Sections (start + size records) more others) :
    Sections start (records ++ more) (tops ++ others) := by
  induction front with
  | nil start => exact behind
  | @cons start record rest tops inner claims _ ih =>
      rw [size_section rest claims, ← Nat.add_assoc] at behind
      rw [List.cons_append, List.append_assoc, List.cons_append]
      apply cons inner claims
      exact ih behind

/-- Records that claim nothing but themselves are sections. -/
theorem of_bare (start : Nat) (bare : ∀ record ∈ records, record.extent = record.size) :
    Sections start records
      ((placed start records).map fun entry => (entry.1, entry.2.tag)) := by
  induction records generalizing start with
  | nil => exact .nil start
  | cons record rest ih =>
      obtain ⟨first, others⟩ := List.forall_mem_cons.mp bare
      apply cons [] first
      rw [first]
      exact ih _ others

/-- A list that claims everything behind its own bytes is a section with it. -/
theorem list (start : Nat) (tag : Tag) (inner : List Record) :
    Sections start (.list tag (size inner) :: inner) [(start, tag)] := by
  have claims : (Record.list tag (size inner)).extent =
      (Record.list tag (size inner)).size + size inner := by
    rw [Record.extent, Record.size_list, Nat.add_comm]
  have whole := cons inner claims (.nil (start + _))
  rwa [List.append_nil] at whole

theorem exists_placed (sections : Sections start records tops) :
    ∀ top ∈ tops, ∃ record, (top.1, record) ∈ placed start records ∧ record.tag = top.2 := by
  induction sections with
  | nil =>
      intro top isTop
      cases isTop
  | @cons start record rest tops inner claims _ ih =>
      rw [List.forall_mem_cons, placed_section start rest claims]
      constructor
      · exact ⟨record, List.mem_cons_self .., rfl⟩
      · intro top later
        obtain ⟨other, member, sameTag⟩ := ih top later
        exact ⟨other, List.mem_cons_of_mem _ (List.mem_append_right _ member), sameTag⟩

variable {image : Image}

/-- The records with which sections begin tile the stretch of the records. -/
theorem tiles {all : List Record} (sections : Sections start records tops)
    (written : image.Written all)
    (stand : ∀ entry ∈ placed start records, entry ∈ placed Header.size all) :
    image.Tiles start (tops.map Prod.fst) (start + size records) := by
  induction sections with
  | nil start => exact .nil start
  | @cons start record rest tops inner claims _ ih =>
      rw [placed_section start rest claims, List.forall_mem_cons, List.forall_mem_append] at stand
      obtain ⟨here, -, behind⟩ := stand
      rw [size_section rest claims, ← Nat.add_assoc]
      exact written.tiles_cons here (ih behind)

/-- The records with which sections begin are the children of the root, with their tags. -/
theorem eq_map_children_root (sections : Sections Header.size records tops)
    (written : image.Written records) :
    tops = (image.children Image.root).map fun id => (id, image.tagAt id) := by
  have tiles := sections.tiles written fun _ member => member
  rw [← written.laidOut.size_eq] at tiles
  have same : ∀ top ∈ tops, (top.1, image.tagAt top.1) = top := by
    intro top member
    obtain ⟨record, stands, sameTag⟩ := sections.exists_placed top member
    rw [written.tagAt stands, sameTag]
  rw [tiles.children_root, List.map_map]
  exact ((List.map_congr_left same).trans (List.map_id tops)).symm

/-- A search at the top finds the first with the tag among the records with which sections
begin. -/
theorem findFirst_eq (sections : Sections Header.size records tops)
    (written : image.Written records) (tag : Tag) :
    image.findFirst Image.root tag = (tops.find? fun top => top.2 = tag).map Prod.fst := by
  rw [Image.findFirst_eq_find?, sections.eq_map_children_root written, List.find?_map,
    Option.map_map]
  exact Option.map_id'.symm

end Sections

end Layout

end TagTree

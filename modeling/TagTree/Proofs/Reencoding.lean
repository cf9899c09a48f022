import TagTree.Proofs.Decoding
import TagTree.Proofs.Forest
import TagTree.Proofs.Loading
import TagTree.Proofs.Termination

/-!
# Writing again what was read

In a well-formed image the records inside every parent stand one behind the other without a gap and
every text is stored as one. To copy a database is to go over its records in document order, to read
each and to write it again. The copy of a well-formed image has the same bytes.
-/

namespace TagTree

/-! ## Copying -/

namespace Database

variable (source : Database) (defaults : (form : Scalar) → form.Value)

/-- What a record without children holds, by the reader for its kind. -/
def leaf? (id : Nat) : Option Leaf :=
  let scalar (form : Scalar) := .scalar form (source.image.readScalar form id (defaults form))
  match source.image.kindAt? id with
  | some .null => some .null
  | some .byte => some (scalar .byte)
  | some .word => some (scalar .word)
  | some .dword => some (scalar .dword)
  | some .qword => some (scalar .qword)
  | some .stringRef => some (scalar .stringRef)
  | some .string => (source.string? id).map .string
  | some .binary => (source.image.binaryData? id).map .binary
  | some .list | none => none

/-- Write a record again, where the records inside it are written by a given action. -/
def copyRecord (inside : Action Unit) (id : Nat) : Action Unit := do
  let tag := source.image.tagAt id
  if source.image.kindAt? id = some .list then
    let list ← beginList tag
    inside
    endList list
  else
    match source.leaf? defaults id with
    | some content => content.write tag
    | none => throw (.outOfRange id (source.image.sizeOf id) source.image.size)

/-- Write all records inside a parent again, in document order. -/
def copy (parent : Nat) : Action Unit :=
  (source.image.children parent).attach.forM fun ⟨child, _member⟩ =>
    source.copyRecord defaults (copy child) child
termination_by source.image.size + 1 - parent
decreasing_by
  have := Image.lt_of_mem_children _member
  omega

theorem copy_eq (parent : Nat) :
    source.copy defaults parent =
      (source.image.children parent).forM fun child =>
        source.copyRecord defaults (source.copy defaults child) child := by
  rw [copy]
  conv_rhs => rw [← List.attach_map_subtype_val (source.image.children parent)]
  rw [List.forM_eq_forM, List.forM_eq_forM, List.forM_map]

/-- The reader for its kind gives what a record holds, whatever defaults are given. -/
theorem leaf?_eq {source : Database} {id : Nat} {tag : Tag} {content : Leaf}
    (holds : source.image.Holds id (Record.leaf tag content).encode)
    (sound : (Record.leaf tag content).Sound) : source.leaf? defaults id = some content := by
  have kindAt := holds.kindAt? sound
  have found := foundAt_of_holds holds sound
  cases content with
  | null => simp only [leaf?, kindAt, Record.kind, Leaf.kind]
  | scalar form value =>
      have read : source.image.readScalar form id (defaults form) = value := found _
      cases form
      all_goals simp only [leaf?, kindAt, Record.kind, Leaf.kind, Scalar.kind, read]
  | string text =>
      have read : source.string? id = some text := found
      simp only [leaf?, kindAt, Record.kind, Leaf.kind, read, Option.map_some]
  | binary bytes =>
      have read : source.image.binaryData? id = some bytes := found
      simp only [leaf?, kindAt, Record.kind, Leaf.kind, read, Option.map_some]

theorem copyRecord_of_list {source : Database} {id : Nat} (inside : Action Unit)
    (isList : source.image.kindAt? id = some .list) :
    source.copyRecord defaults inside id =
      (do
        let list ← beginList (source.image.tagAt id)
        inside
        endList list) :=
  if_pos isList

theorem copyRecord_of_leaf {source : Database} {id : Nat} {tag : Tag} {content : Leaf}
    (inside : Action Unit) (holds : source.image.Holds id (Record.leaf tag content).encode)
    (sound : (Record.leaf tag content).Sound) :
    source.copyRecord defaults inside id = content.write tag := by
  have noList : source.image.kindAt? id ≠ some .list := by
    rw [holds.kindAt? sound]
    intro same
    exact content.kind_ne_list (Option.some.inj same)
  simp only [copyRecord, if_neg noList, leaf?_eq defaults holds sound, holds.tagAt, Record.tag]

end Database

/-! ## Well-formed images -/

namespace Image

/-- The records below a parent leave no gaps, and each text among them is stored as one without a
zero of its own. -/
structure WellFormedBelow (image : Image) (parent : Nat) : Prop where
  lists : ∀ list ∈ image.below parent, image.kindAt? list = some .list →
    image.Tiles (list + listHeaderSize) (image.children list) (list + image.sizeOf list)
  texts : ∀ id ∈ image.below parent, image.kindAt? id = some .string → image.StoresText id

/-- The records at the top fill the image behind its header, and those inside each list fill what
the list claims. -/
structure WellFormed (image : Image) : Prop extends image.WellFormedBelow root where
  top : image.Tiles Header.size (image.children root) image.size

instance (image : Image) (parent : Nat) : Decidable (image.WellFormedBelow parent) :=
  decidable_of_iff
    ((∀ list ∈ image.below parent, image.kindAt? list = some .list →
        image.Tiles (list + listHeaderSize) (image.children list) (list + image.sizeOf list)) ∧
      ∀ id ∈ image.below parent, image.kindAt? id = some .string → image.StoresText id)
    ⟨fun ⟨lists, texts⟩ => ⟨lists, texts⟩, fun ⟨lists, texts⟩ => ⟨lists, texts⟩⟩

instance (image : Image) : Decidable image.WellFormed :=
  decidable_of_iff
    (image.WellFormedBelow root ∧ image.Tiles Header.size (image.children root) image.size)
    ⟨fun ⟨below, top⟩ => ⟨below, top⟩, fun ⟨below, top⟩ => ⟨below, top⟩⟩

variable {image : Image} {parent child : Nat}

theorem mem_below_of_mem_children (member : child ∈ image.children parent) :
    child ∈ image.below parent := by
  rw [below_eq, List.mem_flatMap]
  exact ⟨child, member, List.mem_cons_self ..⟩

theorem WellFormedBelow.of_list (wellFormed : image.WellFormedBelow parent)
    (member : child ∈ image.children parent) (isList : image.kindAt? child = some .list) :
    image.WellFormedBelow child := by
  have inside : ∀ id ∈ image.below child, id ∈ image.below parent := by
    intro id below
    rw [below_eq, List.mem_flatMap]
    refine ⟨child, member, List.mem_cons_of_mem _ ?_⟩
    rwa [if_pos isList]
  constructor
  · intro list below
    exact wellFormed.lists list (inside list below)
  · intro id below
    exact wellFormed.texts id (inside id below)

end Image

/-! ## The forest of an image -/

namespace Forest

/-- A forest without interned texts stands in a stretch of an image, and an action writes it. -/
structure CopiedBy (image : Image) (start stop : Nat) (forest : Forest) (action : Action Unit) :
    Prop where
  sound : forest.Sound
  noTexts : forest.texts = []
  holds : image.Holds start (Layout.bytes (forest.records []))
  ends : start + forest.size = stop
  writes : action = forest.write

namespace CopiedBy

variable {image : Image} {id start stop : Nat} {forest inner : Forest}
  {action following : Action Unit} {tag : Tag} {content : Leaf}

theorem nil (inside : start ≤ image.size) : CopiedBy image start start .nil (pure ()) where
  sound := trivial
  noTexts := rfl
  holds := Image.holds_nil inside
  ends := rfl
  writes := rfl

theorem leaf (sound : (Record.leaf tag content).Sound)
    (holds : image.Holds id (Record.leaf tag content).encode)
    (behind : CopiedBy image (id + (Record.leaf tag content).size) stop forest following) :
    CopiedBy image id stop (.leaf tag content forest)
      (content.write tag >>= fun _ => following) where
  sound := ⟨sound, behind.sound⟩
  noTexts := behind.noTexts
  holds := by
    rw [records, Layout.bytes_cons]
    exact holds.append behind.holds
  ends := by
    rw [size, ← Nat.add_assoc]
    exact behind.ends
  writes := by
    rw [behind.writes]
    rfl

theorem list (sound : tag.kind? = some .list)
    (holds : image.Holds id (Record.list tag inner.size).encode)
    (inside : CopiedBy image (id + Image.listHeaderSize) start inner action)
    (behind : CopiedBy image start stop forest following) :
    CopiedBy image id stop (.list tag inner forest)
      ((do
        let list ← Database.beginList tag
        action
        Database.endList list) >>= fun _ => following) where
  sound := ⟨sound, inside.sound, behind.sound⟩
  noTexts := by
    rw [texts, inside.noTexts, behind.noTexts, List.append_nil]
  holds := by
    have innerSize := size_records [] inner
    have standsBehind := behind.holds
    rw [← inside.ends, ← innerSize, ← Layout.length_bytes] at standsBehind
    rw [records, Layout.bytes_cons, Layout.bytes_append]
    apply holds.append
    rw [← Record.size, Record.size_list]
    exact inside.holds.append standsBehind
  ends := by
    rw [← behind.ends, ← inside.ends, size]
    simp only [Nat.add_assoc]
  writes := by
    rw [inside.writes, behind.writes, write]
    simp only [bind_assoc]

end CopiedBy

section Copying

variable {source : Database} (defaults : (form : Scalar) → form.Value) {start stop : Nat}
  {ids : List Nat}

/-- Where records leave no gap and each list among them is copied, all are. -/
theorem exists_copiedBy_of_tiles {inside : Nat → Action Unit}
    (tiles : source.image.Tiles start ids stop) (within : stop ≤ source.image.size)
    (texts : ∀ id ∈ ids, source.image.kindAt? id = some .string → source.image.StoresText id)
    (nested : ∀ id ∈ ids, source.image.kindAt? id = some .list →
      ∃ forest, CopiedBy source.image (id + Image.listHeaderSize) (id + source.image.sizeOf id)
        forest (inside id)) :
    ∃ forest, CopiedBy source.image start stop forest
      (ids.forM fun id => source.copyRecord defaults (inside id) id) := by
  induction tiles with
  | nil start => exact ⟨.nil, .nil within⟩
  | @cons id stop rest readable tiles ih =>
      obtain ⟨textHere, textsBehind⟩ := List.forall_mem_cons.mp texts
      obtain ⟨nestedHere, nestedBehind⟩ := List.forall_mem_cons.mp nested
      obtain ⟨forest, behind⟩ := ih within textsBehind nestedBehind
      rw [List.forM_eq_forM, List.forM_cons]
      cases kindAt : source.image.kindAt? id with
      | none => exact absurd (by simp only [Image.sizeOf, kindAt]) readable
      | some kind =>
          by_cases isList : kind = .list
          · subst isList
            obtain ⟨inner, copied⟩ := nestedHere kindAt
            obtain ⟨length, size, holds⟩ := Image.exists_holds_list kindAt readable
            have claimed : length = inner.size := by
              have innerEnds := copied.ends
              omega
            subst claimed
            rw [Database.copyRecord_of_list defaults (inside id) kindAt]
            exact ⟨_, .list kindAt holds copied behind⟩
          · obtain ⟨content, sound, holds⟩ := Image.exists_leaf kindAt isList readable
              (Nat.le_trans tiles.le within) fun isString => textHere (isString ▸ kindAt)
            rw [holds.sizeOf_leaf sound] at behind
            rw [Database.copyRecord_of_leaf defaults (inside id) holds sound]
            exact ⟨_, .leaf sound holds behind⟩

/-- Copying the records inside a parent writes the forest that stands there. -/
theorem exists_copiedBy (parent : Nat) {start stop : Nat}
    (wellFormed : source.image.WellFormedBelow parent)
    (tiles : source.image.Tiles start (source.image.children parent) stop)
    (within : stop ≤ source.image.size) :
    ∃ forest, CopiedBy source.image start stop forest (source.copy defaults parent) := by
  rw [Database.copy_eq]
  apply exists_copiedBy_of_tiles defaults tiles within
  · intro id member
    exact wellFormed.texts id (Image.mem_below_of_mem_children member)
  · intro child member isList
    exact exists_copiedBy child (wellFormed.of_list member isList)
      (wellFormed.lists child (Image.mem_below_of_mem_children member) isList)
      (Nat.le_trans (tiles.end_le_of_mem member) within)
termination_by source.image.size + 1 - parent
decreasing_by
  have := Image.lt_of_mem_children member
  omega

end Copying

end Forest

/-! ## The copy of a database -/

namespace Database

/-- Copying a database whose image is well-formed succeeds, whatever the defaults of the readers,
and gives the same bytes again. -/
theorem copy_run {bytes : List UInt8} {source : Database} (accepted : ofBytes bytes = .ok source)
    (wellFormed : source.image.WellFormed) (defaults : (form : Scalar) → form.Value)
    (capacity : Nat) :
    ∃ after, (source.copy defaults Image.root).run (inMemory ⟨source.header, capacity⟩) =
        .ok () after ∧ after.image.toList = bytes := by
  obtain ⟨sameBytes, parsed⟩ := of_ofBytes accepted
  obtain ⟨forest, copied⟩ := Forest.exists_copiedBy defaults Image.root
    wellFormed.toWellFormedBelow wellFormed.top (Nat.le_refl _)
  have room : (inMemory ⟨source.header, capacity⟩).image.HasRoom forest.size := by
    rw [Image.hasRoom_iff, ← Image.length_toList, toList_inMemory, Header.length_encode,
      copied.ends]
    exact source.image.size_lt
  have pooled : StringPool.behind Image.listHeaderSize (Forest.addTexts [] forest.texts) <
      sizeLimit := by
    rw [copied.noTexts]
    decide
  have isPrefix : Forest.addTexts [] forest.texts <+: [] := by
    rw [copied.noTexts]
    exact List.prefix_refl []
  obtain ⟨image, wrote, added⟩ := Forest.write_run (inMemory ⟨source.header, capacity⟩) []
    copied.sound rfl room pooled isPrefix
  have filled := copied.holds.toList_eq (by
    rw [Layout.length_bytes, Forest.size_records]
    exact copied.ends)
  rw [copied.writes]
  refine ⟨_, wrote, ?_⟩
  rw [added, toList_inMemory, Header.encode_of_parse parsed, ← sameBytes]
  exact filled.symm

/-- A list with a byte, a text and an empty list in it, and binary data behind it. -/
def sampleBytes : List UInt8 :=
  (⟨Header.supportedMajor, 1⟩ : Header).encode ++
    [0x01, 0x70, 21, 0, 0, 0,
      0x01, 0x20, 0xFF,
      0x01, 0x80, 6, 0, 0, 0, 0xE9, 0, 0x41, 0, 0, 0,
      0x07, 0x70, 0, 0, 0, 0,
      0x01, 0x90, 2, 0, 0, 0, 0x07, 0x70]

theorem copy_run_sampleBytes :
    ∃ source, ofBytes sampleBytes = .ok source ∧ source.image.WellFormed ∧
      ∃ after, (source.copy (fun _ => 0) Image.root).run (inMemory ⟨source.header, 1⟩) =
        .ok () after ∧ after.image.toList = sampleBytes := by
  have wellFormed : ∃ source ∈ (ofBytes sampleBytes).toOption, source.image.WellFormed := by
    decide +kernel
  obtain ⟨source, found, wellFormed⟩ := wellFormed
  cases accepted : ofBytes sampleBytes with
  | error cause =>
      rw [accepted] at found
      cases found
  | ok _ =>
      rw [accepted] at found
      cases found
      exact ⟨source, rfl, wellFormed, copy_run accepted wellFormed (fun _ => 0) 1⟩

end Database

end TagTree

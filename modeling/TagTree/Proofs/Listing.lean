import Mathlib.Data.List.Perm.Subperm
import TagTree.Dump
import TagTree.Image.Outline
import TagTree.Proofs.Termination

/-!
# What a listing shows

A listing goes down through the lists of an image and shows each record where it comes to it. A list
may claim more bytes than the list in which it stands, and then the records behind both are come to
twice: from inside, and again from outside. Where no list does so, every record that is shown stands
behind the one shown before it, so none is shown twice.
-/

namespace TagTree

namespace Image

variable {image : Image} {levels depth parent child : Nat} {row : Row}

/-- Every list that stands in a list to which one comes ends where this one does at the latest. -/
def ListsNest (image : Image) : (levels parent : Nat) → Prop
  | 0, _ => True
  | levels + 1, parent =>
      ∀ child ∈ image.children parent, image.kindAt? child = some .list →
        (parent = root ∨ child + image.sizeOf child ≤ parent + image.sizeOf parent) ∧
          ListsNest image levels child

instance decidableListsNest (image : Image) :
    (levels parent : Nat) → Decidable (image.ListsNest levels parent)
  | 0, _ => inferInstanceAs (Decidable True)
  | levels + 1, _ =>
      have := decidableListsNest image levels
      inferInstanceAs (Decidable (∀ _ ∈ _, _ → _))

/-- One comes to the children and, through those that are lists, to what is below them. -/
theorem mem_visits_succ :
    row ∈ image.visits (levels + 1) depth parent ↔
      ∃ child ∈ image.children parent, row = ⟨depth, child⟩ ∨
        image.kindAt? child = some .list ∧ row ∈ image.visits levels (depth + 1) child := by
  simp [visits]

/-- On every image one only comes to records behind the parent and inside the image. -/
theorem lt_of_mem_visits (visited : row ∈ image.visits levels depth parent) :
    parent < row.id ∧ row.id ≤ image.size := by
  induction levels generalizing depth parent with
  | zero => cases visited
  | succ levels ih =>
      obtain ⟨child, member, here⟩ := mem_visits_succ.mp visited
      have behind := lt_of_mem_children member
      rcases here with rfl | ⟨-, below⟩
      · exact behind
      · have further := ih below
        exact ⟨Nat.lt_trans behind.1 further.1, further.2⟩

theorem ne_root_of_mem_children (member : child ∈ image.children parent) : child ≠ root :=
  Nat.ne_zero_of_lt (lt_of_mem_children member).1

/-- Where lists nest, what one comes to through a list stands before its end. -/
theorem lt_end_of_mem_visits (notRoot : parent ≠ root) (nest : image.ListsNest levels parent)
    (visited : row ∈ image.visits levels depth parent) :
    row.id < parent + image.sizeOf parent := by
  induction levels generalizing depth parent with
  | zero => cases visited
  | succ levels ih =>
      obtain ⟨child, member, here⟩ := mem_visits_succ.mp visited
      rcases here with rfl | ⟨isList, below⟩
      · exact (bounds_of_mem_children notRoot member).2
      · obtain ⟨inside, nestBelow⟩ := nest child member isList
        have within := ih (ne_root_of_mem_children member) nestBelow below
        exact Nat.lt_of_lt_of_le within (inside.resolve_left notRoot)

/-- Every child ends where each later one begins at the latest. -/
theorem pairwise_children (image : Image) (parent : Nat) :
    (image.children parent).Pairwise fun child later =>
      child < later ∧ child + image.sizeOf child ≤ later := by
  have transitive : IsTrans Nat fun child later =>
      child < later ∧ child + image.sizeOf child ≤ later :=
    ⟨fun _ _ _ first second =>
      ⟨Nat.lt_trans first.1 second.1, Nat.le_trans first.2 (Nat.le_of_lt second.1)⟩⟩
  apply List.isChain_iff_pairwise.mp
  apply (isChain_children image parent).imp
  rintro child later ⟨rfl, readable, -⟩
  exact ⟨Nat.lt_add_of_pos_right (Nat.lt_of_lt_of_le (by decide) readable), Nat.le_refl _⟩

/-- Where lists nest, one never comes back to an earlier place. -/
theorem ascending_visits (nest : image.ListsNest levels parent) :
    (image.visits levels depth parent).Pairwise fun earlier later => earlier.id < later.id := by
  induction levels generalizing depth parent with
  | zero => exact .nil
  | succ levels ih =>
      rw [visits, List.pairwise_flatMap]
      constructor
      · intro child member
        split
        · next isList =>
            apply List.Pairwise.cons
            · intro row below
              exact (lt_of_mem_visits below).1
            · exact ih (nest child member isList).2
        · exact List.pairwise_singleton ..
      · apply (pairwise_children image parent).imp_of_mem
        intro child later member _ behind row atChild following atLater
        have start : later ≤ following.id := by
          rcases List.mem_cons.mp atLater with rfl | below
          · exact Nat.le_refl later
          · split at below
            · exact Nat.le_of_lt (lt_of_mem_visits below).1
            · cases below
        apply Nat.lt_of_lt_of_le ?_ start
        rcases List.mem_cons.mp atChild with rfl | below
        · exact behind.1
        · split at below
          · next isList =>
              have nestBelow := (nest child member isList).2
              have within := lt_end_of_mem_visits (ne_root_of_mem_children member) nestBelow below
              exact Nat.lt_of_lt_of_le within behind.2
          · cases below

theorem length_le_of_ascending {ids : List Nat} {limit : Nat} (ascending : ids.Pairwise (· < ·))
    (bounds : ∀ id ∈ ids, 0 < id ∧ id ≤ limit) : ids.length ≤ limit := by
  have distinct : ids.Nodup := ascending.imp Nat.ne_of_lt
  have inside : ids ⊆ List.range' 1 limit := by
    intro id member
    have bound := bounds id member
    rw [List.mem_range'_1]
    omega
  have fewer := (List.Nodup.subperm distinct inside).length_le
  rwa [List.length_range'] at fewer

end Image

theorem eq_ok_of_toOption {α : Type} {result : Except Error α} {value : α}
    (gives : value ∈ result.toOption) : result = .ok value := by
  cases result with
  | error cause => cases gives
  | ok found =>
      cases gives
      rfl

namespace Database

open Image

/-- The lines of a record in a listing that goes down to a last depth. There three dots stand for
what is in a list. -/
def rowLines (database : Database) (last : Nat) (row : Row) : List String :=
  database.recordLine row.depth row.id ::
    if row.depth = last ∧ database.image.kindAt? row.id = some .list then
      [indentation (last + 1) ++ "..."]
    else []

/-- A listing has the lines of the records to which one comes, in this order. -/
theorem listing_eq_flatMap (database : Database) (levels depth parent : Nat) :
    database.listing (levels + 1) depth parent =
      (database.image.visits (levels + 1) depth parent).flatMap
        (database.rowLines (depth + levels)) := by
  induction levels generalizing depth parent with
  | zero =>
      rw [listing, visits, List.flatMap_assoc]
      congr
      funext child
      rw [List.flatMap_cons, rowLines]
      split
      · next isList => simp [isList, listing, visits]
      · next noList => simp [noList]
  | succ levels ih =>
      rw [listing, visits, List.flatMap_assoc]
      congr
      funext child
      rw [List.flatMap_cons, rowLines]
      split
      · rw [ih, Nat.add_assoc, Nat.add_comm 1]
        simp
      · simp

/-- The records that the listing of a whole database shows. -/
def shown (database : Database) : List Row :=
  database.image.visits (maxDepth + 1) 0 root

theorem dump_root (database : Database) :
    database.dump root 0 = database.shown.flatMap (database.rowLines maxDepth) := by
  rw [dump, Nat.sub_zero, listing_eq_flatMap, Nat.zero_add]
  rfl

/-- Where lists nest, a listing shows the records in the order in which they stand, each once, and
so not more of them than the image has bytes. -/
theorem dump_shows_once (database : Database)
    (nest : database.image.ListsNest (maxDepth + 1) root) :
    database.dump root 0 = database.shown.flatMap (database.rowLines maxDepth) ∧
      (database.shown.map Row.id).Pairwise (· < ·) ∧
        (database.shown.map Row.id).Nodup ∧ database.shown.length ≤ database.image.size := by
  have ascending : (database.shown.map Row.id).Pairwise (· < ·) :=
    List.pairwise_map.mpr (ascending_visits nest)
  refine ⟨database.dump_root, ascending, ascending.imp Nat.ne_of_lt, ?_⟩
  rw [← List.length_map Row.id]
  apply length_le_of_ascending ascending
  intro id member
  obtain ⟨row, visited, rfl⟩ := List.mem_map.mp member
  exact lt_of_mem_visits visited

/-- A list with a shorter list in it, and a number in the outer one and behind it. -/
def nestingBytes : List UInt8 :=
  (⟨Header.supportedMajor, 1⟩ : Header).encode ++
    [0x07, 0x70, 14, 0, 0, 0,
      0x02, 0x70, 2, 0, 0, 0, 0x01, 0x10,
      0x01, 0x40, 5, 0, 0, 0,
      0x01, 0x20, 0xFF]

theorem dump_nestingBytes :
    ∃ database, ofBytes nestingBytes = .ok database ∧
      database.image.ListsNest (maxDepth + 1) root ∧
        database.dump root 0 = database.shown.flatMap (database.rowLines maxDepth) ∧
          (database.shown.map Row.id).Pairwise (· < ·) ∧
            (database.shown.map Row.id).Nodup ∧ database.shown.length ≤ database.image.size := by
  have nest : ∃ database ∈ (ofBytes nestingBytes).toOption,
      database.image.ListsNest (maxDepth + 1) root := by
    decide +kernel
  obtain ⟨database, accepted, nest⟩ := nest
  exact ⟨database, eq_ok_of_toOption accepted, nest, dump_shows_once database nest⟩

/-- A list whose length takes in the number behind it, inside a list that ends in front of that
number. -/
def overlappingBytes : List UInt8 :=
  (⟨Header.supportedMajor, 1⟩ : Header).encode ++
    [0x07, 0x70, 6, 0, 0, 0,
      0x02, 0x70, 6, 0, 0, 0,
      0x01, 0x40, 5, 0, 0, 0]

/-- The number is shown in the inner list and once more at the top. -/
theorem dump_overlappingBytes :
    ∃ database, ofBytes overlappingBytes = .ok database ∧
      database.dump root 0 = database.shown.flatMap (database.rowLines maxDepth) ∧
        database.shown = [⟨0, 12⟩, ⟨1, 18⟩, ⟨2, 24⟩, ⟨0, 24⟩] ∧
          ¬(database.shown.map Row.id).Nodup := by
  have twice : ∃ database ∈ (ofBytes overlappingBytes).toOption,
      database.shown = [⟨0, 12⟩, ⟨1, 18⟩, ⟨2, 24⟩, ⟨0, 24⟩] := by
    decide +kernel
  obtain ⟨database, accepted, shows⟩ := twice
  refine ⟨database, eq_ok_of_toOption accepted, database.dump_root, shows, ?_⟩
  rw [shows]
  decide

end Database

end TagTree

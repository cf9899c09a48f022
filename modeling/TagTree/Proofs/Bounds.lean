import TagTree.Proofs.Listing

/-!
# Records behind the end

A step from one record to the next never leaves the image. The step from a list down to its first
child goes by the length that the list says of itself, and does not look whether any of those bytes
are there. So a list whose own bytes are the last of an image has a child behind the end if it
claims some more. This is the only way out of the image.
-/

namespace TagTree

namespace Image

variable {image : Image} {parent child previous next : Nat} {tag : Tag}

/-- A list that claims some bytes stands at the end of an image that holds none of them. -/
def CutOff (image : Image) (parent : Nat) : Prop :=
  parent ≠ root ∧ (∃ length, image.ClaimsLength parent length) ∧
    parent + listHeaderSize = image.size

theorem firstChild_of_cutOff (cutOff : image.CutOff parent) :
    image.firstChild parent = some image.size := by
  obtain ⟨notRoot, claims, ends⟩ := cutOff
  rw [firstChild_of_ne_root notRoot]
  exact ⟨ends.symm, claims⟩

/-- Going down stays inside the image, but for a list that is cut off. -/
theorem lt_or_cutOff_of_firstChild (found : image.firstChild parent = some child) :
    child < image.size ∨ child = image.size ∧ image.CutOff parent := by
  by_cases isRoot : parent = root
  · subst isRoot
    rw [firstChild_root, Option.ite_none_right_eq_some, Option.some.injEq] at found
    obtain ⟨nonempty, rfl⟩ := found
    exact .inl nonempty
  · obtain ⟨rfl, length, claims⟩ := (firstChild_of_ne_root isRoot).mp found
    have inside : parent + tagSize + 4 ≤ image.size := le_size_of_number claims.2.1
    rcases Nat.lt_or_eq_of_le inside with before | ends
    · exact .inl before
    · exact .inr ⟨ends, isRoot, ⟨length, claims⟩, ends⟩

/-- Going on from there never leaves the image, so this holds on the whole walk. -/
theorem lt_or_cutOff_of_mem_children (member : child ∈ image.children parent) :
    child < image.size ∨ child = image.size ∧ image.CutOff parent := by
  apply (follows_children image parent).forall_mem
    (motive := fun child => child < image.size ∨ child = image.size ∧ image.CutOff parent)
  · intro first isFirst
    exact lt_or_cutOff_of_firstChild isFirst
  · intro here following _ step
    exact .inl (lt_of_nextChild step).2
  · exact member

theorem mem_children_of_findFirst (found : image.findFirst parent tag = some child) :
    child ∈ image.children parent := by
  rw [findFirst_eq_find?] at found
  exact List.mem_of_find?_eq_some found

end Image

namespace Database

open Image

variable {database : Database} {parent id : Nat}

/-- A record that one comes to inside a parent, whatever one asks for. -/
inductive HandsOut (database : Database) (parent : Nat) : Nat → Prop where
  | firstChild {id : Nat} (found : database.image.firstChild parent = some id) :
      HandsOut database parent id
  | nextChild {previous id : Nat} (found : database.image.nextChild parent previous = some id) :
      HandsOut database parent id
  | child {id : Nat} (member : id ∈ database.image.children parent) : HandsOut database parent id
  | findFirst {tag : Tag} {id : Nat} (found : database.image.findFirst parent tag = some id) :
      HandsOut database parent id
  | findNext {previous id : Nat} (found : database.image.findNext parent previous = some id) :
      HandsOut database parent id
  | findNamed {tag nameTag : Tag} {name : String} {id : Nat}
      (found : database.findNamed parent tag nameTag name = some id) : HandsOut database parent id

theorem mem_children_of_findNamed {tag nameTag : Tag} {name : String}
    (found : database.findNamed parent tag nameTag name = some id) :
    id ∈ database.image.children parent := by
  have member := List.mem_of_find?_eq_some found
  rw [childrenTagged_eq_filter] at member
  exact List.mem_of_mem_filter member

theorem HandsOut.lt_or_cutOff (handsOut : database.HandsOut parent id) :
    id < database.image.size ∨ id = database.image.size ∧ database.image.CutOff parent := by
  cases handsOut with
  | firstChild found => exact lt_or_cutOff_of_firstChild found
  | nextChild found => exact .inl (lt_of_nextChild found).2
  | child member => exact lt_or_cutOff_of_mem_children member
  | findFirst found => exact lt_or_cutOff_of_mem_children (mem_children_of_findFirst found)
  | findNext found => exact .inl (lt_of_findNext found).2
  | findNamed found => exact lt_or_cutOff_of_mem_children (mem_children_of_findNamed found)

/-- Whatever the bytes of a database, nothing is handed out that lies further than the end of the
image, and everything inside a parent lies before the end just if the parent is not cut off. -/
theorem hands_out_inside_iff (database : Database) (parent : Nat) :
    (∀ id, database.HandsOut parent id → id ≤ database.image.size) ∧
      ((∀ id, database.HandsOut parent id → id < database.image.size) ↔
        ¬database.image.CutOff parent) := by
  constructor
  · intro id handsOut
    rcases handsOut.lt_or_cutOff with inside | ⟨ends, -⟩
    · exact Nat.le_of_lt inside
    · exact Nat.le_of_eq ends
  · constructor
    · intro inside cutOff
      exact Nat.lt_irrefl _ (inside _ (.firstChild (firstChild_of_cutOff cutOff)))
    · intro whole id handsOut
      rcases handsOut.lt_or_cutOff with inside | ⟨-, cutOff⟩
      · exact inside
      · exact absurd cutOff whole

/-- A list that claims five bytes, of which none is there. -/
def cutOffBytes : List UInt8 :=
  (⟨Header.supportedMajor, 1⟩ : Header).encode ++ [0x01, 0x70, 5, 0, 0, 0]

/-- The end of the image is handed out as a child, and is even found by its tag. -/
theorem hands_out_cutOffBytes :
    ∃ database, ofBytes cutOffBytes = .ok database ∧ database.image.size = 18 ∧
      database.image.firstChild 12 = some 18 ∧ database.image.children 12 = [18] ∧
        database.image.findFirst 12 .null = some 18 ∧
          ¬∀ id, database.HandsOut 12 id → id < database.image.size := by
  have outside : ∃ database ∈ (ofBytes cutOffBytes).toOption, database.image.size = 18 ∧
      database.image.firstChild 12 = some 18 ∧ database.image.children 12 = [18] ∧
        database.image.findFirst 12 .null = some 18 := by
    decide +kernel
  obtain ⟨database, accepted, size, first, children, found⟩ := outside
  refine ⟨database, eq_ok_of_toOption accepted, size, first, children, found, ?_⟩
  intro inside
  have before := inside 18 (.firstChild first)
  rw [size] at before
  exact Nat.lt_irrefl 18 before

end Database

end TagTree

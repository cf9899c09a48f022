import TagTree.Header
import TagTree.Image

/-!
# Records

A record begins with its tag. The kinds of a fixed size hold their number right after it; lists,
strings and binary records hold a length of four bytes and then so many bytes. Every offset of an
image can be looked at as if a record began there. Where no tag or length can be read, the null tag
and the size zero are given instead of an error.
-/

namespace TagTree.Image

/-- The parent of the records at the top. No record can begin here. -/
def root : Nat := 0

/-- The number of bytes of a tag. -/
def tagSize : Nat := 2

/-- The number of bytes of a tag and the length after it. -/
def listHeaderSize : Nat := 6

/-- The tag at an offset, or the null tag where none can be read. -/
def tagAt (image : Image) (id : Nat) : Tag :=
  match image.number id tagSize with
  | .ok raw => ⟨UInt16.ofNat raw⟩
  | .error _ => .null

/-- The kind of the record at an offset, if it is one in use. -/
def kindAt? (image : Image) (id : Nat) : Option Kind :=
  (image.tagAt id).kind?

/-- The number of bytes that a record claims for itself, its tag included, or zero where it cannot
be read or is no 32-bit number. -/
def sizeOf (image : Image) (id : Nat) : Nat :=
  match image.kindAt? id with
  | none => 0
  | some kind =>
      match kind.fixedSize? with
      | some size => size
      | none =>
          match image.number (id + tagSize) 4 with
          | .ok length => if length + listHeaderSize < sizeLimit then length + listHeaderSize else 0
          | .error _ => 0

/-- A record that can be read has at least its tag, and its size is a 32-bit number. -/
theorem sizeOf_bounds (image : Image) (id : Nat) :
    image.sizeOf id = 0 ∨ tagSize ≤ image.sizeOf id ∧ image.sizeOf id < sizeLimit := by
  rw [sizeOf]
  split
  · exact .inl rfl
  · next kind _ =>
      split
      · next size fixed =>
          have bounds := kind.bounds_of_fixedSize? fixed
          exact .inr ⟨bounds.1, Nat.lt_of_le_of_lt bounds.2 (by decide)⟩
      · split
        · next length _ =>
            split
            · next fits => exact .inr ⟨Nat.le_add_left_of_le (by decide), fits⟩
            · exact .inl rfl
        · exact .inl rfl

theorem sizeOf_lt (image : Image) (id : Nat) : image.sizeOf id < sizeLimit := by
  obtain unreadable | bounds := image.sizeOf_bounds id
  · rw [unreadable]
    decide
  · exact bounds.2

theorem sizeOf_eq_zero_or (image : Image) (id : Nat) :
    image.sizeOf id = 0 ∨ tagSize ≤ image.sizeOf id :=
  (image.sizeOf_bounds id).imp_right And.left

end TagTree.Image

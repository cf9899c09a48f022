import TagTree.Image.Record

/-!
# Values of records

What a record holds besides its tag. Reading a number never fails: where the record is of another
kind or reaches beyond the end of the image, the reader's own default is given.
-/

namespace TagTree.Image

/-- The number that a record holds, or the default where there is no such record. -/
def readScalar (image : Image) (scalar : Scalar) (id : Nat) (default : scalar.Value) :
    scalar.Value :=
  if image.kindAt? id = some scalar.kind then
    match image.number (id + tagSize) scalar.width with
    | .ok value => BitVec.ofNat _ value
    | .error _ => default
  else default

/-- The bytes that a binary record holds. -/
def binaryData? (image : Image) (id : Nat) : Option (List UInt8) :=
  if image.kindAt? id = some .binary then
    match image.number (id + tagSize) 4 with
    | .ok length => (image.slice (id + listHeaderSize) length).toOption
    | .error _ => none
  else none

/-- Fill a destination with the bytes of a binary record, from its tag on. The whole destination is
filled or nothing is. -/
def readBinary (image : Image) (id : Nat) : EStateM Error (List UInt8) Unit := do
  if image.kindAt? id = some .binary then
    let length := (← get).length
    if sizeLimit ≤ length then throw (.outOfRange id (sizeLimit - 1) image.size)
    let bytes ← ofExcept (image.slice id length)
    set bytes
  else throw (.typeMismatch (image.tagAt id) .binary)

end TagTree.Image

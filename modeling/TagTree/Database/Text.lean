import TagTree.Database

/-!
# Texts in a database

A string record holds its text; a string reference holds the place of a record in the string table,
counted from the beginning of the table. Either is resolved to the stretch of the image where the
text stands, terminator included, and everything else about texts is said of that stretch.
-/

namespace TagTree

/-- A stretch of an image. -/
structure Stretch where
  offset : Nat
  length : Nat
  deriving DecidableEq, Repr

namespace Database

/-- The offset so far behind another one, if it is a 32-bit number. -/
def offsetBehind (database : Database) (base distance : Nat) : Except Error Nat :=
  if base + distance < sizeLimit then .ok (base + distance)
  else .error (.outOfRange base distance database.image.size)

/-- The place of the record in the string table to which a reference leads. -/
def followReference (database : Database) (id : Nat) : Except Error Nat := do
  match database.stringTable with
  | none => throw (.notFound (.stringTable id))
  | some table =>
      let relative ← database.image.number (id + Image.tagSize) 4
      database.offsetBehind table relative

/-- Where the text of a string record or of a string reference stands. -/
def resolveString (database : Database) (id : Nat) : Except Error Stretch := do
  let raw ← database.image.number id Image.tagSize
  let tag := Tag.mk (UInt16.ofNat raw)
  let item ← match tag.kind? with
    | some .string => .ok id
    | some .stringRef => database.followReference id
    | _ => .error (.typeMismatch tag .string)
  let length ← database.image.number (← database.offsetBehind item Image.tagSize) 4
  let offset := item + Image.listHeaderSize
  let _ ← database.image.slice offset length
  return ⟨offset, length⟩

/-- The bytes of a text. -/
def stringBytes? (database : Database) (id : Nat) : Option (List UInt8) :=
  match database.resolveString id with
  | .ok found => (database.image.slice found.offset found.length).toOption
  | .error _ => none

/-- The text of a string record or of a string reference. -/
def string? (database : Database) (id : Nat) : Option String :=
  (database.stringBytes? id).map Text.Utf16.decode

/-- Copy the bytes of a text to the beginning of a destination and give their number. A destination
that is too short stays as it is. -/
def copyString (database : Database) (id : Nat) : EStateM Error (List UInt8) Nat := do
  let found ← ofExcept (database.resolveString id)
  let destination ← get
  if destination.length < found.length then
    throw (.bufferTooSmall found.length destination.length)
  let bytes ← ofExcept (database.image.slice found.offset found.length)
  set (bytes ++ destination.drop bytes.length)
  return found.length

/-- Copy the units of a text to the beginning of a destination and give their number. A text with an
odd number of bytes is refused before the destination is looked at. -/
def readString (database : Database) (id : Nat) : EStateM Error (List UInt16) Nat := do
  let found ← ofExcept (database.resolveString id)
  if found.length % 2 ≠ 0 then throw (.format (.oddText id found.length))
  let destination ← get
  if destination.length * 2 < found.length then
    throw (.bufferTooSmall found.length (destination.length * 2))
  let bytes ← ofExcept (database.image.slice found.offset found.length)
  let units := Text.Utf16.unitsOfBytes bytes
  set (units ++ destination.drop units.length)
  return found.length / 2

/-- The text of the first child with a tag. -/
def childString? (database : Database) (parent : Nat) (tag : Tag) : Option String :=
  (database.image.findFirst parent tag).bind database.string?

/-- The first child with a tag that has a certain text under a name tag. -/
def findNamed (database : Database) (parent : Nat) (tag nameTag : Tag) (name : String) :
    Option Nat :=
  (database.image.childrenTagged parent tag).find? fun child =>
    database.childString? child nameTag = some name

end Database

end TagTree

import TagTree.Database

/-!
# Writing records

Records are added at the end of the image. A writer first checks that the tag is of its kind and
then adds the parts of the record one after the other. When the image runs out of 32-bit places the
parts added so far stay.
-/

namespace TagTree

/-- What changes a database and may fail on the way. -/
abbrev Action := EStateM Error Database

namespace Database

/-- Refuse a tag of another kind. -/
def requireKind (tag : Tag) (kind : Kind) : Action Unit :=
  if tag.kind? = some kind then pure () else throw (.typeMismatch tag kind)

/-- The number of bytes of a text before its first zero character, if it has one. -/
def zeroIndex? (text : String) : Option Nat :=
  let before := text.toList.takeWhile (· ≠ '\x00')
  if '\x00' ∈ text.toList then some (String.ofList before).utf8ByteSize else none

/-- Refuse a text that would be cut short by a zero of its own. -/
def requireNoZero (text : String) : Action Unit :=
  match zeroIndex? text with
  | some index => throw (.format (.zeroInText index))
  | none => pure ()

/-- Add bytes at the end of the image. -/
def appendBytes (bytes : List UInt8) : Action Unit := fun database =>
  if room : database.image.HasRoom bytes.length then
    .ok () { database with image := database.image.extend bytes room }
  else .error (database.image.noRoom bytes.length) database

/-- Add a number of so many bytes. -/
def appendNumber (width value : Nat) : Action Unit :=
  appendBytes (LittleEndian.encode width value)

/-- Add a tag. -/
def appendTag (tag : Tag) : Action Unit :=
  appendNumber Image.tagSize tag.raw.toNat

/-- Add a tag, the length of some bytes, and the bytes. -/
def appendSized (tag : Tag) (payload : List UInt8) : Action Unit := do
  if sizeLimit ≤ payload.length then throw ((← get).image.noRoom payload.length)
  appendTag tag
  appendNumber 4 payload.length
  appendBytes payload

/-- Write a record without contents. -/
def writeNull (tag : Tag) : Action Unit := do
  requireKind tag .null
  appendTag tag

/-- Write a record that holds a number. -/
def writeScalar (scalar : Scalar) (tag : Tag) (value : scalar.Value) : Action Unit := do
  requireKind tag scalar.kind
  appendTag tag
  appendNumber scalar.width value.toNat

/-- Write a record that holds a text. -/
def writeString (tag : Tag) (text : String) : Action Unit := do
  requireKind tag .string
  requireNoZero text
  appendSized tag (Text.Utf16.encode text)

/-- Write a record that holds bytes. -/
def writeBinary (tag : Tag) (bytes : List UInt8) : Action Unit := do
  requireKind tag .binary
  appendSized tag bytes

/-- Write a record that holds the bytes of a file. -/
def writeBinaryFile (tag : Tag) (directory : Directory) (path : Path) : Action Unit := do
  requireKind tag .binary
  match directory.read path with
  | .ok bytes => appendSized tag bytes
  | .error fault => throw (.file fault)

/-- Write a reference to a text that will stand in the string table. Once the table has been written
no text can be added to it. -/
def writeInterned (tag : Tag) (text : String) : Action Unit := do
  requireKind tag .stringRef
  if (← get).stringTable.isSome then throw (.format .tableExists)
  requireNoZero text
  let (pool, offset) ← ofExcept ((← get).pool.intern text)
  modify fun database => { database with pool }
  writeScalar .stringRef tag (BitVec.ofNat _ offset)

/-- Open a list at the end of the image and give its place. Its length stays zero until it is
closed. -/
def beginList (tag : Tag) : Action Nat := do
  requireKind tag .list
  let start := (← get).image.size
  appendTag tag
  appendBytes (List.replicate 4 0)
  modify fun database => { database with openLists := start :: database.openLists }
  return start

/-- Take a list off the open ones without closing it, so that what was written after its beginning
stands behind it and not inside. -/
def dropList (id : Nat) : Action Unit :=
  modify fun database => { database with openLists := database.openLists.erase id }

/-- Replace a number of so many bytes inside the image. -/
def patchNumber (offset width value : Nat) : Action Unit := fun database =>
  if offset + width ≤ database.image.size then
    .ok () { database with
      image := database.image.replace offset (LittleEndian.encode width value) }
  else .error (.outOfRange offset width database.image.size) database

/-- Close a list, so that it claims everything written since its beginning. -/
def endList (id : Nat) : Action Unit := do
  let tag := (← get).image.tagAt id
  requireKind tag .list
  let size := (← get).image.size
  if id + Image.listHeaderSize ≤ size then
    patchNumber (id + Image.tagSize) 4 (size - id - Image.listHeaderSize)
    dropList id
  else throw (.outOfRange id Image.listHeaderSize size)

/-- Write the texts that wait for a string table as one, behind everything else, and give its place.
Nothing is written when no text waits, and no list may be open otherwise. -/
def commitStringTable : Action (Option Nat) := do
  let database ← get
  if database.pool.texts.isEmpty then return none
  if let some list := database.openLists.head? then throw (.format (.listOpen list))
  modify fun database => { database with pool := .empty }
  let table ← beginList .stringTable
  database.pool.texts.forM (writeString .stringTableItem)
  endList table
  modify fun database => { database with stringTable := some table }
  return some table

end Database

end TagTree

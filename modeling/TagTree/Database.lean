import TagTree.Directory.Handle
import TagTree.Image.Children
import TagTree.Image.Value
import TagTree.StringPool

/-!
# Databases

A database is an image together with what is kept beside it while it is read and written: its
header, the place of its string table, the texts that wait for one, and the lists that are not yet
closed. Making one from bytes checks the header and looks for the string table among the records at
the top.
-/

namespace TagTree

/-- What a new database begins with. -/
structure Config where
  header : Header := ⟨Header.supportedMajor, 1⟩
  capacity : Nat := Image.defaultCapacity
  deriving Repr

/-- An image and what is kept beside it. The innermost open list stands first. -/
structure Database where
  image : Image
  file : Option Handle
  header : Header
  stringTable : Option Nat
  pool : StringPool
  openLists : List Nat

namespace Database

/-- A database without records and without a file. -/
def inMemory (config : Config) : Database where
  image := (Image.withCapacity config.capacity).extend config.header.encode
    (Image.hasRoom_withCapacity _ (by rw [Header.length_encode]; decide))
  file := none
  header := config.header
  stringTable := none
  pool := .empty
  openLists := []

@[simp] theorem toList_inMemory (config : Config) :
    (inMemory config).image.toList = config.header.encode := by
  simp [inMemory]

/-- The first string table among the records at the top. -/
def locateStringTable (image : Image) : Option Nat :=
  image.findFirst Image.root .stringTable

/-- The database that some bytes make up. -/
def ofBytes (bytes : List UInt8) : Except Error Database := do
  let header ← Header.parse bytes
  if header.major ≠ Header.supportedMajor then throw (.format (.unsupportedVersion header.major))
  let image ← Image.ofList bytes
  return {
    image
    file := none
    header
    stringTable := locateStringTable image
    pool := .empty
    openLists := [] }

end Database

end TagTree

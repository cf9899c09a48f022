import TagTree.Directory
import TagTree.Image

/-!
# Open files

A handle stands for a file that has been opened: where it is, whether it may be written, and the
cursor at which the next read or write begins. Reading a whole file starts at its beginning, and so
does writing, after the file has been emptied; so the place of the cursor never shows.
-/

namespace TagTree

/-- An open file. -/
structure Handle where
  path : Path
  location : Location
  writable : Bool
  cursor : Nat
  deriving DecidableEq, Repr

namespace Handle

/-- Open what is at the end of a path for reading. -/
def openRead (directory : Directory) (path : Path) : Except Error Handle :=
  match directory.find path with
  | .ok (location, _) => .ok ⟨path, location, false, 0⟩
  | .error fault => .error (.file fault)

/-- Make or empty the file at the end of a path and open it for reading and writing. -/
def create (directory : Directory) (path : Path) : Except Error (Directory × Handle) :=
  match directory.create path with
  | .ok (directory, location) => .ok (directory, ⟨path, location, true, 0⟩)
  | .error fault => .error (.file fault)

/-- Put the cursor at an offset. -/
def seek (handle : Handle) (offset : Nat) : Handle :=
  { handle with cursor := offset }

/-- Read up to so many bytes from the cursor on and put the cursor behind them. -/
def read (handle : Handle) (contents : List UInt8) (count : Nat) : List UInt8 × Handle :=
  let bytes := (contents.drop handle.cursor).take count
  (bytes, handle.seek (handle.cursor + bytes.length))

/-- Write bytes at the cursor, over what is there, and put the cursor behind them. A gap before the
cursor is filled with zeros. -/
def write (handle : Handle) (contents bytes : List UInt8) : List UInt8 × Handle :=
  let gap := List.replicate (handle.cursor - contents.length) 0
  let behind := contents.drop (handle.cursor + bytes.length)
  (contents.take handle.cursor ++ gap ++ bytes ++ behind,
    handle.seek (handle.cursor + bytes.length))

/-- The bytes of an open file; a folder has none to read. -/
def contents (handle : Handle) (directory : Directory) : Except Error (List UInt8) :=
  match directory.entryAt? handle.location with
  | some (.file contents) => .ok contents
  | some .folder => .error (.file .isDirectory)
  | none => .error (.file .noSuchFile)

/-- Read the whole file. -/
def readAll (handle : Handle) (directory : Directory) : Except Error (List UInt8 × Handle) := do
  let contents ← handle.contents directory
  if sizeLimit ≤ contents.length then throw (.format (.fileTooLarge contents.length))
  return (handle.seek 0).read contents contents.length

/-- Read up to so many bytes from the beginning. -/
def readPrefix (handle : Handle) (directory : Directory) (count : Nat) :
    Except Error (List UInt8 × Handle) := do
  if count = 0 then return ([], handle.seek 0)
  let contents ← handle.contents directory
  return (handle.seek 0).read contents count

/-- Empty the file and write bytes into it. -/
def writeAll (handle : Handle) (directory : Directory) (bytes : List UInt8) :
    Except Error (Directory × Handle) := do
  if !handle.writable then throw (.file (.readOnly handle.path))
  let (contents, handle) := (handle.seek 0).write [] bytes
  match handle.location with
  | .below names => return (directory.insert names (.file contents), handle)
  | _ => throw (.file .noSuchFile)

end Handle

end TagTree

import TagTree.Error

/-!
# Directories

A directory with everything below it, as far as files and names go. Paths are followed from it
segment by segment: `.` stays, `..` goes up, a name goes down, and only a directory can be gone
through. Nothing is known of what lies above the directory except that it consists of directories.
-/

namespace TagTree

/-- What a name leads to. -/
inductive Entry where
  | file (contents : List UInt8)
  | folder
  deriving DecidableEq, Repr

/-- The files below a directory and the folders without any, by the names on the way to them. -/
structure Directory where
  entries : List (List Segment × Entry)
  deriving Repr

/-- Where following a path leads: to the place with certain names below the directory, to a
directory above it, or to a name in one of those, of which nothing is known. -/
inductive Location where
  | below (names : List Segment)
  | above
  | elsewhere
  deriving DecidableEq, Repr

namespace Location

/-- Follow one segment. -/
def follow : Location → Segment → Location
  | below names, segment =>
      if segment = [Path.dot] then below names
      else if segment = [Path.dot, Path.dot] then
        if names = [] then above else below names.dropLast
      else below (names ++ [segment])
  | above, segment =>
      if segment = [Path.dot] ∨ segment = [Path.dot, Path.dot] then above else elsewhere
  | elsewhere, _ => elsewhere

end Location

namespace Directory

/-- A directory without entries. -/
def empty : Directory := ⟨[]⟩

/-- The entry at the end of some names. Every place on the way to an entry is a folder. -/
def lookup (directory : Directory) (names : List Segment) : Option Entry :=
  match directory.entries.find? (·.1 = names) with
  | some (_, entry) => some entry
  | none =>
      if names = [] ∨ directory.entries.any (fun entry => names.isPrefixOf entry.1) then
        some .folder
      else none

/-- The entry at a location. -/
def entryAt? (directory : Directory) : Location → Option Entry
  | .below names => directory.lookup names
  | .above => some .folder
  | .elsewhere => none

/-- Put an entry at the end of some names, in place of what was there. -/
def insert (directory : Directory) (names : List Segment) (entry : Entry) : Directory :=
  ⟨(names, entry) :: directory.entries.filter (·.1 ≠ names)⟩

/-- Go through a folder and on to what follows it. -/
def follow (directory : Directory) (location : Location) (segment : Segment) :
    Except FileFault Location :=
  match directory.entryAt? location with
  | some .folder => .ok (location.follow segment)
  | some (.file _) => .error .notDirectory
  | none => .error .noSuchFile

/-- The parts of a path that are not empty. -/
def parts (path : Path) : List Segment :=
  (Path.cut path.bytes).filter (· ≠ [])

/-- Whether the last thing in a path is a slash. -/
def endsInSlash (path : Path) : Bool :=
  path.bytes.getLast? = some Path.slash

/-- The location of a path, which may be that of nothing, and what is there. -/
def resolve (directory : Directory) (path : Path) : Except FileFault (Location × Option Entry) :=
  if path.bytes = [] then .error .noSuchFile
  else do
    let start := if path.isAbsolute then Location.above else Location.below []
    let location ← (parts path).foldlM directory.follow start
    return (location, directory.entryAt? location)

/-- The location and entry of a path that leads to something. -/
def find (directory : Directory) (path : Path) : Except FileFault (Location × Entry) := do
  match ← directory.resolve path with
  | (_, none) => throw .noSuchFile
  | (location, some .folder) => return (location, .folder)
  | (location, some (.file contents)) =>
      if endsInSlash path then throw .notDirectory else return (location, .file contents)

/-- Whether a path leads to something. -/
def holds (directory : Directory) (path : Path) : Bool :=
  (directory.find path).isOk

/-- The contents of the file at the end of a path. -/
def read (directory : Directory) (path : Path) : Except FileFault (List UInt8) := do
  match ← directory.find path with
  | (_, .file contents) => return contents
  | (_, .folder) => throw .isDirectory

/-- The number of bytes that is given for a folder. -/
def folderSize : Nat := 4096

/-- The number of bytes of what is at the end of a path. -/
def size (directory : Directory) (path : Path) : Except FileFault Nat := do
  match ← directory.find path with
  | (_, .file contents) => return contents.length
  | (_, .folder) => return folderSize

/-- Make an empty file at the end of a path, or empty the one that is there. A path that can only
be that of a folder is refused. -/
def create (directory : Directory) (path : Path) :
    Except FileFault (Directory × Location) := do
  match ← directory.resolve path with
  | (_, some .folder) => throw .isDirectory
  | (.below names, _) =>
      if endsInSlash path then throw .isDirectory
      else return (directory.insert names (.file []), .below names)
  | _ => throw .noSuchFile

/-- Make a folder at a location below, unless something is there. -/
def makeFolder (directory : Directory) : Location → Directory
  | .below names =>
      if (directory.lookup names).isSome then directory else directory.insert names .folder
  | _ => directory

/-- Follow segments from a location, with a folder made wherever one has to be gone through. -/
def makeWay (directory : Directory) (location : Location) :
    List Segment → Directory × Location
  | [] => (directory, location)
  | segment :: rest => makeWay (directory.makeFolder location) (location.follow segment) rest

/-- Put a file with some contents at the end of a path, or a folder where none are given, and make
the folders on the way. -/
def put (directory : Directory) (path : Path) (contents : Option (List UInt8)) : Directory :=
  match directory.makeWay (.below []) (parts path), contents with
  | (directory, .below names), some contents => directory.insert names (.file contents)
  | (directory, location), none => directory.makeFolder location
  | (directory, _), some _ => directory

/-- The directory that comes about when files and folders are put into it one after the other. -/
def ofEntries (entries : List (Path × Option (List UInt8))) : Directory :=
  entries.foldl (fun directory (path, contents) => directory.put path contents) empty

end Directory

end TagTree

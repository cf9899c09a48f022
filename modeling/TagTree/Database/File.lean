import TagTree.Database.Write

/-!
# Databases in files

A database is read from a file as a whole and is written back as a whole when it is closed. Only one
that was made together with its file can be written back. The version can also be read alone, from
the first bytes of a file; then it need not be a supported one.
-/

namespace TagTree.Database

/-- The database in the file at the end of a path. -/
def openFile (directory : Directory) (path : Path) : Except Error Database := do
  let handle ← Handle.openRead directory path
  let (bytes, handle) ← handle.readAll directory
  let database ← ofBytes bytes
  return { database with file := some handle }

/-- A new database with a file at the end of a path, which is made or emptied. -/
def create (directory : Directory) (path : Path) (config : Config) :
    Except Error (Directory × Database) := do
  let (directory, handle) ← Handle.create directory path
  return (directory, { inMemory config with file := some handle })

/-- The version of the database in the file at the end of a path. -/
def version (directory : Directory) (path : Path) : Except Error Header := do
  let handle ← Handle.openRead directory path
  let (bytes, _) ← handle.readPrefix directory Header.size
  Header.parse bytes

/-- Write the string table, and then all of the image to the file. -/
def closeAndFlush (database : Database) (directory : Directory) : Except Error Directory :=
  match commitStringTable.run database with
  | .error cause _ => .error cause
  | .ok _ database =>
      match database.file with
      | none => .error (.notFound .backingFile)
      | some handle => (handle.writeAll directory database.image.toList).map (·.1)

end TagTree.Database

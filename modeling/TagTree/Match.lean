import TagTree.Database.Text

/-!
# Matching executables

A database describes executables by entries in its list of all entries. An entry matches a file when
it has the file's name and everything that it says must be there is found in the file's directory.
The first entry that matches is taken. What is known of files comes from a provider, which may do
anything to find out.
-/

namespace TagTree

/-- A text that describes a version of a file. -/
inductive VersionField where
  | companyName
  | fileDescription
  | fileVersion
  | internalName
  | legalCopyright
  | originalFilename
  | productName
  | productVersion
  deriving DecidableEq, Repr

namespace VersionField

/-- All version fields. -/
def all : List VersionField :=
  [companyName, fileDescription, fileVersion, internalName, legalCopyright, originalFilename,
    productName, productVersion]

/-- The key under which a version field is stored. -/
def key : VersionField → String
  | companyName => "CompanyName"
  | fileDescription => "FileDescription"
  | fileVersion => "FileVersion"
  | internalName => "InternalName"
  | legalCopyright => "LegalCopyright"
  | originalFilename => "OriginalFilename"
  | productName => "ProductName"
  | productVersion => "ProductVersion"

end VersionField

/-- What is known of a file. -/
structure FileAttributes where
  size : Option UInt64 := none
  peChecksum : Option UInt32 := none
  linkDate : Option UInt32 := none
  versionStrings : List (VersionField × String) := []
  deriving DecidableEq, Repr

/-- A source of knowledge about files. -/
structure Provider (m : Type → Type) where
  holds : Path → m Bool
  attributes : Path → m (Option FileAttributes)

/-- An entry that matches, the list in which it was found, and what is known of the file. -/
structure Match where
  database : Nat
  exe : Nat
  attributes : FileAttributes
  deriving DecidableEq, Repr

namespace Database

/-- The name of an entry. -/
def entryName? (database : Database) (list : Nat) : Option String :=
  database.childString? list .name

variable {m : Type → Type} [Monad m]

/-- Whether a file that an entry asks for is there. One without a name never is. -/
def isPresent (database : Database) (provider : Provider m) (directory : Path)
    (matchingFile : Nat) : m Bool :=
  match database.entryName? matchingFile with
  | some name => provider.holds (directory.join (Path.ofString name))
  | none => pure false

/-- Whether an entry has a name and all files that it asks for are there. The files are asked for in
order and only up to the first that is missing. -/
def entryMatches (database : Database) (provider : Provider m) (fileName : String)
    (directory : Path) (exe : Nat) : m Bool :=
  if database.entryName? exe = some fileName then
    (database.image.childrenTagged exe .matchingFile).allM
      (database.isPresent provider directory)
  else pure false

/-- The first entry that matches the file at the end of a path. -/
def findMatch (database : Database) (provider : Provider m) (path : Path) :
    m (Except Error Match) := do
  match path.fileName?.bind Text.Utf8.decode? with
  | none => return .error (.notFound (.fileName path))
  | some fileName =>
      let attributes := (← provider.attributes path).getD {}
      match database.image.findFirst Image.root .database with
      | none => return .error (.notFound .databaseList)
      | some list =>
          let entries := database.image.childrenTagged list .exe
          match ← entries.findM? (database.entryMatches provider fileName path.directory) with
          | some exe => return .ok ⟨list, exe, attributes⟩
          | none => return .error (.notFound (.matchingEntry path))

end Database

/-- A provider that answers by two functions of the path and keeps the list of the paths whose
presence it was asked for, the last one first. -/
def Provider.recording (isHeld : Path → Bool) (attributes : Path → Option FileAttributes) :
    Provider (StateM (List Path)) where
  holds path := do
    modify (path :: ·)
    return isHeld path
  attributes path := return attributes path

/-- A provider that knows the files below a directory and the size of each. -/
def Provider.ofDirectory (directory : Directory) : Provider Id where
  holds path := directory.holds path
  attributes path :=
    match directory.size path with
    | .ok size => some { size := some (UInt64.ofNat size) }
    | .error _ => none

end TagTree

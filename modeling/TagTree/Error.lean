import TagTree.Path
import TagTree.Tag

/-!
# Errors

What can go wrong, by cause. Each cause carries the numbers and names that its wording needs. A record
is named by its place, which is the number of bytes before it.
-/

namespace TagTree

/-- Why the file system refuses. -/
inductive FileFault where
  | noSuchFile
  | notDirectory
  | isDirectory
  | readOnly (path : Path)
  | other (reason : String)
  deriving DecidableEq, Repr

/-- What is wrong with the form of a database or of what should become part of it. -/
inductive Defect where
  | truncatedHeader (size : Nat)
  | badMagic (bytes : List UInt8)
  | unsupportedVersion (major : UInt32)
  | imageTooLarge (size : Nat)
  | fileTooLarge (size : Nat)
  | zeroInText (index : Nat)
  | tableExists
  | oddText (record : Nat) (length : Nat)
  | listOpen (list : Nat)
  deriving DecidableEq, Repr

/-- What was looked for and is not there. -/
inductive Missing where
  | stringTable (reference : Nat)
  | backingFile
  | databaseList
  | fileName (path : Path)
  | matchingEntry (path : Path)
  deriving DecidableEq, Repr

/-- Why an operation on a database fails. -/
inductive Error where
  | file (fault : FileFault)
  | format (defect : Defect)
  | typeMismatch (tag : Tag) (expected : Kind)
  | outOfRange (offset length size : Nat)
  | notFound (missing : Missing)
  | bufferTooSmall (required available : Nat)
  deriving DecidableEq, Repr

end TagTree

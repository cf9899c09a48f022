import TagTree.CommandLine

/-!
# The program

The command line on the files of the system.
-/

namespace TagTree

/-- A refusal by the system in the terms of the library. -/
def FileFault.ofSystem (error : IO.Error) : FileFault :=
  match error with
  | .noFileOrDirectory .. => .noSuchFile
  | .inappropriateType _ code _ => if code = 20 then .notDirectory else .isDirectory
  | error => .other (toString error)

/-- The bytes of a file of the system. -/
def readSystemFile (path : Path) : IO (Except FileFault (List UInt8)) := do
  try
    let bytes ← IO.FS.readBinFile path.display
    return .ok bytes.toList
  catch error => return .error (.ofSystem error)

/-- Whether the system has something at the end of a path. It need not be readable: to follow the
path to its end is enough. -/
def isInSystem (path : Path) : IO Bool := do
  try
    let _ ← IO.FS.realPath path.display
    return true
  catch _ => return false

/-- The files of the system. -/
def systemFiles : CommandLine.FileSource IO where
  read := readSystemFile
  provider := { holds := isInSystem, attributes := fun _ => return none }

/-- What is shown to a user who asks for help or has gone wrong. -/
def usage : String :=
  "usage: tagtree [-d] dump PATH | version PATH | tag-name TAG | match DATABASE EXECUTABLE"

end TagTree

/-- Run the command line and end with its code. -/
def main (words : List String) : IO UInt32 := do
  let outcome ← TagTree.CommandLine.run TagTree.systemFiles words
  IO.print outcome.output
  match outcome with
  | .failed report => IO.eprint report
  | .help => IO.println TagTree.usage
  | .misuse => IO.eprintln TagTree.usage
  | .printed _ => pure ()
  return UInt32.ofNat outcome.code

import TagTree.Error

/-!
# Wording of errors

The text that is shown for each cause.
-/

namespace TagTree

/-- The wording of a refusal by the file system. -/
def FileFault.message : FileFault → String
  | .noSuchFile => "No such file or directory (os error 2)"
  | .notDirectory => "Not a directory (os error 20)"
  | .isDirectory => "Is a directory (os error 21)"
  | .readOnly path => "database file " ++ path.quoted ++ " was opened read-only"
  | .other reason => reason

/-- The wording of a defect. -/
def Defect.message : Defect → String
  | .truncatedHeader size => s!"truncated header: {size} bytes"
  | .badMagic bytes =>
      "invalid magic [" ++
        ", ".intercalate (bytes.map fun byte => Numeral.paddedHex 2 byte.toNat) ++ "]"
  | .unsupportedVersion major => s!"unsupported major version {major}"
  | .imageTooLarge size => s!"database image is too large ({size} bytes)"
  | .fileTooLarge size => s!"database file is too large ({size} bytes)"
  | .zeroInText index => s!"string contains NUL at byte {index}"
  | .tableExists => "database already has a string table"
  | .oddText record length => "string at " ++ Numeral.place record ++ s!" has odd byte length {length}"
  | .listOpen list => "cannot write the string table while list " ++ Numeral.place list ++ " is open"

/-- The wording of what is missing. -/
def Missing.message : Missing → String
  | .stringTable reference => "string table for stringref at " ++ Numeral.place reference
  | .backingFile => "backing file"
  | .databaseList => "DATABASE list"
  | .fileName path => "file name in " ++ path.quoted
  | .matchingEntry path => "EXE entry matching " ++ path.quoted

/-- The wording of an error. -/
def Error.message : Error → String
  | .file fault => "IO error: " ++ fault.message
  | .format defect => "Invalid database format: " ++ defect.message
  | .typeMismatch tag expected =>
      "Type mismatch: tag " ++ tag.display ++ " is not of type " ++ expected.name
  | .outOfRange offset length size =>
      s!"Out of range: {length} bytes at offset {offset} (size: {size})"
  | .notFound missing => "Not found: " ++ missing.message
  | .bufferTooSmall required available =>
      s!"Buffer too small: requires {required} bytes but only {available} available"

/-- The causes of an error, from the outermost in, each in its own wording. A refusal by the file
system has a cause of its own. -/
def Error.causes (error : Error) : List String :=
  match error with
  | .file fault => [error.message, fault.message]
  | _ => [error.message]

end TagTree

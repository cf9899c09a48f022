import TagTree.Text.Quoted
import TagTree.Text.Utf8

/-!
# Paths

A path is a sequence of bytes in which slashes separate segments. A leading slash makes it absolute.
Repeated slashes and `.` segments after the beginning name nothing, so a path may end in them
without changing its last name.
-/

namespace TagTree

/-- The name of a file, or of a directory on the way to it. -/
abbrev Segment := List UInt8

/-- The place of a file as it is written. -/
structure Path where
  bytes : List UInt8
  deriving DecidableEq, Repr

namespace Path

/-- The byte between segments. -/
def slash : UInt8 := 0x2F

/-- The byte that makes up `.` and `..`. -/
def dot : UInt8 := 0x2E

/-- The path written as the given text. -/
def ofString (text : String) : Path :=
  ⟨Text.Utf8.encode text⟩

/-- The path as text, with a replacement character for each part that is no text. -/
def display (path : Path) : String :=
  Text.Utf8.display path.bytes

/-- The path in double quotes. -/
def quoted (path : Path) : String :=
  Text.Quoted.ofBytes path.bytes

/-- Cut bytes at every slash. There is one part more than there are slashes. -/
def cut : List UInt8 → List Segment
  | [] => [[]]
  | byte :: rest =>
      if byte = slash then [] :: cut rest
      else
        match cut rest with
        | [] => [[byte]]
        | part :: parts => (byte :: part) :: parts

/-- Whether a segment names nothing: it is empty or a single dot. -/
def isVoid (segment : Segment) : Bool :=
  segment == [] || segment == [dot]

/-- The segments without those that name nothing at the end. -/
def trim (segments : List Segment) : List Segment :=
  (segments.reverse.dropWhile isVoid).reverse

/-- The segments written with slashes between them. -/
def glue (segments : List Segment) : List UInt8 :=
  [slash].intercalate segments

/-- The slash of an absolute path, the dot of a path that begins with a `.` segment, or nothing. -/
def head (path : Path) : List UInt8 :=
  match path.bytes with
  | [] => []
  | [byte] => if byte = slash ∨ byte = dot then [byte] else []
  | byte :: next :: _ => if byte = slash ∨ byte = dot ∧ next = slash then [byte] else []

/-- The segments after the head, up to the last that names something. -/
def segments (path : Path) : List Segment :=
  trim (cut (path.bytes.drop path.head.length))

/-- The last segment, unless it leads to the directory above. -/
def fileName? (path : Path) : Option Segment :=
  match path.segments.getLast? with
  | some name => if name = [dot, dot] then none else some name
  | none => none

/-- What stands before the last segment. -/
def directory (path : Path) : Path :=
  ⟨path.head ++ glue (trim path.segments.dropLast)⟩

/-- Whether a path starts at the top of the file system. -/
def isAbsolute (path : Path) : Bool :=
  path.bytes.head? == some slash

/-- A path followed from a directory. An absolute path stays as it is, and a slash is put in
between unless the directory is empty or ends in one. -/
def join (directory path : Path) : Path :=
  if path.isAbsolute then path
  else if directory.bytes.getLast?.all (· == slash) then ⟨directory.bytes ++ path.bytes⟩
  else ⟨directory.bytes ++ slash :: path.bytes⟩

theorem cut_ne_nil (bytes : List UInt8) : cut bytes ≠ [] := by
  cases bytes with
  | nil => simp [cut]
  | cons byte rest =>
      simp only [cut]
      split
      · simp
      · split <;> simp

/-- Writing the parts back with slashes between them gives the bytes that were cut. -/
theorem glue_cut (bytes : List UInt8) : glue (cut bytes) = bytes := by
  induction bytes with
  | nil => rfl
  | cons byte rest ih =>
      cases parts : cut rest with
      | nil => exact absurd parts (cut_ne_nil rest)
      | cons part others =>
          have step : glue (cut (byte :: rest)) = byte :: glue (part :: others) := by
            by_cases isSlash : byte = slash
            · simp [cut, isSlash, parts, glue, List.intercalate]
            · cases others <;> simp [cut, isSlash, parts, glue, List.intercalate]
          rw [step, ← parts, ih]

/-- No part of a cut holds a slash. -/
theorem slash_notMem_of_mem_cut {bytes : List UInt8} {part : Segment} (member : part ∈ cut bytes) :
    slash ∉ part := by
  induction bytes generalizing part with
  | nil =>
      cases List.mem_singleton.mp member
      exact List.not_mem_nil
  | cons byte rest ih =>
      by_cases isSlash : byte = slash
      · simp only [cut, isSlash, if_true, List.mem_cons] at member
        rcases member with rfl | member
        · simp
        · exact ih member
      · cases parts : cut rest with
        | nil => exact absurd parts (cut_ne_nil rest)
        | cons first others =>
            simp only [cut, isSlash, if_false, parts, List.mem_cons] at member ih
            rcases member with rfl | member
            · have firstFree := ih (.inl rfl)
              simp [firstFree, Ne.symm isSlash]
            · exact ih (.inr member)

end Path

end TagTree

import TagTree.Numeral

/-!
# Tags

Every record begins with a 16-bit tag. Its top four bits give the kind of the record, the next four
an extension, and the low byte an identifier within kind and extension. Nine of the sixteen kinds
are in use.
-/

namespace TagTree

/-- What a record holds. -/
inductive Kind where
  | null
  | byte
  | word
  | dword
  | qword
  | stringRef
  | list
  | string
  | binary
  deriving DecidableEq, Repr

namespace Kind

/-- All kinds in the order of their codes. -/
def all : List Kind :=
  [null, byte, word, dword, qword, stringRef, list, string, binary]

/-- The top four bits of the tags of a kind. -/
def code : Kind → Nat
  | null => 1
  | byte => 2
  | word => 3
  | dword => 4
  | qword => 5
  | stringRef => 6
  | list => 7
  | string => 8
  | binary => 9

/-- The kind with a code, if it is in use. -/
def ofCode? (code : Nat) : Option Kind :=
  all.find? (·.code = code)

/-- The tag of a kind without extension and identifier. -/
def selector (kind : Kind) : UInt16 :=
  UInt16.ofNat (kind.code * 0x1000)

/-- The name of a kind. -/
def name : Kind → String
  | null => "Null"
  | byte => "Byte"
  | word => "Word"
  | dword => "Dword"
  | qword => "Qword"
  | stringRef => "StringRef"
  | list => "List"
  | string => "String"
  | binary => "Binary"

/-- The number of bytes of every record of a kind, its tag included. Lists, strings and binary
records say their own length. -/
def fixedSize? : Kind → Option Nat
  | null => some 2
  | byte => some 3
  | word => some 4
  | dword => some 6
  | qword => some 10
  | stringRef => some 6
  | list | string | binary => none

@[simp] theorem ofCode?_code (kind : Kind) : ofCode? kind.code = some kind := by
  cases kind <;> rfl

theorem mem_all (kind : Kind) : kind ∈ all := by
  cases kind <;> decide

theorem bounds_of_fixedSize? {size : Nat} (kind : Kind) (fixed : kind.fixedSize? = some size) :
    2 ≤ size ∧ size ≤ 10 := by
  cases kind <;> cases fixed <;> decide

end Kind

/-- The kinds whose records hold one number. -/
inductive Scalar where
  | byte
  | word
  | dword
  | qword
  | stringRef
  deriving DecidableEq, Repr

namespace Scalar

/-- The kind of the records that hold such a number. -/
def kind : Scalar → Kind
  | byte => .byte
  | word => .word
  | dword => .dword
  | qword => .qword
  | stringRef => .stringRef

/-- The number of bytes of the number. -/
def width : Scalar → Nat
  | byte => 1
  | word => 2
  | dword => 4
  | qword => 8
  | stringRef => 4

/-- The numbers that a record can hold. -/
abbrev Value (scalar : Scalar) : Type :=
  BitVec (8 * scalar.width)

/-- A record of such a kind is its tag and its number. -/
theorem fixedSize?_kind (scalar : Scalar) : scalar.kind.fixedSize? = some (2 + scalar.width) := by
  cases scalar <;> rfl

theorem kind_injective {left right : Scalar} (equal : left.kind = right.kind) : left = right := by
  cases left <;> cases right <;> cases equal <;> rfl

end Scalar

/-- The first two bytes of a record. -/
structure Tag where
  raw : UInt16
  deriving DecidableEq, Repr

namespace Tag

/-- The tag of a kind whose lower bits are the given ones. -/
def ofKind (kind : Kind) (low : UInt16) : Tag :=
  ⟨kind.selector ||| low⟩

/-- The kind of the tag's records, if it is one in use. -/
def kind? (tag : Tag) : Option Kind :=
  Kind.ofCode? (tag.raw.toNat / 0x1000)

/-- The four bits below the kind. -/
def extension (tag : Tag) : Nat :=
  tag.raw.toNat / 0x100 % 0x10

/-- The low byte. -/
def identifier (tag : Tag) : Nat :=
  tag.raw.toNat % 0x100

/-- The tag that is given where none can be read. -/
def null : Tag := ⟨0⟩

/-- The list of all entries of a database. -/
def database : Tag := ⟨0x7001⟩

/-- The list that describes one executable. -/
def exe : Tag := ⟨0x7007⟩

/-- The list that describes a file which has to be there for its executable to match. -/
def matchingFile : Tag := ⟨0x7008⟩

/-- The reference to the name of the list around it. -/
def name : Tag := ⟨0x6001⟩

/-- The list of texts that references point into. -/
def stringTable : Tag := ⟨0x7801⟩

/-- A text in the string table. -/
def stringTableItem : Tag := ⟨0x8801⟩

/-- The tag as a number in base sixteen with four digits. -/
def display (tag : Tag) : String :=
  "0x" ++ Numeral.paddedHex 4 tag.raw.toNat

/-- Read a tag from text: a number below `65536`, in base sixteen after `0x` or `0X` and in base
ten otherwise. -/
def parse (text : String) : Except Numeral.Fault Tag :=
  let read (base : Nat) (digits : List Char) :=
    (Numeral.parse base 65536 digits).map fun number => Tag.mk (UInt16.ofNat number)
  match text.toList with
  | '0' :: 'x' :: digits | '0' :: 'X' :: digits => read 16 digits
  | digits => read 10 digits

end Tag

end TagTree

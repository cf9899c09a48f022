import TagTree.Error
import TagTree.LittleEndian

/-!
# Headers

A database begins with twelve bytes: its major and its minor version, each a number of four bytes,
and the four letters `sdbf`. `parse_encode_append` says that a header is read back whatever follows
it.
-/

namespace TagTree

/-- The version of a database. -/
structure Header where
  major : UInt32
  minor : UInt32
  deriving DecidableEq, Repr

namespace Header

/-- The number of bytes before the first record. -/
def size : Nat := 12

/-- The letters that mark a database. -/
def magic : List UInt8 := [0x73, 0x64, 0x62, 0x66]

/-- The only major version whose records can be read. -/
def supportedMajor : UInt32 := 2

/-- The header as bytes. -/
def encode (header : Header) : List UInt8 :=
  LittleEndian.encode 4 header.major.toNat ++ LittleEndian.encode 4 header.minor.toNat ++ magic

/-- Read the header at the beginning of some bytes. Any version is accepted. -/
def parse (bytes : List UInt8) : Except Error Header :=
  if bytes.length < size then .error (.format (.truncatedHeader bytes.length))
  else
    let mark := (bytes.drop 8).take 4
    if mark = magic then
      .ok {
        major := UInt32.ofNat (LittleEndian.decode (bytes.take 4))
        minor := UInt32.ofNat (LittleEndian.decode ((bytes.drop 4).take 4)) }
    else .error (.format (.badMagic mark))

@[simp] theorem length_encode (header : Header) : header.encode.length = size := by
  simp [encode, magic, size]

/-- A header is read back from its bytes, whatever follows them. -/
theorem parse_encode_append (header : Header) (rest : List UInt8) :
    parse (header.encode ++ rest) = .ok header := by
  have majorLt : header.major.toNat < LittleEndian.span 4 := header.major.toNat_lt
  have minorLt : header.minor.toNat < LittleEndian.span 4 := header.minor.toNat_lt
  have first : (header.encode ++ rest).take 4 = LittleEndian.encode 4 header.major.toNat := by
    simp [encode]
  have second :
      ((header.encode ++ rest).drop 4).take 4 = LittleEndian.encode 4 header.minor.toNat := by
    simp [encode]
  have mark : ((header.encode ++ rest).drop 8).take 4 = magic := by
    have fields : (LittleEndian.encode 4 header.major.toNat ++
        LittleEndian.encode 4 header.minor.toNat).length = 8 := by simp
    rw [encode, List.append_assoc, List.drop_left' fields]
    rfl
  have long : ¬(header.encode ++ rest).length < size := by
    simp
  simp only [parse, long, if_false, first, second, mark, if_true, LittleEndian.decode_encode]
  rw [Nat.mod_eq_of_lt majorLt, Nat.mod_eq_of_lt minorLt, UInt32.ofNat_toNat,
    UInt32.ofNat_toNat]

end Header

end TagTree

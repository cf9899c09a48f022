import TagTree.LittleEndian

/-!
# UTF-16 text

Stored text is a sequence of 16-bit units, each written as two little-endian bytes and closed by a
zero unit. A character beyond the basic plane takes a high and a low surrogate unit. Reading stops
at the first zero unit and puts a replacement character for every surrogate unit without a partner;
the unit after it is read anew.
-/

namespace TagTree.Text.Utf16

/-- The first half of a surrogate pair. -/
def isHigh (unit : UInt16) : Bool :=
  0xD800 ≤ unit && unit < 0xDC00

/-- The second half of a surrogate pair. -/
def isLow (unit : UInt16) : Bool :=
  0xDC00 ≤ unit && unit < 0xE000

/-- The units of one character. -/
def unitsOfChar (char : Char) : List UInt16 :=
  if char.toNat < 0x10000 then [UInt16.ofNat char.toNat]
  else
    [UInt16.ofNat (0xD800 + (char.toNat - 0x10000) / 0x400),
      UInt16.ofNat (0xDC00 + (char.toNat - 0x10000) % 0x400)]

/-- The units of a text, without a terminator. -/
def units (text : List Char) : List UInt16 :=
  text.flatMap unitsOfChar

/-- The character of a unit that is not half of a pair. -/
def charOfUnit (unit : UInt16) : Char :=
  if isHigh unit || isLow unit then '\uFFFD' else Char.ofNat unit.toNat

/-- The character of a surrogate pair. -/
def charOfPair (high low : UInt16) : Char :=
  Char.ofNat (0x10000 + (high.toNat - 0xD800) * 0x400 + (low.toNat - 0xDC00))

/-- The text of a sequence of units. -/
def ofUnits : List UInt16 → List Char
  | [] => []
  | [unit] => [charOfUnit unit]
  | unit :: next :: rest =>
      if isHigh unit && isLow next then charOfPair unit next :: ofUnits rest
      else charOfUnit unit :: ofUnits (next :: rest)

/-- Two bytes for every unit. -/
def bytesOfUnits (units : List UInt16) : List UInt8 :=
  units.flatMap fun unit => LittleEndian.encode 2 unit.toNat

/-- One unit for every two bytes; a last odd byte is left out. -/
def unitsOfBytes : List UInt8 → List UInt16
  | low :: high :: rest =>
      UInt16.ofNat (LittleEndian.decode [low, high]) :: unitsOfBytes rest
  | _ => []

/-- The stored form of a text: its units and a zero unit. -/
def encode (text : String) : List UInt8 :=
  bytesOfUnits (units text.toList ++ [0])

/-- The text of stored bytes, up to the first zero unit. -/
def decode (bytes : List UInt8) : String :=
  String.ofList (ofUnits ((unitsOfBytes bytes).takeWhile (· != 0)))

@[simp] theorem length_bytesOfUnits (units : List UInt16) :
    (bytesOfUnits units).length = 2 * units.length := by
  induction units with
  | nil => rfl
  | cons unit rest ih =>
      simp only [bytesOfUnits, List.flatMap_cons, List.length_append,
        LittleEndian.length_encode, List.length_cons] at ih ⊢
      omega

/-- A stored text has an even number of bytes, two of them for the terminator. -/
@[simp] theorem length_encode (text : String) :
    (encode text).length = 2 * (units text.toList).length + 2 := by
  simp only [encode, length_bytesOfUnits, List.length_append, List.length_singleton]
  omega

/-- Bytes written for units are read back as the same units. -/
@[simp] theorem unitsOfBytes_bytesOfUnits_append (units : List UInt16) (rest : List UInt8) :
    unitsOfBytes (bytesOfUnits units ++ rest) = units ++ unitsOfBytes rest := by
  induction units with
  | nil => rfl
  | cons unit units ih =>
      have unitLt : unit.toNat < LittleEndian.span 2 := unit.toNat_lt
      have whole : UInt16.ofNat (LittleEndian.decode (LittleEndian.encode 2 unit.toNat)) = unit := by
        rw [LittleEndian.decode_encode, Nat.mod_eq_of_lt unitLt, UInt16.ofNat_toNat]
      have split : bytesOfUnits (unit :: units) ++ rest =
          UInt8.ofNat unit.toNat :: UInt8.ofNat (unit.toNat / 256) ::
            (bytesOfUnits units ++ rest) := by
        simp [bytesOfUnits, LittleEndian.encode]
      rw [split, unitsOfBytes, ih]
      exact congrArg (· :: (units ++ unitsOfBytes rest)) whole

@[simp] theorem unitsOfBytes_bytesOfUnits (units : List UInt16) :
    unitsOfBytes (bytesOfUnits units) = units := by
  simpa [unitsOfBytes] using unitsOfBytes_bytesOfUnits_append units []

end TagTree.Text.Utf16

/-!
# UTF-8 text

Bytes are read as a sequence of pieces: characters in their shortest form, and broken parts. A
broken part is the longest run of bytes that could still have begun a character, or one byte that
begins none, and reading resumes at the byte after it.
-/

namespace TagTree.Text.Utf8

/-- A part of a byte sequence read as text. -/
inductive Piece where
  | char (value : Char)
  | broken (bytes : List UInt8)
  deriving DecidableEq, Repr

/-- The character of a piece that is not broken. -/
def Piece.char? : Piece → Option Char
  | .char value => some value
  | .broken _ => none

/-- A character that has begun: the bytes read so far, the number they make, and the ranges in
which its further bytes have to lie. -/
structure Unfinished where
  taken : List UInt8
  value : Nat
  expected : List (UInt8 × UInt8)

/-- Any continuation byte. -/
def anyTail : UInt8 × UInt8 :=
  (0x80, 0xBF)

/-- What a first byte of several begins. The narrower ranges rule out overlong forms, surrogates
and numbers beyond the last code point. -/
def begin? (byte : UInt8) : Option Unfinished :=
  if 0xC2 ≤ byte ∧ byte ≤ 0xDF then some ⟨[byte], byte.toNat - 0xC0, [anyTail]⟩
  else if byte = 0xE0 then some ⟨[byte], 0, [(0xA0, 0xBF), anyTail]⟩
  else if byte = 0xED then some ⟨[byte], 0xD, [(0x80, 0x9F), anyTail]⟩
  else if 0xE1 ≤ byte ∧ byte ≤ 0xEF then some ⟨[byte], byte.toNat - 0xE0, [anyTail, anyTail]⟩
  else if byte = 0xF0 then some ⟨[byte], 0, [(0x90, 0xBF), anyTail, anyTail]⟩
  else if 0xF1 ≤ byte ∧ byte ≤ 0xF3 then
    some ⟨[byte], byte.toNat - 0xF0, [anyTail, anyTail, anyTail]⟩
  else if byte = 0xF4 then some ⟨[byte], 4, [(0x80, 0x8F), anyTail, anyTail]⟩
  else none

/-- Read a byte at which a character should begin: the pieces that end with it, and what it leaves
unfinished. -/
def startWith (byte : UInt8) : List Piece × Option Unfinished :=
  if byte < 0x80 then ([.char (Char.ofNat byte.toNat)], none)
  else
    match begin? byte with
    | some unfinished => ([], some unfinished)
    | none => ([.broken [byte]], none)

/-- Read one byte after what is unfinished. A byte outside the expected range breaks off the
unfinished character and is itself read as a beginning. -/
def step : Option Unfinished → UInt8 → List Piece × Option Unfinished
  | none, byte => startWith byte
  | some ⟨taken, value, (first, last) :: expected⟩, byte =>
      if first ≤ byte ∧ byte ≤ last then
        let value := value * 64 + (byte.toNat - 0x80)
        if expected.isEmpty then ([.char (Char.ofNat value)], none)
        else ([], some ⟨taken ++ [byte], value, expected⟩)
      else (.broken taken :: (startWith byte).1, (startWith byte).2)
  | some ⟨taken, _, []⟩, byte => (.broken taken :: (startWith byte).1, (startWith byte).2)

/-- Read all bytes that follow what is unfinished. -/
def readPieces : Option Unfinished → List UInt8 → List Piece
  | none, [] => []
  | some unfinished, [] => [.broken unfinished.taken]
  | unfinished, byte :: rest =>
      (step unfinished byte).1 ++ readPieces (step unfinished byte).2 rest

/-- The characters and broken parts of a byte sequence. -/
def pieces (bytes : List UInt8) : List Piece :=
  readPieces none bytes

/-- The bytes of a text. -/
def encode (text : String) : List UInt8 :=
  text.toList.flatMap String.utf8EncodeChar

/-- The text of a byte sequence without broken parts. -/
def decode? (bytes : List UInt8) : Option String :=
  ((pieces bytes).mapM Piece.char?).map String.ofList

/-- The text of a byte sequence with a replacement character for each broken part. -/
def display (bytes : List UInt8) : String :=
  String.ofList ((pieces bytes).map fun piece => piece.char?.getD '\uFFFD')

end TagTree.Text.Utf8

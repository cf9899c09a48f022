import TagTree.Numeral
import TagTree.Text.GraphemeExtend
import TagTree.Text.Printable
import TagTree.Text.Utf8

/-!
# Quoted text

Text in double quotes for messages and listings. The quote and the backslash are escaped, line feed,
carriage return, tab and zero have letters of their own, and a character that cannot be shown or
that would attach to the one before it is given by its number. Bytes that are no text are given one
by one.
-/

namespace TagTree.Text.Quoted

/-- A character given by its number. -/
def numbered (char : Char) : String :=
  "\\u\x7b" ++ Numeral.lowerHex char.toNat ++ "\x7d"

/-- The form of one character between double quotes. -/
def escape (char : Char) : String :=
  match char with
  | '"' => "\\\""
  | '\\' => "\\\\"
  | '\n' => "\\n"
  | '\r' => "\\r"
  | '\t' => "\\t"
  | '\x00' => "\\0"
  | char =>
      if isGraphemeExtend char || !isPrintable char then numbered char else String.singleton char

/-- The form of one byte that is part of no character. -/
def escapeByte (byte : UInt8) : String :=
  "\\x" ++ Numeral.paddedHex 2 byte.toNat

/-- The form of a piece of a byte sequence between double quotes. -/
def escapePiece : Utf8.Piece → String
  | .char value => escape value
  | .broken bytes => String.join (bytes.map escapeByte)

/-- A text in double quotes. -/
def ofString (text : String) : String :=
  "\"" ++ String.join (text.toList.map escape) ++ "\""

/-- Bytes, read as text where they are text, in double quotes. -/
def ofBytes (bytes : List UInt8) : String :=
  "\"" ++ String.join ((Utf8.pieces bytes).map escapePiece) ++ "\""

end TagTree.Text.Quoted

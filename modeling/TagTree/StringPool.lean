import TagTree.Image.Record
import TagTree.Text.Utf16

/-!
# String pools

A pool gathers the texts that will make up a string table. Each text has one place in it, counted
from the beginning of the table: the first stands right after the table's own tag and length, and
each further one behind the record of the one before.
-/

namespace TagTree

/-- The texts of a string table that is still to be written, in order and without repetition. -/
structure StringPool where
  texts : List String
  deriving DecidableEq, Repr

namespace StringPool

/-- A pool without texts. -/
def empty : StringPool := ⟨[]⟩

/-- The number of bytes of the record of a text. -/
def recordSize (text : String) : Nat :=
  Image.listHeaderSize + (Text.Utf16.encode text).length

/-- The place behind the records of some texts of which the first stands at an offset. -/
def behind (offset : Nat) (texts : List String) : Nat :=
  texts.foldl (fun offset text => offset + recordSize text) offset

/-- The place for the next text. -/
def nextOffset (pool : StringPool) : Nat :=
  behind Image.listHeaderSize pool.texts

/-- The place of a text, if the pool has it. -/
def offsetOf? (pool : StringPool) (text : String) : Option Nat :=
  if text ∈ pool.texts then
    some (behind Image.listHeaderSize (pool.texts.takeWhile (· ≠ text)))
  else none

/-- The place of a text, which is added if the pool does not have it. The place behind it has to be
a 32-bit number. -/
def intern (pool : StringPool) (text : String) : Except Error (StringPool × Nat) :=
  match pool.offsetOf? text with
  | some offset => .ok (pool, offset)
  | none =>
      let offset := pool.nextOffset
      if offset + recordSize text < sizeLimit then .ok (⟨pool.texts ++ [text]⟩, offset)
      else
        let length := (Text.Utf16.encode text).length
        .error (.outOfRange offset (min length (sizeLimit - 1)) (sizeLimit - 1))

end StringPool

end TagTree

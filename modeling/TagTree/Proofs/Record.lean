import TagTree.Database.Text
import TagTree.Proofs.Utf16

/-!
# Records as data

A record is its tag and what it holds. Its bytes stand at some offset of an image, and wherever they
do, every reader gives back the tag, the size and the value that went into them.
-/

namespace TagTree

namespace Image

/-- Certain bytes stand at an offset. -/
def Holds (image : Image) (offset : Nat) (bytes : List UInt8) : Prop :=
  ∃ front back, image.toList = front ++ bytes ++ back ∧ front.length = offset

namespace Holds

variable {image : Image} {offset : Nat} {bytes first second : List UInt8}

theorem le_size (holds : image.Holds offset bytes) : offset + bytes.length ≤ image.size := by
  obtain ⟨front, back, split, rfl⟩ := holds
  have total := congrArg List.length split
  rw [length_toList, List.length_append, List.length_append] at total
  omega

/-- What stands at an offset is read from there. -/
theorem slice (holds : image.Holds offset bytes) : image.slice offset bytes.length = .ok bytes := by
  rw [slice_of_le image holds.le_size]
  obtain ⟨front, back, split, rfl⟩ := holds
  rw [split, List.append_assoc, List.drop_left, List.take_left]

theorem left (holds : image.Holds offset (first ++ second)) : image.Holds offset first := by
  obtain ⟨front, back, split, length⟩ := holds
  exact ⟨front, second ++ back, by simp [split], length⟩

theorem right (holds : image.Holds offset (first ++ second)) :
    image.Holds (offset + first.length) second := by
  obtain ⟨front, back, split, rfl⟩ := holds
  exact ⟨front ++ first, back, by simp [split], by simp⟩

/-- A number that stands at an offset is read from there. -/
theorem number {width value : Nat} (holds : image.Holds offset (LittleEndian.encode width value))
    (small : value < LittleEndian.span width) : image.number offset width = .ok value := by
  have bytes := holds.slice
  rw [LittleEndian.length_encode] at bytes
  rw [Image.number, bytes, Except.map, LittleEndian.decode_encode, Nat.mod_eq_of_lt small]

end Holds

end Image

namespace Scalar

theorem toNat_lt_span {form : Scalar} (value : form.Value) :
    value.toNat < LittleEndian.span form.width := by
  cases form
  all_goals exact value.isLt

/-- A number that fits is kept by the bit vector of its width. -/
theorem toNat_ofNat_of_lt {form : Scalar} {number : Nat}
    (fits : number < LittleEndian.span form.width) :
    (BitVec.ofNat _ number : form.Value).toNat = number := by
  rw [BitVec.toNat_ofNat]
  apply Nat.mod_eq_of_lt
  cases form
  all_goals exact fits

end Scalar

/-- What a record without children holds. -/
inductive Leaf where
  | null
  | scalar (form : Scalar) (value : form.Value)
  | string (text : String)
  | binary (bytes : List UInt8)
  deriving DecidableEq, Repr

namespace Leaf

/-- The kind of the records that hold such a thing. -/
def kind : Leaf → Kind
  | null => .null
  | scalar form _ => form.kind
  | string _ => .string
  | binary _ => .binary

/-- The bytes behind the tag. -/
def encode : Leaf → List UInt8
  | null => []
  | scalar form value => LittleEndian.encode form.width value.toNat
  | string text =>
      LittleEndian.encode 4 (Text.Utf16.encode text).length ++ Text.Utf16.encode text
  | binary bytes => LittleEndian.encode 4 bytes.length ++ bytes

/-- A text is not cut short by a zero of its own. -/
def Clean : Leaf → Prop
  | string text => '\x00' ∉ text.toList
  | _ => True

/-- The reader of its kind gives back what a record holds, whatever default it is given. -/
def FoundAt (database : Database) (id : Nat) : Leaf → Prop
  | null => True
  | scalar form value => ∀ default, database.image.readScalar form id default = value
  | string text => database.string? id = some text
  | binary bytes => database.image.binaryData? id = some bytes

theorem kind_ne_list (leaf : Leaf) : leaf.kind ≠ .list := by
  cases leaf with
  | scalar form => cases form <;> simp [kind, Scalar.kind]
  | _ => simp [kind]

end Leaf

/-- A record: a leaf, or a list with the number of bytes that its children take up. -/
inductive Record where
  | leaf (tag : Tag) (content : Leaf)
  | list (tag : Tag) (length : Nat)
  deriving DecidableEq, Repr

namespace Record

def tag : Record → Tag
  | leaf tag _ => tag
  | list tag _ => tag

def kind : Record → Kind
  | leaf _ content => content.kind
  | list _ _ => .list

/-- The record as bytes. Those of a list end before its children. -/
def encode : Record → List UInt8
  | leaf tag content => LittleEndian.encode Image.tagSize tag.raw.toNat ++ content.encode
  | list tag length =>
      LittleEndian.encode Image.tagSize tag.raw.toNat ++ LittleEndian.encode 4 length

/-- The number of bytes of the record itself. -/
def size (record : Record) : Nat :=
  record.encode.length

/-- The number of bytes that the record claims, its children included. -/
def extent : Record → Nat
  | leaf tag content => (leaf tag content).size
  | list _ length => length + Image.listHeaderSize

/-- The tag is of the record's kind, and a text in it can be got back. -/
def Sound : Record → Prop
  | leaf tag content => tag.kind? = some content.kind ∧ content.Clean
  | list tag _ => tag.kind? = some .list

theorem Sound.kind?_tag {record : Record} (sound : record.Sound) :
    record.tag.kind? = some record.kind := by
  cases record with
  | leaf => exact sound.1
  | list => exact sound

@[simp] theorem size_list (tag : Tag) (length : Nat) :
    (list tag length).size = Image.listHeaderSize := by
  simp [size, encode, Image.tagSize, Image.listHeaderSize]

theorem tagSize_le_size (record : Record) : Image.tagSize ≤ record.size := by
  cases record <;> simp [size, encode]

theorem size_pos (record : Record) : 0 < record.size :=
  Nat.lt_of_lt_of_le (by decide) record.tagSize_le_size

theorem size_le_extent (record : Record) : record.size ≤ record.extent := by
  cases record with
  | leaf => exact Nat.le_refl _
  | list tag length => simp [extent]

theorem encode_eq (record : Record) :
    ∃ rest, record.encode =
      LittleEndian.encode Image.tagSize record.tag.raw.toNat ++ rest := by
  cases record with
  | leaf tag content => exact ⟨_, rfl⟩
  | list tag length => exact ⟨_, rfl⟩

end Record

/-! ## Reading records -/

namespace Image

variable {image : Image} {id : Nat} {record : Record} {tag : Tag} {content : Leaf}

theorem tag_small (tag : Tag) : tag.raw.toNat < LittleEndian.span tagSize :=
  tag.raw.toNat_lt

theorem Holds.tagNumber (holds : image.Holds id record.encode) :
    image.number id tagSize = .ok record.tag.raw.toNat := by
  obtain ⟨rest, split⟩ := record.encode_eq
  rw [split] at holds
  exact holds.left.number (tag_small record.tag)

theorem Holds.tagAt (holds : image.Holds id record.encode) : image.tagAt id = record.tag := by
  rw [Image.tagAt, holds.tagNumber]
  simp

theorem Holds.kindAt? (holds : image.Holds id record.encode) (sound : record.Sound) :
    image.kindAt? id = some record.kind := by
  rw [Image.kindAt?, holds.tagAt, sound.kind?_tag]

/-- The bytes behind the tag of a leaf. -/
theorem Holds.behindTag (holds : image.Holds id (Record.leaf tag content).encode) :
    image.Holds (id + tagSize) content.encode := by
  have behind := Holds.right holds
  rwa [LittleEndian.length_encode] at behind

/-- What stands in an image is short enough for its length to be written down. -/
theorem Holds.end_lt {offset : Nat} {bytes : List UInt8} (holds : image.Holds offset bytes) :
    offset + bytes.length < sizeLimit :=
  Nat.lt_of_le_of_lt holds.le_size image.size_lt

/-- The length that a text, a binary record or a list says of itself. -/
theorem Holds.lengthNumber {length : Nat}
    (holds : image.Holds (id + tagSize) (LittleEndian.encode 4 length))
    (small : length < sizeLimit) : image.number (id + tagSize) 4 = .ok length :=
  holds.number small

section Payload

variable {body : List UInt8}

/-- The bytes behind the length of a text or a binary record. -/
theorem Holds.payload
    (holds : image.Holds (id + tagSize) (LittleEndian.encode 4 body.length ++ body)) :
    image.Holds (id + listHeaderSize) body := by
  have behind := holds.right
  rwa [LittleEndian.length_encode, Nat.add_assoc] at behind

theorem Holds.payloadLength
    (holds : image.Holds (id + tagSize) (LittleEndian.encode 4 body.length ++ body)) :
    image.number (id + tagSize) 4 = .ok body.length := by
  have short := holds.payload.end_lt
  exact holds.left.lengthNumber (by omega)

end Payload

/-- The size of a record that says its own length. -/
theorem sizeOf_of_number {kind : Kind} {length : Nat} (kindAt : image.kindAt? id = some kind)
    (unfixed : kind.fixedSize? = none) (number : image.number (id + tagSize) 4 = .ok length)
    (small : length + listHeaderSize < sizeLimit) : image.sizeOf id = length + listHeaderSize := by
  simp only [Image.sizeOf, kindAt, unfixed, number, small, if_true]

theorem sizeOf_of_fixedSize? {kind : Kind} {size : Nat} (kindAt : image.kindAt? id = some kind)
    (fixed : kind.fixedSize? = some size) : image.sizeOf id = size := by
  simp only [Image.sizeOf, kindAt, fixed]

/-- A record that says its own length and can be read has a length that can be counted. -/
theorem exists_length_of_sizeOf {kind : Kind} (kindAt : image.kindAt? id = some kind)
    (unfixed : kind.fixedSize? = none) (readable : image.sizeOf id ≠ 0) :
    ∃ length, image.number (id + tagSize) 4 = .ok length ∧
      length + listHeaderSize < sizeLimit ∧ image.sizeOf id = length + listHeaderSize := by
  cases number : image.number (id + tagSize) 4 with
  | error cause =>
      simp only [Image.sizeOf, kindAt, unfixed, number] at readable
      exact absurd rfl readable
  | ok length =>
      by_cases small : length + listHeaderSize < sizeLimit
      · exact ⟨length, rfl, small, sizeOf_of_number kindAt unfixed number small⟩
      · simp only [Image.sizeOf, kindAt, unfixed, number, small, if_false] at readable
        exact absurd rfl readable

theorem Holds.sizeOf_payload {kind : Kind} {body : List UInt8}
    (holds : image.Holds (id + tagSize) (LittleEndian.encode 4 body.length ++ body))
    (kindAt : image.kindAt? id = some kind) (unfixed : kind.fixedSize? = none) :
    image.sizeOf id = body.length + listHeaderSize := by
  have short := holds.payload.end_lt
  exact sizeOf_of_number kindAt unfixed holds.payloadLength (by omega)

/-- A leaf claims just its own bytes. -/
theorem Holds.sizeOf_leaf (holds : image.Holds id (Record.leaf tag content).encode)
    (sound : (Record.leaf tag content).Sound) :
    image.sizeOf id = (Record.leaf tag content).size := by
  have kindAt := holds.kindAt? sound
  have size : (Record.leaf tag content).size = tagSize + content.encode.length := by
    simp [Record.size, Record.encode]
  rw [size]
  cases content with
  | null => exact sizeOf_of_fixedSize? kindAt rfl
  | scalar form value =>
      rw [sizeOf_of_fixedSize? kindAt form.fixedSize?_kind, Leaf.encode,
        LittleEndian.length_encode, tagSize]
  | string text =>
      rw [holds.behindTag.sizeOf_payload kindAt rfl, Leaf.encode, List.length_append,
        LittleEndian.length_encode, listHeaderSize, tagSize]
      omega
  | binary bytes =>
      rw [holds.behindTag.sizeOf_payload kindAt rfl, Leaf.encode, List.length_append,
        LittleEndian.length_encode, listHeaderSize, tagSize]
      omega

/-- A record is read to be as long as it claims, if that is a 32-bit number. -/
theorem Holds.sizeOf (holds : image.Holds id record.encode) (sound : record.Sound)
    (small : record.extent < sizeLimit) : image.sizeOf id = record.extent := by
  cases record with
  | leaf tag content => exact holds.sizeOf_leaf sound
  | list tag length =>
      have behind := Holds.right holds
      rw [LittleEndian.length_encode] at behind
      have short : length < sizeLimit := Nat.lt_of_le_of_lt (Nat.le_add_right _ _) small
      exact sizeOf_of_number (holds.kindAt? sound) rfl (behind.lengthNumber short) small

/-- A reader of numbers gives its default for a record of another kind. -/
theorem readScalar_of_kind_ne {kind : Kind} {form : Scalar} (kindAt : image.kindAt? id = some kind)
    (other : form.kind ≠ kind) (default : form.Value) :
    image.readScalar form id default = default := by
  rw [readScalar, kindAt, if_neg]
  intro same
  exact other (Option.some.inj same).symm

theorem Holds.readScalar {form : Scalar} {value : form.Value}
    (holds : image.Holds id (Record.leaf tag (.scalar form value)).encode)
    (sound : (Record.leaf tag (.scalar form value)).Sound) (default : form.Value) :
    image.readScalar form id default = value := by
  have number : image.number (id + tagSize) form.width = .ok value.toNat :=
    holds.behindTag.number (Scalar.toNat_lt_span value)
  rw [Image.readScalar, holds.kindAt? sound, Record.kind, Leaf.kind, if_pos rfl, number]
  exact (BitVec.ofNat_toNat _ _).trans (BitVec.setWidth_eq value)

theorem Holds.binaryData? {bytes : List UInt8}
    (holds : image.Holds id (Record.leaf tag (.binary bytes)).encode)
    (sound : (Record.leaf tag (.binary bytes)).Sound) :
    image.binaryData? id = some bytes := by
  rw [Image.binaryData?, holds.kindAt? sound, Record.kind, Leaf.kind, if_pos rfl,
    holds.behindTag.payloadLength]
  simp only [holds.behindTag.payload.slice, Except.toOption]

end Image

namespace Database

open Image

variable {database : Database} {id : Nat} {tag : Tag} {content : Leaf} {text : String}

theorem offsetBehind_of_lt {base distance : Nat} (small : base + distance < sizeLimit) :
    database.offsetBehind base distance = .ok (base + distance) :=
  if_pos small

/-- A text record is resolved to the bytes behind its length. -/
theorem resolveString_string
    (holds : database.image.Holds id (Record.leaf tag (.string text)).encode)
    (sound : (Record.leaf tag (.string text)).Sound) :
    database.resolveString id =
      .ok ⟨id + listHeaderSize, (Text.Utf16.encode text).length⟩ := by
  have payload := holds.behindTag.payload
  have behind : database.offsetBehind id tagSize = .ok (id + tagSize) :=
    offsetBehind_of_lt (Nat.lt_of_le_of_lt (Nat.le_add_right _ _) holds.behindTag.end_lt)
  have kind : (Tag.mk (UInt16.ofNat tag.raw.toNat)).kind? = some .string := by
    rw [UInt16.ofNat_toNat]
    exact sound.1
  simp only [resolveString, holds.tagNumber, Record.tag, kind, bind, Except.bind, pure,
    Except.pure, behind, holds.behindTag.payloadLength, payload.slice]

/-- Without a string table a reference leads nowhere. -/
theorem resolveString_stringRef_none {reference : Scalar.stringRef.Value}
    (holds : database.image.Holds id (Record.leaf tag (.scalar .stringRef reference)).encode)
    (sound : (Record.leaf tag (.scalar .stringRef reference)).Sound)
    (noTable : database.stringTable = none) :
    database.resolveString id = .error (.notFound (.stringTable id)) := by
  have kind : (Tag.mk (UInt16.ofNat tag.raw.toNat)).kind? = some .stringRef := by
    rw [UInt16.ofNat_toNat]
    exact sound.1
  simp only [resolveString, holds.tagNumber, Record.tag, kind, bind, Except.bind,
    followReference, noTable, throw, throwThe, MonadExceptOf.throw]

/-- A reference is resolved to the bytes of the item to which it leads. -/
theorem resolveString_stringRef {reference : Scalar.stringRef.Value} {itemTag : Tag} {table : Nat}
    (holds : database.image.Holds id (Record.leaf tag (.scalar .stringRef reference)).encode)
    (sound : (Record.leaf tag (.scalar .stringRef reference)).Sound)
    (hasTable : database.stringTable = some table)
    (item : database.image.Holds (table + reference.toNat)
      (Record.leaf itemTag (.string text)).encode) :
    database.resolveString id =
      .ok ⟨table + reference.toNat + listHeaderSize, (Text.Utf16.encode text).length⟩ := by
  have payload := item.behindTag.payload
  have behind : database.offsetBehind (table + reference.toNat) tagSize =
      .ok (table + reference.toNat + tagSize) :=
    offsetBehind_of_lt (Nat.lt_of_le_of_lt (Nat.le_add_right _ _) item.behindTag.end_lt)
  have followed : database.offsetBehind table reference.toNat =
      .ok (table + reference.toNat) :=
    offsetBehind_of_lt (Nat.lt_of_le_of_lt (Nat.le_add_right _ _) item.end_lt)
  have number : database.image.number (id + tagSize) 4 = .ok reference.toNat :=
    holds.behindTag.number reference.isLt
  have kind : (Tag.mk (UInt16.ofNat tag.raw.toNat)).kind? = some .stringRef := by
    rw [UInt16.ofNat_toNat]
    exact sound.1
  simp only [resolveString, holds.tagNumber, Record.tag, kind, bind, Except.bind, pure,
    Except.pure, followReference, hasTable, number, followed, behind,
    item.behindTag.payloadLength, payload.slice]

/-- The text of whatever is resolved to the bytes of a clean text. -/
theorem string?_of_resolveString {offset : Nat} (clean : '\x00' ∉ text.toList)
    (resolved : database.resolveString id = .ok ⟨offset, (Text.Utf16.encode text).length⟩)
    (holds : database.image.Holds offset (Text.Utf16.encode text)) :
    database.string? id = some text := by
  simp only [string?, stringBytes?, resolved, holds.slice, Except.toOption, Option.map_some,
    Text.Utf16.decode_encode clean]

theorem string?_string
    (holds : database.image.Holds id (Record.leaf tag (.string text)).encode)
    (sound : (Record.leaf tag (.string text)).Sound) :
    database.string? id = some text :=
  string?_of_resolveString sound.2 (resolveString_string holds sound) holds.behindTag.payload

theorem string?_stringRef_none {reference : Scalar.stringRef.Value}
    (holds : database.image.Holds id (Record.leaf tag (.scalar .stringRef reference)).encode)
    (sound : (Record.leaf tag (.scalar .stringRef reference)).Sound)
    (noTable : database.stringTable = none) : database.string? id = none := by
  simp only [string?, stringBytes?, resolveString_stringRef_none holds sound noTable,
    Option.map_none]

theorem string?_stringRef {reference : Scalar.stringRef.Value} {itemTag : Tag} {table : Nat}
    (holds : database.image.Holds id (Record.leaf tag (.scalar .stringRef reference)).encode)
    (sound : (Record.leaf tag (.scalar .stringRef reference)).Sound)
    (hasTable : database.stringTable = some table) (clean : '\x00' ∉ text.toList)
    (item : database.image.Holds (table + reference.toNat)
      (Record.leaf itemTag (.string text)).encode) :
    database.string? id = some text :=
  string?_of_resolveString clean (resolveString_stringRef holds sound hasTable item)
    item.behindTag.payload

/-- Wherever the bytes of a leaf stand, its reader gives back what it holds. -/
theorem foundAt_of_holds (holds : database.image.Holds id (Record.leaf tag content).encode)
    (sound : (Record.leaf tag content).Sound) : content.FoundAt database id := by
  cases content with
  | null => trivial
  | scalar form value => exact holds.readScalar sound
  | string text => exact string?_string holds sound
  | binary bytes => exact holds.binaryData? sound

end Database

end TagTree

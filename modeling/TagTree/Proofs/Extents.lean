import TagTree.Proofs.Resolution

/-!
# Extents and readers

The size that is read at an offset and the reader of the kind that is read there come to the same:
the reader gives something just if the size can be read and ends inside the image, and then it gives
the bytes between the record's own header and that end. This holds at every offset, whether a record
was written there or not.
-/

namespace TagTree

namespace Image

variable {image : Image} {id offset : Nat} {data : List UInt8} {kind : Kind} {form : Scalar}

/-! ## Whole records -/

/-- The size at an offset can be read, and so many bytes stand there. -/
def Complete (image : Image) (id : Nat) : Prop :=
  image.sizeOf id ≠ 0 ∧ id + image.sizeOf id ≤ image.size

/-- The bytes from a header of so many bytes on up to where a record says that it ends. -/
def contents (image : Image) (id header : Nat) : List UInt8 :=
  (image.toList.take (id + image.sizeOf id)).drop (id + header)

theorem Holds.drop_take (holds : image.Holds offset data) :
    (image.toList.take (offset + data.length)).drop offset = data := by
  obtain ⟨front, back, split, rfl⟩ := holds
  rw [split, ← List.length_append, List.take_left, List.drop_left]

/-- What stands behind the header and ends with the record is its contents. -/
theorem Holds.contents_eq {header : Nat} (holds : image.Holds (id + header) data)
    (size : image.sizeOf id = header + data.length) : image.contents id header = data := by
  rw [contents, size, ← Nat.add_assoc]
  exact holds.drop_take

/-- A record of a number is whole just if its number can be read. -/
theorem holds_number_iff (kindAt : image.kindAt? id = some form.kind) :
    data.length = form.width ∧ image.Holds (id + tagSize) data ↔
      image.Complete id ∧ data = image.contents id tagSize := by
  have size : image.sizeOf id = tagSize + form.width :=
    sizeOf_of_fixedSize? kindAt form.fixedSize?_kind
  constructor
  · rintro ⟨length, holds⟩
    have inside := holds.le_size
    rw [← length] at size
    refine ⟨⟨?_, ?_⟩, (holds.contents_eq size).symm⟩
    · rw [size, tagSize]
      omega
    · rwa [size, ← Nat.add_assoc]
  · rintro ⟨⟨-, inside⟩, rfl⟩
    rw [size, ← Nat.add_assoc] at inside
    obtain ⟨bytes, length, holds⟩ := exists_holds inside
    rw [← length] at size
    rw [holds.contents_eq size]
    exact ⟨length, holds⟩

/-- A record that says its own length is whole just if so many bytes can be read. -/
theorem holdsSized_iff_complete (kindAt : image.kindAt? id = some kind)
    (unfixed : kind.fixedSize? = none) :
    image.HoldsSized (id + tagSize) data ↔
      image.Complete id ∧ data = image.contents id listHeaderSize := by
  constructor
  · intro holds
    have size := Holds.sizeOf_payload holds kindAt unfixed
    have inside := (Holds.payload holds).le_size
    rw [Nat.add_comm] at size
    refine ⟨⟨?_, ?_⟩, ((Holds.payload holds).contents_eq size).symm⟩
    · rw [size, listHeaderSize]
      omega
    · rwa [size, ← Nat.add_assoc]
  · rintro ⟨⟨readable, inside⟩, rfl⟩
    obtain ⟨body, -, stands⟩ := exists_payload kindAt unfixed readable inside
    have holds := stands.right
    rw [LittleEndian.length_encode] at holds
    have size := Holds.sizeOf_payload holds kindAt unfixed
    rw [Nat.add_comm] at size
    rw [(Holds.payload holds).contents_eq size]
    exact holds

end Image

/-! ## Readers -/

/-- The readers of what records hold. -/
inductive Reader where
  | number (form : Scalar)
  | binary
  | text
  deriving DecidableEq, Repr

namespace Reader

open Image

variable {database : Database} {id : Nat} {data : List UInt8}

/-- The kind of the records that a reader is for. -/
def kind : Reader → Kind
  | number form => form.kind
  | binary => .binary
  | text => .string

/-- The number of bytes in front of what a reader gives. -/
def headerSize : Reader → Nat
  | number _ => tagSize
  | binary | text => listHeaderSize

/-- A reader gives certain bytes. One of numbers gives the number that they write, and does so
whatever its default. -/
def Gives (database : Database) (id : Nat) (data : List UInt8) : Reader → Prop
  | number form => data.length = form.width ∧
      ∀ default, database.image.readScalar form id default =
        BitVec.ofNat _ (LittleEndian.decode data)
  | binary => database.image.binaryData? id = some data
  | text => database.stringBytes? id = some data

/-- A reader gives nothing. One of numbers then gives its default, whatever that is. -/
def GivesNothing (database : Database) (id : Nat) : Reader → Prop
  | number form => ∀ default, database.image.readScalar form id default = default
  | binary => database.image.binaryData? id = none
  | text => database.stringBytes? id = none

/-- A reader gives nothing just if there is nothing that it gives. -/
theorem givesNothing_iff (reader : Reader) :
    reader.GivesNothing database id ↔ ∀ data, ¬reader.Gives database id data := by
  cases reader with
  | number form =>
      constructor
      · rintro nothing data ⟨-, gives⟩
        -- A number that is read is read whatever the default, so some default shows that it is not
        -- given in its place.
        obtain ⟨default, other⟩ := GivesNumber.exists_ne gives
        exact other (nothing default)
      · intro without
        apply readScalar_of_not_givesNumber
        intro value gives
        apply without (LittleEndian.encode form.width value.toNat)
        constructor
        · exact LittleEndian.length_encode ..
        · rw [LittleEndian.decode_encode, Nat.mod_eq_of_lt (Scalar.toNat_lt_span value),
            BitVec.ofNat_toNat, BitVec.setWidth_eq]
          exact gives
  | binary => exact Option.eq_none_iff_forall_ne_some
  | text => exact Option.eq_none_iff_forall_ne_some

/-- What the reader of the kind at an offset gives is settled by the size there. -/
theorem gives_iff (reader : Reader) (kindAt : database.image.kindAt? id = some reader.kind) :
    reader.Gives database id data ↔
      database.image.Complete id ∧ data = database.image.contents id reader.headerSize := by
  cases reader with
  | number form =>
      rw [headerSize, ← holds_number_iff kindAt]
      apply and_congr_right
      exact givesNumber_decode_iff kindAt
  | binary =>
      rw [Gives, binaryData?_eq_some_iff, headerSize, holdsSized_iff_complete kindAt rfl]
      exact and_iff_right kindAt
  | text =>
      rw [Gives, Database.stringBytes?_eq_some_iff, headerSize,
        ← holdsSized_iff_complete kindAt rfl]
      simp only [Database.textItem_of_string kindAt, exists_eq_left]

/-- A reader for another kind gives nothing. Only that of texts reads references as well. -/
theorem givesNothing_of_kind_ne (reader : Reader)
    (other : database.image.kindAt? id ≠ some reader.kind)
    (noReference : reader = text → database.image.kindAt? id ≠ some .stringRef) :
    reader.GivesNothing database id := by
  rw [givesNothing_iff]
  intro data gives
  cases reader with
  | number form => exact other (givesNumber_iff.mp gives.2).1
  | binary => exact other (binaryData?_eq_some_iff.mp gives).1
  | text =>
      obtain ⟨item, isItem, -⟩ := Database.stringBytes?_eq_some_iff.mp gives
      rcases Database.textItem_eq_ok_iff.mp isItem with ⟨isText, -⟩ | ⟨isReference, -⟩
      · exact other isText
      · exact noReference rfl isReference

end Reader

namespace Database

open Image

variable {database : Database} {id : Nat} {data : List UInt8}

/-- At a reference the reader of texts gives what stands behind a length in the string table. -/
theorem text_gives_iff (isReference : database.image.kindAt? id = some .stringRef) :
    Reader.text.Gives database id data ↔
      ∃ table place, database.stringTable = some table ∧
        database.image.GivesNumber .stringRef id place ∧
          database.image.HoldsSized (table + place.toNat + tagSize) data := by
  rw [Reader.Gives, stringBytes?_eq_some_iff]
  simp only [textItem_of_stringRef isReference, followReference_eq_ok_iff]
  constructor
  · rintro ⟨item, ⟨table, relative, hasTable, number, -, rfl⟩, holds⟩
    -- The place was read from four bytes, so it is kept whole as a number of the reader.
    have kept : (BitVec.ofNat _ relative : Scalar.stringRef.Value).toNat = relative :=
      Scalar.toNat_ofNat_of_lt (holds_of_number number).1
    refine ⟨table, BitVec.ofNat _ relative, hasTable, givesNumber_iff.mpr ?_, ?_⟩
    · exact ⟨isReference, by rw [kept]; exact number⟩
    · rwa [kept]
  · rintro ⟨table, place, hasTable, gives, holds⟩
    have inside := holds.end_lt
    obtain ⟨-, number⟩ := givesNumber_iff.mp gives
    exact ⟨_, ⟨table, place.toNat, hasTable, number, by omega, rfl⟩, holds⟩

/-- At an offset the readers and the size come to the same. The reader of the kind there gives the
bytes between the header and the end of the record if the record is whole, and nothing otherwise;
every other reader gives nothing, except that the one of texts follows references. -/
structure ReadsExtent (database : Database) (id : Nat) : Prop where
  gives_iff : ∀ (reader : Reader) (data : List UInt8),
    database.image.kindAt? id = some reader.kind →
      (reader.Gives database id data ↔
        database.image.Complete id ∧ data = database.image.contents id reader.headerSize)
  incomplete : ∀ reader : Reader, database.image.kindAt? id = some reader.kind →
    ¬database.image.Complete id → reader.GivesNothing database id
  otherKind : ∀ reader : Reader, database.image.kindAt? id ≠ some reader.kind →
    (reader = .text → database.image.kindAt? id ≠ some .stringRef) →
      reader.GivesNothing database id
  reference : database.image.kindAt? id = some .stringRef → ∀ data : List UInt8,
    Reader.text.Gives database id data ↔
      ∃ table place, database.stringTable = some table ∧
        database.image.GivesNumber .stringRef id place ∧
          database.image.HoldsSized (table + place.toNat + tagSize) data

/-- Whatever the bytes of a database, its readers agree with the sizes at every offset. -/
theorem reads_extent (database : Database) (id : Nat) : database.ReadsExtent id where
  gives_iff reader _ kindAt := reader.gives_iff kindAt
  incomplete := by
    intro reader kindAt cut
    rw [Reader.givesNothing_iff]
    intro data gives
    exact cut ((reader.gives_iff kindAt).mp gives).1
  otherKind reader := reader.givesNothing_of_kind_ne
  reference isReference _ := text_gives_iff isReference

end Database

end TagTree

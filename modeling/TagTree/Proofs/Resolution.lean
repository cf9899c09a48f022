import TagTree.Proofs.Decoding

/-!
# Where texts stand

A text stands behind its own length, and the length behind a tag. A string record is found there
itself. A reference leads to an offset behind the beginning of the string table, where a length and a
text are read whatever tag stands in front of them.
-/

namespace TagTree

/-- Two steps one after the other succeed just if both do. -/
theorem bind_eq_ok_iff {α β : Type} {first : Except Error α} {next : α → Except Error β}
    {result : β} :
    (first >>= next) = .ok result ↔ ∃ value, first = .ok value ∧ next value = .ok result := by
  cases first with
  | error cause => simp [bind, Except.bind]
  | ok value => simp [bind, Except.bind]

theorem toOption_eq_some_iff {α : Type} {outcome : Except Error α} {value : α} :
    outcome.toOption = some value ↔ outcome = .ok value := by
  cases outcome <;> simp [Except.toOption]

namespace Image

variable {image : Image} {id : Nat} {data : List UInt8}

/-- Bytes stand at an offset behind their own number. -/
def HoldsSized (image : Image) (offset : Nat) (data : List UInt8) : Prop :=
  image.Holds offset (LittleEndian.encode 4 data.length ++ data)

/-- Such bytes are found by reading first the number and then so many bytes. -/
theorem holdsSized_iff :
    image.HoldsSized (id + tagSize) data ↔
      image.number (id + tagSize) 4 = .ok data.length ∧
        image.slice (id + listHeaderSize) data.length = .ok data := by
  constructor
  · intro holds
    exact ⟨Holds.payloadLength holds, (Holds.payload holds).slice⟩
  · rintro ⟨number, read⟩
    refine (holds_of_number number).2.append ?_
    rw [LittleEndian.length_encode, Nat.add_assoc]
    exact (holds_of_slice read).2

theorem binaryData?_eq_some_iff :
    image.binaryData? id = some data ↔
      image.kindAt? id = some .binary ∧ image.HoldsSized (id + tagSize) data := by
  rw [binaryData?, Option.ite_none_right_eq_some, holdsSized_iff]
  apply and_congr_right
  intro isBinary
  cases number : image.number (id + tagSize) 4 with
  | error cause => simp
  | ok length =>
      change (image.slice (id + listHeaderSize) length).toOption = some data ↔ _
      rw [toOption_eq_some_iff, Except.ok.injEq]
      constructor
      · intro read
        obtain ⟨rfl, -⟩ := holds_of_slice read
        exact ⟨rfl, read⟩
      · rintro ⟨rfl, read⟩
        exact read

end Image

namespace Database

open Image

variable {database : Database} {id item base distance place : Nat} {found : Stretch}
  {data : List UInt8}

/-- The string record that holds the text of a record. -/
def textItem (database : Database) (id : Nat) : Except Error Nat := do
  let raw ← database.image.number id tagSize
  let tag := Tag.mk (UInt16.ofNat raw)
  match tag.kind? with
  | some .string => return id
  | some .stringRef => database.followReference id
  | _ => throw (.typeMismatch tag .string)

/-- Where the text of a string record stands. -/
def textStretch (database : Database) (item : Nat) : Except Error Stretch := do
  let length ← database.image.number (← database.offsetBehind item tagSize) 4
  let _ ← database.image.slice (item + listHeaderSize) length
  return ⟨item + listHeaderSize, length⟩

/-- A text is resolved in two steps. -/
theorem resolveString_eq_bind (database : Database) (id : Nat) :
    database.resolveString id = database.textItem id >>= database.textStretch := by
  rw [resolveString, textItem, bind_assoc]
  congr
  funext raw
  dsimp only
  cases (Tag.mk (UInt16.ofNat raw)).kind? with
  | none => rfl
  | some kind => cases kind <;> rfl

theorem offsetBehind_eq_ok_iff :
    database.offsetBehind base distance = .ok place ↔
      base + distance < sizeLimit ∧ place = base + distance := by
  rw [offsetBehind]
  split
  · next small => simp [small, eq_comm]
  · next large => simp [large]

/-- A reference leads as far behind the beginning of the string table as it says. -/
theorem followReference_eq_ok_iff :
    database.followReference id = .ok item ↔
      ∃ table relative, database.stringTable = some table ∧
        database.image.number (id + tagSize) 4 = .ok relative ∧
          table + relative < sizeLimit ∧ item = table + relative := by
  rw [followReference]
  cases hasTable : database.stringTable with
  | none => simp [throw, throwThe, MonadExceptOf.throw]
  | some table => simp [bind_eq_ok_iff, offsetBehind_eq_ok_iff]

theorem textItem_eq_ok_iff :
    database.textItem id = .ok item ↔
      database.image.kindAt? id = some .string ∧ item = id ∨
        database.image.kindAt? id = some .stringRef ∧ database.followReference id = .ok item := by
  rw [textItem, kindAt?, tagAt]
  cases number : database.image.number id tagSize with
  | error cause =>
      have noKind : Tag.null.kind? = none := rfl
      simp [bind, Except.bind, noKind]
  | ok raw =>
      simp only [bind, Except.bind]
      cases (Tag.mk (UInt16.ofNat raw)).kind? with
      | none => simp [throw, throwThe, MonadExceptOf.throw]
      | some kind =>
          cases kind <;>
            simp [throw, throwThe, MonadExceptOf.throw, pure, Except.pure, eq_comm]

theorem textItem_of_string (isText : database.image.kindAt? id = some .string) :
    database.textItem id = .ok item ↔ item = id := by
  simp [textItem_eq_ok_iff, isText]

theorem textItem_of_stringRef (isReference : database.image.kindAt? id = some .stringRef) :
    database.textItem id = .ok item ↔ database.followReference id = .ok item := by
  simp [textItem_eq_ok_iff, isReference]

/-- A text is found behind its length. -/
theorem textStretch_eq_ok_iff :
    database.textStretch item = .ok found ↔
      ∃ data, database.image.HoldsSized (item + tagSize) data ∧
        found = ⟨item + listHeaderSize, data.length⟩ := by
  simp only [textStretch, bind_eq_ok_iff, offsetBehind_eq_ok_iff]
  constructor
  · rintro ⟨place, ⟨-, rfl⟩, length, number, data, read, answer⟩
    obtain ⟨rfl, -⟩ := holds_of_slice read
    cases answer
    exact ⟨data, holdsSized_iff.mpr ⟨number, read⟩, rfl⟩
  · rintro ⟨data, holds, rfl⟩
    have inside := Nat.lt_of_le_of_lt (Nat.le_add_right _ _) holds.end_lt
    obtain ⟨number, read⟩ := holdsSized_iff.mp holds
    exact ⟨_, ⟨inside, rfl⟩, data.length, number, data, read, rfl⟩

theorem resolveString_eq_ok_iff :
    database.resolveString id = .ok found ↔
      ∃ item data, database.textItem id = .ok item ∧
        database.image.HoldsSized (item + tagSize) data ∧
          found = ⟨item + listHeaderSize, data.length⟩ := by
  rw [resolveString_eq_bind, bind_eq_ok_iff]
  simp only [textStretch_eq_ok_iff, exists_and_left]

/-- The bytes of a text are those of the stretch to which it is resolved. -/
theorem stringBytes?_eq_some_iff_slice :
    database.stringBytes? id = some data ↔
      ∃ found, database.resolveString id = .ok found ∧
        database.image.slice found.offset found.length = .ok data := by
  rw [stringBytes?]
  cases database.resolveString id with
  | error cause => simp
  | ok found => simp [toOption_eq_some_iff]

theorem stringBytes?_eq_some_iff :
    database.stringBytes? id = some data ↔
      ∃ item, database.textItem id = .ok item ∧
        database.image.HoldsSized (item + tagSize) data := by
  rw [stringBytes?_eq_some_iff_slice]
  constructor
  · rintro ⟨found, resolved, read⟩
    obtain ⟨item, stored, isItem, holds, rfl⟩ := resolveString_eq_ok_iff.mp resolved
    have same := (holdsSized_iff.mp holds).2.symm.trans read
    cases same
    exact ⟨item, isItem, holds⟩
  · rintro ⟨item, isItem, holds⟩
    refine ⟨_, resolveString_eq_ok_iff.mpr ⟨item, data, isItem, holds, rfl⟩, ?_⟩
    exact (holdsSized_iff.mp holds).2

end Database

end TagTree

import TagTree.Proofs.Resolution
import TagTree.Proofs.Utf16

/-!
# Copies into a destination

A text can be had as bytes, as units and decoded, and all of these come from the stretch to which it
is resolved. A copy fills the first places of its destination and leaves the others. It is refused
where the text cannot be resolved or does not fit, and then all places stay as they were.
-/

namespace TagTree

/-- What is put in front of the rest of a destination stands there, and the rest is as before. -/
theorem eq_append_drop_iff {α : Type} {front after destination : List α} :
    after = front ++ destination.drop front.length ↔
      after.take front.length = front ∧ after.drop front.length = destination.drop front.length := by
  constructor
  · rintro rfl
    exact ⟨List.take_left, List.drop_left⟩
  · rintro ⟨isFront, isRest⟩
    calc after = after.take front.length ++ after.drop front.length :=
          (List.take_append_drop ..).symm
      _ = front ++ destination.drop front.length := by rw [isFront, isRest]

theorem error_eq_error_iff {σ α : Type} {before after : σ} {reason cause : Error} :
    (.error reason before : EStateM.Result Error σ α) = .error cause after ↔
      after = before ∧ cause = reason := by
  rw [EStateM.Result.error.injEq, and_comm, eq_comm (a := before), eq_comm (a := reason)]

namespace Database

open Image Text.Utf16

variable {database : Database} {id count : Nat} {found : Stretch} {bytes : List UInt8}
  {cause : Error}

/-! ## Where the bytes are -/

/-- A text that is resolved has its bytes. -/
theorem exists_stringBytes? (resolved : database.resolveString id = .ok found) :
    ∃ bytes, database.image.slice found.offset found.length = .ok bytes ∧
      database.stringBytes? id = some bytes ∧ bytes.length = found.length := by
  obtain ⟨item, bytes, isItem, holds, rfl⟩ := resolveString_eq_ok_iff.mp resolved
  have read := (holdsSized_iff.mp holds).2
  exact ⟨bytes, read, stringBytes?_eq_some_iff.mpr ⟨item, isItem, holds⟩, rfl⟩

theorem inside_of_resolveString (resolved : database.resolveString id = .ok found) :
    found.offset + found.length ≤ database.image.size := by
  obtain ⟨bytes, read, -, count⟩ := exists_stringBytes? resolved
  rw [← count]
  exact (holds_of_slice read).2.le_size

/-- The bytes of a text are those of its stretch. -/
theorem stringBytes?_eq_some_iff_take :
    database.stringBytes? id = some bytes ↔
      ∃ found, database.resolveString id = .ok found ∧
        bytes = (database.image.toList.drop found.offset).take found.length := by
  rw [stringBytes?_eq_some_iff_slice]
  apply exists_congr
  intro found
  apply and_congr_right
  intro resolved
  rw [slice_of_le database.image (inside_of_resolveString resolved), Except.ok.injEq, eq_comm]

/-! ## Bytes -/

section Bytes

variable {destination after : List UInt8}

theorem copyString_unresolved (fails : database.resolveString id = .error cause) :
    (database.copyString id).run destination = .error cause destination := by
  rw [copyString, fails]
  rfl

theorem copyString_short (resolved : database.resolveString id = .ok found)
    (short : destination.length < found.length) :
    (database.copyString id).run destination =
      .error (.bufferTooSmall found.length destination.length) destination := by
  simp only [copyString, resolved, ofExcept, EStateM.run_bind, EStateM.run_pure, EStateM.run_get,
    short, if_true]
  rfl

theorem copyString_run (resolved : database.resolveString id = .ok found)
    (read : database.image.slice found.offset found.length = .ok bytes)
    (fits : found.length ≤ destination.length) :
    (database.copyString id).run destination =
      .ok found.length (bytes ++ destination.drop bytes.length) := by
  have long := Nat.not_lt.mpr fits
  simp only [copyString, resolved, ofExcept, EStateM.run_bind, EStateM.run_pure, EStateM.run_get,
    long, if_false, read]
  rfl

/-- The bytes are copied just if the text is resolved and fits. -/
theorem copyString_eq_ok_iff :
    (database.copyString id).run destination = .ok count after ↔
      ∃ found, database.resolveString id = .ok found ∧ found.length ≤ destination.length ∧
        count = found.length ∧ database.stringBytes? id = some (after.take count) ∧
          after.drop count = destination.drop count := by
  cases resolved : database.resolveString id with
  | error cause =>
      rw [copyString_unresolved resolved]
      simp
  | ok found =>
      obtain ⟨bytes, read, text, length⟩ := exists_stringBytes? resolved
      rw [text]
      by_cases fits : found.length ≤ destination.length
      · rw [copyString_run resolved read fits, ← length]
        constructor
        · intro done
          cases done
          exact ⟨found, rfl, length ▸ fits, length, by simp, by simp⟩
        · rintro ⟨found', same, -, rfl, isFront, isRest⟩
          cases same
          rw [← length] at isFront isRest ⊢
          rw [← eq_append_drop_iff.mpr ⟨(Option.some.inj isFront).symm, isRest⟩]
      · rw [copyString_short resolved (Nat.not_le.mp fits)]
        simp [fits]

/-- Otherwise nothing changes, and a text that is resolved is too long. -/
theorem copyString_eq_error_iff :
    (database.copyString id).run destination = .error cause after ↔
      after = destination ∧ (database.resolveString id = .error cause ∨
        ∃ found, database.resolveString id = .ok found ∧ destination.length < found.length ∧
          cause = .bufferTooSmall found.length destination.length) := by
  cases resolved : database.resolveString id with
  | error reason =>
      rw [copyString_unresolved resolved, error_eq_error_iff]
      simp [eq_comm]
  | ok found =>
      obtain ⟨bytes, read, -, -⟩ := exists_stringBytes? resolved
      by_cases fits : found.length ≤ destination.length
      · rw [copyString_run resolved read fits]
        simp [Nat.not_lt.mpr fits]
      · rw [copyString_short resolved (Nat.not_le.mp fits), error_eq_error_iff]
        simp [Nat.not_le.mp fits]

end Bytes

/-! ## Units -/

section Units

variable {destination after : List UInt16}

theorem readString_unresolved (fails : database.resolveString id = .error cause) :
    (database.readString id).run destination = .error cause destination := by
  rw [readString, fails]
  rfl

theorem readString_odd (resolved : database.resolveString id = .ok found)
    (odd : found.length % 2 = 1) :
    (database.readString id).run destination =
      .error (.format (.oddText id found.length)) destination := by
  simp only [readString, resolved, ofExcept, EStateM.run_bind, EStateM.run_pure, odd, ne_eq,
    Nat.one_ne_zero, not_false_eq_true, if_true]
  rfl

theorem readString_short (resolved : database.resolveString id = .ok found)
    (even : found.length % 2 = 0) (short : destination.length * 2 < found.length) :
    (database.readString id).run destination =
      .error (.bufferTooSmall found.length (destination.length * 2)) destination := by
  simp only [readString, resolved, ofExcept, EStateM.run_bind, EStateM.run_pure, EStateM.run_get,
    even, short, ne_eq, not_true_eq_false, if_true, if_false]
  rfl

theorem readString_run (resolved : database.resolveString id = .ok found)
    (even : found.length % 2 = 0)
    (read : database.image.slice found.offset found.length = .ok bytes)
    (fits : found.length ≤ destination.length * 2) :
    (database.readString id).run destination =
      .ok (found.length / 2)
        (unitsOfBytes bytes ++ destination.drop (unitsOfBytes bytes).length) := by
  have long := Nat.not_lt.mpr fits
  simp only [readString, resolved, ofExcept, EStateM.run_bind, EStateM.run_pure, EStateM.run_get,
    even, long, read, ne_eq, not_true_eq_false, if_false]
  rfl

/-- The units are copied just if the text is resolved, has an even number of bytes and fits. -/
theorem readString_eq_ok_iff :
    (database.readString id).run destination = .ok count after ↔
      ∃ found, database.resolveString id = .ok found ∧ found.length % 2 = 0 ∧
        found.length ≤ destination.length * 2 ∧ count = found.length / 2 ∧
          database.stringBytes? id = some (bytesOfUnits (after.take count)) ∧
            after.drop count = destination.drop count := by
  cases resolved : database.resolveString id with
  | error cause =>
      rw [readString_unresolved resolved]
      simp
  | ok found =>
      obtain ⟨bytes, read, text, length⟩ := exists_stringBytes? resolved
      rcases Nat.mod_two_eq_zero_or_one found.length with even | odd
      · by_cases fits : found.length ≤ destination.length * 2
        · -- Only an even number of bytes is got back from its units.
          have units : bytesOfUnits (unitsOfBytes bytes) = bytes :=
            bytesOfUnits_unitsOfBytes (length ▸ even)
          have half : found.length / 2 = (unitsOfBytes bytes).length := by
            rw [← length, ← units, length_bytesOfUnits, unitsOfBytes_bytesOfUnits]
            omega
          rw [readString_run resolved even read fits, text, half]
          constructor
          · intro done
            cases done
            exact ⟨found, rfl, even, fits, half.symm, by simp [units], by simp⟩
          · rintro ⟨found', same, -, -, rfl, isFront, isRest⟩
            cases same
            rw [half] at isFront isRest ⊢
            have isUnits := congrArg unitsOfBytes (Option.some.inj isFront)
            rw [unitsOfBytes_bytesOfUnits] at isUnits
            rw [← eq_append_drop_iff.mpr ⟨isUnits.symm, isRest⟩]
        · rw [readString_short resolved even (Nat.not_le.mp fits)]
          simp [fits]
      · rw [readString_odd resolved odd]
        simp [odd]

/-- Otherwise nothing changes. An odd number of bytes is named before a destination that is too
short. -/
theorem readString_eq_error_iff :
    (database.readString id).run destination = .error cause after ↔
      after = destination ∧ (database.resolveString id = .error cause ∨
        ∃ found, database.resolveString id = .ok found ∧
          (found.length % 2 = 1 ∧ cause = .format (.oddText id found.length) ∨
            found.length % 2 = 0 ∧ destination.length * 2 < found.length ∧
              cause = .bufferTooSmall found.length (destination.length * 2))) := by
  cases resolved : database.resolveString id with
  | error reason =>
      rw [readString_unresolved resolved, error_eq_error_iff]
      simp [eq_comm]
  | ok found =>
      obtain ⟨bytes, read, -, -⟩ := exists_stringBytes? resolved
      rcases Nat.mod_two_eq_zero_or_one found.length with even | odd
      · by_cases fits : found.length ≤ destination.length * 2
        · rw [readString_run resolved even read fits]
          simp [even, Nat.not_lt.mpr fits]
        · rw [readString_short resolved even (Nat.not_le.mp fits), error_eq_error_iff]
          simp [even, Nat.not_le.mp fits]
      · rw [readString_odd resolved odd, error_eq_error_iff]
        simp [odd]

/-- The units that are copied are read as the text. -/
theorem string?_of_readString (done : (database.readString id).run destination = .ok count after) :
    database.string? id =
      some (String.ofList (ofUnits ((after.take count).takeWhile (· != 0)))) := by
  obtain ⟨-, -, -, -, -, text, -⟩ := readString_eq_ok_iff.mp done
  rw [string?, text, Option.map_some, decode, unitsOfBytes_bytesOfUnits]

end Units

end Database

namespace Image

variable {image : Image} {id : Nat} {cause : Error} {destination after : List UInt8}

/-! ## Whole records -/

theorem readBinary_otherKind (other : image.kindAt? id ≠ some .binary) :
    (image.readBinary id).run destination =
      .error (.typeMismatch (image.tagAt id) .binary) destination := by
  rw [readBinary, if_neg other]
  rfl

theorem readBinary_outside (isBinary : image.kindAt? id = some .binary)
    (outside : image.size < id + destination.length) :
    (image.readBinary id).run destination =
      .error (.outOfRange id (min destination.length (sizeLimit - 1)) image.size) destination := by
  rw [readBinary, if_pos isBinary]
  by_cases uncountable : sizeLimit ≤ destination.length
  · have most : min destination.length (sizeLimit - 1) = sizeLimit - 1 := by omega
    simp only [EStateM.run_bind, EStateM.run_get, uncountable, if_true, most]
    rfl
  · have most : min destination.length (sizeLimit - 1) = destination.length := by omega
    simp only [EStateM.run_bind, EStateM.run_get, uncountable, if_false, most,
      slice_of_lt image outside]
    rfl

theorem readBinary_run (isBinary : image.kindAt? id = some .binary)
    (inside : id + destination.length ≤ image.size) :
    (image.readBinary id).run destination =
      .ok () ((image.toList.drop id).take destination.length) := by
  have countable : ¬sizeLimit ≤ destination.length := by
    have limit : image.size < sizeLimit := image.size_lt
    omega
  rw [readBinary, if_pos isBinary]
  simp only [EStateM.run_bind, EStateM.run_get, countable, if_false, slice_of_le image inside]
  rfl

/-- A destination is filled just if a binary record begins there and the image goes on for so many
bytes, whatever length the record says. -/
theorem readBinary_eq_ok_iff :
    (image.readBinary id).run destination = .ok () after ↔
      image.kindAt? id = some .binary ∧ id + destination.length ≤ image.size ∧
        after = (image.toList.drop id).take destination.length := by
  by_cases isBinary : image.kindAt? id = some .binary
  · by_cases inside : id + destination.length ≤ image.size
    · rw [readBinary_run isBinary inside]
      simp [isBinary, inside, eq_comm]
    · rw [readBinary_outside isBinary (Nat.not_le.mp inside)]
      simp [inside]
  · rw [readBinary_otherKind isBinary]
    simp [isBinary]

/-- Otherwise nothing changes. -/
theorem readBinary_eq_error_iff :
    (image.readBinary id).run destination = .error cause after ↔
      after = destination ∧
        (image.kindAt? id ≠ some .binary ∧ cause = .typeMismatch (image.tagAt id) .binary ∨
          image.kindAt? id = some .binary ∧ image.size < id + destination.length ∧
            cause = .outOfRange id (min destination.length (sizeLimit - 1)) image.size) := by
  by_cases isBinary : image.kindAt? id = some .binary
  · by_cases inside : id + destination.length ≤ image.size
    · rw [readBinary_run isBinary inside]
      simp [isBinary, Nat.not_lt.mpr inside]
    · rw [readBinary_outside isBinary (Nat.not_le.mp inside), error_eq_error_iff]
      simp [isBinary, Nat.not_le.mp inside]
  · rw [readBinary_otherKind isBinary, error_eq_error_iff]
    simp [isBinary]

end Image

namespace Database

open Text.Utf16

/-- All ways of getting at the bytes of a record agree. The text stands in the stretch to which it is
resolved, which lies in the image; a copy gives just these bytes or units to the first places of its
destination and keeps the others, and one that fails keeps all of them. -/
structure CopiesAgree (database : Database) (id : Nat) : Prop where
  inside : ∀ found, database.resolveString id = .ok found →
    found.offset + found.length ≤ database.image.size
  bytes : ∀ data, database.stringBytes? id = some data ↔
    ∃ found, database.resolveString id = .ok found ∧
      data = (database.image.toList.drop found.offset).take found.length
  text : database.string? id = (database.stringBytes? id).map decode
  copied : ∀ destination count after,
    (database.copyString id).run destination = .ok count after ↔
      ∃ found, database.resolveString id = .ok found ∧ found.length ≤ destination.length ∧
        count = found.length ∧ database.stringBytes? id = some (after.take count) ∧
          after.drop count = destination.drop count
  copyRefused : ∀ destination cause after,
    (database.copyString id).run destination = .error cause after ↔
      after = destination ∧ (database.resolveString id = .error cause ∨
        ∃ found, database.resolveString id = .ok found ∧ destination.length < found.length ∧
          cause = .bufferTooSmall found.length destination.length)
  unitsCopied : ∀ destination count after,
    (database.readString id).run destination = .ok count after ↔
      ∃ found, database.resolveString id = .ok found ∧ found.length % 2 = 0 ∧
        found.length ≤ destination.length * 2 ∧ count = found.length / 2 ∧
          database.stringBytes? id = some (bytesOfUnits (after.take count)) ∧
            after.drop count = destination.drop count
  unitsRefused : ∀ destination cause after,
    (database.readString id).run destination = .error cause after ↔
      after = destination ∧ (database.resolveString id = .error cause ∨
        ∃ found, database.resolveString id = .ok found ∧
          (found.length % 2 = 1 ∧ cause = .format (.oddText id found.length) ∨
            found.length % 2 = 0 ∧ destination.length * 2 < found.length ∧
              cause = .bufferTooSmall found.length (destination.length * 2)))
  unitsRead : ∀ destination count after,
    (database.readString id).run destination = .ok count after →
      database.string? id =
        some (String.ofList (ofUnits ((after.take count).takeWhile (· != 0))))
  filled : ∀ destination after,
    (database.image.readBinary id).run destination = .ok () after ↔
      database.image.kindAt? id = some .binary ∧
        id + destination.length ≤ database.image.size ∧
          after = (database.image.toList.drop id).take destination.length
  fillRefused : ∀ destination cause after,
    (database.image.readBinary id).run destination = .error cause after ↔
      after = destination ∧
        (database.image.kindAt? id ≠ some .binary ∧
            cause = .typeMismatch (database.image.tagAt id) .binary ∨
          database.image.kindAt? id = some .binary ∧
            database.image.size < id + destination.length ∧
              cause = .outOfRange id (min destination.length (sizeLimit - 1)) database.image.size)

/-- Whatever the bytes of a database, and at every offset, its copies agree with its readers. -/
theorem copies_agree (database : Database) (id : Nat) : database.CopiesAgree id where
  inside _ := inside_of_resolveString
  bytes _ := stringBytes?_eq_some_iff_take
  text := rfl
  copied _ _ _ := copyString_eq_ok_iff
  copyRefused _ _ _ := copyString_eq_error_iff
  unitsCopied _ _ _ := readString_eq_ok_iff
  unitsRefused _ _ _ := readString_eq_error_iff
  unitsRead _ _ _ := string?_of_readString
  filled _ _ := Image.readBinary_eq_ok_iff
  fillRefused _ _ _ := Image.readBinary_eq_error_iff

end Database

end TagTree

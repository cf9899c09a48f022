import TagTree.Proofs.Utf16
import TagTree.Proofs.Writing

/-!
# Stored text among other bytes

The units of a text never pair up with what stands behind them, so reading goes over them and then
on as if it began there. A stored text is therefore read up to its first zero character whatever
follows it. Reading makes a text without a zero character of any bytes, with lone surrogates or half
a unit at the end, and such a text is its own reading once it is stored.
-/

namespace TagTree.Text.Utf16

/-! ## Zero units and zero characters -/

theorem toNat_ofNat_char {value : Nat} (valid : value.isValidChar) :
    (Char.ofNat value).toNat = value := by
  rw [Char.ofNat, dif_pos valid]
  rfl

/-- A character whose number is not zero is not the zero character. -/
theorem ofNat_ne_zero {value : Nat} (valid : value.isValidChar) (positive : 0 < value) :
    Char.ofNat value ≠ '\x00' := by
  intro isZero
  have same := congrArg Char.toNat isZero
  rw [toNat_ofNat_char valid] at same
  exact Nat.ne_of_gt positive same

/-- Only the zero unit is read as the zero character. -/
theorem charOfUnit_ne_zero {unit : UInt16} (nonzero : unit ≠ 0) : charOfUnit unit ≠ '\x00' := by
  have positive : 0 < unit.toNat := by
    apply Nat.pos_of_ne_zero
    intro isZero
    exact nonzero (UInt16.toNat_inj.mp isZero)
  have small := unit.toNat_lt
  rw [charOfUnit]
  split
  · decide
  · next noSurrogate =>
      apply ofNat_ne_zero _ positive
      simp [isHigh, isLow, UInt16.le_iff_toNat_le, UInt16.lt_iff_toNat_lt] at noSurrogate
      simp only [Nat.isValidChar]
      omega

/-- A surrogate pair is a character beyond the basic plane. -/
theorem charOfPair_ne_zero {high low : UInt16} (isHigh : isHigh high) (isLow : isLow low) :
    charOfPair high low ≠ '\x00' := by
  simp [Utf16.isHigh, UInt16.le_iff_toNat_le, UInt16.lt_iff_toNat_lt] at isHigh
  simp [Utf16.isLow, UInt16.le_iff_toNat_le, UInt16.lt_iff_toNat_lt] at isLow
  apply ofNat_ne_zero
  · simp only [Nat.isValidChar]
    omega
  · omega

theorem zero_notMem_ofUnits {units : List UInt16} (nonzero : ∀ unit ∈ units, unit ≠ 0) :
    '\x00' ∉ ofUnits units := by
  fun_induction ofUnits units with
  | case1 => exact List.not_mem_nil
  | case2 unit =>
      have first := charOfUnit_ne_zero (nonzero unit (by simp))
      simpa using first.symm
  | case3 unit next rest isPair ih =>
      obtain ⟨isHigh, isLow⟩ := Bool.and_eq_true_iff.mp isPair
      have first := charOfPair_ne_zero isHigh isLow
      have others := ih fun other member => nonzero other (by simp [member])
      simpa using ⟨first.symm, others⟩
  | case4 unit next rest noPair ih =>
      have first := charOfUnit_ne_zero (nonzero unit (by simp))
      have others := ih fun other member => nonzero other (by simp [List.mem_cons.mp member])
      simpa using ⟨first.symm, others⟩

/-- No reading has a zero character. -/
theorem zero_notMem_decode (bytes : List UInt8) : '\x00' ∉ (decode bytes).toList := by
  rw [decode, String.toList_ofList]
  apply zero_notMem_ofUnits
  intro unit member
  simpa using List.all_eq_true.mp List.all_takeWhile unit member

/-! ## Reading on -/

/-- The units of a text are read as that text, and reading goes on behind them. -/
theorem decode_units_append {text : List Char} (noZero : '\x00' ∉ text) (rest : List UInt8) :
    decode (bytesOfUnits (units text) ++ rest) = String.ofList text ++ decode rest := by
  have passes : ∀ unit ∈ units text, (unit != 0) = true := by
    intro unit member
    simpa using ne_zero_of_mem_units noZero member
  rw [decode, unitsOfBytes_bytesOfUnits_append, List.takeWhile_append_of_pos passes,
    ofUnits_units_append, decode, String.ofList_append]

theorem units_append (first second : List Char) :
    units (first ++ second) = units first ++ units second :=
  List.flatMap_append

theorem bytesOfUnits_append (first second : List UInt16) :
    bytesOfUnits (first ++ second) = bytesOfUnits first ++ bytesOfUnits second :=
  List.flatMap_append

/-- Nothing is read behind a zero unit. -/
theorem decode_zero_append (following : List UInt16) (rest : List UInt8) :
    decode (bytesOfUnits (0 :: following) ++ rest) = "" := by
  rw [decode, unitsOfBytes_bytesOfUnits_append]
  rfl

/-- The characters of a text before its first zero character. -/
def beforeZero (text : List Char) : List Char :=
  text.takeWhile (· ≠ '\x00')

theorem zero_notMem_beforeZero (text : List Char) : '\x00' ∉ beforeZero text := by
  intro member
  simpa using List.all_eq_true.mp List.all_takeWhile '\x00' member

theorem beforeZero_eq_self_iff {text : List Char} : beforeZero text = text ↔ '\x00' ∉ text := by
  constructor
  · intro same
    rw [← same]
    exact zero_notMem_beforeZero text
  · intro noZero
    have passes : ∀ char ∈ text, decide (char ≠ '\x00') = true := by
      intro char member
      rw [decide_eq_true_iff]
      rintro rfl
      exact noZero member
    have whole : (text ++ []).takeWhile (· ≠ '\x00') = text ++ [].takeWhile (· ≠ '\x00') :=
      List.takeWhile_append_of_pos passes
    rwa [List.append_nil, List.takeWhile_nil, List.append_nil] at whole

/-- Behind the characters before it stands the first zero character, if there is one. -/
theorem eq_beforeZero_or (text : List Char) :
    text = beforeZero text ∨ ∃ behind, text = beforeZero text ++ '\x00' :: behind := by
  induction text with
  | nil => exact .inl rfl
  | cons char rest ih =>
      by_cases isZero : char = '\x00'
      · exact .inr ⟨rest, by simp [beforeZero, isZero]⟩
      · have first : beforeZero (char :: rest) = char :: beforeZero rest := by
          simp [beforeZero, isZero]
        rw [first]
        rcases ih with whole | ⟨behind, split⟩
        · exact .inl (congrArg (char :: ·) whole)
        · exact .inr ⟨behind, congrArg (char :: ·) split⟩

/-- Behind the units of these characters stands a zero unit, that of the first zero character or the
terminator. -/
theorem exists_encode_eq (text : String) :
    ∃ following, encode text =
      bytesOfUnits (units (beforeZero text.toList)) ++ bytesOfUnits (0 :: following) := by
  rcases eq_beforeZero_or text.toList with whole | ⟨behind, split⟩
  · refine ⟨[], ?_⟩
    rw [← whole, encode, bytesOfUnits_append]
  · refine ⟨units behind ++ [0], ?_⟩
    have zeroUnit : units ('\x00' :: behind) = 0 :: units behind := rfl
    rw [encode, ← bytesOfUnits_append, ← List.cons_append, ← List.append_assoc, ← zeroUnit,
      ← units_append, ← split]

/-- A stored text is read up to its first zero character, whatever follows it. -/
theorem decode_encode_append (text : String) (rest : List UInt8) :
    decode (encode text ++ rest) = String.ofList (beforeZero text.toList) := by
  obtain ⟨following, stored⟩ := exists_encode_eq text
  rw [stored, List.append_assoc, decode_units_append (zero_notMem_beforeZero _),
    decode_zero_append, String.append_empty]

/-- Different texts have different stored forms. -/
theorem encode_injective : Function.Injective encode := by
  intro first second same
  have sameUnits := congrArg unitsOfBytes same
  rw [encode, encode, unitsOfBytes_bytesOfUnits, unitsOfBytes_bytesOfUnits,
    List.append_cancel_right_eq] at sameUnits
  have sameTexts := congrArg ofUnits sameUnits
  have read : ∀ text : String, ofUnits (units text.toList) = text.toList := by
    intro text
    have whole := ofUnits_units_append text.toList []
    rwa [List.append_nil, ofUnits, List.append_nil] at whole
  rw [read, read] at sameTexts
  exact String.toList_inj.mp sameTexts

/-- Without its terminator a stored text is just its units. -/
theorem take_encode (text : String) :
    (encode text).take ((encode text).length - 2) = bytesOfUnits (units text.toList) := by
  rw [encode, bytesOfUnits_append]
  apply List.take_left'
  simp [bytesOfUnits]

/-- A text is got back from its stored form just if a writer takes it. -/
theorem decode_encode_eq_self_iff (text : String) :
    decode (encode text) = text ↔ Database.requireNoZero text = pure () := by
  have read := decode_encode_append text []
  rw [List.append_nil] at read
  rw [read, ← String.toList_inj, String.toList_ofList, beforeZero_eq_self_iff]
  constructor
  · exact Database.requireNoZero_of_notMem
  · intro accepted hasZero
    obtain ⟨index, refused⟩ := Database.requireNoZero_of_mem hasZero
    have both := congrArg (·.run (Database.inMemory {})) (accepted.symm.trans refused)
    cases both

/-- Reading is a left inverse of storing as far as that can be. A text without a zero character is
read in front of whatever follows its units; any text is read up to its first zero character, and so
whole just if a writer takes it. What is read never has a zero character and is read again once it is
stored, and no two texts are stored alike. -/
theorem reads_stored :
    (∀ (text : String) (rest : List UInt8), '\x00' ∉ text.toList →
      decode ((encode text).take ((encode text).length - 2) ++ rest) = text ++ decode rest) ∧
    (∀ (text : String) (rest : List UInt8),
      decode (encode text ++ rest) = String.ofList (beforeZero text.toList)) ∧
    (∀ text : String, decode (encode text) = text ↔ Database.requireNoZero text = pure ()) ∧
    (∀ bytes : List UInt8, '\x00' ∉ (decode bytes).toList) ∧
    (∀ bytes : List UInt8, decode (encode (decode bytes)) = decode bytes) ∧
    Function.Injective encode := by
  refine ⟨?_, decode_encode_append, decode_encode_eq_self_iff, zero_notMem_decode, ?_,
    encode_injective⟩
  · intro text rest noZero
    rw [take_encode, decode_units_append noZero, String.ofList_toList]
  · intro bytes
    exact decode_encode (zero_notMem_decode bytes)

/-- The last unit of the text is a low surrogate, and half a unit follows a high one behind it. -/
theorem reads_stored_beforeSurrogate :
    '\x00' ∉ "a😀".toList ∧
      decode ((encode "a😀").take ((encode "a😀").length - 2) ++ [0x3D, 0xD8, 0x41]) =
        "a😀" ++ decode [0x3D, 0xD8, 0x41] :=
  ⟨by decide, reads_stored.1 _ _ (by decide)⟩

end TagTree.Text.Utf16

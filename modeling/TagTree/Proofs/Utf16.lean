import TagTree.Text.Utf16

/-!
# Stored text is read back

Every character gives one unit outside the surrogate range or a high and a low surrogate, and no
other character gives the same units. So reading the units of a text, whatever follows them, gives
the text first, and a text without a zero character is got back from its stored form.
-/

namespace TagTree.Text.Utf16

/-- No character is a surrogate. -/
theorem toNat_bounds (char : Char) :
    char.toNat < 0xD800 ∨ 0xDFFF < char.toNat ∧ char.toNat < 0x110000 :=
  char.valid

theorem toNat_ofNat_of_lt {value : Nat} (small : value < 0x10000) :
    (UInt16.ofNat value).toNat = value :=
  UInt16.toNat_ofNat_of_lt' small

theorem isHigh_ofNat {value : Nat} (small : value < 0x10000) :
    isHigh (UInt16.ofNat value) = decide (0xD800 ≤ value ∧ value < 0xDC00) := by
  simp [isHigh, UInt16.le_iff_toNat_le, UInt16.lt_iff_toNat_lt, toNat_ofNat_of_lt small]

theorem isLow_ofNat {value : Nat} (small : value < 0x10000) :
    isLow (UInt16.ofNat value) = decide (0xDC00 ≤ value ∧ value < 0xE000) := by
  simp [isLow, UInt16.le_iff_toNat_le, UInt16.lt_iff_toNat_lt, toNat_ofNat_of_lt small]

/-- The unit of a character of the basic plane is no surrogate. -/
theorem isHigh_toNat {char : Char} (small : char.toNat < 0x10000) :
    isHigh (UInt16.ofNat char.toNat) = false := by
  have bounds := toNat_bounds char
  rw [isHigh_ofNat small, decide_eq_false_iff_not]
  omega

theorem isLow_toNat {char : Char} (small : char.toNat < 0x10000) :
    isLow (UInt16.ofNat char.toNat) = false := by
  have bounds := toNat_bounds char
  rw [isLow_ofNat small, decide_eq_false_iff_not]
  omega

theorem charOfUnit_toNat {char : Char} (small : char.toNat < 0x10000) :
    charOfUnit (UInt16.ofNat char.toNat) = char := by
  simp [charOfUnit, isHigh_toNat small, isLow_toNat small, toNat_ofNat_of_lt small]

/-- The two surrogates of a character beyond the basic plane are put together again. -/
theorem charOfPair_toNat {char : Char} (large : 0x10000 ≤ char.toNat) :
    charOfPair (UInt16.ofNat (0xD800 + (char.toNat - 0x10000) / 0x400))
      (UInt16.ofNat (0xDC00 + (char.toNat - 0x10000) % 0x400)) = char := by
  have bounds := toNat_bounds char
  have whole :
      0x10000 + (0xD800 + (char.toNat - 0x10000) / 0x400 - 0xD800) * 0x400 +
        (0xDC00 + (char.toNat - 0x10000) % 0x400 - 0xDC00) = char.toNat := by
    omega
  rw [charOfPair, toNat_ofNat_of_lt (by omega), toNat_ofNat_of_lt (by omega), whole,
    Char.ofNat_toNat]

/-- Reading the units of one character gives it and goes on with what follows. -/
theorem ofUnits_unitsOfChar_append (char : Char) (rest : List UInt16) :
    ofUnits (unitsOfChar char ++ rest) = char :: ofUnits rest := by
  have bounds := toNat_bounds char
  by_cases small : char.toNat < 0x10000
  · rw [unitsOfChar, if_pos small, List.singleton_append]
    cases rest with
    | nil => exact congrArg (· :: []) (charOfUnit_toNat small)
    | cons next rest =>
        rw [ofUnits, isHigh_toNat small, Bool.false_and, if_neg Bool.false_ne_true,
          charOfUnit_toNat small]
  · have high : isHigh (UInt16.ofNat (0xD800 + (char.toNat - 0x10000) / 0x400)) = true := by
      rw [isHigh_ofNat (by omega), decide_eq_true_iff]
      omega
    have low : isLow (UInt16.ofNat (0xDC00 + (char.toNat - 0x10000) % 0x400)) = true := by
      rw [isLow_ofNat (by omega), decide_eq_true_iff]
      omega
    rw [unitsOfChar, if_neg small, List.cons_append, List.singleton_append, ofUnits, high, low,
      Bool.true_and, if_pos rfl, charOfPair_toNat (by omega)]

/-- Reading the units of a text gives it and goes on with what follows. -/
theorem ofUnits_units_append (text : List Char) (rest : List UInt16) :
    ofUnits (units text ++ rest) = text ++ ofUnits rest := by
  induction text with
  | nil => rfl
  | cons char text ih =>
      have split : units (char :: text) ++ rest = unitsOfChar char ++ (units text ++ rest) := by
        simp [units]
      rw [split, ofUnits_unitsOfChar_append, ih, List.cons_append]

/-- Only the zero character has a zero unit. -/
theorem ne_zero_of_mem_unitsOfChar {char : Char} {unit : UInt16} (nonzero : char ≠ '\x00')
    (member : unit ∈ unitsOfChar char) : unit ≠ 0 := by
  have bounds := toNat_bounds char
  have positive : char.toNat ≠ 0 := by
    intro zero
    exact nonzero (Char.toNat_inj.mp zero)
  intro zero
  subst zero
  by_cases small : char.toNat < 0x10000
  · rw [unitsOfChar, if_pos small, List.mem_singleton] at member
    have value := congrArg UInt16.toNat member
    rw [toNat_ofNat_of_lt small] at value
    exact positive value.symm
  · rw [unitsOfChar, if_neg small, List.mem_cons,
      List.mem_singleton] at member
    rcases member with member | member
    · have value := congrArg UInt16.toNat member
      rw [toNat_ofNat_of_lt (by omega), UInt16.toNat_zero] at value
      omega
    · have value := congrArg UInt16.toNat member
      rw [toNat_ofNat_of_lt (by omega), UInt16.toNat_zero] at value
      omega

theorem ne_zero_of_mem_units {text : List Char} {unit : UInt16} (noZero : '\x00' ∉ text)
    (member : unit ∈ units text) : unit ≠ 0 := by
  obtain ⟨char, inText, inUnits⟩ := List.mem_flatMap.mp member
  apply ne_zero_of_mem_unitsOfChar _ inUnits
  rintro rfl
  exact noZero inText

/-- A text without a zero character is got back from its stored form. -/
theorem decode_encode {text : String} (noZero : '\x00' ∉ text.toList) :
    decode (encode text) = text := by
  have cut : (units text.toList ++ [0]).takeWhile (· != 0) = units text.toList := by
    rw [List.takeWhile_append_of_pos]
    · simp
    · intro unit member
      simpa using ne_zero_of_mem_units noZero member
  have whole := ofUnits_units_append text.toList []
  rw [List.append_nil, ofUnits, List.append_nil] at whole
  rw [decode, encode, unitsOfBytes_bytesOfUnits, cut, whole, String.ofList_toList]

/-- An even number of bytes is got back from their units. -/
theorem bytesOfUnits_unitsOfBytes {bytes : List UInt8} (even : bytes.length % 2 = 0) :
    bytesOfUnits (unitsOfBytes bytes) = bytes := by
  fun_induction unitsOfBytes bytes with
  | case1 low high rest ih =>
      have restEven : rest.length % 2 = 0 := by
        simpa [Nat.add_assoc] using even
      have small := LittleEndian.decode_lt [low, high]
      have kept : (UInt16.ofNat (LittleEndian.decode [low, high])).toNat =
          LittleEndian.decode [low, high] :=
        UInt16.toNat_ofNat_of_lt' small
      have pair : LittleEndian.encode 2 (LittleEndian.decode [low, high]) = [low, high] :=
        LittleEndian.encode_decode [low, high]
      rw [bytesOfUnits, List.flatMap_cons, kept, pair]
      exact congrArg ([low, high] ++ ·) (ih restEven)
  | case2 bytes short =>
      cases bytes with
      | nil => rfl
      | cons first rest =>
          cases rest with
          | nil => cases even
          | cons second rest => exact absurd rfl (short first second rest)

end TagTree.Text.Utf16

import Mathlib.Data.List.Forall2
import Mathlib.Data.Nat.Digits.Defs
import TagTree.Tag

/-!
# Numerals

A numeral is a row of digits, perhaps behind a plus sign, and its number is the sum of the digits by
their places. Reading adds up from the left and gives up as soon as the limit is reached, since the
digits still to come cannot make the number smaller. So exactly the numerals of numbers below the
limit are read, as these numbers, and tags are read from exactly the texts that denote them. The
form in which a tag is shown is one of these texts.
-/

namespace TagTree

namespace Numeral

variable {base limit value number digit : Nat} {char : Char} {text front behind : List Char}
variable {fault : Fault}

/-- A character stands for a digit of a base up to sixteen: it is the character with which the digit
is written, in either case. -/
def IsDigit (base : Nat) (char : Char) (digit : Nat) : Prop :=
  digit < base ∧ (char = digit.digitChar ∨ char = digit.digitChar.toUpper)

/-- A text spells out a number: all its characters are digits, the last place counts once and every
other place `base` times as much as the one to its right. -/
def Spells (base : Nat) (text : List Char) (number : Nat) : Prop :=
  ∃ digits, List.Forall₂ (IsDigit base) text digits ∧ Nat.ofDigits base digits.reverse = number

/-- The numerals of a base: one digit or more, perhaps behind one plus sign. -/
inductive Denotes (base : Nat) : List Char → Nat → Prop where
  | plain {digits : List Char} {number : Nat} (nonempty : digits ≠ [])
      (spelled : Spells base digits number) : Denotes base digits number
  | signed {digits : List Char} {number : Nat} (nonempty : digits ≠ [])
      (spelled : Spells base digits number) : Denotes base ('+' :: digits) number

/-- What keeps a text from being the numeral of a number below a limit, whatever follows: there is
nothing, or what stands first after digits of a number below the limit is no digit, or the first
digits already make up a number that is not below it. -/
inductive Refused (base limit : Nat) (text : List Char) : Fault → Prop where
  | empty (nothing : text = []) : Refused base limit text .empty
  | invalidDigit {front behind : List Char} {char : Char} {number : Nat}
      (cut : unsigned text = front ++ char :: behind) (spelled : Spells base front number)
      (small : number < limit) (noDigit : ∀ digit, ¬IsDigit base char digit) :
      Refused base limit text .invalidDigit
  | tooLarge {front behind : List Char} {number : Nat} (cut : unsigned text = front ++ behind)
      (spelled : Spells base front number) (large : limit ≤ number) :
      Refused base limit text .tooLarge

/-! ## Digits -/

theorem toNat_digitChar : ∀ digit < 16,
    digit < 10 ∧ digit.digitChar.toNat = digit + 48 ∧
        digit.digitChar.toUpper.toNat = digit + 48 ∨
      10 ≤ digit ∧ digit.digitChar.toNat = digit + 87 ∧
        digit.digitChar.toUpper.toNat = digit + 55 := by
  decide

theorem isDigit_iff (baseLe : base ≤ 16) :
    IsDigit base char digit ↔ digit < base ∧
      (digit < 10 ∧ char.toNat = digit + 48 ∨
        10 ≤ digit ∧ (char.toNat = digit + 87 ∨ char.toNat = digit + 55)) := by
  apply and_congr_right
  intro digitLt
  have codes := toNat_digitChar digit (by omega)
  rw [← Char.toNat_inj, ← Char.toNat_inj]
  omega

theorem le_iff_toNat_le {left right : Char} : left ≤ right ↔ left.toNat ≤ right.toNat :=
  Iff.rfl

theorem digit?_eq_some_iff (baseLe : base ≤ 16) :
    digit? base char = some digit ↔ IsDigit base char digit := by
  rw [isDigit_iff baseLe]
  simp only [digit?, Option.ite_none_right_eq_some, Option.some.injEq, le_iff_toNat_le,
    Char.reduceToNat]
  split_ifs <;> omega

theorem not_isDigit_plus (baseLe : base ≤ 16) : ¬IsDigit base '+' digit := by
  rw [isDigit_iff baseLe, show '+'.toNat = 43 from rfl]
  omega

/-! ## Rows of digits -/

theorem spells_nil_iff : Spells base [] number ↔ number = 0 := by
  simp [Spells, eq_comm]

theorem spells_cons_iff :
    Spells base (char :: text) number ↔ ∃ digit rest, IsDigit base char digit ∧
      Spells base text rest ∧ number = digit * base ^ text.length + rest := by
  simp only [Spells, List.forall₂_cons_left_iff]
  constructor
  · rintro ⟨_, ⟨digit, digits, isDigit, areDigits, rfl⟩, rfl⟩
    refine ⟨digit, _, isDigit, ⟨digits, areDigits, rfl⟩, ?_⟩
    rw [Nat.ofDigits_reverse_cons, areDigits.length_eq, Nat.mul_comm, Nat.add_comm]
  · rintro ⟨digit, _, isDigit, ⟨digits, areDigits, rfl⟩, rfl⟩
    refine ⟨digit :: digits, ⟨digit, digits, isDigit, areDigits, rfl⟩, ?_⟩
    rw [Nat.ofDigits_reverse_cons, areDigits.length_eq, Nat.mul_comm, Nat.add_comm]

/-- Zeros in front change nothing. -/
theorem Spells.zeros_append (basePos : 0 < base) (spelled : Spells base text number) (count : Nat) :
    Spells base (List.replicate count '0' ++ text) number := by
  induction count with
  | zero => exact spelled
  | succ count ih =>
      have zero : IsDigit base '0' 0 := ⟨basePos, .inl rfl⟩
      exact spells_cons_iff.mpr ⟨0, number, zero, ih, by simp⟩

theorem Spells.concat (spelled : Spells base text number) (isDigit : IsDigit base char digit) :
    Spells base (text ++ [char]) (base * number + digit) := by
  obtain ⟨digits, areDigits, rfl⟩ := spelled
  refine ⟨digits ++ [digit], List.rel_append areDigits (.cons isDigit .nil), ?_⟩
  rw [List.reverse_append, List.reverse_singleton, List.singleton_append, Nat.ofDigits_cons,
    Nat.add_comm]

/-- The digits of a number spell it out, in capital letters too. -/
theorem spells_toDigits (baseGt : 1 < base) (number : Nat) :
    Spells base ((Nat.toDigits base number).map Char.toUpper) number := by
  have last (number : Nat) : IsDigit base (number % base).digitChar.toUpper (number % base) :=
    ⟨Nat.mod_lt number (Nat.zero_lt_of_lt baseGt), .inr rfl⟩
  induction number using Nat.strongRecOn with
  | ind number ih =>
      by_cases single : number < base
      · have alone := last number
        rw [Nat.mod_eq_of_lt single] at alone
        rw [Nat.toDigits_of_lt_base single]
        exact spells_cons_iff.mpr ⟨number, 0, alone, spells_nil_iff.mpr rfl, by simp⟩
      · have baseLe := Nat.not_lt.mp single
        have shorter : number / base < number :=
          Nat.div_lt_self (Nat.lt_of_lt_of_le (Nat.zero_lt_of_lt baseGt) baseLe) baseGt
        have spelled := (ih (number / base) shorter).concat (last number)
        rw [Nat.div_add_mod] at spelled
        rwa [Nat.toDigits_of_base_le baseGt baseLe, List.map_append]

/-- Every text begins with digits, perhaps none, up to its end or to a character that is none. -/
theorem exists_spells (base : Nat) (text : List Char) :
    ∃ front number behind, text = front ++ behind ∧ Spells base front number ∧
      ∀ char ∈ behind.head?, ∀ digit, ¬IsDigit base char digit := by
  induction text with
  | nil => exact ⟨[], 0, [], rfl, spells_nil_iff.mpr rfl, by simp⟩
  | cons char text ih =>
      by_cases isDigit : ∃ digit, IsDigit base char digit
      · obtain ⟨digit, isDigit⟩ := isDigit
        obtain ⟨front, number, behind, rfl, spelled, stops⟩ := ih
        exact ⟨char :: front, _, behind, rfl, spells_cons_iff.mpr
          ⟨digit, number, isDigit, spelled, rfl⟩, stops⟩
      · refine ⟨[], 0, char :: text, rfl, spells_nil_iff.mpr rfl, ?_⟩
        simpa using isDigit

theorem readDigits_cons (baseLe : base ≤ 16) (isDigit : IsDigit base char digit) :
    readDigits base limit value (char :: text) =
      if value * base + digit < limit then readDigits base limit (value * base + digit) text
      else .error .tooLarge := by
  rw [readDigits, (digit?_eq_some_iff baseLe).mpr isDigit]

theorem readDigits_of_noDigit (baseLe : base ≤ 16) (noDigit : ∀ digit, ¬IsDigit base char digit) :
    readDigits base limit value (char :: text) = .error .invalidDigit := by
  have unknown : digit? base char = none := by
    apply Option.eq_none_iff_forall_ne_some.mpr
    intro digit found
    exact noDigit digit ((digit?_eq_some_iff baseLe).mp found)
  rw [readDigits, unknown]

/-- What has been added up only grows with the digits that follow it. -/
theorem le_shifted (basePos : 0 < base) (length rest : Nat) :
    value ≤ value * base ^ length + rest :=
  Nat.le_add_right_of_le (Nat.le_mul_of_pos_right value (Nat.pow_pos basePos))

theorem shift_cons (value digit base length rest : Nat) :
    value * base ^ (length + 1) + (digit * base ^ length + rest) =
      (value * base + digit) * base ^ length + rest := by
  rw [Nat.pow_succ', Nat.add_mul, Nat.mul_assoc, Nat.add_assoc]

/-- Digits are read on as long as the number that they make up stays below the limit. -/
theorem readDigits_append (baseLe : base ≤ 16) (spelled : Spells base front number)
    (small : value * base ^ front.length + number < limit) :
    readDigits base limit value (front ++ behind) =
      readDigits base limit (value * base ^ front.length + number) behind := by
  induction front generalizing value number with
  | nil =>
      cases spells_nil_iff.mp spelled
      simp
  | cons char front ih =>
      obtain ⟨digit, rest, isDigit, restSpelled, rfl⟩ := spells_cons_iff.mp spelled
      have basePos : 0 < base := Nat.zero_lt_of_lt isDigit.1
      rw [List.length_cons, shift_cons] at small ⊢
      -- All the digits stay below the limit, so the first of them does.
      have soFar : value * base + digit < limit :=
        Nat.lt_of_le_of_lt (le_shifted basePos front.length rest) small
      rw [List.cons_append, readDigits_cons baseLe isDigit, if_pos soFar, ih restSpelled small]

/-- Reading stops at the limit, whatever follows. -/
theorem readDigits_of_le (baseLe : base ≤ 16) (spelled : Spells base front number)
    (below : value < limit) (large : limit ≤ value * base ^ front.length + number) :
    readDigits base limit value (front ++ behind) = .error .tooLarge := by
  induction front generalizing value number with
  | nil =>
      cases spells_nil_iff.mp spelled
      simp only [List.length_nil, Nat.pow_zero, Nat.mul_one, Nat.add_zero] at large
      exact absurd below (Nat.not_lt.mpr large)
  | cons char front ih =>
      obtain ⟨digit, rest, isDigit, restSpelled, rfl⟩ := spells_cons_iff.mp spelled
      rw [List.length_cons, shift_cons] at large
      rw [List.cons_append, readDigits_cons baseLe isDigit]
      by_cases soFar : value * base + digit < limit
      · rw [if_pos soFar, ih restSpelled soFar large]
      · rw [if_neg soFar]

/-! ## Whole numerals -/

theorem parse_nil : parse base limit [] = .error .empty :=
  rfl

theorem parse_of_ne_nil (nonempty : text ≠ []) :
    parse base limit text = readDigits base limit 0 (unsigned text) := by
  rw [parse, if_neg (by simpa using nonempty)]

theorem unsigned_ne_nil_iff : unsigned text ≠ [] ↔ text ≠ [] := by
  fun_cases unsigned text with
  | case1 char rest => simp
  | case2 => rfl

theorem eq_unsigned_or (text : List Char) : text = unsigned text ∨ text = '+' :: unsigned text := by
  fun_cases unsigned text with
  | case1 char rest => exact .inr rfl
  | case2 => exact .inl rfl

/-- Digits do not begin with a plus sign, so none is dropped. -/
theorem unsigned_of_spells (baseLe : base ≤ 16) (spelled : Spells base text number) :
    unsigned text = text := by
  fun_cases unsigned text with
  | case1 char rest =>
      obtain ⟨digit, rest, isDigit, -, -⟩ := spells_cons_iff.mp spelled
      exact absurd isDigit (not_isDigit_plus baseLe)
  | case2 => rfl

/-- A numeral is its digits after the sign. -/
theorem denotes_iff (baseLe : base ≤ 16) :
    Denotes base text number ↔ text ≠ [] ∧ Spells base (unsigned text) number := by
  constructor
  · intro denoted
    cases denoted with
    | plain nonempty spelled =>
        refine ⟨nonempty, ?_⟩
        rwa [unsigned_of_spells baseLe spelled]
    | @signed digits _ nonempty spelled =>
        refine ⟨List.cons_ne_nil _ _, ?_⟩
        cases digits with
        | nil => contradiction
        | cons char rest => exact spelled
  · rintro ⟨nonempty, spelled⟩
    have digits := unsigned_ne_nil_iff.mpr nonempty
    obtain plain | signed := eq_unsigned_or text
    · rw [plain]
      exact .plain digits spelled
    · rw [signed]
      exact .signed digits spelled

theorem parse_of_denotes (baseLe : base ≤ 16) (denoted : Denotes base text number)
    (small : number < limit) : parse base limit text = .ok number := by
  obtain ⟨nonempty, spelled⟩ := (denotes_iff baseLe).mp denoted
  rw [parse_of_ne_nil nonempty, ← List.append_nil (unsigned text),
    readDigits_append baseLe spelled (by simpa using small), readDigits, Nat.zero_mul, Nat.zero_add]

theorem parse_of_refused (baseLe : base ≤ 16) (limitPos : 0 < limit)
    (refused : Refused base limit text fault) : parse base limit text = .error fault := by
  cases refused with
  | empty nothing => rw [nothing, parse_nil]
  | @invalidDigit front behind char number cut spelled small noDigit =>
      have nonempty : text ≠ [] := unsigned_ne_nil_iff.mp (by simp [cut])
      rw [parse_of_ne_nil nonempty, cut, readDigits_append baseLe spelled (by simpa using small),
        readDigits_of_noDigit baseLe noDigit]
  | @tooLarge front behind number cut spelled large =>
      have digits : front ≠ [] := by
        rintro rfl
        rw [spells_nil_iff.mp spelled] at large
        exact absurd limitPos (Nat.not_lt.mpr large)
      have nonempty : text ≠ [] := unsigned_ne_nil_iff.mp (by simp [cut, digits])
      rw [parse_of_ne_nil nonempty, cut,
        readDigits_of_le baseLe spelled limitPos (by simpa using large)]

/-- The digits at the beginning decide: they fill the text with a number below the limit, or the
text is refused for what they make up or for what follows them. -/
theorem denotes_or_refused (baseLe : base ≤ 16) (limit : Nat) (text : List Char) :
    (∃ number < limit, Denotes base text number) ∨ ∃ fault, Refused base limit text fault := by
  by_cases nothing : text = []
  · exact .inr ⟨.empty, .empty nothing⟩
  · obtain ⟨front, number, behind, cut, spelled, stops⟩ := exists_spells base (unsigned text)
    by_cases small : number < limit
    · cases behind with
      | nil =>
          rw [List.append_nil] at cut
          rw [← cut] at spelled
          exact .inl ⟨number, small, (denotes_iff baseLe).mpr ⟨nothing, spelled⟩⟩
      | cons char behind =>
          have noDigit := stops char rfl
          exact .inr ⟨.invalidDigit, .invalidDigit cut spelled small noDigit⟩
    · exact .inr ⟨.tooLarge, .tooLarge cut spelled (Nat.not_lt.mp small)⟩

/-- The numerals of numbers below the limit are read, as these numbers. -/
theorem parse_eq_ok_iff (baseLe : base ≤ 16) (limitPos : 0 < limit) :
    parse base limit text = .ok number ↔ Denotes base text number ∧ number < limit := by
  constructor
  · intro read
    obtain ⟨other, small, denoted⟩ | ⟨fault, refused⟩ := denotes_or_refused baseLe limit text
    · rw [parse_of_denotes baseLe denoted small] at read
      cases read
      exact ⟨denoted, small⟩
    · rw [parse_of_refused baseLe limitPos refused] at read
      cases read
  · rintro ⟨denoted, small⟩
    exact parse_of_denotes baseLe denoted small

/-- Every other text is refused, for the first thing that is wrong with it. -/
theorem parse_eq_error_iff (baseLe : base ≤ 16) (limitPos : 0 < limit) :
    parse base limit text = .error fault ↔ Refused base limit text fault := by
  constructor
  · intro read
    obtain ⟨number, small, denoted⟩ | ⟨other, refused⟩ := denotes_or_refused baseLe limit text
    · rw [parse_of_denotes baseLe denoted small] at read
      cases read
    · rw [parse_of_refused baseLe limitPos refused] at read
      cases read
      exact refused
  · exact parse_of_refused baseLe limitPos

end Numeral

namespace Tag

variable {base : Nat} {chars numeral : List Char} {text : String} {tag : Tag}
variable {fault : Numeral.Fault}

/-- The base and the numeral in a text: base sixteen for what stands behind `0x` or `0X`, and base
ten for a whole text that begins with neither. -/
inductive Based : List Char → Nat → List Char → Prop where
  | hex {mark : Char} {numeral : List Char} (isMark : mark = 'x' ∨ mark = 'X') :
      Based ('0' :: mark :: numeral) 16 numeral
  | decimal {text : List Char}
      (bare : ∀ mark numeral, text = '0' :: mark :: numeral → mark ≠ 'x' ∧ mark ≠ 'X') :
      Based text 10 text

/-- A text denotes a number in the way in which tags are given. -/
def Denotes (text : List Char) (number : Nat) : Prop :=
  ∃ base numeral, Based text base numeral ∧ Numeral.Denotes base numeral number

/-- Why a text does not denote a tag. -/
def Refused (text : List Char) (fault : Numeral.Fault) : Prop :=
  ∃ base numeral, Based text base numeral ∧ Numeral.Refused base 65536 numeral fault

theorem exists_based (chars : List Char) : ∃ base numeral, Based chars base numeral := by
  by_cases marked : ∃ mark numeral, chars = '0' :: mark :: numeral ∧ (mark = 'x' ∨ mark = 'X')
  · obtain ⟨mark, numeral, rfl, isMark⟩ := marked
    exact ⟨16, numeral, .hex isMark⟩
  · refine ⟨10, chars, .decimal ?_⟩
    intro mark numeral cut
    constructor
    · rintro rfl
      exact marked ⟨_, _, cut, .inl rfl⟩
    · rintro rfl
      exact marked ⟨_, _, cut, .inr rfl⟩

/-- What is told from the base and the numeral is told from the whole text. -/
theorem iff_exists_based {given : Prop} {told : Nat → List Char → Prop}
    (same : ∀ base numeral, Based chars base numeral → (given ↔ told base numeral)) :
    given ↔ ∃ base numeral, Based chars base numeral ∧ told base numeral := by
  constructor
  · intro holds
    obtain ⟨base, numeral, based⟩ := exists_based chars
    exact ⟨base, numeral, based, (same base numeral based).mp holds⟩
  · rintro ⟨base, numeral, based, holds⟩
    exact (same base numeral based).mpr holds

theorem Based.base_le (based : Based chars base numeral) : base ≤ 16 := by
  cases based with
  | hex => exact Nat.le_refl 16
  | decimal => decide

theorem parse_of_based (based : Based text.toList base numeral) :
    parse text = (Numeral.parse base 65536 numeral).map fun number => ⟨UInt16.ofNat number⟩ := by
  unfold parse
  generalize text.toList = chars at based
  cases based with
  | hex isMark =>
      obtain rfl | rfl := isMark
      · rfl
      · rfl
  | decimal bare =>
      split
      · exact absurd rfl (bare _ _ rfl).1
      · exact absurd rfl (bare _ _ rfl).2
      · rfl

/-- The number of the numeral fits into a tag, so nothing of it is lost. -/
theorem parse_eq_ok_iff_of_based (based : Based text.toList base numeral) :
    parse text = .ok tag ↔ Numeral.parse base 65536 numeral = .ok tag.raw.toNat := by
  obtain ⟨raw⟩ := tag
  rw [parse_of_based based]
  cases read : Numeral.parse base 65536 numeral with
  | error fault => simp [Except.map]
  | ok number =>
      have small : number < 65536 := Numeral.parse_lt (by decide) read
      rw [Except.map, Except.ok.injEq, Except.ok.injEq, mk.injEq, ← UInt16.toNat_inj,
        UInt16.toNat_ofNat_of_lt' small]

theorem parse_eq_error_iff_of_based (based : Based text.toList base numeral) :
    parse text = .error fault ↔ Numeral.parse base 65536 numeral = .error fault := by
  rw [parse_of_based based]
  cases Numeral.parse base 65536 numeral with
  | error other => simp [Except.map]
  | ok number => simp [Except.map]

theorem parse_eq_ok_iff : parse text = .ok tag ↔ Denotes text.toList tag.raw.toNat := by
  apply iff_exists_based
  intro base numeral based
  rw [parse_eq_ok_iff_of_based based, Numeral.parse_eq_ok_iff based.base_le (by decide)]
  exact and_iff_left tag.raw.toNat_lt

theorem parse_eq_error_iff : parse text = .error fault ↔ Refused text.toList fault := by
  apply iff_exists_based
  intro base numeral based
  rw [parse_eq_error_iff_of_based based]
  exact Numeral.parse_eq_error_iff based.base_le (Nat.zero_lt_succ 65535)

/-- Tags are read from the form in which they are shown. -/
theorem parse_display (tag : Tag) : parse tag.display = .ok tag := by
  have spelled := Numeral.spells_toDigits (show 1 < 16 by decide) tag.raw.toNat
  have shown : tag.display.toList = '0' :: 'x' ::
      ((Nat.toDigits 16 tag.raw.toNat).map Char.toUpper).leftpad 4 '0' := by
    simp [display, Numeral.paddedHex]
  rw [parse_eq_ok_iff, shown]
  refine ⟨16, _, .hex (.inl rfl), .plain ?_ (spelled.zeros_append (by decide) _)⟩
  simp [Nat.toDigits_ne_nil]

/-- A number that is denoted is read if sixteen bits hold it. -/
theorem exists_parse_iff {number : Nat} :
    (∃ tag, parse text = .ok tag ∧ tag.raw.toNat = number) ↔
      Denotes text.toList number ∧ number ≤ 65535 := by
  constructor
  · rintro ⟨tag, read, rfl⟩
    exact ⟨parse_eq_ok_iff.mp read, Nat.le_of_lt_succ tag.raw.toNat_lt⟩
  · rintro ⟨denoted, small⟩
    have kept : (UInt16.ofNat number).toNat = number :=
      UInt16.toNat_ofNat_of_lt' (Nat.lt_succ_of_le small)
    refine ⟨⟨UInt16.ofNat number⟩, parse_eq_ok_iff.mpr ?_, kept⟩
    rwa [kept]

/-- Tags are read from exactly the texts that denote a number of sixteen bits, as this number. All
other texts are refused, those too that denote a larger one, for the first fault from the left. -/
theorem parses_exactly (text : String) :
    (∀ number, (∃ tag, parse text = .ok tag ∧ tag.raw.toNat = number) ↔
      Denotes text.toList number ∧ number ≤ 65535) ∧
      ((∃ fault, parse text = .error fault) ↔
        ∀ number, Denotes text.toList number → 65535 < number) ∧
        ∀ fault, parse text = .error fault ↔ Refused text.toList fault := by
  refine ⟨fun number => exists_parse_iff, ?_, fun fault => parse_eq_error_iff⟩
  constructor
  · rintro ⟨fault, refused⟩ number denoted
    by_contra small
    obtain ⟨tag, read, -⟩ := exists_parse_iff.mpr ⟨denoted, Nat.not_lt.mp small⟩
    rw [read] at refused
    cases refused
  · intro large
    cases read : parse text with
    | error fault => exact ⟨fault, rfl⟩
    | ok tag =>
        have denoted := parse_eq_ok_iff.mp read
        exact absurd (large _ denoted) (Nat.not_lt.mpr (Nat.le_of_lt_succ tag.raw.toNat_lt))

example : parse "0X+0007007" = .ok ⟨0x7007⟩ := by
  decide

end Tag

end TagTree

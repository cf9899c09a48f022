/-!
# Numerals

Numbers as digits: hexadecimal for output, and reading in a chosen base below a chosen limit.
Reading goes digit by digit from the left and stops at the first fault, so of a wrong digit and a
number that grows too large the one that comes first is reported.
-/

namespace TagTree.Numeral

/-- Why a text is not a numeral. -/
inductive Fault where
  | empty
  | invalidDigit
  | tooLarge
  deriving DecidableEq, Repr

/-- The wording of a fault. -/
def Fault.message : Fault → String
  | .empty => "cannot parse integer from empty string"
  | .invalidDigit => "invalid digit found in string"
  | .tooLarge => "number too large to fit in target type"

/-- The value of a digit or letter of either case, when it is a digit of the base. -/
def digit? (base : Nat) (char : Char) : Option Nat :=
  let value :=
    if '0' ≤ char ∧ char ≤ '9' then char.toNat - 48
    else if 'a' ≤ char ∧ char ≤ 'z' then char.toNat - 87
    else if 'A' ≤ char ∧ char ≤ 'Z' then char.toNat - 55
    else base
  if value < base then some value else none

/-- Read digits after those that made `value`, as long as the number stays below the limit. -/
def readDigits (base limit : Nat) : (value : Nat) → List Char → Except Fault Nat
  | value, [] => .ok value
  | value, char :: rest =>
      match digit? base char with
      | none => .error .invalidDigit
      | some digit =>
          if value * base + digit < limit then readDigits base limit (value * base + digit) rest
          else .error .tooLarge

/-- A leading plus sign is dropped unless it is the whole text. -/
def unsigned : List Char → List Char
  | '+' :: char :: rest => char :: rest
  | text => text

/-- Read a whole text as a number below `limit`. -/
def parse (base limit : Nat) (text : List Char) : Except Fault Nat :=
  if text.isEmpty then .error .empty else readDigits base limit 0 (unsigned text)

theorem digit?_lt {base : Nat} {char : Char} {digit : Nat} (found : digit? base char = some digit) :
    digit < base := by
  simp only [digit?, Option.ite_none_right_eq_some, Option.some.injEq] at found
  exact found.2 ▸ found.1

/-- What is read stays below the limit. -/
theorem readDigits_lt {base limit value number : Nat} {text : List Char} (valueLt : value < limit)
    (read : readDigits base limit value text = .ok number) : number < limit := by
  induction text generalizing value with
  | nil => simp only [readDigits, Except.ok.injEq] at read; exact read ▸ valueLt
  | cons char rest ih =>
      simp only [readDigits] at read
      split at read
      · contradiction
      · split at read
        · next stillLt => exact ih stillLt read
        · contradiction

theorem parse_lt {base limit number : Nat} {text : List Char} (limitPos : 0 < limit)
    (read : parse base limit text = .ok number) : number < limit := by
  simp only [parse] at read
  split at read
  · contradiction
  · exact readDigits_lt limitPos read

/-- The digits of a number in base sixteen, without leading zeros, letters in lower case. -/
def lowerHex (value : Nat) : String :=
  String.ofList (Nat.toDigits 16 value)

/-- The digits of a number in base sixteen, letters in upper case, with at least `width` digits. -/
def paddedHex (width value : Nat) : String :=
  String.ofList (((Nat.toDigits 16 value).map Char.toUpper).leftpad width '0')

/-- The digits of a number in base sixteen, without leading zeros, letters in upper case. -/
def hex (value : Nat) : String :=
  paddedHex 1 value

/-- The form in which the places of records are shown. -/
def place (value : Nat) : String :=
  "0x" ++ hex value

end TagTree.Numeral

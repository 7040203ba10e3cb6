/-!
# Numerals

Natural numbers as users write them: digits of a base, after at most one plus
sign. Digits are read from the left, and the first one that is none, or that
takes the number out of its range, is what is wrong with the text.

| here | operation |
| --- | --- |
| `Numeral.read` | `from_str_radix` |
-/
namespace RecordBridge

/-- Why a text is no numeral. -/
inductive NumeralError where
  /-- There is no text. -/
  | empty
  /-- A character is no digit of the base, or there are no digits. -/
  | invalidDigit
  /-- The number is out of range. -/
  | tooLarge
deriving DecidableEq, Repr

/-- The wording of an error. -/
def NumeralError.message : NumeralError → String
  | .empty => "cannot parse integer from empty string"
  | .invalidDigit => "invalid digit found in string"
  | .tooLarge => "number too large to fit in target type"

namespace Numeral

/-- The value of a hexadecimal digit. -/
def hexDigit? (c : Char) : Option Nat :=
  if c.isDigit then some (c.toNat - '0'.toNat)
  else if 'a' ≤ c ∧ c ≤ 'f' then some (c.toNat - 'a'.toNat + 10)
  else if 'A' ≤ c ∧ c ≤ 'F' then some (c.toNat - 'A'.toNat + 10)
  else none

/-- The number below `bound` that digits continue. -/
def readDigits (base bound : Nat) : (value : Nat) → List Char → Except NumeralError Nat
  | value, [] => .ok value
  | value, c :: rest =>
    match (hexDigit? c).filter (· < base) with
    | none => .error .invalidDigit
    | some digit =>
      let next := value * base + digit
      if next < bound then readDigits base bound next rest else .error .tooLarge

/-- The number below `bound` that a text stands for in a base up to 16. -/
def read (base bound : Nat) (text : String) : Except NumeralError Nat :=
  match text.toList with
  | [] => .error .empty
  | ['+'] => .error .invalidDigit
  | '+' :: rest => readDigits base bound 0 rest
  | digits => readDigits base bound 0 digits

end Numeral

end RecordBridge

import RecordBridge.Json.Basic
/-!
# JSON numbers

A number literal is split by the grammar into its digits. It is an integer if
it is written as one and fits 64 bits, signed or unsigned; minus zero is none.
Other literals stand for floating-point numbers, and one beyond the largest
double has no value.
-/
namespace RecordBridge.Json

/-- The parts of a number literal. -/
structure NumberLiteral where
  negative : Bool
  /-- The digits before the point. -/
  whole : List Char
  /-- The digits after the point, if there is one. -/
  fraction : Option (List Char)
  /-- Whether the exponent is negative, and its digits, if there is one. -/
  exponent : Option (Bool × List Char)
deriving DecidableEq, Repr

/-- Splits off the digits that start a text, at least one. -/
def digits? (text : List Char) : Option (List Char × List Char) :=
  if (text.takeWhile Char.isDigit).isEmpty then none
  else some (text.takeWhile Char.isDigit, text.dropWhile Char.isDigit)

/-- Splits off the digits before the point: a zero, or digits that start with
another one. -/
def wholeDigits : List Char → Option (List Char × List Char)
  | '0' :: rest => some (['0'], rest)
  | text => digits? text

/-- Splits off a fraction, if a point follows. -/
def fraction : List Char → Option (Option (List Char) × List Char)
  | '.' :: rest => (digits? rest).map fun (found, rest) => (some found, rest)
  | text => some (none, text)

/-- Splits off the sign of an exponent: whether it is negative. -/
def exponentSign : List Char → Bool × List Char
  | '-' :: rest => (true, rest)
  | '+' :: rest => (false, rest)
  | text => (false, text)

/-- Splits off an exponent, if its letter follows. -/
def exponent : List Char → Option (Option (Bool × List Char) × List Char)
  | 'e' :: rest | 'E' :: rest =>
    let sign := exponentSign rest
    (digits? sign.2).map fun (found, rest) => (some (sign.1, found), rest)
  | text => some (none, text)

/-- Splits off the digits of a number whose sign has been read. -/
def unsignedLiteral (negative : Bool) (text : List Char) :
    Option (NumberLiteral × List Char) := do
  let (whole, rest) ← wholeDigits text
  let (fraction, rest) ← fraction rest
  let (exponent, rest) ← exponent rest
  return (⟨negative, whole, fraction, exponent⟩, rest)

/-- Splits off a number. -/
def numberLiteral : List Char → Option (NumberLiteral × List Char)
  | '-' :: rest => unsignedLiteral true rest
  | text => unsignedLiteral false text

/-- The number that digits stand for, as far as it is below 2^64. -/
def digitsValue (found : List Char) : Nat :=
  found.foldl (fun n c => min UInt64.size (n * 10 + (c.toNat - '0'.toNat))) 0

/-- The nearest number of 53 significant bits, of two the even one. -/
def roundToDouble (n : Nat) : Nat :=
  if n < Nat.pow 2 53 then n
  else
    let unit := Nat.pow 2 (n.log2 - 52)
    let (low, rest) := (n / unit, n % unit)
    if unit < 2 * rest ∨ (unit = 2 * rest ∧ low % 2 = 1) then (low + 1) * unit else low * unit

/-- The leading digits of a literal that fit 64 bits, and the power of ten they
are scaled by. -/
def NumberLiteral.scaled (literal : NumberLiteral) : Nat × Int :=
  let take (step : Int) (skipped : Int) (state : Nat × Int × Bool) (c : Char) :
      Nat × Int × Bool :=
    let (n, scale, full) := state
    let next := n * 10 + (c.toNat - '0'.toNat)
    if full ∨ UInt64.size ≤ next then (n, scale + skipped, true) else (next, scale + step, false)
  let (n, scale, _) := literal.whole.foldl (take 0 1) (0, 0, false)
  let (n, scale, _) := (literal.fraction.getD []).foldl (take (-1) 0) (n, scale, false)
  match literal.exponent with
  | none => (n, scale)
  | some (negative, found) =>
    let found : Int := digitsValue found
    (n, if negative then scale - found else scale + found)

/-- Whether a literal stands for more than the largest double. Its digits and
their power of ten are rounded to doubles, and then their product. -/
def NumberLiteral.overflows (literal : NumberLiteral) : Bool :=
  let (n, scale) := literal.scaled
  n ≠ 0 ∧ 0 ≤ scale ∧
    (308 < scale ∨ Nat.pow 2 1024 - Nat.pow 2 970 ≤
      roundToDouble n * roundToDouble (Nat.pow 10 scale.toNat))

/-- A literal of these parts, its exponent marked `e`. -/
def NumberLiteral.text (literal : NumberLiteral) : String :=
  let sign := if literal.negative then ['-'] else []
  let fraction := literal.fraction.elim [] ('.' :: ·)
  let exponent := literal.exponent.elim [] fun (negative, found) =>
    'e' :: (if negative then '-' :: found else found)
  String.ofList (sign ++ literal.whole ++ fraction ++ exponent)

/-- The integer a literal is written as, if it fits 64 bits. -/
def NumberLiteral.integer? (literal : NumberLiteral) : Option Int :=
  match literal.fraction, literal.exponent with
  | none, none =>
    let n := digitsValue literal.whole
    if literal.negative then if n = 0 ∨ UInt64.size < 2 * n then none else some (-n)
    else if n < UInt64.size then some n else none
  | _, _ => none

/-- The value of a literal. -/
def NumberLiteral.value (literal : NumberLiteral) : Json :=
  match literal.integer? with
  | some n => .integer n
  | none => if literal.overflows then .unreadable else .decimal literal.text

theorem length_lt_of_digits? {text : List Char} {split : List Char × List Char}
    (h : digits? text = some split) : split.2.length < text.length := by
  unfold digits? at h
  split at h
  · cases h
  · next hne =>
    have hlen := congrArg List.length
      (List.takeWhile_append_dropWhile (p := Char.isDigit) (l := text))
    simp only [List.isEmpty_iff] at hne
    have := List.length_pos_iff.2 hne
    cases h
    simp only [List.length_append] at hlen ⊢
    omega

theorem length_lt_of_wholeDigits {text : List Char} {split : List Char × List Char}
    (h : wholeDigits text = some split) : split.2.length < text.length := by
  unfold wholeDigits at h
  split at h
  · cases h; simp
  · exact length_lt_of_digits? h

theorem length_le_of_fraction {text : List Char} {split : Option (List Char) × List Char}
    (h : fraction text = some split) : split.2.length ≤ text.length := by
  unfold fraction at h
  split at h
  · obtain ⟨found, hd, rfl⟩ := Option.map_eq_some_iff.1 h
    have := length_lt_of_digits? hd
    simp only [List.length_cons]; omega
  · cases h; exact Nat.le_refl _

theorem length_exponentSign_le (text : List Char) :
    (exponentSign text).2.length ≤ text.length := by
  unfold exponentSign
  split <;> simp

theorem length_le_of_exponent {text : List Char} {split : Option (Bool × List Char) × List Char}
    (h : exponent text = some split) : split.2.length ≤ text.length := by
  unfold exponent at h
  split at h
  · next rest =>
    obtain ⟨found, hd, rfl⟩ := Option.map_eq_some_iff.1 h
    have := length_lt_of_digits? hd
    have := length_exponentSign_le rest
    simp only [List.length_cons]; omega
  · next rest =>
    obtain ⟨found, hd, rfl⟩ := Option.map_eq_some_iff.1 h
    have := length_lt_of_digits? hd
    have := length_exponentSign_le rest
    simp only [List.length_cons]; omega
  · cases h; exact Nat.le_refl _

/-- A number takes at least one character. -/
theorem length_lt_of_numberLiteral {text : List Char} {split : NumberLiteral × List Char}
    (h : numberLiteral text = some split) : split.2.length < text.length := by
  have unsigned : ∀ {negative : Bool} {text : List Char} {split : NumberLiteral × List Char},
      unsignedLiteral negative text = some split → split.2.length < text.length := by
    intro negative text split h
    simp only [unsignedLiteral, Option.bind_eq_bind, Option.bind_eq_some_iff, Prod.exists] at h
    obtain ⟨whole, rest, hw, fraction, rest', hf, exponent, rest'', he, hs⟩ := h
    cases hs
    have := length_lt_of_wholeDigits hw
    have := length_le_of_fraction hf
    have := length_le_of_exponent he
    simp only at *
    omega
  unfold numberLiteral at h
  split at h
  · have := unsigned h
    simp only [List.length_cons]; omega
  · exact unsigned h

end RecordBridge.Json

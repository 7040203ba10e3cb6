import RecordBridge.Json.Number
import RecordBridge.Text.Numeral
/-!
# JSON tokens

JSON text is split into tokens: brackets, separators, strings, numbers and
names. Escapes are resolved here. A string may name halves of surrogate pairs;
two that fit together are one character, and a string with another half stays
without text (`Token.string none`).
-/
namespace RecordBridge.Json

/-- A token of JSON text. -/
inductive Token where
  | openArray
  | closeArray
  | openObject
  | closeObject
  | comma
  | colon
  | string (text : Option String)
  | number (literal : NumberLiteral)
  | name (value : Json)

/-- Blanks between tokens. -/
def isBlank (c : Char) : Bool :=
  c = ' ' ∨ c = '\t' ∨ c = '\n' ∨ c = '\r'

/-- A part of a string: a character, or half of a surrogate pair. -/
inductive Piece where
  | char (value : Char)
  | half (unit : Nat)
deriving DecidableEq, Repr

/-- What four hexadecimal digits stand for. -/
def unit? (a b c d : Char) : Option Piece := do
  let digits ← [a, b, c, d].mapM Numeral.hexDigit?
  let unit := digits.foldl (· * 16 + ·) 0
  return if 0xD800 ≤ unit ∧ unit < 0xE000 then .half unit else .char (Char.ofNat unit)

/-- What a character after a backslash stands for. -/
def escaped? : Char → Option Char
  | '"' => some '"'
  | '\\' => some '\\'
  | '/' => some '/'
  | 'b' => some '\x08'
  | 'f' => some '\x0C'
  | 'n' => some '\n'
  | 'r' => some '\r'
  | 't' => some '\t'
  | _ => none

/-- Splits off the rest of a string whose opening quote has been read. -/
def pieces? : List Char → Option (List Piece × List Char)
  | [] => none
  | '"' :: rest => some ([], rest)
  | '\\' :: 'u' :: a :: b :: c :: d :: rest => do
    let piece ← unit? a b c d
    let (pieces, rest) ← pieces? rest
    return (piece :: pieces, rest)
  | '\\' :: c :: rest => do
    let c ← escaped? c
    let (pieces, rest) ← pieces? rest
    return (.char c :: pieces, rest)
  | c :: rest =>
    if c.toNat < 0x20 ∨ c = '\\' then none
    else do
      let (pieces, rest) ← pieces? rest
      return (.char c :: pieces, rest)

/-- The text of pieces, if all halves are paired. -/
def join? : List Piece → Option (List Char)
  | [] => some []
  | .char c :: rest => (join? rest).map (c :: ·)
  | .half high :: .half low :: rest =>
    if high < 0xDC00 ∧ 0xDC00 ≤ low then
      let c := Char.ofNat (0x10000 + (high - 0xD800) * 0x400 + (low - 0xDC00))
      (join? rest).map (c :: ·)
    else none
  | .half _ :: _ => none

/-- Splits off the token that starts with a character. -/
def token? (c : Char) (rest : List Char) : Option (Token × List Char) :=
  match c with
  | '[' => some (.openArray, rest)
  | ']' => some (.closeArray, rest)
  | '\x7b' => some (.openObject, rest)
  | '\x7d' => some (.closeObject, rest)
  | ',' => some (.comma, rest)
  | ':' => some (.colon, rest)
  | '"' => (pieces? rest).map fun (pieces, rest) =>
      (.string ((join? pieces).map String.ofList), rest)
  | _ =>
    match c :: rest with
    | 'n' :: 'u' :: 'l' :: 'l' :: rest => some (.name .null, rest)
    | 't' :: 'r' :: 'u' :: 'e' :: rest => some (.name (.bool true), rest)
    | 'f' :: 'a' :: 'l' :: 's' :: 'e' :: rest => some (.name (.bool false), rest)
    | text => (numberLiteral text).map fun (literal, rest) => (.number literal, rest)

theorem length_lt_of_pieces? {text : List Char} {split : List Piece × List Char}
    (h : pieces? text = some split) : split.2.length < text.length := by
  fun_induction pieces? text generalizing split <;>
    simp_all only [Option.bind_eq_bind, Option.bind_eq_some_iff, Option.pure_def,
      Option.some.injEq, Prod.exists, List.length_cons, reduceCtorEq]
  case case2 => cases h; simp
  case case3 ih =>
    obtain ⟨_, -, _, _, hp, rfl⟩ := h
    have := ih hp
    simp only at *; omega
  case case4 ih =>
    obtain ⟨_, -, _, _, hp, rfl⟩ := h
    have := ih hp
    simp only at *; omega
  case case6 ih =>
    obtain ⟨_, _, hp, rfl⟩ := h
    have := ih hp
    simp only at *; omega

/-- A token takes at least one character. -/
theorem length_le_of_token? {c : Char} {rest : List Char} {split : Token × List Char}
    (h : token? c rest = some split) : split.2.length ≤ rest.length := by
  unfold token? at h
  split at h
  case h_7 =>
    obtain ⟨found, hp, rfl⟩ := Option.map_eq_some_iff.1 h
    exact Nat.le_of_lt (length_lt_of_pieces? hp)
  case h_8 =>
    split at h
    · next heq => cases heq; cases h; simp; omega
    · next heq => cases heq; cases h; simp; omega
    · next heq => cases heq; cases h; simp; omega
    · obtain ⟨found, hn, rfl⟩ := Option.map_eq_some_iff.1 h
      have := length_lt_of_numberLiteral hn
      simp only [List.length_cons] at this
      simp only; omega
  all_goals cases h; exact Nat.le_refl _

/-- The tokens of a text. -/
def tokens? : List Char → Option (List Token)
  | [] => some []
  | c :: rest =>
    if isBlank c then tokens? rest
    else match _h : token? c rest with
      | none => none
      | some (token, rest) => (tokens? rest).map (token :: ·)
termination_by text => text.length
decreasing_by
  · simp
  · have := length_le_of_token? _h
    simp only [List.length_cons] at *; omega

end RecordBridge.Json

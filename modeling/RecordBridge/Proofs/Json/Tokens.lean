import Mathlib
import RecordBridge.Json.Printer
import RecordBridge.Json.Token
/-!
# Printed strings and numbers

A string in quotes is split off as one token with its text (`token?_quote`), and the
digits of an integer of 64 bits as one number token with its value (`token?_integer`),
whatever comes after. After a number, that is anything that does not go on with it
(`NumberEnds`).
-/
namespace RecordBridge.Json

/-! ## Strings -/

/-- The digits that a control character is escaped with stand for it. -/
theorem unit?_control : ∀ n < 0x20,
    unit? '0' '0' (hexDigit (n / 16)) (hexDigit (n % 16)) = some (.char (Char.ofNat n)) := by
  decide

theorem pieces?_backslash {c : Char} (h : c ≠ 'u') (rest : List Char) :
    pieces? ('\\' :: c :: rest) = (escaped? c).bind fun c =>
      (pieces? rest).map fun (pieces, rest) => (.char c :: pieces, rest) := by
  rw [pieces?]
  · cases escaped? c <;> cases pieces? rest <;> rfl
  · intro _ _ _ _ _ hu
    simp_all

theorem pieces?_plain {c : Char} (hquote : c ≠ '"') (hback : c ≠ '\\') (hc : ¬ c.toNat < 0x20)
    (rest : List Char) :
    pieces? (c :: rest) = (pieces? rest).map fun (pieces, rest) => (.char c :: pieces, rest) := by
  rw [pieces?]
  · rw [if_neg (by simp [hc, hback])]
    cases pieces? rest <;> rfl
  all_goals simp_all

/-- An escaped character is one piece of a string. -/
theorem pieces?_escape (c : Char) (rest : List Char) :
    pieces? (escape c ++ rest) = (pieces? rest).map fun (pieces, rest) => (.char c :: pieces, rest) := by
  unfold escape
  split
  case h_8 hquote hback _ _ _ _ _ =>
    by_cases hc : c.toNat < 0x20
    · have hunit := unit?_control c.toNat hc
      rw [Char.ofNat_toNat] at hunit
      rw [if_pos hc]
      simp only [List.cons_append, List.nil_append, pieces?, hunit]
      cases pieces? rest <;> rfl
    · rw [if_neg hc]
      exact pieces?_plain hquote hback hc rest
  all_goals exact pieces?_backslash (by decide) rest

theorem pieces?_flatMap_escape (text rest : List Char) :
    pieces? (text.flatMap escape ++ '"' :: rest) = some (text.map .char, rest) := by
  induction text with
  | nil => rfl
  | cons c text ih => rw [List.flatMap_cons, List.append_assoc, pieces?_escape, ih]; rfl

theorem join?_map_char (text : List Char) : join? (text.map .char) = some text := by
  induction text with
  | nil => rfl
  | cons c text ih => rw [List.map_cons, join?, ih]; rfl

/-- A string in quotes is one token. -/
theorem token?_quote (text : String) (rest : List Char) :
    token? '"' (text.toList.flatMap escape ++ '"' :: rest) = some (.string (some text), rest) := by
  simp [token?, pieces?_flatMap_escape, join?_map_char]

/-! ## Numbers -/

/-- A text does not go on with a number that ends before it. -/
def NumberEnds (rest : List Char) : Prop :=
  ∀ c ∈ rest.head?, c.isDigit = false ∧ c ≠ '.' ∧ c ≠ 'e' ∧ c ≠ 'E'

theorem not_isDigit_of_isBlank {c : Char} (h : isBlank c) :
    c.isDigit = false ∧ c ≠ '.' ∧ c ≠ 'e' ∧ c ≠ 'E' := by
  simp only [isBlank, decide_eq_true_eq] at h
  rcases h with rfl | rfl | rfl | rfl <;> decide

theorem NumberEnds.blanks_append {blanks rest : List Char} (hb : ∀ c ∈ blanks, isBlank c)
    (h : NumberEnds rest) : NumberEnds (blanks ++ rest) := by
  cases blanks with
  | nil => exact h
  | cons c blanks =>
    intro first hc
    cases hc
    exact not_isDigit_of_isBlank (hb _ List.mem_cons_self)

/-- The literal of an integer. -/
def literalOf (n : Int) : NumberLiteral :=
  ⟨decide (n < 0), Nat.toDigits 10 n.natAbs, none, none⟩

theorem head?_toDigits {n : Nat} (h : (Nat.toDigits 10 n).head? = some '0') : n = 0 := by
  induction n using Nat.strong_induction_on with
  | _ n ih =>
    rw [Nat.toDigits_eq_if (by decide)] at h
    split at h
    · next hn =>
      interval_cases n <;> simp_all [Nat.digitChar]
    · next hn =>
      -- the first digit stays when the last one is dropped
      rw [List.head?_append_of_ne_nil _ (List.ne_nil_of_length_pos Nat.length_toDigits_pos)] at h
      have := ih (n / 10) (by omega) h
      omega

/-- Digits and what does not go on with them are told apart. -/
theorem digits?_append {digits rest : List Char} (hne : digits ≠ [])
    (hdigits : ∀ c ∈ digits, c.isDigit) (h : NumberEnds rest) :
    digits? (digits ++ rest) = some (digits, rest) := by
  have hstop : rest.takeWhile Char.isDigit = [] ∧ rest.dropWhile Char.isDigit = rest := by
    cases rest with
    | nil => exact ⟨rfl, rfl⟩
    | cons c rest => simp [(h c rfl).1]
  have htake : (digits ++ rest).takeWhile Char.isDigit = digits := by
    rw [List.takeWhile_append_of_pos hdigits, hstop.1, List.append_nil]
  have hdrop : (digits ++ rest).dropWhile Char.isDigit = rest := by
    rw [List.dropWhile_append_of_pos hdigits, hstop.2]
  rw [digits?, htake, hdrop, if_neg (by simpa using hne)]

theorem wholeDigits_toDigits (n : Nat) {rest : List Char} (h : NumberEnds rest) :
    wholeDigits (Nat.toDigits 10 n ++ rest) = some (Nat.toDigits 10 n, rest) := by
  have hall : ∀ c ∈ Nat.toDigits 10 n, c.isDigit := fun c hc =>
    Nat.isDigit_of_mem_toDigits (by decide) (by decide) hc
  have hdigits := digits?_append (List.ne_nil_of_length_pos Nat.length_toDigits_pos) hall h
  by_cases hz : n = 0
  · subst hz
    rfl
  · rw [wholeDigits, hdigits]
    intro others ho
    refine hz (head?_toDigits ?_)
    have := congrArg List.head? ho
    rwa [List.head?_append_of_ne_nil _ (List.ne_nil_of_length_pos Nat.length_toDigits_pos)] at this

/-- The digits of a number are all of it. -/
theorem unsignedLiteral_toDigits (negative : Bool) (n : Nat) {rest : List Char}
    (h : NumberEnds rest) : unsignedLiteral negative (Nat.toDigits 10 n ++ rest) =
      some (⟨negative, Nat.toDigits 10 n, none, none⟩, rest) := by
  have hfraction : fraction rest = some (none, rest) := by
    unfold fraction
    split
    · exact absurd rfl (h '.' rfl).2.1
    · rfl
  have hexponent : exponent rest = some (none, rest) := by
    unfold exponent
    split
    · exact absurd rfl (h 'e' rfl).2.2.1
    · exact absurd rfl (h 'E' rfl).2.2.2
    · rfl
  simp [unsignedLiteral, wholeDigits_toDigits n h, hfraction, hexponent]

theorem digitsValue_eq (digits : List Char) :
    digitsValue digits = min UInt64.size (Nat.ofDigitChars 10 digits 0) := by
  have general : ∀ (digits : List Char) (n : Nat),
      digits.foldl (fun n c => min UInt64.size (n * 10 + (c.toNat - '0'.toNat))) (min UInt64.size n) =
        min UInt64.size (Nat.ofDigitChars 10 digits n) := by
    intro digits
    induction digits with
    | nil => intro n; rfl
    | cons c digits ih =>
      intro n
      have hstep : min UInt64.size (min UInt64.size n * 10 + (c.toNat - '0'.toNat)) =
          min UInt64.size (10 * n + (c.toNat - '0'.toNat)) := by omega
      rw [List.foldl_cons, hstep, ih]
      rfl
  exact general digits 0

/-- An integer of 64 bits, signed or not, is the value of its literal. -/
theorem value_literalOf {n : Int} (hmin : -2 ^ 63 ≤ n) (hmax : n < 2 ^ 64) :
    (literalOf n).value = .integer n := by
  have hdigits : digitsValue (Nat.toDigits 10 n.natAbs) = n.natAbs := by
    rw [digitsValue_eq, Nat.ofDigitChars_toDigits (by decide) (by decide), Nat.min_eq_right]
    simp only [UInt64.size]
    omega
  have hinteger : (literalOf n).integer? = some n := by
    simp only [NumberLiteral.integer?, literalOf, hdigits, UInt64.size, decide_eq_true_eq]
    split
    · rw [if_neg (by omega)]
      congr 1
      omega
    · rw [if_pos (by omega)]
      congr 1
      omega
  rw [NumberLiteral.value, hinteger]

/-- What starts with a sign or a digit is a number. -/
theorem token?_number {c : Char} (h : c = '-' ∨ c.isDigit) (rest : List Char) :
    token? c rest = (numberLiteral (c :: rest)).map fun (literal, rest) => (.number literal, rest) := by
  unfold token?
  split
  case h_8 =>
    split
    case h_4 => rfl
    all_goals
      next heq =>
        cases heq
        simp at h
  all_goals simp at h

/-- The text of an integer is one token, which starts with no bracket and no blank. -/
theorem token?_integer (n : Int) {rest : List Char} (h : NumberEnds rest) :
    ∃ c digits, (toString n).toList = c :: digits ∧ (c = '-' ∨ c.isDigit) ∧
      token? c (digits ++ rest) = some (.number (literalOf n), rest) := by
  have hunsigned := fun negative => unsignedLiteral_toDigits negative n.natAbs h
  by_cases hn : 0 ≤ n
  · have htext : (toString n).toList = Nat.toDigits 10 n.natAbs := by
      have habs : n.toNat = n.natAbs := by omega
      rw [Int.toString_eq_repr, Int.repr_eq_if, if_pos hn, Nat.toList_repr, habs]
    obtain ⟨c, digits, hc⟩ := List.exists_cons_of_ne_nil
      (List.ne_nil_of_length_pos (Nat.length_toDigits_pos (b := 10) (n := n.natAbs)))
    have hdigit : c.isDigit := Nat.isDigit_of_mem_toDigits (b := 10) (n := n.natAbs) (by decide)
      (by decide) (by simp [hc])
    refine ⟨c, digits, htext.trans hc, .inr hdigit, ?_⟩
    have hminus : c ≠ '-' := by
      rintro rfl
      simp at hdigit
    have hliteral : numberLiteral (c :: (digits ++ rest)) = some (literalOf n, rest) := by
      rw [numberLiteral, ← List.cons_append, ← hc, hunsigned, literalOf, decide_eq_false (by omega)]
      rintro _ ⟨rfl, -⟩
      exact hminus rfl
    rw [token?_number (.inr hdigit), hliteral, Option.map_some]
  · have htext : (toString n).toList = '-' :: Nat.toDigits 10 n.natAbs := by
      have habs : (-n).toNat = n.natAbs := by omega
      rw [Int.toString_eq_repr, Int.repr_eq_if, if_neg hn, String.toList_append, Nat.toList_repr, habs]
      rfl
    refine ⟨'-', _, htext, .inl rfl, ?_⟩
    rw [token?_number (.inl rfl), numberLiteral, hunsigned, Option.map_some, literalOf,
      decide_eq_true (by omega)]

end RecordBridge.Json

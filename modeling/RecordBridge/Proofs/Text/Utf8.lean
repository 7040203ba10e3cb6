import Mathlib
import RecordBridge.Text.Utf8
/-!
# UTF-8 comes back

The scan reads every character off the front of its own bytes
(`scalars_utf8EncodeChar_append`), so the bytes of a text are well formed and
are that text's (`decode?_encode`). A text that was read takes no more bytes than
were read (`utf8ByteSize_le_of_decode?`).
-/
namespace RecordBridge.Utf8

/-! ## Bytes given by their numbers -/

theorem toNat_ofNat_of_lt {n : Nat} (h : n < 256) : (UInt8.ofNat n).toNat = n := by
  simp; omega

theorem ofNat_lt_ofNat {m n : Nat} (hm : m < 256) (hn : n < 256) :
    UInt8.ofNat m < UInt8.ofNat n ↔ m < n := by
  rw [UInt8.lt_iff_toNat_lt, toNat_ofNat_of_lt hm, toNat_ofNat_of_lt hn]

theorem ofNat_le_ofNat {m n : Nat} (hm : m < 256) (hn : n < 256) :
    UInt8.ofNat m ≤ UInt8.ofNat n ↔ m ≤ n := by
  rw [UInt8.le_iff_toNat_le, toNat_ofNat_of_lt hm, toNat_ofNat_of_lt hn]

/-- A byte at a character boundary that is a character of its own. -/
theorem scalars_ascii {n : Nat} (h : n < 128) (rest : List UInt8) :
    scalars none (UInt8.ofNat n :: rest) = some (Char.ofNat n) :: scalars none rest := by
  have hlt : UInt8.ofNat n < 0x80 := (ofNat_lt_ofNat (n := 128) (by omega) (by omega)).2 h
  simp only [scalars, step, start, hlt, if_true, toNat_ofNat_of_lt (show n < 256 by omega),
    List.singleton_append]

/-- A byte that begins a longer character. -/
theorem scalars_begin {b : UInt8} {p : Pending} (hb : ¬ b < 0x80) (hp : pending? b = some p)
    (rest : List UInt8) : scalars none (b :: rest) = scalars (some p) rest := by
  simp only [scalars, step, start, hb, if_false, hp, List.nil_append]

/-- A continuation byte in its range, with more to come. -/
theorem scalars_continue {due bits v low high : Nat} (hdue : 2 ≤ due) (hv : v < 64)
    (hlow : low ≤ v + 128) (hhigh : v + 128 ≤ high) (hh : high < 256) (rest : List UInt8) :
    scalars (some ⟨due, bits, .ofNat low, .ofNat high⟩) (UInt8.ofNat (v + 128) :: rest) =
      scalars (some ⟨due - 1, bits * 64 + v, 0x80, 0xBF⟩) rest := by
  have hb := toNat_ofNat_of_lt (show v + 128 < 256 by omega)
  have hm : (v + 128) % 64 = v := by omega
  have hin := And.intro ((ofNat_le_ofNat (m := low) (n := v + 128) (by omega) (by omega)).2 hlow)
    ((ofNat_le_ofNat (m := v + 128) (n := high) (by omega) hh).2 hhigh)
  simp only [scalars, step, hin, and_self, if_true, hb, hm, show ¬ due ≤ 1 by omega, if_false,
    List.nil_append]

/-- The last continuation byte. -/
theorem scalars_finish {bits v low high : Nat} (hv : v < 64) (hlow : low ≤ v + 128)
    (hhigh : v + 128 ≤ high) (hh : high < 256) (rest : List UInt8) :
    scalars (some ⟨1, bits, .ofNat low, .ofNat high⟩) (UInt8.ofNat (v + 128) :: rest) =
      some (Char.ofNat (bits * 64 + v)) :: scalars none rest := by
  have hb := toNat_ofNat_of_lt (show v + 128 < 256 by omega)
  have hm : (v + 128) % 64 = v := by omega
  have hin := And.intro ((ofNat_le_ofNat (m := low) (n := v + 128) (by omega) (by omega)).2 hlow)
    ((ofNat_le_ofNat (m := v + 128) (n := high) (by omega) hh).2 hhigh)
  simp only [scalars, step, hin, and_self, if_true, hb, hm, Nat.le_refl, List.singleton_append]

/-! ## First bytes

What a first byte of two, three or four announces: how many bytes are due, its own
bits, and where the second byte must lie. -/

theorem pending?_two : ∀ n : Fin 32, 2 ≤ n.val →
    pending? (UInt8.ofNat (n.val + 192)) = some ⟨1, n.val, .ofNat 0x80, .ofNat 0xBF⟩ := by
  decide

theorem pending?_three : ∀ n : Fin 16, pending? (UInt8.ofNat (n.val + 224)) =
    some ⟨2, n.val, .ofNat (if n.val = 0 then 0xA0 else 0x80),
      .ofNat (if n.val = 13 then 0x9F else 0xBF)⟩ := by
  decide

theorem pending?_four : ∀ n : Fin 5, pending? (UInt8.ofNat (n.val + 240)) =
    some ⟨3, n.val, .ofNat (if n.val = 0 then 0x90 else 0x80),
      .ofNat (if n.val = 4 then 0x8F else 0xBF)⟩ := by
  decide

theorem not_ascii_ofNat {n : Nat} (h : 128 ≤ n) (hn : n < 256) : ¬ UInt8.ofNat n < 0x80 := by
  have := ofNat_lt_ofNat (m := n) (n := 128) hn (by omega)
  rw [show (0x80 : UInt8) = UInt8.ofNat 128 from rfl, this]
  omega

/-! ## Characters -/

/-- The scan reads a character off the front of its bytes. -/
theorem scalars_utf8EncodeChar_append (c : Char) (rest : List UInt8) :
    scalars none (String.utf8EncodeChar c ++ rest) = some c :: scalars none rest := by
  have hc : Char.ofNat c.val.toNat = c := Char.ofNat_toNat c
  have hvalid : c.val.toNat < 0xD800 ∨ 0xDFFF < c.val.toNat ∧ c.val.toNat < 0x110000 := c.valid
  unfold String.utf8EncodeChar
  generalize c.val.toNat = v at hc hvalid
  subst hc
  dsimp only
  by_cases h1 : v ≤ 0x7f
  · rw [if_pos h1]
    exact scalars_ascii (by omega) rest
  by_cases h2 : v ≤ 0x7ff
  · have hp := pending?_two ⟨v / 64, by omega⟩ (show 2 ≤ v / 64 by omega)
    rw [if_neg h1, if_pos h2, show v / 64 % 32 = v / 64 by omega]
    simp only [List.cons_append, List.nil_append]
    rw [scalars_begin (not_ascii_ofNat (by omega) (by omega)) hp,
      scalars_finish (by omega) (by omega) (by omega) (by omega),
      show v / 64 * 64 + v % 64 = v by omega]
  by_cases h3 : v ≤ 0xffff
  · have hp := pending?_three ⟨v / 4096, by omega⟩
    dsimp only at hp
    rw [if_neg h1, if_neg h2, if_pos h3, show v / 4096 % 16 = v / 4096 by omega]
    simp only [List.cons_append, List.nil_append]
    -- The range of the second byte rules out overlong forms and surrogates.
    rw [scalars_begin (not_ascii_ofNat (by omega) (by omega)) hp,
      scalars_continue (by omega) (by omega) (by split <;> omega) (by split <;> omega)
        (by split <;> omega),
      show (0x80 : UInt8) = .ofNat 0x80 from rfl, show (0xBF : UInt8) = .ofNat 0xBF from rfl,
      scalars_finish (by omega) (by omega) (by omega) (by omega),
      show (v / 4096 * 64 + v / 64 % 64) * 64 + v % 64 = v by omega]
  · have hp := pending?_four ⟨v / 262144, by omega⟩
    dsimp only at hp
    rw [if_neg h1, if_neg h2, if_neg h3, show v / 262144 % 8 = v / 262144 by omega]
    simp only [List.cons_append, List.nil_append]
    rw [scalars_begin (not_ascii_ofNat (by omega) (by omega)) hp,
      scalars_continue (by omega) (by omega) (by split <;> omega) (by split <;> omega)
        (by split <;> omega),
      show (0x80 : UInt8) = .ofNat 0x80 from rfl, show (0xBF : UInt8) = .ofNat 0xBF from rfl,
      scalars_continue (by omega) (by omega) (by omega) (by omega) (by omega),
      show (0x80 : UInt8) = .ofNat 0x80 from rfl, show (0xBF : UInt8) = .ofNat 0xBF from rfl,
      scalars_finish (by omega) (by omega) (by omega) (by omega),
      show ((v / 262144 * 64 + v / 4096 % 64) * 64 + v / 64 % 64) * 64 + v % 64 = v by omega]

/-! ## Texts -/

theorem scalars_flatMap_utf8EncodeChar (chars : List Char) :
    scalars none (chars.flatMap String.utf8EncodeChar) = chars.map some := by
  induction chars with
  | nil => rfl
  | cons c chars ih =>
    rw [List.flatMap_cons, scalars_utf8EncodeChar_append, ih, List.map_cons]

theorem scalars_encode (text : String) : scalars none (encode text) = text.toList.map some :=
  scalars_flatMap_utf8EncodeChar text.toList

/-- The bytes of a text are well formed, and are that text's. -/
theorem decode?_encode (text : String) : decode? (encode text) = some text := by
  have hid : ∀ chars : List Char, (chars.map some).mapM id = some chars := by
    intro chars
    induction chars with
    | nil => rfl
    | cons c chars ih => simp [List.mapM_cons, ih]
  rw [decode?, scalars_encode, hid, Option.map_some, String.ofList_toList]

theorem length_encode (text : String) : (encode text).length = text.utf8ByteSize := by
  rw [← String.size_toByteArray, ← String.utf8Encode_toList, List.utf8Encode,
    List.size_toByteArray, encode]

theorem encode_eq_nil_iff {text : String} : encode text = [] ↔ text.isEmpty := by
  rw [← List.length_eq_zero_iff, length_encode, String.isEmpty_iff, String.utf8ByteSize_eq_zero_iff]

/-! ## Lengths -/

/-- How many bytes the characters in what was scanned take. -/
def written (found : List (Option Char)) : Nat :=
  (found.map fun c => c.elim 0 Char.utf8Size).sum

theorem written_append (front back : List (Option Char)) :
    written (front ++ back) = written front + written back := by
  simp [written]

/-- A character that is begun takes no more bytes than were read of it and are due. -/
structure Pending.Fits (p : Pending) (taken : Nat) : Prop where
  due : 1 ≤ p.due
  size : ∀ v, v < (p.bits + 1) * 64 ^ p.due → (Char.ofNat v).utf8Size ≤ taken + p.due

/-- The ranges of code points that take one, two, three and four bytes. -/
theorem utf8Size_ofNat_le (v : Nat) : (Char.ofNat v).utf8Size ≤
    if v < 0x80 then 1 else if v < 0x800 then 2 else if v < 0x10000 then 3 else 4 := by
  have hle : (Char.ofNat v).val.toNat ≤ v := by
    have := Char.toNat_ofNat v
    change (Char.ofNat v).val.toNat = _ at this
    split at this <;> omega
  unfold Char.utf8Size
  simp only [UInt32.le_iff_toNat_le, UInt32.toNat_ofNatLT]
  split_ifs <;> omega

/-- A first byte leaves five, four or three bits to the bytes that are due. -/
theorem due_of_pending? {b : UInt8} {p : Pending} (h : pending? b = some p) :
    p.due = 1 ∧ p.bits < 32 ∨ p.due = 2 ∧ p.bits < 16 ∨ p.due = 3 := by
  unfold pending? at h
  by_cases h2 : b < 0xC2
  · simp [h2] at h
  by_cases h3 : b < 0xE0
  · simp only [h2, h3, if_true, if_false, Option.some.injEq] at h
    subst h
    exact .inl ⟨rfl, by have := UInt8.lt_iff_toNat_lt.1 h3; simp at this ⊢; omega⟩
  by_cases h4 : b < 0xF0
  · simp only [h2, h3, h4, if_true, if_false, Option.some.injEq] at h
    subst h
    exact .inr (.inl ⟨rfl, by have := UInt8.lt_iff_toNat_lt.1 h4; simp at this ⊢; omega⟩)
  by_cases h5 : b < 0xF5
  · simp only [h2, h3, h4, h5, if_true, if_false, Option.some.injEq] at h
    subst h
    exact .inr (.inr rfl)
  · simp [h2, h3, h4, h5] at h

theorem fits_of_pending? {b : UInt8} {p : Pending} (h : pending? b = some p) : p.Fits 1 := by
  obtain ⟨due, bits, low, high⟩ := p
  have hdue := due_of_pending? h
  simp only at hdue
  refine ⟨by dsimp only; omega, fun v hv => Nat.le_trans (utf8Size_ofNat_le v) ?_⟩
  dsimp only at hv ⊢
  rcases hdue with ⟨rfl, hbits⟩ | ⟨rfl, hbits⟩ | rfl <;> split_ifs <;> omega

theorem start_fits (b : UInt8) : ∃ taken, (∀ p ∈ (start b).2, p.Fits taken) ∧
    written (start b).1 + taken ≤ 1 := by
  unfold start
  by_cases hb : b < 0x80
  · have hsize := utf8Size_ofNat_le b.toNat
    rw [if_pos (show b.toNat < 128 from UInt8.lt_iff_toNat_lt.1 hb)] at hsize
    exact ⟨0, by simp [hb], by simpa [hb, written] using hsize⟩
  cases hp : pending? b with
  | none => exact ⟨0, by simp [hb], by simp [hb, written]⟩
  | some p => exact ⟨1, by simpa [hb] using fits_of_pending? hp, by simp [hb, written]⟩

/-- What a byte completes and leaves begun takes one byte more than what was begun. -/
theorem step_fits {begun : Option Pending} {taken : Nat} (h : ∀ p ∈ begun, p.Fits taken)
    (b : UInt8) : ∃ left, (∀ p ∈ (step begun b).2, p.Fits left) ∧
      written (step begun b).1 + left ≤ taken + 1 := by
  obtain ⟨first, hfirst, hle⟩ := start_fits b
  cases begun with
  | none => exact ⟨first, hfirst, by simpa [step] using by omega⟩
  | some p =>
    obtain ⟨hdue, hsize⟩ := h p rfl
    unfold step
    by_cases hin : p.low ≤ b ∧ b ≤ p.high
    · have hv : p.bits * 64 + b.toNat % 64 < (p.bits + 1) * 64 := by omega
      by_cases hlast : p.due ≤ 1
      · have hone : p.due = 1 := by omega
        have := hsize (p.bits * 64 + b.toNat % 64) (by simpa [hone] using hv)
        exact ⟨0, by simp [hin, hlast], by simpa [hin, hlast, written] using by omega⟩
      · refine ⟨taken + 1, ?_, by simp [hin, hlast, written]⟩
        simp only [hin, hlast, and_self, if_true, if_false, Option.mem_def, Option.some.injEq,
          forall_eq']
        refine ⟨by dsimp only; omega, fun v hlt => ?_⟩
        have hpow : 64 ^ p.due = 64 * 64 ^ (p.due - 1) := by
          rw [← Nat.pow_succ', Nat.succ_eq_add_one, Nat.sub_add_cancel hdue]
        have hbits : (p.bits * 64 + b.toNat % 64 + 1) * 64 ^ (p.due - 1) ≤
            (p.bits + 1) * 64 ^ p.due := by
          rw [hpow, ← Nat.mul_assoc]
          exact Nat.mul_le_mul_right _ (by omega)
        have := hsize v (Nat.lt_of_lt_of_le hlt hbits)
        dsimp only
        omega
    · refine ⟨first, by simpa [hin] using hfirst, ?_⟩
      simp only [hin, if_false]
      simp only [written, List.map_cons, Option.elim_none, List.sum_cons] at hle ⊢
      omega

/-- The characters of a byte string take no more bytes than it has. -/
theorem written_scalars_le : ∀ {bytes : List UInt8} {begun : Option Pending} {taken : Nat},
    (∀ p ∈ begun, p.Fits taken) → written (scalars begun bytes) ≤ taken + bytes.length
  | [], begun, taken, _ => by
    rw [scalars]
    split <;> simp [written]
  | b :: bytes, begun, taken, h => by
    obtain ⟨left, hleft, hle⟩ := step_fits h b
    have ih : written (scalars _ bytes) ≤ left + bytes.length := written_scalars_le hleft
    rw [scalars, written_append, List.length_cons]
    omega

theorem eq_map_some_of_mapM {chars : List Char} : ∀ {found : List (Option Char)},
    found.mapM id = some chars → found = chars.map some := by
  intro found
  induction found generalizing chars with
  | nil =>
    intro h
    simpa using h
  | cons c found ih =>
    intro h
    simp only [List.mapM_cons, id, Option.bind_eq_bind, Option.bind_eq_some_iff, Option.pure_def,
      Option.some.injEq] at h
    obtain ⟨first, rfl, rest, hrest, rfl⟩ := h
    rw [ih hrest, List.map_cons]

/-- A text is no longer than the bytes it was read from. -/
theorem utf8ByteSize_le_of_decode? {bytes : List UInt8} {text : String}
    (h : decode? bytes = some text) : text.utf8ByteSize ≤ bytes.length := by
  simp only [decode?, Option.map_eq_some_iff] at h
  obtain ⟨chars, hchars, rfl⟩ := h
  have hle : written (scalars none bytes) ≤ 0 + bytes.length := written_scalars_le (by simp)
  rw [eq_map_some_of_mapM hchars] at hle
  rw [← length_encode, encode, List.length_flatMap]
  simpa [written, Function.comp_def] using hle

end RecordBridge.Utf8

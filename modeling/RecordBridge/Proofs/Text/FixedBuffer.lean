import RecordBridge.Proofs.Text.Utf8
import RecordBridge.Text.FixedBuffer
/-!
# Texts cut to a buffer

Packing a text into a buffer may cut its last character, and reading the buffer
replaces what is left of it. `Utf8.cut` is what both together make of a text
(`readText_packText`). A replacement is cut to a replacement again, so once a
text was packed and read, that changes it no more (`readText_packText_readText`).
-/
namespace RecordBridge

namespace Utf8

/-- What is read of a text of which only the first `room` bytes are there: the
characters that are whole, and a replacement for the one that is cut. -/
def cut : (room : Nat) → List Char → List Char
  | _, [] => []
  | room, c :: rest =>
    if c.utf8Size ≤ room then c :: cut (room - c.utf8Size) rest
    else if room = 0 then [] else ['\uFFFD']

/-! ## A character in part -/

/-- The first bytes of a character, without its last one, are one broken part. -/
theorem scalars_take_utf8EncodeChar (c : Char) {room : Nat} (hpos : 0 < room)
    (hcut : room < c.utf8Size) :
    scalars none ((String.utf8EncodeChar c).take room) = [none] := by
  have hc : Char.ofNat c.val.toNat = c := Char.ofNat_toNat c
  have hvalid : c.val.toNat < 0xD800 ∨ 0xDFFF < c.val.toNat ∧ c.val.toNat < 0x110000 := c.valid
  rw [← String.length_utf8EncodeChar] at hcut
  unfold String.utf8EncodeChar at hcut ⊢
  generalize c.val.toNat = v at hc hvalid hcut ⊢
  dsimp only at hcut ⊢
  by_cases h1 : v ≤ 0x7f
  · rw [if_pos h1] at hcut
    simp only [List.length_singleton] at hcut
    omega
  by_cases h2 : v ≤ 0x7ff
  · have hp := pending?_two ⟨v / 64, by omega⟩ (show 2 ≤ v / 64 by omega)
    rw [if_neg h1, if_pos h2] at hcut ⊢
    rw [show v / 64 % 32 = v / 64 by omega]
    obtain rfl : room = 1 := by simp at hcut; omega
    exact scalars_begin (not_ascii_ofNat (by omega) (by omega)) hp []
  by_cases h3 : v ≤ 0xffff
  · have hp := pending?_three ⟨v / 4096, by omega⟩
    dsimp only at hp
    rw [if_neg h1, if_neg h2, if_pos h3] at hcut ⊢
    rw [show v / 4096 % 16 = v / 4096 by omega]
    have hbegin := scalars_begin (not_ascii_ofNat (by omega) (by omega)) hp
    obtain rfl | rfl : room = 1 ∨ room = 2 := by simp at hcut; omega
    · exact hbegin []
    · refine (hbegin _).trans ?_
      exact scalars_continue (by omega) (by omega) (by split <;> omega) (by split <;> omega)
        (by split <;> omega) []
  · have hp := pending?_four ⟨v / 262144, by omega⟩
    dsimp only at hp
    rw [if_neg h1, if_neg h2, if_neg h3] at hcut ⊢
    rw [show v / 262144 % 8 = v / 262144 by omega]
    have hbegin := scalars_begin (not_ascii_ofNat (by omega) (by omega)) hp
    have hsecond := @scalars_continue 3 (v / 262144) (v / 4096 % 64)
      (if v / 262144 = 0 then 0x90 else 0x80) (if v / 262144 = 4 then 0x8F else 0xBF)
      (by omega) (by omega) (by split <;> omega) (by split <;> omega) (by split <;> omega)
    obtain rfl | rfl | rfl : room = 1 ∨ room = 2 ∨ room = 3 := by simp at hcut; omega
    · exact hbegin []
    · exact (hbegin _).trans (hsecond [])
    · refine (hbegin _).trans ((hsecond _).trans ?_)
      exact @scalars_continue 2 _ (v / 64 % 64) 0x80 0xBF (by omega) (by omega) (by omega)
        (by omega) (by omega) []

/-- No byte of a character other than NUL is zero. -/
theorem ne_zero_of_mem_utf8EncodeChar {c : Char} (hc : c ≠ '\x00') {b : UInt8}
    (hb : b ∈ String.utf8EncodeChar c) : b ≠ 0 := by
  have hnat : c.val.toNat ≠ 0 := fun h => hc (Char.toNat_inj.1 h)
  have hlt : c.val.toNat < 0x110000 := by
    rcases c.valid with h | h
    · omega
    · exact h.2
  have hne : ∀ n : Nat, 0 < n → n < 256 → UInt8.ofNat n ≠ 0 := by
    intro n h0 h256 he
    have hn := toNat_ofNat_of_lt h256
    rw [he] at hn
    exact absurd (show 0 = n from hn) (by omega)
  unfold String.utf8EncodeChar at hb
  dsimp only at hb
  split at hb
  · next h =>
    rw [List.mem_singleton.1 hb]
    exact hne _ (by omega) (by omega)
  · split at hb
    · simp only [List.mem_cons, List.not_mem_nil, or_false] at hb
      rcases hb with rfl | rfl <;> exact hne _ (by omega) (by omega)
    · split at hb
      · simp only [List.mem_cons, List.not_mem_nil, or_false] at hb
        rcases hb with rfl | rfl | rfl <;> exact hne _ (by omega) (by omega)
      · simp only [List.mem_cons, List.not_mem_nil, or_false] at hb
        rcases hb with rfl | rfl | rfl | rfl <;> exact hne _ (by omega) (by omega)

/-! ## A text in part -/

theorem scalars_take_flatMap_utf8EncodeChar : ∀ (chars : List Char) (room : Nat),
    (scalars none ((chars.flatMap String.utf8EncodeChar).take room)).map (·.getD '\uFFFD') =
      cut room chars
  | [], room => by simp [cut, scalars]
  | c :: chars, room => by
    have ih := scalars_take_flatMap_utf8EncodeChar chars (room - c.utf8Size)
    rw [List.flatMap_cons, List.take_append, String.length_utf8EncodeChar, cut]
    by_cases hfits : c.utf8Size ≤ room
    · have hwhole : (String.utf8EncodeChar c).take room = String.utf8EncodeChar c :=
        List.take_of_length_le (by rwa [String.length_utf8EncodeChar])
      rw [if_pos hfits, hwhole, scalars_utf8EncodeChar_append, List.map_cons, ih]
      rfl
    · rw [if_neg hfits, Nat.sub_eq_zero_of_le (by omega), List.take_zero, List.append_nil]
      by_cases h0 : room = 0
      · simp [h0, scalars]
      · rw [if_neg h0, scalars_take_utf8EncodeChar c (by omega) (by omega)]
        rfl

theorem decodeLossy_take_encode (text : String) (room : Nat) :
    decodeLossy ((encode text).take room) = String.ofList (cut room text.toList) :=
  congrArg String.ofList (scalars_take_flatMap_utf8EncodeChar text.toList room)

/-- What was cut is not cut further. -/
theorem cut_cut : ∀ (room : Nat) (chars : List Char), cut room (cut room chars) = cut room chars
  | _, [] => by simp [cut]
  | room, c :: rest => by
    rw [cut]
    by_cases hfits : c.utf8Size ≤ room
    · rw [if_pos hfits, cut, if_pos hfits, cut_cut (room - c.utf8Size) rest]
    · rw [if_neg hfits]
      by_cases h0 : room = 0
      · rw [if_pos h0, cut]
      · rw [if_neg h0, cut, cut, if_neg h0]
        split <;> rfl

/-- A text that fits is not cut. -/
theorem cut_eq_self : ∀ {chars : List Char} {room : Nat},
    (chars.flatMap String.utf8EncodeChar).length ≤ room → cut room chars = chars
  | [], _, _ => by simp [cut]
  | c :: rest, room, h => by
    rw [List.flatMap_cons, List.length_append, String.length_utf8EncodeChar] at h
    rw [cut, if_pos (by omega), cut_eq_self (by omega)]

/-- Cutting brings in no NUL. -/
theorem ne_nul_of_mem_cut : ∀ {chars : List Char} {room : Nat}, (∀ c ∈ chars, c ≠ '\x00') →
    ∀ c ∈ cut room chars, c ≠ '\x00'
  | [], _, _ => by simp [cut]
  | first :: rest, room, h => by
    obtain ⟨hfirst, hrest⟩ := List.forall_mem_cons.1 h
    rw [cut]
    split
    · exact List.forall_mem_cons.2 ⟨hfirst, ne_nul_of_mem_cut hrest⟩
    · split
      · exact nofun
      · exact List.forall_mem_singleton.2 (by decide)

end Utf8

/-! ## Packing and reading -/

theorem ne_nul_of_mem_untilNul {text : String} : ∀ c ∈ (untilNul text).toList, c ≠ '\x00' := by
  intro c hc
  rw [untilNul, String.toList_ofList] at hc
  simpa using List.mem_takeWhile_imp hc

theorem untilNul_of_ne_nul {chars : List Char} (h : ∀ c ∈ chars, c ≠ '\x00') :
    untilNul (String.ofList chars) = String.ofList chars := by
  rw [untilNul, String.toList_ofList, List.takeWhile_eq_self_iff.2 (by simpa using h)]

theorem untilNul_eq_self {text : String} (h : '\x00' ∉ text.toList) : untilNul text = text := by
  have hne : ∀ c ∈ text.toList, c ≠ '\x00' := by
    intro c hc he
    exact h (he ▸ hc)
  have huntil := untilNul_of_ne_nul hne
  rwa [String.ofList_toList] at huntil

/-- A text that was packed is read as far as the buffer reaches. -/
theorem readText_packText (text : String) (length : Nat) :
    readText (packText text length) =
      String.ofList (Utf8.cut length (untilNul text).toList) := by
  have hbytes : ∀ b ∈ (Utf8.encode (untilNul text)).take length, decide (b ≠ 0) = true := by
    intro b hb
    obtain ⟨c, hc, hbc⟩ := List.mem_flatMap.1 (List.mem_of_mem_take hb)
    exact decide_eq_true (Utf8.ne_zero_of_mem_utf8EncodeChar (ne_nul_of_mem_untilNul c hc) hbc)
  have hzeros : ∀ n : Nat, (List.replicate n (0 : UInt8)).takeWhile (· ≠ 0) = [] := by
    intro n
    cases n <;> simp [List.replicate_succ]
  rw [readText, packText, List.rightpad, List.takeWhile_append_of_pos hbytes, hzeros,
    List.append_nil, Utf8.decodeLossy_take_encode]

/-- A text without NUL that fits the buffer is read as it was packed. -/
theorem readText_packText_of_fits {text : String} {length : Nat} (hnul : '\x00' ∉ text.toList)
    (hfits : text.utf8ByteSize ≤ length) : readText (packText text length) = text := by
  rw [← Utf8.length_encode] at hfits
  rw [readText_packText, untilNul_eq_self hnul, Utf8.cut_eq_self hfits, String.ofList_toList]

/-- Once a text was packed and read, packing and reading it again change nothing. -/
theorem readText_packText_readText (text : String) (length : Nat) :
    readText (packText (readText (packText text length)) length) =
      readText (packText text length) := by
  have hnul : ∀ c ∈ Utf8.cut length (untilNul text).toList, c ≠ '\x00' :=
    Utf8.ne_nul_of_mem_cut ne_nul_of_mem_untilNul
  rw [readText_packText text, readText_packText, untilNul_of_ne_nul hnul, String.toList_ofList,
    Utf8.cut_cut]

end RecordBridge

import RecordBridge.Proofs.Wire.Append
import RecordBridge.Proofs.Wire.RoundTrip
/-!
# Numbers are written short

`Varint.size` grows with the number, by one byte at most when the number doubles
(`size_two_mul_le`), and is no more than the bytes that the number was read from
(`size_le_of_decode?`), which need not be the fewest. The same goes for keys
(`size_le_of_key`).
-/
namespace RecordBridge

namespace Varint

theorem size_pos (n : Nat) : 0 < size n := by
  by_cases h : n < 128
  · simp [size_of_lt h]
  · simp [size_of_ge (n := n) (by omega)]

theorem size_mono {n : Nat} : ∀ {m : Nat}, m ≤ n → size m ≤ size n := by
  induction n using Nat.strongRecOn with
  | ind n ih =>
    intro m h
    by_cases hm : m < 128
    · rw [size_of_lt hm]
      exact size_pos n
    · have hq : size (m / 128) ≤ size (n / 128) := ih (n / 128) (by omega) (by omega)
      rw [size_of_ge (n := m) (by omega), size_of_ge (n := n) (by omega)]
      omega

theorem size_le_of_lt {groups : Nat} : ∀ {n : Nat}, n < 128 ^ (groups + 1) →
    size n ≤ groups + 1 := by
  induction groups with
  | zero =>
    intro n h
    rw [size_of_lt (by omega)]
  | succ groups ih =>
    intro n h
    by_cases hn : n < 128
    · simp [size_of_lt hn]
    · have hlt : n / 128 < 128 ^ (groups + 1) := by
        rw [Nat.pow_succ] at h
        exact Nat.div_lt_of_lt_mul (by omega)
      have hq := ih hlt
      rw [size_of_ge (by omega)]
      omega

theorem lt_size_of_le {groups : Nat} : ∀ {n : Nat}, 128 ^ groups ≤ n → groups < size n := by
  induction groups with
  | zero => exact fun _ => size_pos _
  | succ groups ih =>
    intro n h
    have hpos : 0 < 128 ^ groups := Nat.pow_pos (by omega)
    rw [Nat.pow_succ] at h
    have hq := ih ((Nat.le_div_iff_mul_le (by omega)).2 h)
    rw [size_of_ge (by omega)]
    omega

theorem size_add_mul_le {b n : Nat} (hb : b < 128) : size (b + 128 * n) ≤ size n + 1 := by
  by_cases h : b + 128 * n < 128
  · rw [size_of_lt h]
    omega
  · rw [size_of_ge (by omega), show (b + 128 * n) / 128 = n by omega]

theorem size_two_mul_le (n : Nat) : size (2 * n) ≤ size n + 1 := by
  have h : size (0 + 128 * n) ≤ size n + 1 := size_add_mul_le (by omega)
  exact Nat.le_trans (size_mono (by omega)) h

theorem size_add_le (m n : Nat) : size (m + n) ≤ size m + size n := by
  have hm := size_pos m
  have hn := size_pos n
  rcases Nat.le_total m n with h | h
  · have hdouble := Nat.le_trans (size_mono (show m + n ≤ 2 * n by omega)) (size_two_mul_le n)
    omega
  · have hdouble := Nat.le_trans (size_mono (show m + n ≤ 2 * m by omega)) (size_two_mul_le m)
    omega

/-- A number takes no more bytes than it was read from. -/
theorem size_le_of_decodeWithin : ∀ {room : Nat} {bytes : List UInt8} {n : Nat}
    {rest : List UInt8}, decodeWithin room bytes = some (n, rest) →
    size n + rest.length ≤ bytes.length
  | room + 1, b :: bytes, n, rest, h => by
    by_cases hb : b.toNat < 128
    · simp only [decodeWithin, hb, if_true] at h
      cases h
      rw [size_of_lt hb, List.length_cons]
      omega
    · simp only [decodeWithin, hb, if_false, Option.map_eq_some_iff, Prod.exists,
        Prod.mk.injEq] at h
      obtain ⟨m, left, hd, rfl, rfl⟩ := h
      have ih := size_le_of_decodeWithin hd
      have hlow : b.toNat - 128 < 128 := by
        have := b.toNat_lt
        omega
      have hstep := @size_add_mul_le _ m hlow
      rw [List.length_cons]
      omega

theorem size_le_of_decode? {bytes : List UInt8} {n : Nat} {rest : List UInt8}
    (h : decode? bytes = some (n, rest)) : size n + rest.length ≤ bytes.length :=
  size_le_of_decodeWithin (Option.filter_eq_some_iff.1 h).1

end Varint

namespace Wire

variable {bytes rest : List UInt8}

theorem size_le_of_varint {n : Nat} (h : varint bytes = .ok (n, rest)) :
    Varint.size n + rest.length ≤ bytes.length :=
  Varint.size_le_of_decode? (varint_eq_ok.1 h)

theorem code_of_ofCode? {code : Nat} {wire : WireType} (h : WireType.ofCode? code = some wire) :
    wire.code = code := by
  unfold WireType.ofCode? at h
  split at h <;> cases h <;> rfl

theorem keyValue_of_splitKey {value : Nat} {number : UInt32} {wire : WireType}
    (h : splitKey value = .ok (number, wire)) : keyValue number wire = value := by
  unfold splitKey at h
  by_cases hsize : UInt32.size ≤ value
  · simp [hsize] at h
  rw [if_neg hsize] at h
  cases hcode : WireType.ofCode? (value % 8) with
  | none => simp [hcode] at h
  | some found =>
    by_cases h0 : value / 8 = 0
    · simp [hcode, h0] at h
    · simp only [hcode, h0, if_false, Except.ok.injEq, Prod.mk.injEq] at h
      obtain ⟨rfl, rfl⟩ := h
      have hlow := code_of_ofCode? hcode
      have hnumber : (UInt32.ofNat (value / 8)).toNat = value / 8 := by
        rw [UInt32.toNat_ofNat']
        simp only [UInt32.size] at hsize
        omega
      rw [keyValue, hnumber, hlow]
      omega

/-- A key takes no more bytes than it was read from. -/
theorem size_le_of_key {number : UInt32} {wire : WireType}
    (h : key bytes = .ok ((number, wire), rest)) :
    Varint.size (keyValue number wire) + rest.length ≤ bytes.length := by
  unfold key at h
  obtain ⟨⟨value, tail⟩, hv, h⟩ := bind_eq_ok.1 h
  obtain ⟨found, hs, h⟩ := bind_eq_ok.1 h
  cases h
  rw [keyValue_of_splitKey hs]
  exact size_le_of_varint hv

end Wire

end RecordBridge

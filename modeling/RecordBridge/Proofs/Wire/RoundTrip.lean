import Mathlib
import RecordBridge.Wire.Skip
/-!
# Varints, keys and blocks come back

What is written at the front of a byte string is read off it again, whatever
follows: numbers below 2^64 (`decode?_encode_append`), keys of usable field
numbers (`key_encodeKey_append`) and blocks of known length
(`splitExactly?_append`). `Varint.size` is the length of what is written.
-/
namespace RecordBridge

namespace Varint

theorem encode_of_lt {n : Nat} (h : n < 128) : encode n = [n.toUInt8] := by
  rw [encode, if_pos h]

theorem encode_of_ge {n : Nat} (h : 128 ≤ n) :
    encode n = (n % 128 + 128).toUInt8 :: encode (n / 128) := by
  rw [encode, if_neg (by omega)]

theorem size_of_lt {n : Nat} (h : n < 128) : size n = 1 := by
  rw [size, if_pos h]

theorem size_of_ge {n : Nat} (h : 128 ≤ n) : size n = size (n / 128) + 1 := by
  rw [size, if_neg (by omega)]

theorem length_encode (n : Nat) : (encode n).length = size n := by
  induction n using Nat.strongRecOn with
  | ind n ih =>
    by_cases h : n < 128
    · rw [encode_of_lt h, size_of_lt h, List.length_singleton]
    · rw [encode_of_ge (by omega), size_of_ge (by omega), List.length_cons, ih _ (by omega)]

/-- Room for one byte more than the number has groups above the lowest is enough. -/
theorem decodeWithin_encode_append (rest : List UInt8) : ∀ {room n : Nat},
    n < 128 ^ (room + 1) → decodeWithin (room + 1) (encode n ++ rest) = some (n, rest) := by
  intro room
  induction room with
  | zero =>
    intro n h
    have hn : n.toUInt8.toNat = n := by simp; omega
    rw [encode_of_lt (by omega)]
    simp [decodeWithin, hn, show n < 128 by omega]
  | succ room ih =>
    intro n h
    by_cases hn : n < 128
    · have hb : n.toUInt8.toNat = n := by simp; omega
      rw [encode_of_lt hn]
      simp [decodeWithin, hb, hn]
    · have hb : (n % 128 + 128).toUInt8.toNat = n % 128 + 128 := by simp; omega
      have hq : n / 128 < 128 ^ (room + 1) := by
        rw [Nat.pow_succ] at h
        exact Nat.div_lt_of_lt_mul (by omega)
      rw [encode_of_ge (by omega), List.cons_append, decodeWithin, hb, ih hq]
      simp only [show ¬ n % 128 + 128 < 128 by omega, if_false, Option.map_some,
        Option.some.injEq, Prod.mk.injEq, and_true]
      omega

theorem decode?_encode_append {n : Nat} (h : n < UInt64.size) (rest : List UInt8) :
    decode? (encode n ++ rest) = some (n, rest) := by
  have hroom : n < 128 ^ 10 := Nat.lt_trans h (by decide)
  rw [decode?, decodeWithin_encode_append rest hroom]
  simp [h]

end Varint

namespace Wire

theorem varint_encode_append {n : Nat} (h : n < UInt64.size) (rest : List UInt8) :
    varint (Varint.encode n ++ rest) = .ok (n, rest) := by
  simp [varint, Varint.decode?_encode_append h]

theorem ofCode?_code (wire : WireType) : WireType.ofCode? wire.code = some wire := by
  cases wire <;> rfl

theorem code_lt (wire : WireType) : wire.code < 8 := by
  cases wire <;> decide

/-- A number that leaves room for the wire type, and is not 0, is a key's number. -/
theorem splitKey_keyValue {number : UInt32} (wire : WireType) (h0 : number ≠ 0)
    (hlt : number.toNat < 536870912) : splitKey (keyValue number wire) = .ok (number, wire) := by
  have hc := code_lt wire
  have hmod : keyValue number wire % 8 = wire.code := by unfold keyValue; omega
  have hdiv : keyValue number wire / 8 = number.toNat := by unfold keyValue; omega
  have hsize : ¬ UInt32.size ≤ keyValue number wire := by
    unfold keyValue; simp only [UInt32.size]; omega
  have hne : number.toNat ≠ 0 := fun h => h0 (UInt32.toNat_inj.1 (by simpa using h))
  rw [splitKey, if_neg hsize, hmod, hdiv, ofCode?_code]
  simp [hne]

theorem key_encodeKey_append {number : UInt32} (wire : WireType) (h0 : number ≠ 0)
    (hlt : number.toNat < 536870912) (rest : List UInt8) :
    key (encodeKey number wire ++ rest) = .ok ((number, wire), rest) := by
  have hc := code_lt wire
  have hsize : keyValue number wire < UInt64.size := by
    unfold keyValue; simp only [UInt64.size]; omega
  simp [key, encodeKey, varint_encode_append hsize, splitKey_keyValue wire h0 hlt, bind,
    Except.bind, pure, Except.pure]

theorem splitExactly?_append (front back : List UInt8) :
    splitExactly? front.length (front ++ back) = some (front, back) := by
  simp [splitExactly?]

end Wire

end RecordBridge

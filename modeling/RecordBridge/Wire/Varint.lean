/-!
# Varints

A number as groups of seven bits, lowest first, every byte but the last with
its high bit set. Writing uses as few bytes as the number needs; reading takes
up to ten bytes and numbers below 2^64.

| here | operation |
| --- | --- |
| `Varint.encode` | `encode_varint` |
| `Varint.size` | `encoded_len_varint` |
| `Varint.decode?` | `decode_varint` |
-/
namespace RecordBridge.Varint

/-- The bytes of a number. -/
def encode (n : Nat) : List UInt8 :=
  if n < 128 then [n.toUInt8] else (n % 128 + 128).toUInt8 :: encode (n / 128)
termination_by n
decreasing_by omega

/-- How many bytes a number takes. -/
def size (n : Nat) : Nat :=
  if n < 128 then 1 else size (n / 128) + 1
termination_by n
decreasing_by omega

/-- The number that starts a byte string and ends within `room` bytes, and what
follows it. -/
def decodeWithin : (room : Nat) → List UInt8 → Option (Nat × List UInt8)
  | 0, _ | _ + 1, [] => none
  | room + 1, b :: rest =>
    if b.toNat < 128 then some (b.toNat, rest)
    else (decodeWithin room rest).map fun (n, rest) => (b.toNat - 128 + 128 * n, rest)

/-- The number that starts a byte string, and what follows it. -/
def decode? (bytes : List UInt8) : Option (Nat × List UInt8) :=
  (decodeWithin 10 bytes).filter (·.1 < UInt64.size)

theorem length_lt_of_decodeWithin {room : Nat} {bytes : List UInt8} {n : Nat} {rest : List UInt8}
    (h : decodeWithin room bytes = some (n, rest)) : rest.length < bytes.length := by
  induction room, bytes using decodeWithin.induct generalizing n rest with
  | case1 | case2 => simp [decodeWithin] at h
  | case3 room b tail hb =>
    simp only [decodeWithin, hb, if_true, Option.some.injEq, Prod.mk.injEq] at h
    simp [← h.2]
  | case4 room b tail hb ih =>
    simp only [decodeWithin, hb, if_false, Option.map_eq_some_iff, Prod.exists,
      Prod.mk.injEq] at h
    obtain ⟨m, r, hd, -, rfl⟩ := h
    have := ih hd
    simp only [List.length_cons]; omega

theorem length_lt_of_decode? {bytes : List UInt8} {n : Nat} {rest : List UInt8}
    (h : decode? bytes = some (n, rest)) : rest.length < bytes.length :=
  length_lt_of_decodeWithin (Option.filter_eq_some_iff.1 h).1

end RecordBridge.Varint

import RecordBridge.Proofs.Lookup
import RecordBridge.Wire.Skip
/-!
# Reading does not look ahead

A reader that succeeded took some bytes off the front. From these it reads the
same whatever follows them, and leaves exactly that over: varints
(`exists_front_of_varint`), keys (`exists_front_of_key`), blocks and fields that
are skipped (`exists_front_of_skip`).
-/
namespace RecordBridge

theorem Varint.exists_front_of_decodeWithin : ∀ {room : Nat} {bytes : List UInt8} {n : Nat}
    {rest : List UInt8}, decodeWithin room bytes = some (n, rest) →
    ∃ front, bytes = front ++ rest ∧ ∀ more, decodeWithin room (front ++ more) = some (n, more)
  | room + 1, b :: bytes, n, rest, h => by
    by_cases hb : b.toNat < 128
    · simp only [decodeWithin, hb, if_true] at h
      cases h
      exact ⟨[b], rfl, fun more => by simp [decodeWithin, hb]⟩
    · simp only [decodeWithin, hb, if_false, Option.map_eq_some_iff, Prod.exists,
        Prod.mk.injEq] at h
      obtain ⟨m, r, hd, rfl, rfl⟩ := h
      obtain ⟨front, rfl, hfront⟩ := exists_front_of_decodeWithin hd
      exact ⟨b :: front, rfl, fun more => by simp [decodeWithin, hb, hfront]⟩

theorem Varint.exists_front_of_decode? {bytes rest : List UInt8} {n : Nat}
    (h : decode? bytes = some (n, rest)) :
    ∃ front, bytes = front ++ rest ∧ ∀ more, decode? (front ++ more) = some (n, more) := by
  obtain ⟨hd, hn⟩ := Option.filter_eq_some_iff.1 h
  obtain ⟨front, hbytes, hfront⟩ := exists_front_of_decodeWithin hd
  exact ⟨front, hbytes, fun more => Option.filter_eq_some_iff.2 ⟨hfront more, hn⟩⟩

namespace Wire

variable {bytes rest block : List UInt8}

theorem varint_eq_ok {n : Nat} :
    varint bytes = .ok (n, rest) ↔ Varint.decode? bytes = some (n, rest) := by
  unfold varint
  cases Varint.decode? bytes <;> simp

theorem exists_front_of_varint {n : Nat} (h : varint bytes = .ok (n, rest)) :
    ∃ front, bytes = front ++ rest ∧ ∀ more, varint (front ++ more) = .ok (n, more) := by
  obtain ⟨front, hbytes, hfront⟩ := Varint.exists_front_of_decode? (varint_eq_ok.1 h)
  exact ⟨front, hbytes, fun more => varint_eq_ok.2 (hfront more)⟩

theorem exists_front_of_key {key : UInt32 × WireType} (h : Wire.key bytes = .ok (key, rest)) :
    ∃ front, bytes = front ++ rest ∧ ∀ more, Wire.key (front ++ more) = .ok (key, more) := by
  unfold Wire.key at h
  obtain ⟨⟨value, tail⟩, hv, h⟩ := bind_eq_ok.1 h
  obtain ⟨found, hs, h⟩ := bind_eq_ok.1 h
  cases h
  obtain ⟨front, hbytes, hfront⟩ := exists_front_of_varint hv
  refine ⟨front, hbytes, fun more => ?_⟩
  simp only [Wire.key, hfront, ok_bind, hs]
  rfl

/-- A block is what was split off. -/
theorem splitExactly?_eq_some {n : Nat} :
    splitExactly? n bytes = some (block, rest) ↔ bytes = block ++ rest ∧ block.length = n := by
  unfold splitExactly?
  constructor
  · intro h
    split at h
    · next hlen => cases h; exact ⟨(List.take_append_drop n bytes).symm, hlen⟩
    · cases h
  · rintro ⟨rfl, rfl⟩
    simp

theorem exists_front_of_dropExactly {n : Nat} (h : dropExactly n bytes = .ok rest) :
    ∃ front, bytes = front ++ rest ∧ ∀ more, dropExactly n (front ++ more) = .ok more := by
  unfold dropExactly at h
  split at h
  · next block _ hs =>
    cases h
    obtain ⟨hbytes, hlen⟩ := splitExactly?_eq_some.1 hs
    refine ⟨block, hbytes, fun more => ?_⟩
    rw [dropExactly, splitExactly?_eq_some.2 ⟨rfl, hlen⟩]
  · cases h

theorem exists_front_of_skipContent {wire : WireType} (h : skipContent wire bytes = .ok rest) :
    ∃ front, bytes = front ++ rest ∧ ∀ more, skipContent wire (front ++ more) = .ok more := by
  cases wire with
  | startGroup | endGroup => cases h
  | fixed32 | fixed64 => exact exists_front_of_dropExactly h
  | varint =>
    obtain ⟨⟨n, tail⟩, hv, h⟩ := bind_eq_ok.1 h
    cases h
    obtain ⟨front, hbytes, hfront⟩ := exists_front_of_varint hv
    refine ⟨front, hbytes, fun more => ?_⟩
    simp only [skipContent, hfront]
    rfl
  | lengthDelimited =>
    obtain ⟨⟨n, tail⟩, hv, hd⟩ := bind_eq_ok.1 h
    obtain ⟨block, rfl, hblock⟩ := exists_front_of_dropExactly hd
    obtain ⟨length, rfl, hlength⟩ := exists_front_of_varint hv
    refine ⟨length ++ block, (List.append_assoc ..).symm, fun more => ?_⟩
    rw [List.append_assoc, skipContent, hlength, ok_bind]
    exact hblock more

theorem skipGroups_of_endGroup {number : UInt32} {outer : List UInt32}
    (h : Wire.key bytes = .ok ((number, .endGroup), rest)) :
    skipGroups (number :: outer) bytes = skipGroups outer rest := by
  rw [skipGroups]
  split
  · next he => rw [h] at he; cases he
  · next he => rw [h] at he; cases he; rw [if_pos rfl]
  · next he => rw [h] at he; cases he
  · next hend _ he => rw [h] at he; cases he; exact (hend rfl).elim

theorem skipGroups_of_startGroup {number found : UInt32} {outer : List UInt32}
    (h : Wire.key bytes = .ok ((found, .startGroup), rest))
    (hd : ¬ groupLimit ≤ (number :: outer).length) :
    skipGroups (number :: outer) bytes = skipGroups (found :: number :: outer) rest := by
  rw [skipGroups]
  split
  · next he => rw [h] at he; cases he
  · next he => rw [h] at he; cases he
  · next he => rw [h] at he; cases he; rw [if_neg hd]
  · next hstart he => rw [h] at he; cases he; exact (hstart rfl).elim

theorem skipGroups_of_content {number found : UInt32} {outer : List UInt32} {wire : WireType}
    {left : List UInt8} (h : Wire.key bytes = .ok ((found, wire), rest))
    (hd : ¬ groupLimit ≤ (number :: outer).length) (hc : skipContent wire rest = .ok left) :
    skipGroups (number :: outer) bytes = skipGroups (number :: outer) left := by
  rw [skipGroups]
  split
  · next he => rw [h] at he; cases he
  · next he => rw [h] at he; cases he; cases hc
  · next he => rw [h] at he; cases he; cases hc
  · next he =>
    rw [h] at he
    cases he
    rw [if_neg hd]
    split
    · next hc' => rw [hc] at hc'; cases hc'
    · next hc' => rw [hc] at hc'; cases hc'; rfl

/-- The front of groups is made of the keys and fields in them, up to the last end. -/
theorem exists_front_of_skipGroups {begun : List UInt32} (h : skipGroups begun bytes = .ok rest) :
    ∃ front, bytes = front ++ rest ∧ ∀ more, skipGroups begun (front ++ more) = .ok more := by
  fun_induction skipGroups begun bytes with
  | case1 bytes =>
    cases h
    exact ⟨[], rfl, fun more => by rw [List.nil_append, skipGroups]⟩
  | case2 | case4 | case5 | case7 | case8 => cases h
  | case3 outer bytes number tail hk ih =>
    obtain ⟨key, rfl, hkey⟩ := exists_front_of_key hk
    obtain ⟨front, rfl, hfront⟩ := ih h
    refine ⟨key ++ front, (List.append_assoc ..).symm, fun more => ?_⟩
    rw [List.append_assoc, skipGroups_of_endGroup (hkey _), hfront]
  | case6 number outer bytes found tail hk hd ih =>
    obtain ⟨key, rfl, hkey⟩ := exists_front_of_key hk
    obtain ⟨front, rfl, hfront⟩ := ih h
    refine ⟨key ++ front, (List.append_assoc ..).symm, fun more => ?_⟩
    rw [List.append_assoc, skipGroups_of_startGroup (hkey _) hd, hfront]
  | case9 number outer bytes found wire tail _ _ hk hd left hc ih =>
    obtain ⟨key, rfl, hkey⟩ := exists_front_of_key hk
    obtain ⟨content, rfl, hcontent⟩ := exists_front_of_skipContent hc
    obtain ⟨front, rfl, hfront⟩ := ih h
    refine ⟨key ++ (content ++ front), by simp only [List.append_assoc], fun more => ?_⟩
    rw [List.append_assoc, List.append_assoc, skipGroups_of_content (hkey _) hd (hcontent _),
      hfront]

theorem exists_front_of_skip {number : UInt32} {wire : WireType}
    (h : skip number wire bytes = .ok rest) :
    ∃ front, bytes = front ++ rest ∧ ∀ more, skip number wire (front ++ more) = .ok more := by
  cases wire with
  | startGroup => exact exists_front_of_skipGroups h
  | _ =>
    simp only [skip] at h ⊢
    exact exists_front_of_skipContent h

end Wire

end RecordBridge

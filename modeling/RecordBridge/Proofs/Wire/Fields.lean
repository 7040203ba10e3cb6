import RecordBridge.Proofs.Wire.Append
import RecordBridge.Proofs.Wire.RoundTrip
/-!
# Well-formed fields

What the wire format allows as a field, whatever its number and content: a key and
the content that its wire type announces, where a group holds fields up to the end
key of its own number (`Wire.Field`). Numbers may be spelled with more bytes than
they need (`Varint.Spells`). Skipping takes exactly such a field off the front, as
long as groups nest below the limit in it (`Field.skip_append`).
-/
namespace RecordBridge

namespace Varint

/-- Bytes are groups of seven bits of a number, the lowest first, not always the fewest. -/
inductive Groups : List UInt8 → Nat → Prop where
  | last {b : UInt8} (low : b.toNat < 128) : Groups [b] b.toNat
  | more {b : UInt8} {bytes : List UInt8} {n : Nat} (high : 128 ≤ b.toNat)
      (rest : Groups bytes n) : Groups (b :: bytes) (b.toNat - 128 + 128 * n)

/-- Bytes are a number below 2^64, in at most ten groups. -/
structure Spells (bytes : List UInt8) (n : Nat) : Prop where
  groups : Groups bytes n
  length : bytes.length ≤ 10
  lt : n < UInt64.size

theorem decodeWithin_groups_append {bytes : List UInt8} {n : Nat} (h : Groups bytes n)
    (rest : List UInt8) : ∀ {room : Nat}, bytes.length ≤ room →
    decodeWithin room (bytes ++ rest) = some (n, rest) := by
  induction h with
  | @last b low =>
    intro room hroom
    cases room with
    | zero => simp at hroom
    | succ room => simp [decodeWithin, low]
  | @more b bytes n high hbytes ih =>
    intro room hroom
    cases room with
    | zero => simp at hroom
    | succ room =>
      have hlow : ¬ b.toNat < 128 := by omega
      simp [decodeWithin, hlow, ih (by simpa using hroom)]

theorem groups_of_decodeWithin : ∀ {room : Nat} {bytes : List UInt8} {n : Nat},
    decodeWithin room bytes = some (n, []) → Groups bytes n ∧ bytes.length ≤ room
  | room + 1, b :: bytes, n, h => by
    by_cases hb : b.toNat < 128
    · simp only [decodeWithin, hb, if_true] at h
      cases h
      exact ⟨.last hb, by simp⟩
    · simp only [decodeWithin, hb, if_false, Option.map_eq_some_iff, Prod.exists,
        Prod.mk.injEq] at h
      obtain ⟨m, left, hd, rfl, rfl⟩ := h
      obtain ⟨hgroups, hlen⟩ := groups_of_decodeWithin hd
      exact ⟨.more (by omega) hgroups, by simpa using hlen⟩

/-- The spellings of a number are the bytes that it is read from. -/
theorem spells_iff {bytes : List UInt8} {n : Nat} :
    Spells bytes n ↔ decode? bytes = some (n, []) := by
  constructor
  · rintro ⟨hgroups, hlen, hlt⟩
    have hd := decodeWithin_groups_append hgroups [] hlen
    rw [List.append_nil] at hd
    exact Option.filter_eq_some_iff.2 ⟨hd, by simpa using hlt⟩
  · intro h
    obtain ⟨hd, hlt⟩ := Option.filter_eq_some_iff.1 h
    obtain ⟨hgroups, hlen⟩ := groups_of_decodeWithin hd
    exact ⟨hgroups, hlen, by simpa using hlt⟩

end Varint

namespace Wire

variable {bytes : List UInt8} {number : UInt32} {wire : WireType}

theorem varint_spells_append {n : Nat} (h : Varint.Spells bytes n) (rest : List UInt8) :
    varint (bytes ++ rest) = .ok (n, rest) := by
  rw [varint_eq_ok, Varint.decode?, Varint.decodeWithin_groups_append h.groups rest h.length]
  exact Option.filter_eq_some_iff.2 ⟨rfl, by simpa using h.lt⟩

/-- Bytes are the key of a field. -/
structure Key (bytes : List UInt8) (number : UInt32) (wire : WireType) : Prop where
  spelled : Varint.Spells bytes (keyValue number wire)
  nonzero : number ≠ 0
  lt : keyValue number wire < UInt32.size

theorem key_of_decode? (h : Varint.decode? bytes = some (keyValue number wire, []))
    (h0 : number ≠ 0) (hlt : keyValue number wire < UInt32.size) : Key bytes number wire :=
  ⟨Varint.spells_iff.2 h, h0, hlt⟩

theorem Key.append (h : Key bytes number wire) (rest : List UInt8) :
    key (bytes ++ rest) = .ok ((number, wire), rest) := by
  have hlt : number.toNat < 536870912 := by
    have := h.lt
    simp only [keyValue, UInt32.size] at this
    omega
  rw [key, varint_spells_append h.spelled, ok_bind]
  simp only [splitKey_keyValue wire h.nonzero hlt]
  rfl

/-- Bytes are the content of a field that is no group. -/
inductive Content : WireType → List UInt8 → Prop where
  | varint {bytes : List UInt8} {n : Nat} (spelled : Varint.Spells bytes n) :
      Content .varint bytes
  | fixed32 {bytes : List UInt8} (length : bytes.length = 4) : Content .fixed32 bytes
  | fixed64 {bytes : List UInt8} (length : bytes.length = 8) : Content .fixed64 bytes
  | lengthDelimited {head body : List UInt8} (spelled : Varint.Spells head body.length) :
      Content .lengthDelimited (head ++ body)

theorem dropExactly_append {n : Nat} (h : bytes.length = n) (rest : List UInt8) :
    dropExactly n (bytes ++ rest) = .ok rest := by
  rw [dropExactly, splitExactly?_eq_some.2 ⟨rfl, h⟩]

theorem Content.skip_append (h : Content wire bytes) (rest : List UInt8) :
    skipContent wire (bytes ++ rest) = .ok rest := by
  cases h with
  | varint spelled =>
    rw [skipContent, varint_spells_append spelled]
    rfl
  | fixed32 length => exact dropExactly_append length rest
  | fixed64 length => exact dropExactly_append length rest
  | lengthDelimited spelled =>
    rw [skipContent, List.append_assoc, varint_spells_append spelled, ok_bind]
    exact dropExactly_append rfl rest

mutual

/-- Bytes are a field with a number, in which groups nest to some level. -/
inductive Field : (levels : Nat) → UInt32 → List UInt8 → Prop where
  | plain {levels : Nat} {number : UInt32} {wire : WireType} {head body : List UInt8}
      (key : Key head number wire) (content : Content wire body) :
      Field levels number (head ++ body)
  | group {levels : Nat} {number : UInt32} {head body tail : List UInt8}
      (start : Key head number .startGroup) (inside : Fields levels body)
      (finish : Key tail number .endGroup) :
      Field (levels + 1) number (head ++ (body ++ tail))

/-- Bytes are any number of fields, in which groups nest to some level. -/
inductive Fields : (levels : Nat) → List UInt8 → Prop where
  | nil {levels : Nat} : Fields levels []
  | cons {levels : Nat} {number : UInt32} {first rest : List UInt8}
      (field : Field levels number first) (fields : Fields levels rest) :
      Fields levels (first ++ rest)

end

mutual

/-- In open groups, a field is passed over whole. -/
theorem Field.skipGroups_append {begun : UInt32} {outer : List UInt32} (rest : List UInt8) :
    ∀ {levels : Nat} {number : UInt32} {bytes : List UInt8}, Field levels number bytes →
    (begun :: outer).length + levels < groupLimit →
    skipGroups (begun :: outer) (bytes ++ rest) = skipGroups (begun :: outer) rest
  | _, _, _, .plain key content, hlevels => by
    rw [List.append_assoc]
    exact skipGroups_of_content (key.append _) (by omega) (content.skip_append rest)
  | levels + 1, number, _, .group start inside finish, hlevels => by
    have hinside : (number :: begun :: outer).length + levels < groupLimit := by
      simp only [List.length_cons] at hlevels ⊢
      omega
    rw [List.append_assoc, List.append_assoc,
      skipGroups_of_startGroup (start.append _) (by omega),
      Fields.skipGroups_append _ inside hinside, skipGroups_of_endGroup (finish.append rest)]

theorem Fields.skipGroups_append {begun : UInt32} {outer : List UInt32} (rest : List UInt8) :
    ∀ {levels : Nat} {bytes : List UInt8}, Fields levels bytes →
    (begun :: outer).length + levels < groupLimit →
    skipGroups (begun :: outer) (bytes ++ rest) = skipGroups (begun :: outer) rest
  | _, _, .nil, _ => rfl
  | _, _, .cons field fields, hlevels => by
    rw [List.append_assoc, Field.skipGroups_append _ field hlevels,
      Fields.skipGroups_append rest fields hlevels]

end

/-- A field is skipped after its key, whatever follows it. -/
theorem Field.skip_append {levels : Nat} (h : Field levels number bytes)
    (hlevels : levels < groupLimit) (rest : List UInt8) :
    ∃ wire left, key (bytes ++ rest) = .ok ((number, wire), left) ∧
      skip number wire left = .ok rest := by
  cases h with
  | @plain _ _ wire head body key content =>
    refine ⟨wire, body ++ rest, by rw [List.append_assoc, key.append], ?_⟩
    have hskip := content.skip_append rest
    cases content <;> exact hskip
  | @group levels _ head body tail start inside finish =>
    refine ⟨.startGroup, body ++ (tail ++ rest), ?_, ?_⟩
    · rw [List.append_assoc, List.append_assoc, start.append]
    · rw [skip, inside.skipGroups_append _ (by simpa [Nat.add_comm] using hlevels),
        skipGroups_of_endGroup (finish.append rest), skipGroups]

end Wire

end RecordBridge

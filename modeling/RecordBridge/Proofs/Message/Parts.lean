import RecordBridge.Message.Decode
import RecordBridge.Proofs.Message.Sound
import RecordBridge.Proofs.Wire.Append
/-!
# The parts of a level

The bytes of one level are split into parts, one per field, up to the first fault
(`Schema.parts`). A part that was read suits the schema (`parts_suit`), and does not
depend on what follows it, so appended bytes have the parts of both (`parts_append`).
-/
namespace RecordBridge

/-! ## Reading does not look ahead -/

theorem MessageError.ofWire_ok (value : α) : ofWire (.ok value) = .ok value := rfl

variable {bytes rest more : List UInt8}

theorem exists_front_of_readBlock {name : String} {block : List UInt8}
    (h : readBlock name bytes = .ok (block, rest)) :
    ∃ front, bytes = front ++ rest ∧
      ∀ more, readBlock name (front ++ more) = .ok (block, more) := by
  unfold readBlock at h
  obtain ⟨⟨n, tail⟩, hv, h⟩ := bind_eq_ok.1 h
  dsimp only at h
  split at h
  · next found hs =>
    cases h
    obtain ⟨rfl, hlen⟩ := Wire.splitExactly?_eq_some.1 hs
    obtain ⟨length, rfl, hlength⟩ := Wire.exists_front_of_varint (MessageError.ofWire_eq_ok.1 hv)
    refine ⟨length ++ block, (List.append_assoc ..).symm, fun more => ?_⟩
    rw [List.append_assoc, readBlock, hlength, MessageError.ofWire_ok, ok_bind]
    dsimp only
    rw [Wire.splitExactly?_eq_some.2 ⟨rfl, hlen⟩]
    rfl
  · cases h

theorem exists_front_of_readContent {field : Schema.Field} {index : Nat} {part : Part}
    (h : field.readContent index bytes = .ok (part, rest)) :
    ∃ front, bytes = front ++ rest ∧
      ∀ more, field.readContent index (front ++ more) = .ok (part, more) := by
  unfold Schema.Field.readContent at h ⊢
  cases ht : field.type with
  | int32 | bool =>
    simp only [ht] at h ⊢
    obtain ⟨⟨bits, tail⟩, hv, h⟩ := bind_eq_ok.1 h
    cases h
    obtain ⟨front, hbytes, hfront⟩ := Wire.exists_front_of_varint (MessageError.ofWire_eq_ok.1 hv)
    exact ⟨front, hbytes, fun more => by rw [hfront, MessageError.ofWire_ok, ok_bind]; rfl⟩
  | string =>
    simp only [ht] at h ⊢
    obtain ⟨⟨block, tail⟩, hb, h⟩ := bind_eq_ok.1 h
    obtain ⟨front, hbytes, hfront⟩ := exists_front_of_readBlock hb
    dsimp only at h
    split at h
    · next htext =>
      cases h
      refine ⟨front, hbytes, fun more => ?_⟩
      rw [hfront, ok_bind]
      dsimp only
      rw [htext]
      rfl
    · cases h
  | message | repeated =>
    simp only [ht] at h ⊢
    obtain ⟨⟨block, tail⟩, hb, h⟩ := bind_eq_ok.1 h
    cases h
    obtain ⟨front, hbytes, hfront⟩ := exists_front_of_readBlock hb
    exact ⟨front, hbytes, fun more => by rw [hfront, ok_bind]; rfl⟩

/-- A part is read from some bytes at the front, whatever follows them. -/
theorem Schema.exists_front_of_readPart {schema : Schema} {part : Part}
    (h : schema.readPart bytes = .ok (part, rest)) :
    ∃ front, bytes = front ++ rest ∧
      ∀ more, schema.readPart (front ++ more) = .ok (part, more) := by
  unfold readPart at h
  obtain ⟨⟨⟨number, wire⟩, tail⟩, hk, hc⟩ := bind_eq_ok.1 h
  obtain ⟨key, rfl, hkey⟩ := Wire.exists_front_of_key (MessageError.ofWire_eq_ok.1 hk)
  dsimp only at hc
  cases hn : schema.numbered? number with
  | none =>
    simp only [hn] at hc
    obtain ⟨left, hs, hl⟩ := bind_eq_ok.1 hc
    cases hl
    obtain ⟨front, rfl, hfront⟩ := Wire.exists_front_of_skip (MessageError.ofWire_eq_ok.1 hs)
    refine ⟨key ++ front, (List.append_assoc ..).symm, fun more => ?_⟩
    rw [List.append_assoc, readPart, hkey, MessageError.ofWire_ok, ok_bind]
    simp only [hn, hfront]
    rfl
  | some found =>
    obtain ⟨index, field⟩ := found
    simp only [hn, guard_eq_ok] at hc
    obtain ⟨front, rfl, hfront⟩ := exists_front_of_readContent hc.2
    refine ⟨key ++ front, (List.append_assoc ..).symm, fun more => ?_⟩
    rw [List.append_assoc, readPart, hkey, MessageError.ofWire_ok, ok_bind]
    simp only [hn, guard_eq_ok]
    exact ⟨hc.1, hfront more⟩

namespace Schema

/-- The parts of a level up to the first fault, and the fault. -/
def parts (schema : Schema) (bytes : List UInt8) : List Part × Option MessageError :=
  if bytes.isEmpty then ([], none)
  else match _h : schema.readPart bytes with
    | .error error => ([], some error)
    | .ok (part, rest) =>
      let (parts, fault) := schema.parts rest
      (part :: parts, fault)
termination_by bytes.length
decreasing_by exact length_lt_of_readPart _h

theorem parts_nil (schema : Schema) : schema.parts [] = ([], none) := by
  rw [parts]
  rfl

theorem parts_of_readPart {schema : Schema} {bytes rest : List UInt8} {part : Part}
    (h : schema.readPart bytes = .ok (part, rest)) :
    schema.parts bytes = (part :: (schema.parts rest).1, (schema.parts rest).2) := by
  have hne : bytes.isEmpty = false := by
    have := length_lt_of_readPart h
    cases bytes with
    | nil => simp at this
    | cons => rfl
  rw [parts, if_neg (by simp [hne])]
  split
  · next he => rw [h] at he; cases he
  · next he => rw [h] at he; cases he; rfl

theorem parts_of_readPart_error {schema : Schema} {error : MessageError} (hne : bytes ≠ [])
    (h : schema.readPart bytes = .error error) : schema.parts bytes = ([], some error) := by
  rw [parts, if_neg (by simpa using hne)]
  split
  · next he => rw [h] at he; cases he; rfl
  · next he => rw [h] at he; cases he

/-- Bytes without a fault split into their parts whatever follows. -/
theorem parts_append {schema : Schema} (h : (schema.parts bytes).2 = none) :
    schema.parts (bytes ++ more) =
      ((schema.parts bytes).1 ++ (schema.parts more).1, (schema.parts more).2) := by
  fun_induction parts schema bytes with
  | case1 bytes he =>
    rw [List.isEmpty_iff.1 he]
    rfl
  | case2 => cases h
  | case3 bytes hne part rest hread parts fault hrest ih =>
    simp only [hrest] at ih h
    obtain ⟨front, rfl, hfront⟩ := exists_front_of_readPart hread
    rw [List.append_assoc, parts_of_readPart (hfront _), ih h]
    rfl

end Schema

/-! ## What was read suits the schema -/

/-- The part is of a field of the schema, and of the field's type. -/
def Part.Suits (schema : Schema) : Part → Prop
  | .unknown => True
  | .scalar index value =>
    ∃ field, schema.fields[index]? = some field ∧ value.fits field.type ∧ field.type.isScalar
  | .body index id repeated _ => ∃ field, schema.fields[index]? = some field ∧
    field.type = if repeated then .repeated id else .message id

namespace Schema

variable {schema : Schema} {part : Part}

theorem getElem?_of_numbered? {number : UInt32} {index : Nat} {field : Field}
    (h : schema.numbered? number = some (index, field)) : schema.fields[index]? = some field := by
  simp only [numbered?, Option.bind_eq_bind, Option.bind_eq_some_iff, Option.pure_def,
    Option.some.injEq, Prod.mk.injEq] at h
  obtain ⟨i, -, f, hf, rfl, rfl⟩ := h
  exact hf

theorem readContent_suits {field : Field} {index : Nat} (hf : schema.fields[index]? = some field)
    (h : field.readContent index bytes = .ok (part, rest)) : part.Suits schema := by
  unfold Field.readContent at h
  cases ht : field.type with
  | int32 | bool =>
    simp only [ht] at h
    obtain ⟨_, -, h⟩ := bind_eq_ok.1 h
    cases h
    exact ⟨field, hf, by rw [ht]; rfl, by rw [ht]; rfl⟩
  | string =>
    simp only [ht] at h
    obtain ⟨_, -, h⟩ := bind_eq_ok.1 h
    split at h
    · cases h
      exact ⟨field, hf, by rw [ht]; rfl, by rw [ht]; rfl⟩
    · cases h
  | message | repeated =>
    simp only [ht] at h
    obtain ⟨_, -, h⟩ := bind_eq_ok.1 h
    cases h
    exact ⟨field, hf, ht⟩

theorem readPart_suits (h : schema.readPart bytes = .ok (part, rest)) : part.Suits schema := by
  unfold readPart at h
  obtain ⟨⟨⟨number, wire⟩, tail⟩, -, h⟩ := bind_eq_ok.1 h
  dsimp only at h
  split at h
  · obtain ⟨_, -, h⟩ := bind_eq_ok.1 h
    cases h
    trivial
  · next hn => exact readContent_suits (getElem?_of_numbered? hn) (guard_eq_ok.1 h).2

theorem parts_suit (schema : Schema) (bytes : List UInt8) :
    ∀ part ∈ (schema.parts bytes).1, part.Suits schema := by
  fun_induction parts schema bytes with
  | case1 | case2 => exact fun _ h => absurd h List.not_mem_nil
  | case3 bytes _ part rest hread parts fault hrest ih =>
    rw [hrest] at ih
    exact List.forall_mem_cons.2 ⟨readPart_suits hread, ih⟩

end Schema

end RecordBridge

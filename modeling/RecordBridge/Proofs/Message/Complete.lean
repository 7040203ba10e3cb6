import RecordBridge.Proofs.Message.RoundTrip
/-!
# Messages read without a fault

A message without a fault has none in any part (`read_eq_none_of_mem`), and every
message inside a written one is the body of a part (`exists_body_mem_partsFrom`).
So a written message that is read without a fault comes back whole, however deep
it nests (`Sound.decode_encode_of_fault`).
-/
namespace RecordBridge.Message

variable {set : SchemaSet} {schema : Schema} {message inner : Message}
  {body : SchemaId → List UInt8 → Option Message × Option MessageError}

/-- Without a fault in the end there was none in the first part. -/
theorem read_eq_none_of_assemble {part : Part} {parts : List Part}
    (h : (assemble body schema none (part :: parts)).2 = none) : (part.read body).2 = none := by
  rw [assemble] at h
  dsimp only at h
  cases hread : (part.read body).2 with
  | none => rfl
  | some inner => simp [hread] at h

theorem read_eq_none_of_mem : ∀ {parts : List Part},
    (assemble body schema none parts).2 = none → ∀ part ∈ parts, (part.read body).2 = none
  | [], _ => nofun
  | part :: parts, h => by
    have hread := read_eq_none_of_assemble h
    rw [assemble_cons_of_read hread] at h
    exact List.forall_mem_cons.2 ⟨hread, read_eq_none_of_mem h⟩

/-- A message inside a value is written as the body of a part. -/
theorem exists_body_mem_parts {value : Value} (hi : inner ∈ value.inner) (index : Nat) :
    ∃ repeated, .body index inner.schemaId repeated inner.encode ∈ value.parts index := by
  cases value with
  | message value =>
    rw [List.mem_singleton.1 hi]
    exact ⟨false, List.mem_singleton.2 rfl⟩
  | list elements => exact ⟨true, List.mem_map.2 ⟨inner, hi, rfl⟩⟩
  | int32 | bool | string => cases hi

theorem exists_body_mem_partsFrom {value : Value} (hi : inner ∈ value.inner) :
    ∀ {values : List (Option Value)} (start : Nat), some value ∈ values →
    ∃ index repeated, .body index inner.schemaId repeated inner.encode ∈ partsFrom start values
  | none :: values, start, hv => by
    rw [partsFrom]
    exact exists_body_mem_partsFrom hi (start + 1) (by simpa using hv)
  | some first :: values, start, hv => by
    rw [partsFrom]
    rcases List.mem_cons.1 hv with hv | hv
    · cases hv
      obtain ⟨repeated, hpart⟩ := exists_body_mem_parts hi start
      exact ⟨start, repeated, List.mem_append_left _ hpart⟩
    · obtain ⟨index, repeated, hpart⟩ := exists_body_mem_partsFrom hi (start + 1) hv
      exact ⟨index, repeated, List.mem_append_right _ hpart⟩

/-- One level: without a fault, a message comes back if the bodies inside do. -/
theorem assemble_parts_encode_of_fault (hset : set.Sound) (hm : message.Sound set)
    (hsize : message.encode.length < UInt64.size)
    (hbody : ∀ inner ∈ message.inner, (body inner.schemaId inner.encode).2 = none →
      body inner.schemaId inner.encode = (some inner.canon, none))
    (hnone : (assemble body message.schema (message.schema.parts message.encode).2
      (message.schema.parts message.encode).1).2 = none) :
    assemble body message.schema (message.schema.parts message.encode).2
      (message.schema.parts message.encode).1 = (message.canon, none) := by
  refine assemble_parts_encode hset hm hsize fun inner hi => hbody inner hi ?_
  have hencode : message.encode = encodeFields message.schema.fields message.values := by
    cases message
    rfl
  rw [hencode] at hsize hnone
  rw [Schema.parts_encodeFields hset hm.known List.drop_zero hm.fits hsize] at hnone
  obtain ⟨value, hv, hinner⟩ := mem_inner.1 hi
  obtain ⟨index, repeated, hpart⟩ := exists_body_mem_partsFrom hinner 0 hv
  exact read_eq_none_of_mem hnone _ hpart

/-- At every level, a body that is read without a fault is read whole. -/
theorem decodeBody_encode_of_fault (hset : set.Sound) : ∀ {levels : Nat} {message : Message},
    message.Sound set → message.encode.length < UInt64.size →
    (decodeBody set levels message.schemaId message.encode).2 = none →
    decodeBody set levels message.schemaId message.encode = (some message.canon, none)
  | 0, _, _, _, hnone => by cases hnone
  | levels + 1, message, hm, hsize, hnone => by
    have hbody : ∀ inner ∈ message.inner,
        (decodeBody set levels inner.schemaId inner.encode).2 = none →
        decodeBody set levels inner.schemaId inner.encode = (some inner.canon, none) :=
      fun inner hi => decodeBody_encode_of_fault hset (hm.inside hi)
        (Nat.lt_of_le_of_lt (length_encode_le_of_mem_inner hm.fits hi) hsize)
    rw [decodeBody, schemaId, hset.get?_id hm.known] at hnone ⊢
    have hwhole := assemble_parts_encode_of_fault hset hm hsize hbody hnone
    simp [hwhole]

/-- A sound message that is read back without a fault comes back in canonical form. -/
theorem Sound.decode_encode_of_fault (hset : set.Sound) (hm : message.Sound set)
    (hsize : message.encode.length < UInt64.size)
    (hnone : (decode set message.schema message.encode).2 = none) :
    decode set message.schema message.encode = (message.canon, none) := by
  rw [decode_eq_assemble hset hm.known] at hnone ⊢
  exact assemble_parts_encode_of_fault hset hm hsize (fun _ hi => decodeBody_encode_of_fault hset
    (hm.inside hi) (Nat.lt_of_le_of_lt (length_encode_le_of_mem_inner hm.fits hi) hsize)) hnone

end RecordBridge.Message

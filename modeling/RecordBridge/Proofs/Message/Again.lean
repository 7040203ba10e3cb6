import RecordBridge.Proofs.Message.Size
/-!
# What was read can be written and read again

Whatever the bytes are, the message that is read of them, up to the fault if there
is one, is sound and nests no deeper than the limit (`nesting_decode_le`): bodies
inside are read with one level less, and merging two of them nests no deeper than
either (`nesting_merge_le`). So it is read back whole (`decode_encode_decode`).
-/
namespace RecordBridge

/-! ## Nesting -/

theorem Message.nestingEach_append (front back : List Message) :
    nestingEach (front ++ back) = max (nestingEach front) (nestingEach back) := by
  induction front with
  | nil => simp [nestingEach]
  | cons element front ih => rw [List.cons_append, nestingEach, nestingEach, ih, Nat.max_assoc]

mutual

/-- A merged value nests no deeper than the two it was merged from. -/
theorem Value.nesting_merge_le : ∀ value later : Value,
    (value.merge later).nesting ≤ max value.nesting later.nesting
  | .message value, .message later => by
    have ih := Message.nesting_merge_le value later
    simp only [Value.merge, Value.nesting]
    omega
  | .list elements, .list later => by
    simp only [Value.merge, Value.nesting, Message.nestingEach_append, le_refl]
  | .message _, .int32 _ | .message _, .bool _ | .message _, .string _ | .message _, .list _
  | .list _, .int32 _ | .list _, .bool _ | .list _, .string _ | .list _, .message _
  | .int32 _, _ | .bool _, _ | .string _, _ => Nat.le_max_right _ _

theorem Message.nesting_merge_le : ∀ first later : Message,
    (first.merge later).nesting ≤ max first.nesting later.nesting
  | .mk schema values, .mk _ later => by
    have ih := Message.nestingFields_mergeValues_le values later
    simpa only [Message.merge, Message.nesting, Message.values] using ih

theorem Message.nestingFields_mergeValues_le : ∀ values later : List (Option Value),
    Message.nestingFields (Message.mergeValues values later) ≤
      max (Message.nestingFields values) (Message.nestingFields later)
  | some value :: values, some after :: later => by
    have hvalue := Value.nesting_merge_le value after
    have ih := Message.nestingFields_mergeValues_le values later
    simp only [Message.mergeValues, Message.nestingFields]
    omega
  | some value :: values, none :: later => by
    have ih := Message.nestingFields_mergeValues_le values later
    simp only [Message.mergeValues, Message.nestingFields]
    omega
  | none :: values, some after :: later => by
    have ih := Message.nestingFields_mergeValues_le values later
    simp only [Message.mergeValues, Message.nestingFields]
    omega
  | none :: values, none :: later => by
    have ih := Message.nestingFields_mergeValues_le values later
    simpa only [Message.mergeValues, Message.nestingFields] using ih
  | [], [] | some _ :: _, [] | none :: _, [] => Nat.le_max_left _ _
  | [], _ :: _ => Nat.le_max_right _ _

end

namespace Message

variable {set : SchemaSet} {schema : Schema}
  {body : SchemaId → List UInt8 → Option Message × Option MessageError} {part : Part}
  {levels : Nat}

theorem nesting_le_of_values {message : Message}
    (h : ∀ value, some value ∈ message.values → value.nesting ≤ levels) :
    message.nesting ≤ levels := by
  cases message
  exact nestingFields_le h

theorem nesting_value_le_of_mem {message : Message} {value : Value}
    (h : some value ∈ message.values) : value.nesting ≤ message.nesting := by
  cases message
  exact nesting_le_nestingFields h

theorem nesting_blank (schema : Schema) : (blank schema).nesting = 0 :=
  Nat.le_zero.1 (nesting_le (by simp [inner_blank]))

/-- A value before what a field holds adds no level that neither had. -/
theorem nesting_putBefore_le {message : Message} {index : Nat} {value : Value}
    (hm : message.nesting ≤ levels) (hv : value.nesting ≤ levels) :
    (message.putBefore index value).nesting ≤ levels := by
  refine nesting_le_of_values fun held hheld => ?_
  rcases List.mem_or_eq_of_mem_set hheld with hheld | hheld
  · exact Nat.le_trans (nesting_value_le_of_mem hheld) hm
  · cases hafter : message.value? index with
    | none =>
      rw [hafter] at hheld
      cases hheld
      exact hv
    | some after =>
      rw [hafter] at hheld
      cases hheld
      have hlater := nesting_value_le_of_mem (List.mem_of_getElem? (value?_eq_some.1 hafter))
      exact Nat.le_trans (Value.nesting_merge_le value after)
        (Nat.max_le.2 ⟨hv, Nat.le_trans hlater hm⟩)

/-- Every body is read as a message of fewer levels. -/
def BodyWithin (levels : Nat)
    (body : SchemaId → List UInt8 → Option Message × Option MessageError) : Prop :=
  ∀ id bytes inner, (body id bytes).1 = some inner → inner.nesting < levels

theorem nesting_le_of_read (hbody : BodyWithin levels body) (hpart : part.Suits schema)
    {index : Nat} {value : Value} (h : (part.read body).1 = some (index, value)) :
    value.nesting ≤ levels := by
  refine nesting_value_le fun inner hi => ?_
  cases part with
  | unknown => cases h
  | scalar =>
    cases h
    obtain ⟨field, -, hfit, hscalar⟩ := hpart
    rw [Value.inner_of_isScalar hfit hscalar] at hi
    cases hi
  | body _ id repeated bytes =>
    simp only [Part.read, Option.map_eq_some_iff, Prod.mk.injEq] at h
    obtain ⟨found, hb, rfl, rfl⟩ := h
    have hin : inner = found := by cases repeated <;> simpa [Value.inner] using hi
    rw [hin]
    exact hbody id bytes found hb

theorem nesting_elim_le (hbody : BodyWithin levels body) (hpart : part.Suits schema)
    {message : Message} (hm : message.nesting ≤ levels) :
    ((part.read body).1.elim message
      fun (index, value) => message.putBefore index value).nesting ≤ levels := by
  cases hread : (part.read body).1 with
  | none => exact hm
  | some placed => exact nesting_putBefore_le hm (nesting_le_of_read hbody hpart hread)

theorem nesting_assemble_le (hbody : BodyWithin levels body) (fault : Option MessageError)
    {parts : List Part} (hparts : ∀ part ∈ parts, part.Suits schema) :
    (assemble body schema fault parts).1.nesting ≤ levels := by
  refine @assemble_induction schema body (fun _ message => message.nesting ≤ levels)
    (fun _ => ?_) (fun part _ message hpart _ hm => ?_) fault parts hparts
  · rw [nesting_blank]
    exact Nat.zero_le _
  · exact nesting_elim_le hbody hpart hm

theorem decodeBody_within (set : SchemaSet) (levels : Nat) :
    BodyWithin levels (decodeBody set levels) := by
  refine @decodeBody_induction set (fun levels _ _ inner => inner.nesting < levels)
    (fun levels schema bytes _ ih => Nat.lt_succ_of_le ?_) levels
  exact nesting_assemble_le ih _ (schema.parts_suit bytes)

/-- Whatever the bytes, the message that is read nests no deeper than the limit. -/
theorem nesting_decode_le (hset : set.Sound) (hs : schema ∈ set.schemas) (bytes : List UInt8) :
    (decode set schema bytes).1.nesting ≤ nestingLimit := by
  rw [decode_eq_assemble hset hs]
  exact nesting_assemble_le (decodeBody_within set nestingLimit) _ (schema.parts_suit bytes)

/-! ## Again -/

/-- Whatever the bytes, and whether or not there is a fault in them, the message
that is read is sound, nests no deeper than the limit, and is read back whole of
what is written of it. Byte strings are shorter than half the address space. -/
theorem decode_encode_decode {schemas : List Schema} (hset : SchemaSet.ofList schemas = .ok set)
    (hs : schema ∈ set.schemas) {bytes : List UInt8} (hsize : bytes.length < UInt64.size / 2) :
    (decode set schema bytes).1.schema = schema ∧
    (decode set schema bytes).1.Sound set ∧
    (decode set schema bytes).1.nesting ≤ nestingLimit ∧
    decode set schema (decode set schema bytes).1.encode =
      ((decode set schema bytes).1.canon, none) := by
  have hset := SchemaSet.sound_of_ofList hset
  have hm := decode_sound hset hs bytes
  have hn := nesting_decode_le hset hs bytes
  have hlength : (decode set schema bytes).1.encode.length < UInt64.size := by
    have hdouble := length_encode_decode_le hset hs bytes
    simp only [UInt64.size] at hsize ⊢
    omega
  have hback := hm.decode_encode hset hn hlength
  rw [schema_decode] at hback
  exact ⟨schema_decode set schema bytes, hm, hn, hback⟩

/-- A node with a negative number, before one that holds 7 and goes before a blank one. -/
def brokenNode : Message :=
  mk nodeSchema [some (.int32 (-1)),
    some (.message (mk nodeSchema [some (.int32 7), some (.message (blank nodeSchema)), none])),
    none]

/-- A negative number and a next node twice, the second time broken off in a number. -/
theorem decode_encode_decode_node :
    SchemaSet.ofList [nodeSchema] = .ok ⟨[nodeSchema]⟩ ∧
    nodeSchema ∈ (⟨[nodeSchema]⟩ : SchemaSet).schemas ∧
    [0x08, 0xFF, 0xFF, 0xFF, 0xFF, 0x0F, 0x12, 2, 0x08, 7, 0x12, 3, 0x12, 0, 0x80].length <
      UInt64.size / 2 ∧
    decode ⟨[nodeSchema]⟩ nodeSchema
        [0x08, 0xFF, 0xFF, 0xFF, 0xFF, 0x0F, 0x12, 2, 0x08, 7, 0x12, 3, 0x12, 0, 0x80] =
      (brokenNode, some (.wire .varint)) ∧
    brokenNode.Sound ⟨[nodeSchema]⟩ ∧ brokenNode.nesting ≤ nestingLimit ∧
    decode ⟨[nodeSchema]⟩ nodeSchema brokenNode.encode = (brokenNode.canon, none) := by
  have hset : SchemaSet.ofList [nodeSchema] = .ok ⟨[nodeSchema]⟩ := by rfl
  have hs : nodeSchema ∈ (⟨[nodeSchema]⟩ : SchemaSet).schemas := List.mem_singleton.2 rfl
  have hsize : [0x08, 0xFF, 0xFF, 0xFF, 0xFF, 0x0F, 0x12, 2, 0x08, 7, 0x12, 3, 0x12, 0,
      (0x80 : UInt8)].length < UInt64.size / 2 := by decide
  have hread : decode ⟨[nodeSchema]⟩ nodeSchema
      [0x08, 0xFF, 0xFF, 0xFF, 0xFF, 0x0F, 0x12, 2, 0x08, 7, 0x12, 3, 0x12, 0, 0x80] =
      (brokenNode, some (.wire .varint)) := by cbv
  obtain ⟨-, hm, hn, hback⟩ := decode_encode_decode hset hs hsize
  rw [hread] at hm hn hback
  exact ⟨hset, hs, hsize, hread, hm, hn, hback⟩

end Message

end RecordBridge

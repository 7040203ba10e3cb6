import RecordBridge.Proofs.Message.RoundTrip
import RecordBridge.Proofs.Wire.Size
/-!
# What was read is written in no more than twice the bytes

Merging does not make messages longer than they are together
(`Sound.encodedLength_merge_le`), and a part of a level is written again in at
most twice the bytes it was read from (`Part.bound`): numbers and lengths may take
a byte more than before, and a negative number five bytes more. So a message that
was read is written in at most twice the bytes (`length_encode_decode_le`).
-/
namespace RecordBridge

/-! ## Blocks -/

namespace Wire

theorem blockLength_mono (number : UInt32) {m n : Nat} (h : m ≤ n) :
    blockLength number m ≤ blockLength number n := by
  have hsize := Varint.size_mono h
  unfold blockLength
  omega

theorem blockLength_add_le (number : UInt32) (m n : Nat) :
    blockLength number (m + n) ≤ blockLength number m + blockLength number n := by
  have hsize := Varint.size_add_le m n
  unfold blockLength
  omega

end Wire

/-- Only numbers of at least five bytes have sign bits above the lowest 32. -/
theorem size_int32Bits_le (bits : Nat) :
    Varint.size (int32Bits (Int32.ofNat bits)) ≤ 2 * Varint.size bits := by
  by_cases h : bits < 2 ^ 31
  · have hbits : int32Bits (Int32.ofNat bits) = bits := by
      rw [int32Bits, Int32.toInt_ofNat', Int.bmod_def]
      simp only [UInt64.size, Int32.size]
      omega
    rw [hbits]
    omega
  · have hlong : Varint.size (int32Bits (Int32.ofNat bits)) ≤ 10 :=
      Varint.size_le_of_lt (Nat.lt_trans (int32Bits_lt _) (by decide))
    have hfive : 4 < Varint.size bits := Varint.lt_size_of_le (by omega)
    omega

/-! ## Merging -/

namespace Message

theorem encodedLength_eq (message : Message) :
    message.encodedLength = fieldsLength message.schema.fields message.values := by
  cases message
  rfl

theorem fieldsLength_cons (field : Schema.Field) (fields : List Schema.Field)
    (value : Option Value) (values : List (Option Value)) :
    fieldsLength (field :: fields) (value :: values) =
      value.elim 0 (Value.encodedLength field.number) + fieldsLength fields values := by
  cases value <;> simp [fieldsLength]

theorem fieldsLength_replicate : ∀ (fields : List Schema.Field) (count : Nat),
    fieldsLength fields (.replicate count none) = 0
  | [], _ => by simp [fieldsLength]
  | _ :: _, 0 => rfl
  | field :: fields, count + 1 => by
    rw [List.replicate_succ, fieldsLength_cons, fieldsLength_replicate fields count]
    rfl

theorem fieldsLength_set_replicate (value : Value) : ∀ {fields : List Schema.Field}
    {index : Nat} {field : Schema.Field}, fields[index]? = some field →
    fieldsLength fields ((List.replicate fields.length none).set index (some value)) =
      value.encodedLength field.number
  | first :: fields, 0, field, h => by
    cases h
    rw [List.length_cons, List.replicate_succ, List.set_cons_zero, fieldsLength_cons,
      fieldsLength_replicate]
    rfl
  | first :: fields, index + 1, field, h => by
    rw [List.length_cons, List.replicate_succ, List.set_cons_succ, fieldsLength_cons,
      fieldsLength_set_replicate value (by simpa using h)]
    simp

/-- Fields are compared one by one. -/
theorem fieldsLength_le_add : ∀ {fields : List Schema.Field}
    {values first later : List (Option Value)}, values.length = fields.length →
    first.length = fields.length → later.length = fields.length →
    (∀ (index : Nat) (field : Schema.Field), fields[index]? = some field →
      values[index]?.join.elim 0 (Value.encodedLength field.number) ≤
        first[index]?.join.elim 0 (Value.encodedLength field.number) +
          later[index]?.join.elim 0 (Value.encodedLength field.number)) →
    fieldsLength fields values ≤ fieldsLength fields first + fieldsLength fields later
  | [], [], [], [], _, _, _, _ => by simp [fieldsLength]
  | field :: fields, value :: values, early :: first, late :: later, hv, hf, hl, h => by
    have hhead := h 0 field rfl
    have ih : fieldsLength fields values ≤ fieldsLength fields first + fieldsLength fields later :=
      fieldsLength_le_add (by simpa using hv) (by simpa using hf) (by simpa using hl)
        fun index other ho => by simpa using h (index + 1) other (by simpa using ho)
    simp only [List.getElem?_cons_zero, Option.join_some] at hhead
    simp only [fieldsLength_cons]
    omega

theorem encodedLengths_append (number : UInt32) (front back : List Message) :
    encodedLengths number (front ++ back) =
      encodedLengths number front + encodedLengths number back := by
  induction front with
  | nil => simp [encodedLengths]
  | cons element front ih =>
    simp only [List.cons_append, encodedLengths, ih]
    omega

variable {set : SchemaSet} {schema : Schema}

theorem encodedLength_blank (schema : Schema) : (blank schema).encodedLength = 0 := by
  rw [encodedLength_eq, values_blank, fieldsLength_replicate]

theorem encodedLength_single {index : Nat} {field : Schema.Field}
    (hf : schema.fields[index]? = some field) (value : Value) :
    (single schema index value).encodedLength = value.encodedLength field.number := by
  rw [encodedLength_eq, single, values_put, values_blank]
  exact fieldsLength_set_replicate value hf

theorem encodedLength_merge_value_le (number : UInt32) {value after : Value}
    (ha : Value.Alike value after)
    (ih : ∀ inner ∈ value.inner, ∀ late : Message, after = .message late →
      inner.schemaId = late.schemaId →
      (inner.merge late).encodedLength ≤ inner.encodedLength + late.encodedLength) :
    (value.merge after).encodedLength number ≤
      value.encodedLength number + after.encodedLength number := by
  cases ha with
  | int32 | bool | string => exact Nat.le_add_left _ _
  | list first later =>
    rw [Value.merge, Value.encodedLength, Value.encodedLength, Value.encodedLength,
      encodedLengths_append]
  | @message inner late named =>
    rw [Value.merge, Value.encodedLength, Value.encodedLength, Value.encodedLength]
    have hinner := ih inner List.mem_cons_self late rfl named
    exact Nat.le_trans (Wire.blockLength_mono number hinner) (Wire.blockLength_add_le number _ _)

/-- Two messages take no more bytes merged than apart. -/
theorem Sound.encodedLength_merge_le (hset : set.Sound) {first : Message}
    (hf : first.Sound set) : ∀ {later : Message}, later.Sound set →
    first.schema = later.schema →
    (first.merge later).encodedLength ≤ first.encodedLength + later.encodedLength := by
  induction hf with
  | @intro first known fits inside ih =>
    intro later hl hs
    have hf : first.Sound set := .intro known fits inside
    have hlater : later.values.length = first.schema.fields.length := by rw [hs, hl.length]
    have hwhole := length_values_merge (fits.length.trans hlater.symm)
    rw [encodedLength_eq, encodedLength_eq first, encodedLength_eq later, schema_merge, ← hs]
    refine fieldsLength_le_add (hwhole.trans hlater) fits.length hlater fun index field _ => ?_
    change ((first.merge later).value? index).elim 0 _ ≤
      (first.value? index).elim 0 _ + (later.value? index).elim 0 _
    rw [value?_merge]
    cases hv : first.value? index with
    | none => simp
    | some value =>
      cases ha : later.value? index with
      | none => simp
      | some after =>
        refine encodedLength_merge_value_le field.number (hf.alike_value? hl hs hv ha)
          fun inner hi late hlate hid => ?_
        subst hlate
        have hin := mem_inner.2 ⟨value, List.mem_of_getElem? (value?_eq_some.1 hv), hi⟩
        have hlate := hl.inside_value? ha late List.mem_cons_self
        exact ih inner hin hlate (schema_eq hset (inside inner hin) hlate hid)

end Message

/-! ## What is read of some bytes -/

/-- How many bytes the value of a part may take again. -/
def Part.bound (schema : Schema) : Part → Nat
  | .unknown => 0
  | .scalar index value =>
    schema.fields[index]?.elim 0 fun field => value.encodedLength field.number
  | .body index _ _ bytes =>
    schema.fields[index]?.elim 0 fun field => Wire.blockLength field.number (2 * bytes.length)

theorem size_le_of_readBlock {name : String} {bytes body rest : List UInt8}
    (h : readBlock name bytes = .ok (body, rest)) :
    Varint.size body.length + body.length + rest.length ≤ bytes.length := by
  unfold readBlock at h
  obtain ⟨⟨n, tail⟩, hv, h⟩ := bind_eq_ok.1 h
  have hsize := Wire.size_le_of_varint (MessageError.ofWire_eq_ok.1 hv)
  dsimp only at h
  split at h
  · next hs =>
    cases h
    obtain ⟨rfl, rfl⟩ := Wire.splitExactly?_eq_some.1 hs
    rw [List.length_append] at hsize
    omega
  · cases h

namespace Schema

variable {schema : Schema} {bytes rest : List UInt8} {part : Part}

theorem number_of_numbered? {number : UInt32} {index : Nat} {field : Field}
    (h : schema.numbered? number = some (index, field)) : field.number = number := by
  simp only [numbered?, numberIndex?, Option.bind_eq_bind, Option.bind_eq_some_iff,
    Option.pure_def, Option.some.injEq, Prod.mk.injEq] at h
  obtain ⟨i, hi, f, hf, rfl, rfl⟩ := h
  obtain ⟨hlt, hnumber, -⟩ := List.findIdx?_eq_some_iff_getElem.1 hi
  rw [List.getElem?_eq_getElem hlt] at hf
  cases hf
  exact beq_iff_eq.1 hnumber

theorem bound_of_readContent {index : Nat} {field : Field}
    (hf : schema.fields[index]? = some field)
    (h : field.readContent index bytes = .ok (part, rest)) :
    part.bound schema + 2 * rest.length ≤
      Varint.size (Wire.keyValue field.number field.type.wireType) + 2 * bytes.length := by
  unfold Field.readContent at h
  cases ht : field.type with
  | int32 =>
    simp only [ht] at h
    obtain ⟨⟨bits, tail⟩, hv, h⟩ := bind_eq_ok.1 h
    cases h
    have hsize := Wire.size_le_of_varint (MessageError.ofWire_eq_ok.1 hv)
    have hbits := size_int32Bits_le bits
    simp only [Part.bound, hf, Option.elim_some, Value.encodedLength, FieldType.wireType,
      Wire.size_keyValue]
    split <;> omega
  | bool =>
    simp only [ht] at h
    obtain ⟨⟨bits, tail⟩, hv, h⟩ := bind_eq_ok.1 h
    cases h
    have hsize := Wire.size_le_of_varint (MessageError.ofWire_eq_ok.1 hv)
    have hpos := Varint.size_pos bits
    simp only [Part.bound, hf, Option.elim_some, Value.encodedLength, FieldType.wireType,
      Wire.size_keyValue]
    split <;> omega
  | string =>
    simp only [ht] at h
    obtain ⟨⟨body, tail⟩, hb, h⟩ := bind_eq_ok.1 h
    have hsize := size_le_of_readBlock hb
    dsimp only at h
    split at h
    · next text htext =>
      cases h
      have hlen := Utf8.utf8ByteSize_le_of_decode? htext
      have hmono := Varint.size_mono hlen
      simp only [Part.bound, hf, Option.elim_some, Value.encodedLength, FieldType.wireType,
        Wire.size_keyValue, Wire.blockLength]
      split <;> omega
    · cases h
  | message | repeated =>
    simp only [ht] at h
    obtain ⟨⟨body, tail⟩, hb, h⟩ := bind_eq_ok.1 h
    cases h
    have hsize := size_le_of_readBlock hb
    have hdouble := Varint.size_two_mul_le body.length
    have hpos := Varint.size_pos body.length
    simp only [Part.bound, hf, Option.elim_some, FieldType.wireType, Wire.size_keyValue,
      Wire.blockLength]
    omega

theorem bound_of_readPart (h : schema.readPart bytes = .ok (part, rest)) :
    part.bound schema + 2 * rest.length ≤ 2 * bytes.length := by
  have hlt := length_lt_of_readPart h
  unfold readPart at h
  obtain ⟨⟨⟨number, wire⟩, tail⟩, hk, h⟩ := bind_eq_ok.1 h
  have hkey := Wire.size_le_of_key (MessageError.ofWire_eq_ok.1 hk)
  dsimp only at h
  split at h
  · obtain ⟨left, -, h⟩ := bind_eq_ok.1 h
    cases h
    simp only [Part.bound]
    omega
  · next index field hn =>
    obtain ⟨hwire, h⟩ := guard_eq_ok.1 h
    have hcontent := bound_of_readContent (getElem?_of_numbered? hn) h
    rw [number_of_numbered? hn, ← not_not.1 hwire] at hcontent
    omega

/-- The values of a level take at most twice its bytes. -/
theorem bound_parts (schema : Schema) (bytes : List UInt8) :
    ((schema.parts bytes).1.map (Part.bound schema)).sum ≤ 2 * bytes.length := by
  fun_induction parts schema bytes with
  | case1 | case2 => exact Nat.zero_le _
  | case3 bytes _ part rest hread parts fault hrest ih =>
    have hpart := bound_of_readPart hread
    simp only [hrest] at ih
    simp only [List.map_cons, List.sum_cons]
    omega

end Schema

/-! ## Messages that were read -/

namespace Message

variable {set : SchemaSet} {schema : Schema}
  {body : SchemaId → List UInt8 → Option Message × Option MessageError} {part : Part}

/-- Every body is read as a message of at most twice its length. -/
def BodyBound (body : SchemaId → List UInt8 → Option Message × Option MessageError) : Prop :=
  ∀ id bytes inner, (body id bytes).1 = some inner → inner.encodedLength ≤ 2 * bytes.length

theorem bound_of_read (hbody : BodyBound body) {index : Nat} {value : Value}
    (h : (part.read body).1 = some (index, value)) {field : Schema.Field}
    (hf : schema.fields[index]? = some field) :
    value.encodedLength field.number ≤ part.bound schema := by
  cases part with
  | unknown => cases h
  | scalar =>
    cases h
    simp [Part.bound, hf]
  | body _ id repeated bytes =>
    simp only [Part.read, Option.map_eq_some_iff, Prod.mk.injEq] at h
    obtain ⟨inner, hb, rfl, rfl⟩ := h
    have hle := Wire.blockLength_mono field.number (hbody id bytes inner hb)
    cases repeated <;>
      simpa [Part.bound, hf, Value.encodedLength, encodedLengths] using hle

/-- The value of a part adds at most its bound to a message. -/
theorem encodedLength_elim_le (hset : set.Sound) (hsound : BodySound set body)
    (hbody : BodyBound body) (hpart : part.Suits schema) {message : Message}
    (hm : message.Sound set) (hs : message.schema = schema) :
    ((part.read body).1.elim message
      fun (index, value) => message.putBefore index value).encodedLength ≤
      part.bound schema + message.encodedLength := by
  cases hread : (part.read body).1 with
  | none => exact Nat.le_add_left _ _
  | some placed =>
    obtain ⟨index, value⟩ := placed
    obtain ⟨field, hf, hfit, hin⟩ := read_suits hsound hpart hread
    subst hs
    have hbound := bound_of_read hbody hread hf
    have hone := single_sound hm.known hf hfit hin
    have hmerge := hone.encodedLength_merge_le hset hm (by simp [single])
    rw [encodedLength_single hf] at hmerge
    simp only [Option.elim_some]
    rw [putBefore_eq_merge hm (List.getElem?_eq_some_iff.1 hf).1]
    omega

theorem encodedLength_assemble_le (hset : set.Sound) (hs : schema ∈ set.schemas)
    (hsound : BodySound set body) (hbody : BodyBound body) (fault : Option MessageError)
    {parts : List Part} (hparts : ∀ part ∈ parts, part.Suits schema) :
    (assemble body schema fault parts).1.encodedLength ≤
      (parts.map (Part.bound schema)).sum := by
  refine (@assemble_induction schema body (fun parts message => message.Sound set ∧
      message.encodedLength ≤ (parts.map (Part.bound schema)).sum)
    (fun parts => ⟨sound_blank hs, ?_⟩)
    (fun part parts message hpart hschema hm => ⟨?_, ?_⟩) fault parts hparts).2
  · rw [encodedLength_blank]
    exact Nat.zero_le _
  · exact sound_elim hset hsound hpart hm.1 hschema
  · rw [List.map_cons, List.sum_cons]
    exact Nat.le_trans (encodedLength_elim_le hset hsound hbody hpart hm.1 hschema)
      (Nat.add_le_add_left hm.2 _)

theorem decodeBody_bound (hset : set.Sound) (levels : Nat) :
    BodyBound (decodeBody set levels) := by
  refine @decodeBody_induction set (fun _ _ bytes inner => inner.encodedLength ≤ 2 * bytes.length)
    (fun levels schema bytes hs ih => ?_) levels
  exact Nat.le_trans
    (encodedLength_assemble_le hset hs (decodeBody_sound hset levels) ih _
      (schema.parts_suit bytes))
    (schema.bound_parts bytes)

/-- What was read is written again in at most twice the bytes. -/
theorem length_encode_decode_le (hset : set.Sound) (hs : schema ∈ set.schemas)
    (bytes : List UInt8) : (decode set schema bytes).1.encode.length ≤ 2 * bytes.length := by
  rw [length_encode, decode_eq_assemble hset hs]
  exact Nat.le_trans
    (encodedLength_assemble_le hset hs (decodeBody_sound hset nestingLimit)
      (decodeBody_bound hset nestingLimit) _ (schema.parts_suit bytes))
    (schema.bound_parts bytes)

end Message

end RecordBridge

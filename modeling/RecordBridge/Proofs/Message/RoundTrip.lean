import RecordBridge.Proofs.Message.Canon
import RecordBridge.Proofs.Message.InPlace
/-!
# Messages come back

Reading what was written of a sound message gives its canonical form, without a
fault, as long as it nests no deeper than the limit (`decode_encode`). The
bytes split into the parts that the values were written as
(`parts_encodeFields`), and each field is assembled from its own parts
(`assemble_parts_append`), so the bodies inside are the only recursion.
-/
namespace RecordBridge

/-! ## Numbers and blocks -/

theorem int32Bits_lt (value : Int32) : int32Bits value < UInt64.size := by
  unfold int32Bits
  simp only [UInt64.size]
  omega

/-- The sign bits above the lowest 32 are dropped again. -/
theorem ofNat_int32Bits (value : Int32) : Int32.ofNat (int32Bits value) = value := by
  have hlow := Int32.le_toInt value
  have hhigh := Int32.toInt_lt value
  rw [← Int32.toInt_inj, Int32.toInt_ofNat', int32Bits, Int.bmod_def]
  simp only [UInt64.size, Int32.size]
  omega

theorem readBlock_append (name : String) {body : List UInt8} (h : body.length < UInt64.size)
    (rest : List UInt8) :
    readBlock name (Varint.encode body.length ++ (body ++ rest)) = .ok (body, rest) := by
  rw [readBlock, Wire.varint_encode_append h, MessageError.ofWire_ok, ok_bind]
  simp only [Wire.splitExactly?_append]
  rfl

/-! ## A level splits into its parts -/

/-- The parts that a value is written as, for the field at a position. -/
def Value.parts (index : Nat) : Value → List Part
  | .message value => [.body index value.schemaId false value.encode]
  | .list elements => elements.map fun element =>
    .body index element.schemaId true element.encode
  | value => if value.isDefault then [] else [.scalar index value]

/-- The parts that the fields from a position on are written as. -/
def Message.partsFrom (index : Nat) : List (Option Value) → List Part
  | [] => []
  | none :: values => Message.partsFrom (index + 1) values
  | some value :: values => value.parts index ++ Message.partsFrom (index + 1) values

namespace Schema

variable {set : SchemaSet} {schema : Schema} {index : Nat} {field : Field}

/-- A key of a known field is followed by the content of that field. -/
theorem readPart_encodeKey_append (hset : set.Sound) (hs : schema ∈ set.schemas)
    (hf : schema.fields[index]? = some field) {wire : WireType} (hw : field.type.wireType = wire)
    (bytes : List UInt8) :
    schema.readPart (Wire.encodeKey field.number wire ++ bytes) =
      field.readContent index bytes := by
  obtain ⟨h0, hlt⟩ := hset.number_lt hs (List.mem_of_getElem? hf)
  rw [readPart, Wire.key_encodeKey_append _ h0 hlt, MessageError.ofWire_ok, ok_bind]
  simp [hset.numbered? hs hf, hw]

theorem readPart_int32_append (hset : set.Sound) (hs : schema ∈ set.schemas)
    (hf : schema.fields[index]? = some field) (ht : field.type = .int32) {value : Int32}
    (h0 : value ≠ 0) (rest : List UInt8) :
    schema.readPart ((Value.int32 value).encode field.number ++ rest) =
      .ok (.scalar index (.int32 value), rest) := by
  rw [Value.encode, if_neg h0, List.append_assoc,
    readPart_encodeKey_append hset hs hf (by rw [ht]; rfl)]
  simp [Field.readContent, ht, Wire.varint_encode_append (int32Bits_lt value),
    MessageError.ofWire_ok, ofNat_int32Bits, pure, Except.pure]

theorem readPart_bool_append (hset : set.Sound) (hs : schema ∈ set.schemas)
    (hf : schema.fields[index]? = some field) (ht : field.type = .bool) (rest : List UInt8) :
    schema.readPart ((Value.bool true).encode field.number ++ rest) =
      .ok (.scalar index (.bool true), rest) := by
  rw [Value.encode, if_pos rfl, List.append_assoc,
    readPart_encodeKey_append hset hs hf (by rw [ht]; rfl)]
  simp [Field.readContent, ht, Wire.varint_encode_append (n := 1) (by decide),
    MessageError.ofWire_ok, pure, Except.pure]

theorem readPart_string_append (hset : set.Sound) (hs : schema ∈ set.schemas)
    (hf : schema.fields[index]? = some field) (ht : field.type = .string) {value : String}
    (h0 : Utf8.encode value ≠ []) (hsize : (Utf8.encode value).length < UInt64.size)
    (rest : List UInt8) :
    schema.readPart ((Value.string value).encode field.number ++ rest) =
      .ok (.scalar index (.string value), rest) := by
  simp only [Value.encode, Wire.blockHead]
  rw [if_neg (by simpa using h0), List.append_assoc, List.append_assoc,
    readPart_encodeKey_append hset hs hf (by rw [ht]; rfl)]
  simp [Field.readContent, ht, readBlock_append field.name hsize, Utf8.decode?_encode, pure,
    Except.pure]

/-- The body of a block is read whole, whatever it is. -/
theorem readPart_body_append (hset : set.Sound) (hs : schema ∈ set.schemas)
    (hf : schema.fields[index]? = some field) {id : SchemaId}
    (ht : field.type = .message id ∨ field.type = .repeated id) {body : List UInt8}
    (hsize : body.length < UInt64.size) (rest : List UInt8) :
    schema.readPart (Wire.blockHead field.number body.length ++ body ++ rest) =
      .ok (.body index id (field.type = .repeated id) body, rest) := by
  have hw : field.type.wireType = .lengthDelimited := by rcases ht with h | h <;> rw [h] <;> rfl
  rw [Wire.blockHead, List.append_assoc, List.append_assoc,
    readPart_encodeKey_append hset hs hf hw]
  rcases ht with h | h <;>
    simp [Field.readContent, h, readBlock_append field.name hsize, pure, Except.pure]

/-- The body of an embedded message is read whole. -/
theorem readPart_block_append (hset : set.Sound) (hs : schema ∈ set.schemas)
    (hf : schema.fields[index]? = some field) {id : SchemaId} {inner : Message}
    (ht : field.type = .message id ∨ field.type = .repeated id)
    (hsize : inner.encode.length < UInt64.size) (rest : List UInt8) :
    schema.readPart (Wire.blockHead field.number inner.encodedLength ++ inner.encode ++ rest) =
      .ok (.body index id (field.type = .repeated id) inner.encode, rest) := by
  rw [← Message.length_encode]
  exact readPart_body_append hset hs hf ht hsize rest

theorem parts_encodeEach_append (hset : set.Sound) (hs : schema ∈ set.schemas)
    (hf : schema.fields[index]? = some field) {id : SchemaId} (ht : field.type = .repeated id)
    (rest : List UInt8) : ∀ {elements : List Message},
    (∀ element ∈ elements, element.schemaId = id ∧ element.encode.length < UInt64.size) →
    schema.parts (Message.encodeEach field.number elements ++ rest) =
      ((Value.list elements).parts index ++ (schema.parts rest).1, (schema.parts rest).2)
  | [], _ => rfl
  | element :: elements, h => by
    obtain ⟨⟨hid, hsize⟩, hrest⟩ := List.forall_mem_cons.1 h
    have hread := readPart_block_append hset hs hf (.inr ht) hsize
      (Message.encodeEach field.number elements ++ rest)
    rw [Message.encodeEach, List.append_assoc, parts_of_readPart hread,
      parts_encodeEach_append hset hs hf ht rest hrest]
    simp [Value.parts, ht, hid]

/-- A written value is read as its parts, and reading goes on after it. -/
theorem parts_encode_append (hset : set.Sound) (hs : schema ∈ set.schemas)
    (hf : schema.fields[index]? = some field) {value : Value} (hfit : value.fits field.type)
    (hsize : (value.encode field.number).length < UInt64.size) (rest : List UInt8) :
    schema.parts (value.encode field.number ++ rest) =
      (value.parts index ++ (schema.parts rest).1, (schema.parts rest).2) := by
  have hbody : ∀ inner ∈ value.inner, inner.encode.length < UInt64.size := fun _ hi =>
    Nat.lt_of_le_of_lt (Value.length_encode_le_of_mem_inner field.number hi) hsize
  cases value with
  | int32 value =>
    have ht : field.type = .int32 := by cases h : field.type <;> simp_all [Value.fits]
    by_cases h0 : value = 0
    · simp [Value.encode, Value.parts, Value.isDefault, h0]
    · rw [parts_of_readPart (readPart_int32_append hset hs hf ht h0 rest)]
      simp [Value.parts, Value.isDefault, h0]
  | bool value =>
    have ht : field.type = .bool := by cases h : field.type <;> simp_all [Value.fits]
    cases value with
    | false => simp [Value.encode, Value.parts, Value.isDefault]
    | true =>
      rw [parts_of_readPart (readPart_bool_append hset hs hf ht rest)]
      simp [Value.parts, Value.isDefault]
  | string value =>
    have ht : field.type = .string := by cases h : field.type <;> simp_all [Value.fits]
    by_cases h0 : Utf8.encode value = []
    · simp [Value.encode, Value.parts, Value.isDefault, h0, Utf8.encode_eq_nil_iff.1 h0]
    · have hlen : (Utf8.encode value).length < UInt64.size := by
        refine Nat.lt_of_le_of_lt ?_ hsize
        simp [Value.encode, h0]
      rw [parts_of_readPart (readPart_string_append hset hs hf ht h0 hlen rest)]
      simp [Value.parts, Value.isDefault, mt Utf8.encode_eq_nil_iff.2 h0]
  | message value =>
    have ht := Value.type_eq_of_fits_message hfit
    have hread := readPart_block_append hset hs hf (.inl ht) (hbody value List.mem_cons_self) rest
    rw [Value.encode, parts_of_readPart hread]
    simp [Value.parts, ht]
  | list elements =>
    obtain ⟨id, ht, hids⟩ := Value.exists_type_of_fits_list hfit
    rw [Value.encode]
    exact parts_encodeEach_append hset hs hf ht rest
      fun element he => ⟨hids element he, hbody element he⟩

theorem getElem?_of_drop {fields : List Field} (h : schema.fields.drop index = field :: fields) :
    schema.fields[index]? = some field ∧ schema.fields.drop (index + 1) = fields := by
  constructor
  · rw [← Nat.add_zero index, ← List.getElem?_drop, h]
    rfl
  · rw [← List.drop_drop, h]
    rfl

/-- The fields of a message are read as the parts of their values, in order. -/
theorem parts_encodeFields (hset : set.Sound) (hs : schema ∈ set.schemas) :
    ∀ {index : Nat} {fields : List Field} {values : List (Option Value)},
    schema.fields.drop index = fields → Message.Fits fields values →
    (Message.encodeFields fields values).length < UInt64.size →
    schema.parts (Message.encodeFields fields values) = (Message.partsFrom index values, none)
  | _, [], [], _, _, _ => parts_nil schema
  | _, [], _ :: _, _, hfits, _ => by simpa using hfits.length
  | _, _ :: _, [], _, hfits, _ => by simpa using hfits.length
  | index, field :: fields, value :: values, hdrop, hfits, hsize => by
    obtain ⟨hfirst, hrest⟩ := Message.fits_cons.1 hfits
    obtain ⟨hf, hnext⟩ := getElem?_of_drop hdrop
    cases value with
    | none =>
      rw [Message.encodeFields] at hsize ⊢
      exact parts_encodeFields hset hs hnext hrest hsize
    | some value =>
      rw [Message.encodeFields, List.length_append] at hsize
      rw [Message.encodeFields, parts_encode_append hset hs hf (hfirst value rfl) (by omega),
        parts_encodeFields hset hs hnext hrest (by omega), Message.partsFrom]

end Schema

namespace Message

/-! ## A message is assembled from its parts -/

theorem put_put (message : Message) (index : Nat) (first second : Option Value) :
    (message.put index first).put index second = message.put index second := by
  simp [put, schema, values]

theorem put_none {message : Message} {index : Nat} (h : message.values[index]? = some none) :
    message.put index none = message := by
  cases message
  simp only [values] at h
  obtain ⟨hi, he⟩ := List.getElem?_eq_some_iff.1 h
  rw [put, values, schema, ← he, List.set_getElem_self]

variable {body : SchemaId → List UInt8 → Option Message × Option MessageError} {schema : Schema}
  {fault left : Option MessageError} {part : Part} {parts : List Part} {message : Message}
  {index : Nat}

/-- A part without a fault is put before what the parts after it gave. -/
theorem assemble_cons {value : Value} (hread : part.read body = (some (index, value), none))
    (h : assemble body schema fault parts = (message, left)) :
    assemble body schema fault (part :: parts) = (message.putBefore index value, left) := by
  rw [assemble, hread, h]
  rfl

theorem putBefore_of_none (h : message.values[index]? = some none) (value : Value) :
    message.putBefore index value = message.put index (some value) := by
  simp [putBefore, value?, h]

theorem assemble_scalar_append (h : assemble body schema fault parts = (message, left))
    (hslot : message.values[index]? = some none) (value : Value) (hcanon : value.canon = value) :
    assemble body schema fault
      ((if value.isDefault then [] else [.scalar index value]) ++ parts) =
      (message.put index (if value.isDefault then none else some value.canon), left) := by
  cases hd : value.isDefault with
  | true => simpa [put_none hslot] using h
  | false =>
    have hread : (Part.scalar index value).read body = (some (index, value), none) := rfl
    simp [assemble_cons hread h, putBefore_of_none hslot, hcanon]

theorem assemble_elements_append (h : assemble body schema fault parts = (message, left))
    (hslot : message.values[index]? = some none) : ∀ {elements : List Message},
    (∀ element ∈ elements, body element.schemaId element.encode = (some element.canon, none)) →
    assemble body schema fault ((Value.list elements).parts index ++ parts) =
      (message.put index (if elements.isEmpty then none else some (.list (canonEach elements))),
        left)
  | [], _ => by simpa [Value.parts, put_none hslot] using h
  | element :: rest, hbody => by
    obtain ⟨hfirst, hrest⟩ := List.forall_mem_cons.1 hbody
    have hread : (Part.body index element.schemaId true element.encode).read body =
        (some (index, .list [element.canon]), none) := by simp [Part.read, hfirst]
    have ih := assemble_elements_append h hslot hrest
    have hlt := (List.getElem?_eq_some_iff.1 hslot).1
    rw [Value.parts, List.map_cons, List.cons_append]
    rw [Value.parts] at ih
    rw [assemble_cons hread ih, putBefore, value?_put hlt, if_pos rfl, put_put]
    cases rest <;> simp [canonEach, Value.merge]

/-- A field that nothing after it filled holds the value its parts were written from. -/
theorem assemble_parts_append (h : assemble body schema fault parts = (message, left))
    (hslot : message.values[index]? = some none) {value : Value}
    (hbody : ∀ inner ∈ value.inner,
      body inner.schemaId inner.encode = (some inner.canon, none)) :
    assemble body schema fault (value.parts index ++ parts) =
      (message.put index (if value.isDefault then none else some value.canon), left) := by
  cases value with
  | int32 value => exact assemble_scalar_append h hslot (.int32 value) rfl
  | bool value => exact assemble_scalar_append h hslot (.bool value) rfl
  | string value => exact assemble_scalar_append h hslot (.string value) rfl
  | message value =>
    have hread : (Part.body index value.schemaId false value.encode).read body =
        (some (index, .message value.canon), none) := by
      simp [Part.read, hbody value List.mem_cons_self]
    rw [Value.parts, List.singleton_append, assemble_cons hread h, putBefore_of_none hslot]
    rfl
  | list elements => exact assemble_elements_append h hslot hbody

/-- The fields from a position on, before which nothing is set yet. -/
theorem assemble_partsFrom : ∀ {index : Nat} {values : List (Option Value)},
    index + values.length = schema.fields.length →
    (∀ value, some value ∈ values → ∀ inner ∈ value.inner,
      body inner.schemaId inner.encode = (some inner.canon, none)) →
    assemble body schema none (partsFrom index values) =
      (mk schema (.replicate index none ++ canonFields values), none)
  | index, [], hlen, _ => by
    simp only [List.length_nil, Nat.add_zero] at hlen
    simp [partsFrom, assemble, blank, canonFields, hlen]
  | index, none :: values, hlen, hbody => by
    rw [partsFrom, assemble_partsFrom (by simpa [Nat.add_right_comm, Nat.add_assoc] using hlen)
      fun value hm => hbody value (List.mem_cons_of_mem _ hm)]
    simp [canonFields, List.replicate_succ']
  | index, some value :: values, hlen, hbody => by
    have hlen : index + 1 + values.length = schema.fields.length := by
      simpa [Nat.add_right_comm, Nat.add_assoc] using hlen
    have ih := assemble_partsFrom hlen fun value hm => hbody value (List.mem_cons_of_mem _ hm)
    have hslot : (mk schema (.replicate (index + 1) none ++ canonFields values)).values[index]? =
        some none := by simp [Message.values, List.getElem?_append]
    rw [partsFrom, assemble_parts_append ih hslot (hbody value List.mem_cons_self)]
    simp [put, Message.schema, Message.values, List.replicate_succ', canonFields,
      List.set_append_right]

/-- One level: a message comes back if the bodies inside do. -/
theorem assemble_parts_encode {set : SchemaSet} (hset : set.Sound) (hm : message.Sound set)
    (hsize : message.encode.length < UInt64.size)
    (hbody : ∀ inner ∈ message.inner,
      body inner.schemaId inner.encode = (some inner.canon, none)) :
    assemble body message.schema (message.schema.parts message.encode).2
      (message.schema.parts message.encode).1 = (message.canon, none) := by
  have hfits := hm.fits
  cases message with
  | mk schema values =>
    have hparts := Schema.parts_encodeFields hset hm.known List.drop_zero hfits hsize
    simp only [Message.schema, Message.values] at hparts
    simp only [encode, Message.schema, hparts]
    refine assemble_partsFrom ?_ fun value hv inner hi => hbody inner (mem_inner.2 ⟨value, hv, hi⟩)
    rw [Nat.zero_add]
    exact hfits.length

/-- The levels left bound the nesting of the bodies that come back. -/
theorem decodeBody_encode {set : SchemaSet} (hset : set.Sound) : ∀ {levels : Nat}
    {message : Message}, message.Sound set → message.nesting < levels →
    message.encode.length < UInt64.size →
    decodeBody set levels message.schemaId message.encode = (some message.canon, none)
  | levels + 1, message, hm, hn, hsize => by
    have hbody : ∀ inner ∈ message.inner,
        decodeBody set levels inner.schemaId inner.encode = (some inner.canon, none) :=
      fun inner hi => decodeBody_encode hset (hm.inside hi)
        (by have := nesting_lt_of_mem_inner hi; omega)
        (Nat.lt_of_le_of_lt (length_encode_le_of_mem_inner hm.fits hi) hsize)
    rw [decodeBody, schemaId, hset.get?_id hm.known]
    simp [assemble_parts_encode hset hm hsize hbody]

/-- A sound message of allowed depth comes back in canonical form. -/
theorem Sound.decode_encode {set : SchemaSet} (hset : set.Sound) (hm : message.Sound set)
    (hn : message.nesting ≤ nestingLimit) (hsize : message.encode.length < UInt64.size) :
    decode set message.schema message.encode = (message.canon, none) := by
  rw [decode_eq_assemble hset hm.known]
  refine assemble_parts_encode hset hm hsize fun inner hi =>
    decodeBody_encode hset (hm.inside hi) ?_ ?_
  · exact Nat.lt_of_lt_of_le (nesting_lt_of_mem_inner hi) hn
  · exact Nat.lt_of_le_of_lt (length_encode_le_of_mem_inner hm.fits hi) hsize

/-- Any message built in an accepted set, with at most `nestingLimit` levels of
messages inside and bytes that fit the address space, is read back whole, in
canonical form. -/
theorem decode_encode_of_built {schemas : List Schema} {set : SchemaSet} {message : Message}
    (hset : SchemaSet.ofList schemas = .ok set) (hm : Message.Built set message)
    (hn : message.nesting ≤ nestingLimit) (hsize : message.encode.length < UInt64.size) :
    decode set message.schema message.encode = (message.canon, none) :=
  hm.sound.decode_encode (SchemaSet.sound_of_ofList hset) hn hsize

/-- A node with a negative number, before one that holds 0, and a blank one further on. -/
def sampleNode : Message :=
  mk nodeSchema [some (.int32 (-1)), some (.message (mk nodeSchema [some (.int32 0), none, none])),
    some (.list [mk nodeSchema [none, none, none]])]

theorem built_sampleNode : Message.Built ⟨[nodeSchema]⟩ sampleNode := by
  have blankNode : Message.Built ⟨[nodeSchema]⟩ (blank nodeSchema) :=
    .blank (show SchemaSet.message _ "Node" = .ok _ from rfl)
  have next : Message.Built ⟨[nodeSchema]⟩ (mk nodeSchema [some (.int32 0), none, none]) := by
    refine blankNode.setAt ?_ (show (blank nodeSchema).setAt 0 (.int32 0) = .ok _ from rfl)
    exact nofun
  have first : Message.Built ⟨[nodeSchema]⟩ (mk nodeSchema [some (.int32 (-1)), none, none]) := by
    refine blankNode.setAt ?_ (show (blank nodeSchema).setAt 0 (.int32 (-1)) = .ok _ from rfl)
    exact nofun
  have second := @Built.setAt _ _ _ 1 (.message _) first (List.forall_mem_singleton.2 next) rfl
  exact @Built.pushAt _ _ _ _ 2 second blankNode rfl

theorem decode_encode_sampleNode :
    SchemaSet.ofList [nodeSchema] = .ok ⟨[nodeSchema]⟩ ∧
    Message.Built ⟨[nodeSchema]⟩ sampleNode ∧ sampleNode.nesting ≤ nestingLimit ∧
    sampleNode.encode.length < UInt64.size ∧
    decode ⟨[nodeSchema]⟩ sampleNode.schema sampleNode.encode = (sampleNode.canon, none) := by
  have hset : SchemaSet.ofList [nodeSchema] = .ok ⟨[nodeSchema]⟩ := by rfl
  have hsize : sampleNode.encode.length < UInt64.size := by cbv
  have hn : sampleNode.nesting ≤ nestingLimit := by decide
  exact ⟨hset, built_sampleNode, hn, hsize, decode_encode_of_built hset built_sampleNode hn hsize⟩

end Message

end RecordBridge

import RecordBridge.Proofs.Message.RoundTrip
import RecordBridge.Proofs.Wire.Fields
/-!
# Unknown fields are inert

Bytes are a message with unknown fields when they are what is written of it, but with
well-formed fields of numbers that the schema of a level lacks put anywhere between
the fields of that level, in the message and in the bodies inside it
(`Message.Padded`). Reading them gives what reading the message alone gives
(`Message.decode_padded`).
-/
namespace RecordBridge

namespace Message

/-- Bytes are what is written of the values of some fields, in order, with fields of
numbers unknown to the schema in between, also in the bodies inside. -/
inductive PaddedFields : (schema : Schema) → List Schema.Field → List (Option Value) →
    List UInt8 → Prop where
  | done {schema : Schema} : PaddedFields schema [] [] []
  | unknown {schema : Schema} {fields : List Schema.Field} {values : List (Option Value)}
      {levels : Nat} {number : UInt32} {extra bytes : List UInt8}
      (absent : ∀ field ∈ schema.fields, field.number ≠ number)
      (field : Wire.Field levels number extra) (within : levels < Wire.groupLimit)
      (rest : PaddedFields schema fields values bytes) :
      PaddedFields schema fields values (extra ++ bytes)
  | unset {schema : Schema} {field : Schema.Field} {fields : List Schema.Field}
      {values : List (Option Value)} {bytes : List UInt8}
      (rest : PaddedFields schema fields values bytes) :
      PaddedFields schema (field :: fields) (none :: values) bytes
  | leaf {schema : Schema} {field : Schema.Field} {fields : List Schema.Field} {value : Value}
      {values : List (Option Value)} {bytes : List UInt8} (inner : value.inner = [])
      (rest : PaddedFields schema fields values bytes) :
      PaddedFields schema (field :: fields) (some value :: values)
        (value.encode field.number ++ bytes)
  | message {schema : Schema} {field : Schema.Field} {fields : List Schema.Field}
      {inner : Message} {values : List (Option Value)} {body bytes : List UInt8}
      (inside : PaddedFields inner.schema inner.schema.fields inner.values body)
      (rest : PaddedFields schema fields values bytes) :
      PaddedFields schema (field :: fields) (some (.message inner) :: values)
        (Wire.blockHead field.number body.length ++ body ++ bytes)
  | element {schema : Schema} {field : Schema.Field} {fields : List Schema.Field}
      {element : Message} {elements : List Message} {values : List (Option Value)}
      {body bytes : List UInt8}
      (inside : PaddedFields element.schema element.schema.fields element.values body)
      (rest : PaddedFields schema (field :: fields) (some (.list elements) :: values) bytes) :
      PaddedFields schema (field :: fields) (some (.list (element :: elements)) :: values)
        (Wire.blockHead field.number body.length ++ body ++ bytes)

/-- Bytes are what is written of a message, with unknown fields at any level. -/
def Padded (message : Message) (bytes : List UInt8) : Prop :=
  PaddedFields message.schema message.schema.fields message.values bytes

/-! ## One field at a time -/

variable {set : SchemaSet} {schema : Schema} {bytes extra : List UInt8}
  {body : SchemaId → List UInt8 → Option Message × Option MessageError} {levels : Nat}

theorem numbered?_eq_none {number : UInt32} (h : ∀ field ∈ schema.fields, field.number ≠ number) :
    schema.numbered? number = none := by
  have hindex : schema.fields.findIdx? (·.number == number) = none := by
    rw [List.findIdx?_eq_none_iff]
    intro field hf
    simpa using h field hf
  simp [Schema.numbered?, Schema.numberIndex?, hindex]

/-- An unknown field is passed over, whatever follows it. -/
theorem readPart_unknown_append {number : UInt32}
    (habsent : ∀ field ∈ schema.fields, field.number ≠ number)
    (hfield : Wire.Field levels number extra) (hlevels : levels < Wire.groupLimit)
    (rest : List UInt8) : schema.readPart (extra ++ rest) = .ok (.unknown, rest) := by
  obtain ⟨wire, left, hkey, hskip⟩ := hfield.skip_append hlevels rest
  rw [Schema.readPart, hkey, MessageError.ofWire_ok, ok_bind]
  simp only [numbered?_eq_none habsent, hskip, MessageError.ofWire_ok, ok_bind]
  rfl

theorem replicate_succ_append (count : Nat) (value : Option Value) (values : List (Option Value)) :
    .replicate (count + 1) value ++ values = .replicate count value ++ value :: values := by
  simp [List.replicate_succ']

theorem put_append_replicate (index : Nat) (held value : Option Value)
    (values : List (Option Value)) :
    (mk schema (.replicate index none ++ held :: values)).put index value =
      mk schema (.replicate index none ++ value :: values) := by
  simp [put, Message.schema, Message.values, List.set_append_right]

theorem putBefore_append_replicate (index : Nat) (held : Option Value) (value : Value)
    (values : List (Option Value)) :
    (mk schema (.replicate index none ++ held :: values)).putBefore index value =
      mk schema (.replicate index none ++ some (held.elim value value.merge) :: values) := by
  have hheld : (mk schema (.replicate index none ++ held :: values)).value? index = held := by
    simp [value?, Message.values]
  rw [putBefore, put_append_replicate, hheld]

/-! ## Levels with unknown fields -/

/-- A level is read as a message that holds nothing before some position, and `held`
from there on. -/
def ReadsAs (set : SchemaSet) (levels : Nat) (schema : Schema) (index : Nat)
    (held : List (Option Value)) (bytes : List UInt8) : Prop :=
  assemble (decodeBody set levels) schema (schema.parts bytes).2 (schema.parts bytes).1 =
    (mk schema (.replicate index none ++ held), none)

namespace ReadsAs

variable {index : Nat} {field : Schema.Field} {held : List (Option Value)}

theorem done (hlen : index = schema.fields.length) :
    ReadsAs set levels schema index [] [] := by
  rw [ReadsAs, Schema.parts_nil, assemble, blank, hlen, List.append_nil]

theorem unset (h : ReadsAs set levels schema (index + 1) held bytes) :
    ReadsAs set levels schema index (none :: held) bytes := by
  rw [ReadsAs, ← replicate_succ_append]
  exact h

theorem unknown (h : ReadsAs set levels schema index held bytes) {number : UInt32}
    (habsent : ∀ field ∈ schema.fields, field.number ≠ number) {within : Nat}
    (hfield : Wire.Field within number extra) (hwithin : within < Wire.groupLimit) :
    ReadsAs set levels schema index held (extra ++ bytes) := by
  rw [ReadsAs, Schema.parts_of_readPart (readPart_unknown_append habsent hfield hwithin bytes),
    assemble_cons_of_read rfl]
  exact h

theorem leaf (hset : set.Sound) (hs : schema ∈ set.schemas)
    (hf : schema.fields[index]? = some field)
    (h : ReadsAs set levels schema (index + 1) held bytes) {value : Value}
    (hfit : value.fits field.type) (hinner : value.inner = [])
    (hsize : (value.encode field.number).length < UInt64.size) :
    ReadsAs set levels schema index ((if value.isDefault then none else some value.canon) :: held)
      (value.encode field.number ++ bytes) := by
  have hunset := h.unset
  have hslot : (mk schema (.replicate index none ++ none :: held)).values[index]? = some none := by
    simp [Message.values]
  rw [ReadsAs, Schema.parts_encode_append hset hs hf hfit hsize,
    assemble_parts_append hunset hslot (by simp [hinner]), put_append_replicate]

/-- A body goes before what its field holds after it. -/
theorem block (hset : set.Sound) (hs : schema ∈ set.schemas)
    (hf : schema.fields[index]? = some field) {inner : Message}
    (ht : field.type = .message inner.schemaId ∨ field.type = .repeated inner.schemaId)
    {after : Option Value} (h : ReadsAs set levels schema index (after :: held) bytes)
    {body : List UInt8} (hsize : body.length < UInt64.size)
    (hbody : decodeBody set levels inner.schemaId body = (some inner.canon, none))
    {value : Value} (hvalue : value = if field.type = .repeated inner.schemaId
      then .list [inner.canon] else .message inner.canon) :
    ReadsAs set levels schema index (some (after.elim value value.merge) :: held)
      (Wire.blockHead field.number body.length ++ body ++ bytes) := by
  have hread : (Part.body index inner.schemaId (field.type = .repeated inner.schemaId) body).read
      (decodeBody set levels) = (some (index, value), none) := by
    simp [Part.read, hbody, hvalue]
  rw [ReadsAs, Schema.parts_of_readPart (Schema.readPart_body_append hset hs hf ht hsize bytes),
    assemble_cons hread h, putBefore_append_replicate]

end ReadsAs

/-- A body that is read whole with one level less is an embedded message. -/
theorem decodeBody_of_readsAs (hset : set.Sound) {inner : Message} (hm : inner.Sound set)
    (hn : inner.nesting < levels)
    (h : ∀ below, inner.nesting ≤ below →
      ReadsAs set below inner.schema 0 (canonFields inner.values) bytes) :
    decodeBody set levels inner.schemaId bytes = (some inner.canon, none) := by
  cases levels with
  | zero => exact absurd hn (Nat.not_lt_zero _)
  | succ below =>
    have hread := h below (Nat.le_of_lt_succ hn)
    rw [ReadsAs] at hread
    rw [decodeBody, schemaId, hset.get?_id hm.known]
    simp only [hread]
    cases inner
    rfl

/-- The fields of a sound message from a position on, and what they hold, with levels
left for the messages inside. -/
structure FieldsFrom (set : SchemaSet) (levels : Nat) (schema : Schema) (index : Nat)
    (fields : List Schema.Field) (values : List (Option Value)) : Prop where
  known : schema ∈ set.schemas
  le : index ≤ schema.fields.length
  drop : schema.fields.drop index = fields
  fits : Fits fields values
  inside : ∀ value, some value ∈ values → ∀ inner ∈ value.inner,
    inner.Sound set ∧ inner.nesting < levels

namespace FieldsFrom

variable {index : Nat} {field : Schema.Field} {fields : List Schema.Field}
  {value : Option Value} {values : List (Option Value)}

theorem of_sound {message : Message} (hm : message.Sound set) (hn : message.nesting ≤ levels) :
    FieldsFrom set levels message.schema 0 message.schema.fields message.values := by
  refine ⟨hm.known, Nat.zero_le _, List.drop_zero, hm.fits, fun value hv inner hi => ?_⟩
  have hin := mem_inner.2 ⟨value, hv, hi⟩
  exact ⟨hm.inside hin, Nat.lt_of_lt_of_le (nesting_lt_of_mem_inner hin) hn⟩

theorem getElem? (h : FieldsFrom set levels schema index (field :: fields) (value :: values)) :
    schema.fields[index]? = some field :=
  (Schema.getElem?_of_drop h.drop).1

theorem head_fits {held : Value}
    (h : FieldsFrom set levels schema index (field :: fields) (some held :: values)) :
    held.fits field.type :=
  (fits_cons.1 h.fits).1 held rfl

theorem next (h : FieldsFrom set levels schema index (field :: fields) (value :: values)) :
    FieldsFrom set levels schema (index + 1) fields values where
  known := h.known
  le := (List.getElem?_eq_some_iff.1 h.getElem?).1
  drop := (Schema.getElem?_of_drop h.drop).2
  fits := (fits_cons.1 h.fits).2
  inside held hheld := h.inside held (List.mem_cons_of_mem _ hheld)

/-- A list without its first element fits the field too. -/
theorem tail {element : Message} {elements : List Message}
    (h : FieldsFrom set levels schema index (field :: fields)
      (some (.list (element :: elements)) :: values)) :
    FieldsFrom set levels schema index (field :: fields) (some (.list elements) :: values) := by
  obtain ⟨id, ht, hids⟩ := Value.exists_type_of_fits_list h.head_fits
  have hfit : (Value.list elements).fits field.type := by
    simpa [ht, Value.fits] using (List.forall_mem_cons.1 hids).2
  refine ⟨h.known, h.le, h.drop, fits_cons.2 ⟨by simpa using hfit, h.next.fits⟩, ?_⟩
  intro held hheld inner hi
  rcases List.mem_cons.1 hheld with hheld | hheld
  · cases hheld
    exact h.inside _ List.mem_cons_self inner (List.mem_cons_of_mem _ hi)
  · exact h.next.inside held hheld inner hi

end FieldsFrom

/-- The fields from a position on are read as they are written, whatever unknown
fields lie between them, as long as levels are left for the bodies inside. -/
theorem PaddedFields.readsAs (hset : set.Sound) {fields : List Schema.Field}
    {values : List (Option Value)} (h : PaddedFields schema fields values bytes) :
    ∀ {levels index : Nat}, FieldsFrom set levels schema index fields values →
    bytes.length < UInt64.size → ReadsAs set levels schema index (canonFields values) bytes := by
  -- The levels and the position vary: a body inside starts at its own first field, with
  -- one level less.
  induction h with
  | done =>
    intro levels index hfields _
    exact .done (Nat.le_antisymm hfields.le (List.drop_eq_nil_iff.1 hfields.drop))
  | unknown absent field within rest ih =>
    intro levels index hfields hsize
    rw [List.length_append] at hsize
    exact (ih hfields (by omega)).unknown absent field within
  | unset rest ih =>
    intro levels index hfields hsize
    exact (ih hfields.next hsize).unset
  | leaf inner rest ih =>
    intro levels index hfields hsize
    rw [List.length_append] at hsize
    have hrest := ih hfields.next (by omega)
    exact hrest.leaf hset hfields.known hfields.getElem? hfields.head_fits inner (by omega)
  | @message schema field fields inner values body bytes inside rest ihbody ih =>
    intro levels index hfields hsize
    rw [List.length_append, List.length_append] at hsize
    obtain ⟨hm, hn⟩ := hfields.inside _ List.mem_cons_self inner List.mem_cons_self
    have ht := Value.type_eq_of_fits_message hfields.head_fits
    have hbody : decodeBody set levels inner.schemaId body = (some inner.canon, none) :=
      decodeBody_of_readsAs hset hm hn fun below hbelow => ihbody (.of_sound hm hbelow) (by omega)
    have hrest := ih hfields.next (by omega)
    exact hrest.unset.block hset hfields.known hfields.getElem? (.inl ht) (by omega) hbody
      (by simp [ht])
  | @element schema field fields element elements values body bytes inside rest ihbody ih =>
    intro levels index hfields hsize
    rw [List.length_append, List.length_append] at hsize
    obtain ⟨hm, hn⟩ := hfields.inside _ List.mem_cons_self element List.mem_cons_self
    obtain ⟨id, ht, hids⟩ := Value.exists_type_of_fits_list hfields.head_fits
    obtain ⟨rfl, -⟩ := List.forall_mem_cons.1 hids
    have hbody : decodeBody set levels element.schemaId body = (some element.canon, none) :=
      decodeBody_of_readsAs hset hm hn fun below hbelow => ihbody (.of_sound hm hbelow) (by omega)
    have hvalue : Value.list [element.canon] = if field.type = .repeated element.schemaId
        then .list [element.canon] else .message element.canon := by rw [if_pos ht]
    -- The first element goes before the others, which are read behind it.
    have hrest := ih hfields.tail (by omega)
    have hwhole := hrest.block hset hfields.known hfields.getElem? (.inr ht) (by omega) hbody hvalue
    cases elements <;> exact hwhole

/-- Whatever well-formed fields of unknown numbers are put between the fields of a
message built in an accepted set, and between those of the bodies inside it, the
message is read whole, in canonical form. -/
theorem decode_padded {schemas : List Schema} (hset : SchemaSet.ofList schemas = .ok set)
    {message : Message} (hm : Message.Built set message) (hn : message.nesting ≤ nestingLimit)
    (hpadded : message.Padded bytes) (hsize : bytes.length < UInt64.size) :
    decode set message.schema bytes = (message.canon, none) := by
  have hset := SchemaSet.sound_of_ofList hset
  have hm := hm.sound
  have hread := hpadded.readsAs hset (.of_sound hm hn) hsize
  rw [decode_eq_assemble hset hm.known]
  cases message
  exact hread

/-- A sample node with a field of number 4 in front, a group of number 5 in its next
node, a block of number 6 behind that and a field of number 7 in the node further on.
The number in front takes a byte too many, and so does the key in the group. -/
def paddedNode : List UInt8 :=
  [0x20, 0x80, 0x00, 0x08, 0xFF, 0xFF, 0xFF, 0xFF, 0xFF, 0xFF, 0xFF, 0xFF, 0xFF, 0x01,
    0x12, 8, 0x2B, 0x8D, 0x00, 1, 2, 3, 4, 0x2C, 0x32, 2, 0xFF, 0x08,
    0x1A, 9, 0x39, 0, 0, 0, 0, 0, 0, 0, 1]

theorem padded_paddedNode : sampleNode.Padded paddedNode := by
  have four : Wire.Field 0 4 [0x20, 0x80, 0x00] := by
    have key : Wire.Key [0x20] 4 .varint := Wire.key_of_decode? (by cbv) (by decide) (by decide)
    have zero : Varint.Spells [0x80, 0x00] 0 := Varint.spells_iff.2 (by cbv)
    exact .plain key (.varint zero)
  have five : Wire.Field 1 5 [0x2B, 0x8D, 0x00, 1, 2, 3, 4, 0x2C] := by
    have start : Wire.Key [0x2B] 5 .startGroup :=
      Wire.key_of_decode? (by cbv) (by decide) (by decide)
    have key : Wire.Key [0x8D, 0x00] 1 .fixed32 :=
      Wire.key_of_decode? (by cbv) (by decide) (by decide)
    have finish : Wire.Key [0x2C] 5 .endGroup :=
      Wire.key_of_decode? (by cbv) (by decide) (by decide)
    have content : Wire.Content .fixed32 [1, 2, 3, 4] := .fixed32 rfl
    have inside : Wire.Fields 0 [0x8D, 0x00, 1, 2, 3, 4] := .cons (.plain key content) .nil
    exact .group start inside finish
  have six : Wire.Field 0 6 [0x32, 2, 0xFF, 0x08] := by
    have key : Wire.Key [0x32] 6 .lengthDelimited :=
      Wire.key_of_decode? (by cbv) (by decide) (by decide)
    have two : Varint.Spells [2] [0xFF, (0x08 : UInt8)].length := Varint.spells_iff.2 (by cbv)
    exact .plain key (.lengthDelimited two)
  have seven : Wire.Field 0 7 [0x39, 0, 0, 0, 0, 0, 0, 0, 1] := by
    have key : Wire.Key [0x39] 7 .fixed64 := Wire.key_of_decode? (by cbv) (by decide) (by decide)
    have content : Wire.Content .fixed64 [0, 0, 0, 0, 0, 0, 0, 1] := .fixed64 rfl
    exact .plain key content
  have absent : ∀ number : UInt32, 3 < number →
      ∀ field ∈ nodeSchema.fields, field.number ≠ number := by
    intro number h field hf
    simp only [nodeSchema, List.mem_cons, List.not_mem_nil, or_false] at hf
    rintro rfl
    rcases hf with rfl | rfl | rfl <;> exact absurd h (by decide)
  have next : (mk nodeSchema [some (.int32 0), none, none]).Padded
      [0x2B, 0x8D, 0x00, 1, 2, 3, 4, 0x2C] :=
    .unknown (absent 5 (by decide)) five (by decide) (.leaf rfl (.unset (.unset .done)))
  have further : (blank nodeSchema).Padded [0x39, 0, 0, 0, 0, 0, 0, 0, 1] :=
    .unknown (absent 7 (by decide)) seven (by decide) (.unset (.unset (.unset .done)))
  have hbytes : paddedNode = [0x20, 0x80, 0x00] ++ ((Value.int32 (-1)).encode 1 ++
      (Wire.blockHead 2 8 ++ [0x2B, 0x8D, 0x00, 1, 2, 3, 4, 0x2C] ++ ([0x32, 2, 0xFF, 0x08] ++
        (Wire.blockHead 3 9 ++ [0x39, 0, 0, 0, 0, 0, 0, 0, 1] ++ [])))) := by cbv
  have last : PaddedFields nodeSchema [⟨"further", 3, .repeated "Node"⟩]
      [some (.list [blank nodeSchema])]
      (Wire.blockHead 3 9 ++ [0x39, 0, 0, 0, 0, 0, 0, 0, 1] ++ []) :=
    .element further (@PaddedFields.leaf _ _ _ (.list []) _ _ rfl .done)
  rw [hbytes]
  exact .unknown (absent 4 (by decide)) four (by decide)
    (.leaf rfl (.message next (.unknown (absent 6 (by decide)) six (by decide) last)))

theorem decode_paddedNode :
    SchemaSet.ofList [nodeSchema] = .ok ⟨[nodeSchema]⟩ ∧
    Message.Built ⟨[nodeSchema]⟩ sampleNode ∧ sampleNode.nesting ≤ nestingLimit ∧
    sampleNode.Padded paddedNode ∧ paddedNode.length < UInt64.size ∧
    decode ⟨[nodeSchema]⟩ sampleNode.schema paddedNode = (sampleNode.canon, none) := by
  have hset : SchemaSet.ofList [nodeSchema] = .ok ⟨[nodeSchema]⟩ := by rfl
  have hn : sampleNode.nesting ≤ nestingLimit := by decide
  have hsize : paddedNode.length < UInt64.size := by decide
  exact ⟨hset, built_sampleNode, hn, padded_paddedNode, hsize,
    decode_padded hset built_sampleNode hn padded_paddedNode hsize⟩

end Message

end RecordBridge

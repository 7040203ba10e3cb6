import RecordBridge.Proofs.Message.Merge
import RecordBridge.Proofs.Message.Parts
/-!
# Messages assembled from parts

The parts of a level make a message, from the last one on (`Message.assemble`): each
part, read by itself, is put before what the parts after it gave its field. That is
merging a message of one field with theirs (`Message.putBefore_eq_merge`). What is
assembled is sound (`Message.assemble_sound`).
-/
namespace RecordBridge

/-- The value of a part, with the position of its field, and the fault inside
it. `decodeBody` decodes an embedded message, if there is to be one. -/
def Part.read (decodeBody : SchemaId → List UInt8 → Option Message × Option MessageError) :
    Part → Option (Nat × Value) × Option MessageError
  | .unknown => (none, none)
  | .scalar index value => (some (index, value), none)
  | .body index schema repeated bytes =>
    let (item, fault) := decodeBody schema bytes
    (item.map fun item => (index, if repeated then .list [item] else .message item), fault)

theorem Value.inner_of_isScalar {value : Value} {type : FieldType} (hfit : value.fits type)
    (h : type.isScalar) : value.inner = [] := by
  cases type with
  | message | repeated => cases h
  | _ => cases value <;> first | rfl | cases hfit

namespace Message

variable {set : SchemaSet} {schema : Schema}

/-- Assembles a message from its parts and the fault after them. A fault inside
a part ends it there. -/
def assemble (decodeBody : SchemaId → List UInt8 → Option Message × Option MessageError)
    (schema : Schema) (fault : Option MessageError) :
    List Part → Message × Option MessageError
  | [] => (.blank schema, fault)
  | part :: parts =>
    let (value, inner) := part.read decodeBody
    let (message, fault) :=
      if inner.isSome then (.blank schema, inner)
      else assemble decodeBody schema fault parts
    (value.elim message fun (index, value) => message.putBefore index value, fault)

/-- Decodes the body of an embedded message, `levels` being left for it and what
it embeds. A schema that `set` lacks gives no message. -/
def decodeBody (set : SchemaSet) :
    (levels : Nat) → SchemaId → List UInt8 → Option Message × Option MessageError
  | 0, _, _ => (none, some (.depth nestingLimit))
  | levels + 1, id, bytes =>
    match set.get? id with
    | none => (none, none)
    | some schema =>
      let (parts, fault) := schema.parts bytes
      let (message, fault) := assemble (decodeBody set levels) schema fault parts
      (some message, fault)

/-! ## One field at a time -/

theorem merge_blank {message : Message} (h : message.Sound set) :
    (blank message.schema).merge message = message := by
  have hlen : (blank message.schema).values.length = message.values.length := by simp [h.length]
  refine ext_value? (by simp) (length_values_merge hlen) fun index => ?_
  rw [value?_merge, value?_blank, Option.merge_none_left]

/-- A message of one field. -/
def single (schema : Schema) (index : Nat) (value : Value) : Message :=
  (blank schema).put index (some value)

theorem single_sound (hs : schema ∈ set.schemas) {index : Nat} {value : Value}
    {field : Schema.Field} (hf : schema.fields[index]? = some field)
    (hfit : value.fits field.type) (hin : ∀ inner ∈ value.inner, inner.Sound set) :
    (single schema index value).Sound set := by
  refine (sound_blank hs).put (fun other held ho he => ?_) fun held he => ?_
  · cases he
    rw [schema_blank, hf] at ho
    cases ho
    exact hfit
  · cases he
    exact hin

/-- Putting a value before the rest is merging a message of one field with it. -/
theorem putBefore_eq_merge {message : Message} (h : message.Sound set) {index : Nat}
    (hi : index < message.schema.fields.length) (value : Value) :
    message.putBefore index value = (single message.schema index value).merge message := by
  have hlen : (single message.schema index value).values.length = message.values.length := by
    simp [single, h.length]
  have hm : index < message.values.length := h.length ▸ hi
  have hb : index < (blank message.schema).values.length := by simpa using hi
  refine ext_value? (by simp [putBefore, single]) ?_ fun other => ?_
  · rw [length_values_merge hlen]
    simp [putBefore]
  rw [value?_merge, putBefore, value?_put hm, single, value?_put hb]
  by_cases ho : index = other
  · subst ho
    cases message.value? index <;> simp
  · simp [ho]

/-! ## Reading gives sound messages -/

variable {body : SchemaId → List UInt8 → Option Message × Option MessageError}
  {fault : Option MessageError} {part : Part} {parts more : List Part}

/-- Every body is read as a sound message of the schema asked for. -/
def BodySound (set : SchemaSet)
    (body : SchemaId → List UInt8 → Option Message × Option MessageError) : Prop :=
  ∀ id bytes inner, (body id bytes).1 = some inner → inner.Sound set ∧ inner.schemaId = id

theorem read_suits (hbody : BodySound set body) (hpart : part.Suits schema) {index : Nat}
    {value : Value} (h : (part.read body).1 = some (index, value)) :
    ∃ field, schema.fields[index]? = some field ∧ value.fits field.type ∧
      ∀ inner ∈ value.inner, inner.Sound set := by
  cases part with
  | unknown => cases h
  | scalar =>
    cases h
    obtain ⟨field, hf, hfit, hscalar⟩ := hpart
    exact ⟨field, hf, hfit, by simp [Value.inner_of_isScalar hfit hscalar]⟩
  | body _ id repeated bytes =>
    obtain ⟨field, hf, ht⟩ := hpart
    simp only [Part.read, Option.map_eq_some_iff, Prod.mk.injEq] at h
    obtain ⟨inner, hb, rfl, rfl⟩ := h
    obtain ⟨hin, hid⟩ := hbody id bytes inner hb
    refine ⟨field, hf, ?_, ?_⟩
    · cases repeated <;> simp [ht, Value.fits, hid]
    · cases repeated <;> simpa [Value.inner] using hin

/-- What the value of a part, if any, and the rest come to. -/
theorem assemble_cons_of_read (h : (part.read body).2 = none) :
    assemble body schema fault (part :: parts) =
      ((part.read body).1.elim (assemble body schema fault parts).1
        fun (index, value) => (assemble body schema fault parts).1.putBefore index value,
        (assemble body schema fault parts).2) := by
  rw [assemble]
  generalize part.read body = read at h ⊢
  obtain ⟨value, inner⟩ := read
  cases h
  rfl

theorem sound_putBefore (hset : set.Sound) {message : Message} (hm : message.Sound set)
    {index : Nat} {value : Value} {field : Schema.Field}
    (hf : message.schema.fields[index]? = some field) (hfit : value.fits field.type)
    (hin : ∀ inner ∈ value.inner, inner.Sound set) : (message.putBefore index value).Sound set := by
  rw [putBefore_eq_merge hm (List.getElem?_eq_some_iff.1 hf).1]
  exact (single_sound hm.known hf hfit hin).merge hset hm (by simp [single])

/-- The value of a part put before a sound message keeps it sound. -/
theorem sound_elim (hset : set.Sound) (hbody : BodySound set body) (hpart : part.Suits schema)
    {message : Message} (hm : message.Sound set) (hs : message.schema = schema) :
    ((part.read body).1.elim message
      fun (index, value) => message.putBefore index value).Sound set := by
  cases hread : (part.read body).1 with
  | none => exact hm
  | some placed =>
    obtain ⟨index, value⟩ := placed
    obtain ⟨field, hf, hfit, hin⟩ := read_suits hbody hpart hread
    exact sound_putBefore hset hm (hs ▸ hf) hfit hin

theorem schema_elim (placed : Option (Nat × Value)) (message : Message) :
    (placed.elim message fun (index, value) => message.putBefore index value).schema =
      message.schema := by
  cases placed <;> rfl

theorem schema_assemble (fault : Option MessageError) : ∀ parts : List Part,
    (assemble body schema fault parts).1.schema = schema
  | [] => rfl
  | part :: parts => by
    rw [assemble]
    dsimp only
    rw [schema_elim]
    split
    · rfl
    · exact schema_assemble fault parts

/-- What holds of the message without fields, and goes on to hold when the value of a
part is put before a message, holds of whatever is assembled. -/
theorem assemble_induction {P : List Part → Message → Prop}
    (none : ∀ parts, P parts (blank schema))
    (next : ∀ part parts message, part.Suits schema → message.schema = schema →
      P parts message → P (part :: parts) ((part.read body).1.elim message
        fun (index, value) => message.putBefore index value))
    (fault : Option MessageError) : ∀ {parts : List Part}, (∀ part ∈ parts, part.Suits schema) →
    P parts (assemble body schema fault parts).1
  | [], _ => none []
  | part :: parts, hparts => by
    obtain ⟨hpart, hrest⟩ := List.forall_mem_cons.1 hparts
    rw [assemble]
    dsimp only
    split
    · exact next part parts _ hpart rfl (none parts)
    · exact next part parts _ hpart (schema_assemble fault parts)
        (assemble_induction none next fault hrest)

/-- What holds of a message assembled when it holds of the bodies with one level less
holds of every body that is decoded. -/
theorem decodeBody_induction {P : Nat → SchemaId → List UInt8 → Message → Prop}
    (level : ∀ levels schema bytes, schema ∈ set.schemas →
      (∀ id bytes inner, (decodeBody set levels id bytes).1 = some inner →
        P levels id bytes inner) →
      P (levels + 1) schema.id bytes (assemble (decodeBody set levels) schema
        (schema.parts bytes).2 (schema.parts bytes).1).1) :
    ∀ levels id bytes inner, (decodeBody set levels id bytes).1 = some inner →
      P levels id bytes inner
  | 0, _, _, _, h => by cases h
  | levels + 1, id, bytes, inner, h => by
    rw [decodeBody] at h
    cases hg : set.get? id with
    | none => simp [hg] at h
    | some schema =>
      obtain ⟨hs, rfl⟩ := SchemaSet.mem_of_get? hg
      simp only [hg, Option.some.injEq] at h
      subst h
      exact level levels schema bytes hs (decodeBody_induction level levels)

/-- A message assembled from parts of a schema is sound. -/
theorem assemble_sound (hset : set.Sound) (hs : schema ∈ set.schemas)
    (hbody : BodySound set body) (fault : Option MessageError) {parts : List Part}
    (hparts : ∀ part ∈ parts, part.Suits schema) :
    (assemble body schema fault parts).1.Sound set := by
  refine @assemble_induction _ body (fun _ message => message.Sound set)
    (fun _ => sound_blank hs) (fun part _ message hpart hschema hm => ?_) fault parts hparts
  exact sound_elim hset hbody hpart hm hschema

theorem decodeBody_sound (hset : set.Sound) (levels : Nat) :
    BodySound set (decodeBody set levels) := by
  refine @decodeBody_induction set (fun _ id _ inner => inner.Sound set ∧ inner.schemaId = id)
    (fun levels schema bytes hs ih => ⟨?_, ?_⟩) levels
  · exact assemble_sound hset hs ih _ (schema.parts_suit bytes)
  · rw [schemaId, schema_assemble]

end Message

end RecordBridge

import RecordBridge.Message.Decode
import RecordBridge.Proofs.Lookup
/-!
# Sound schema sets

What `SchemaSet.ofList` lets through: schemas with distinct names, whose fields
have distinct names and distinct usable numbers and refer to schemas of the
list (`ofList_eq_ok_iff`). In such a set a schema is found by its name and a
field by its number, each at its place.
-/
namespace RecordBridge

/-- The fields of a schema are named and numbered apart, have usable numbers
and refer to schemas that exist. -/
structure Schema.FieldsSound (schemas : List Schema) (fields : List Schema.Field) : Prop where
  names : (fields.map (·.name)).Nodup
  numbers : (fields.map (·.number)).Nodup
  usable : ∀ field ∈ fields, Schema.isNumber field.number
  known : ∀ field ∈ fields, ∀ id, field.type.schema? = some id → (Schema.find? schemas id).isSome

/-- Schemas are named apart and have sound fields. -/
structure SchemaSet.Sound (set : SchemaSet) : Prop where
  ids : (set.schemas.map (·.id)).Nodup
  named : ∀ schema ∈ set.schemas, schema.id ≠ ""
  fields : ∀ schema ∈ set.schemas, Schema.FieldsSound set.schemas schema.fields

namespace Schema

theorem checkIds_eq_ok_iff : ∀ {schemas : List Schema} {seen : List SchemaId},
    checkIds seen schemas = .ok () ↔ (schemas.map (·.id)).Nodup ∧
      (∀ schema ∈ schemas, schema.id ≠ "") ∧ ∀ schema ∈ schemas, schema.id ∉ seen
  | [], seen => by simp [checkIds]
  | schema :: rest, seen => by
    have ih := @checkIds_eq_ok_iff rest (schema.id :: seen)
    simp only [checkIds]
    by_cases he : schema.id = ""
    · simp [he]
    by_cases hs : schema.id ∈ seen
    · simp [he, hs]
    rw [if_neg he, if_neg hs, ih]
    simp only [List.map_cons, List.nodup_cons, List.mem_map, List.forall_mem_cons]
    constructor
    · rintro ⟨hn, hne, hnot⟩
      exact ⟨⟨fun ⟨a, ha, hk⟩ => hnot a ha (by simp [hk]), hn⟩, ⟨he, hne⟩, hs,
        fun a ha hm => hnot a ha (List.mem_cons_of_mem _ hm)⟩
    · rintro ⟨⟨hn, hd⟩, ⟨-, hne⟩, -, hnot⟩
      refine ⟨hd, hne, fun a ha hm => ?_⟩
      rcases List.mem_cons.1 hm with hk | hm
      · exact hn ⟨a, ha, hk⟩
      · exact hnot a ha hm

theorem fieldsSound_cons {schemas : List Schema} {field : Field} {rest : List Field} :
    FieldsSound schemas (field :: rest) ↔ FieldsSound schemas rest ∧
      (∀ other ∈ rest, other.name ≠ field.name ∧ other.number ≠ field.number) ∧
      isNumber field.number ∧
      ∀ id, field.type.schema? = some id → (find? schemas id).isSome := by
  constructor
  · rintro ⟨hn, hm, hu, hk⟩
    simp only [List.map_cons, List.nodup_cons, List.mem_map] at hn hm
    exact ⟨⟨hn.2, hm.2, fun f hf => hu f (List.mem_cons_of_mem _ hf),
        fun f hf => hk f (List.mem_cons_of_mem _ hf)⟩,
      fun f hf => ⟨fun e => hn.1 ⟨f, hf, e⟩, fun e => hm.1 ⟨f, hf, e⟩⟩,
      hu field List.mem_cons_self, hk field List.mem_cons_self⟩
  · rintro ⟨⟨hn, hm, hu, hk⟩, hne, hu', hk'⟩
    refine ⟨?_, ?_, List.forall_mem_cons.2 ⟨hu', hu⟩, List.forall_mem_cons.2 ⟨hk', hk⟩⟩
    · exact List.nodup_cons.2 ⟨by simpa using fun f hf => (hne f hf).1, hn⟩
    · exact List.nodup_cons.2 ⟨by simpa using fun f hf => (hne f hf).2, hm⟩

/-- Fields pass the check when they are sound and keep off the names and
numbers already seen. -/
theorem checkFields_eq_ok_iff {schemas : List Schema} {id : SchemaId} :
    ∀ {fields : List Field} {names : List String} {numbers : List UInt32},
    checkFields schemas id names numbers fields = .ok () ↔ FieldsSound schemas fields ∧
      ∀ field ∈ fields, field.name ∉ names ∧ field.number ∉ numbers
  | [], names, numbers => by
    simp only [checkFields, List.not_mem_nil, false_imp_iff, implies_true, and_true, true_iff]
    exact ⟨by simp, by simp, by simp, by simp⟩
  | field :: rest, names, numbers => by
    have ih := @checkFields_eq_ok_iff schemas id rest (field.name :: names)
      (field.number :: numbers)
    have hrest : checkFields schemas id names numbers (field :: rest) = .ok () ↔
        field.name ∉ names ∧ isNumber field.number ∧ field.number ∉ numbers ∧
        (∀ id, field.type.schema? = some id → (find? schemas id).isSome) ∧
        checkFields schemas id (field.name :: names) (field.number :: numbers) rest = .ok () := by
      cases hr : field.type.schema? with
      | none => simp [checkFields, guard_eq_ok, hr]
      | some nested => simp [checkFields, guard_eq_ok, hr, Option.isSome_iff_ne_none]
    rw [hrest, ih, fieldsSound_cons]
    rw [List.forall_mem_cons]
    simp only [List.mem_cons, not_or]
    constructor
    · rintro ⟨hn, hu, hm, hk, hs, hne⟩
      exact ⟨⟨hs, fun f hf => ⟨(hne f hf).1.1, (hne f hf).2.1⟩, hu, hk⟩, ⟨hn, hm⟩,
        fun f hf => ⟨(hne f hf).1.2, (hne f hf).2.2⟩⟩
    · rintro ⟨⟨hs, hne, hu, hk⟩, ⟨hn, hm⟩, hout⟩
      exact ⟨hn, hu, hm, hk, hs, fun f hf => ⟨⟨(hne f hf).1, (hout f hf).1⟩,
        (hne f hf).2, (hout f hf).2⟩⟩

theorem check_eq_ok_iff {schemas : List Schema} {schema : Schema} :
    check schemas schema = .ok () ↔ FieldsSound schemas schema.fields := by
  simp [check, checkFields_eq_ok_iff]

end Schema

namespace SchemaSet

/-- A list of schemas is accepted exactly when it is sound, and is kept as it is. -/
theorem ofList_eq_ok_iff {schemas : List Schema} {set : SchemaSet} :
    ofList schemas = .ok set ↔ set.schemas = schemas ∧ set.Sound := by
  unfold ofList
  simp only [bind_eq_ok, forM_eq_ok, Schema.check_eq_ok_iff, pure_eq_ok, exists_const]
  constructor
  · rintro ⟨_, hids, hf, rfl⟩
    obtain ⟨hd, hne, -⟩ := Schema.checkIds_eq_ok_iff.1 hids
    exact ⟨rfl, hd, hne, hf⟩
  · rintro ⟨rfl, hd, hne, hf⟩
    exact ⟨(), Schema.checkIds_eq_ok_iff.2 ⟨hd, hne, by simp⟩, hf, rfl⟩

theorem sound_of_ofList {schemas : List Schema} {set : SchemaSet}
    (h : ofList schemas = .ok set) : set.Sound :=
  (ofList_eq_ok_iff.1 h).2

variable {set : SchemaSet} {schema : Schema} {id : SchemaId}

theorem mem_of_get? (h : set.get? id = some schema) : schema ∈ set.schemas ∧ schema.id = id :=
  mem_of_find?_key h

namespace Sound

theorem get?_id (hset : set.Sound) (h : schema ∈ set.schemas) :
    set.get? schema.id = some schema :=
  find?_key hset.ids h

/-- A field is found by its number, at its place. -/
theorem numbered? (hset : set.Sound) (h : schema ∈ set.schemas) {index : Nat}
    {field : Schema.Field} (hf : schema.fields[index]? = some field) :
    schema.numbered? field.number = some (index, field) := by
  have : schema.fields.findIdx? (·.number == field.number) = some index :=
    findIdx?_key (hset.fields schema h).numbers hf
  simp [Schema.numbered?, Schema.numberIndex?, this, hf]

/-- Field numbers leave room for the wire type in a key. -/
theorem number_lt (hset : set.Sound) (h : schema ∈ set.schemas) {field : Schema.Field}
    (hf : field ∈ schema.fields) : field.number ≠ 0 ∧ field.number.toNat < 536870912 := by
  have := (hset.fields schema h).usable field hf
  simp only [Schema.isNumber, Schema.maxNumber, ne_eq, decide_eq_true_eq,
    UInt32.le_iff_toNat_le] at this
  exact ⟨this.1, by have := this.2.1; simp at this; omega⟩

end Sound

end SchemaSet

end RecordBridge

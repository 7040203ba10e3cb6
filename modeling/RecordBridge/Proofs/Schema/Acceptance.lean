import RecordBridge.Proofs.Schema.Sound
/-!
# Which schemas make a set

`Schema.Coherent` says of a list of schemas what its author has to see to: names, field
numbers that the wire allows, and that what a field refers to is there.
`SchemaSet.ofList` accepts the coherent lists and no others. In an accepted set a name
leads to its schema, and the name and the number of a field to the place of the field
(`accepts_iff_coherent`).
-/
namespace RecordBridge

namespace Schema

/-- Schemas fit together: they are named, and named apart; the fields of each are named
apart and numbered apart, by numbers of 29 bits but 0 and the reserved ones; and the
schemas that fields refer to are there. -/
structure Coherent (schemas : List Schema) : Prop where
  named : ∀ schema ∈ schemas, schema.id ≠ ""
  ids : (schemas.map (·.id)).Nodup
  names : ∀ schema ∈ schemas, (schema.fields.map (·.name)).Nodup
  numbers : ∀ schema ∈ schemas, (schema.fields.map (·.number)).Nodup
  bounds : ∀ schema ∈ schemas, ∀ field ∈ schema.fields,
    1 ≤ field.number.toNat ∧ field.number.toNat ≤ 2 ^ 29 - 1
  unreserved : ∀ schema ∈ schemas, ∀ field ∈ schema.fields,
    ¬ (19000 ≤ field.number.toNat ∧ field.number.toNat ≤ 19999)
  known : ∀ schema ∈ schemas, ∀ field ∈ schema.fields, ∀ id,
    field.type = .message id ∨ field.type = .repeated id → ∃ other ∈ schemas, other.id = id

variable {schemas : List Schema}

theorem isNumber_iff {number : UInt32} : isNumber number ↔
    (1 ≤ number.toNat ∧ number.toNat ≤ 2 ^ 29 - 1) ∧
      ¬ (19000 ≤ number.toNat ∧ number.toNat ≤ 19999) := by
  have hzero : number ≠ 0 ↔ 1 ≤ number.toNat := by
    rw [ne_eq, ← UInt32.toNat_inj]
    simp [Nat.one_le_iff_ne_zero]
  simp only [isNumber, decide_eq_true_eq, hzero, UInt32.le_iff_toNat_le, and_assoc]
  rfl

/-- The types that refer to a schema are those of messages and lists of them. -/
theorem schema?_eq_some_iff {type : FieldType} {id : SchemaId} :
    type.schema? = some id ↔ type = .message id ∨ type = .repeated id := by
  cases type <;> simp [FieldType.schema?]

end Schema

namespace SchemaSet

variable {schemas : List Schema}

theorem sound_iff_coherent {set : SchemaSet} : set.Sound ↔ Schema.Coherent set.schemas := by
  have hknown : ∀ id, (Schema.find? set.schemas id).isSome ↔
      ∃ other ∈ set.schemas, other.id = id := fun _ => isSome_find?_key
  constructor
  · rintro ⟨hids, hnamed, hfields⟩
    have hnumber := fun schema hs field hf =>
      Schema.isNumber_iff.1 ((hfields schema hs).usable field hf)
    exact
      { named := hnamed
        ids := hids
        names := fun schema hs => (hfields schema hs).names
        numbers := fun schema hs => (hfields schema hs).numbers
        bounds := fun schema hs field hf => (hnumber schema hs field hf).1
        unreserved := fun schema hs field hf => (hnumber schema hs field hf).2
        known := fun schema hs field hf id hid =>
          (hknown id).1 ((hfields schema hs).known field hf id (Schema.schema?_eq_some_iff.2 hid)) }
  · intro h
    refine ⟨h.ids, h.named, fun schema hs => ⟨h.names schema hs, h.numbers schema hs, ?_, ?_⟩⟩
    · intro field hf
      exact Schema.isNumber_iff.2 ⟨h.bounds schema hs field hf, h.unreserved schema hs field hf⟩
    · intro field hf id hid
      exact (hknown id).2 (h.known schema hs field hf id (Schema.schema?_eq_some_iff.1 hid))

/-- A list of schemas is accepted if and only if it is coherent. In the set that an
accepted list makes, each schema is found by its name, and each field at its place, by its
name as well as by its number. -/
theorem accepts_iff_coherent (schemas : List Schema) :
    ((∃ set, ofList schemas = .ok set) ↔ Schema.Coherent schemas) ∧
      ∀ set, ofList schemas = .ok set → ∀ schema ∈ schemas,
        set.get? schema.id = some schema ∧
        ∀ (index : Nat) field, schema.fields[index]? = some field →
          schema.fieldIndex? field.name = some index ∧
          schema.numberIndex? field.number = some index := by
  constructor
  · simp only [ofList_eq_ok_iff]
    constructor
    · rintro ⟨set, rfl, hsound⟩
      exact sound_iff_coherent.1 hsound
    · exact fun h => ⟨⟨schemas⟩, rfl, sound_iff_coherent.2 h⟩
  · intro set hset schema hs
    obtain ⟨rfl, hsound⟩ := ofList_eq_ok_iff.1 hset
    have hfields := hsound.fields schema hs
    exact ⟨hsound.get?_id hs, fun index field hf =>
      ⟨findIdx?_key hfields.names hf, findIdx?_key hfields.numbers hf⟩⟩

/-- Folders inside folders, with numbers at the ends of what is allowed, and a last one
that may vary. -/
def folderSchemas (number : UInt32) : List Schema :=
  [⟨"Folder", [⟨"name", 1, .string⟩, ⟨"parts", 18999, .repeated "Folder"⟩,
      ⟨"cover", 20000, .message "Sheet"⟩, ⟨"colour", number, .int32⟩]⟩,
    ⟨"Sheet", [⟨"name", 536870911, .string⟩]⟩]

theorem accepts_folders :
    (∃ set, ofList (folderSchemas 536870911) = .ok set ∧
      (set.get? "Folder").bind (·.numberIndex? 20000) = some 2) ∧
    Schema.Coherent (folderSchemas 536870911) ∧
    ∀ number ∈ [0, 1, 18999, 19000, 19999, 20000, 536870912],
      ¬ Schema.Coherent (folderSchemas number) := by
  have hset : ofList (folderSchemas 536870911) = .ok ⟨folderSchemas 536870911⟩ := by decide
  have hnone : ∀ number ∈ [0, 1, 18999, 19000, 19999, 20000, 536870912],
      (ofList (folderSchemas number)).isOk = false := by
    simp only [List.forall_mem_cons]
    refine ⟨?_, ?_, ?_, ?_, ?_, ?_, ?_, by simp⟩ <;> cbv
  obtain ⟨hiff, hfound⟩ := accepts_iff_coherent (folderSchemas 536870911)
  obtain ⟨hfolder, hfields⟩ := hfound _ hset _ List.mem_cons_self
  refine ⟨⟨_, hset, ?_⟩, hiff.1 ⟨_, hset⟩, fun number hn hcoherent => ?_⟩
  · rw [hfolder]
    exact (hfields 2 _ rfl).2
  · obtain ⟨set, hmade⟩ := (accepts_iff_coherent (folderSchemas number)).1.2 hcoherent
    have := hnone number hn
    rw [hmade] at this
    cases this

end SchemaSet

end RecordBridge

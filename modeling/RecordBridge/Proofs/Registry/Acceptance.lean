import RecordBridge.Proofs.Layout.Acceptance
import RecordBridge.Proofs.Registry.Carrier
import RecordBridge.Proofs.Registry.Paired
import RecordBridge.Proofs.Registry.Sound
/-!
# Which tables make a registry

Over accepted sets, descriptors make a registry if and only if they resolve
(`exists_build_iff_resolvable`): opcodes are distinct, layouts and schemas exist, and
wherever a record field meets a message field of its name, what lies inside it has an
opcode and, in arrays and lists, a repeated field to go to. A field of the wrong type is
no reason to refuse a table: it is skipped.
-/
namespace RecordBridge

namespace Descriptor

/-- What lies inside a record field can be carried to the message field of its name:
records have an opcode, and those of arrays and lists a repeated field in the schema,
by the name that their opcode gives or else by the field's own. The link of a record
is not carried, and scalars need nothing. -/
def Resolves (descriptors : List Descriptor) (layout : Layout) (schema : Schema) (field : String) :
    FieldKind → Prop
  | .nested id => ∃ descriptor ∈ descriptors, descriptor.layout = id
  | .array id _ => ∃ found, Chosen descriptors id found ∧
      ∃ target ∈ schema.fields, target.name = found.repeatedField.getD field
  | .list id => id ≠ layout.id → ∃ found, Chosen descriptors id found ∧
      ∃ target ∈ schema.fields, target.name = found.repeatedField.getD field
  | _ => True

/-- Opcodes are distinct, what descriptors name exists, and every record field that
meets a message field of its name resolves. -/
structure Resolvable (layouts : LayoutSet) (schemas : SchemaSet) (descriptors : List Descriptor) :
    Prop where
  opcodes : (descriptors.map (·.opcode)).Nodup
  layout_mem : ∀ descriptor ∈ descriptors, ∃ layout ∈ layouts.layouts, layout.id = descriptor.layout
  schema_mem : ∀ descriptor ∈ descriptors, ∃ schema ∈ schemas.schemas, schema.id = descriptor.schema
  fields : ∀ descriptor ∈ descriptors,
    ∀ layout ∈ layouts.layouts, layout.id = descriptor.layout →
    ∀ schema ∈ schemas.schemas, schema.id = descriptor.schema →
    ∀ field ∈ schema.fields, ∀ held ∈ layout.fields, held.name = field.name →
      Resolves descriptors layout schema field.name held.kind

variable {layouts : LayoutSet} {schemas : SchemaSet} {descriptors : List Descriptor}
  {opcode : UInt16} {layout : Layout} {schema : Schema}

/-! ## One field -/

theorem exists_inner_iff (opcode : UInt16) (field : String) {id : LayoutId} :
    (∃ found, inner (sort descriptors) opcode field id = .ok found) ↔
      ∃ descriptor ∈ descriptors, descriptor.layout = id := by
  simp only [Plan.inner_eq_ok_iff]
  constructor
  · rintro ⟨found, hc⟩
    obtain ⟨hm, hid⟩ := mem_of_carrier? hc
    exact ⟨found, mem_sort.1 hm, hid⟩
  · rintro ⟨descriptor, hd, rfl⟩
    exact exists_carrier? (mem_sort.2 hd)

/-- A target is looked up by name; a field of another type than needed is one, too. -/
theorem exists_target_iff {field : String} {element : Descriptor} :
    (∃ result, target opcode schema field element = .ok result) ↔
      ∃ found ∈ schema.fields, found.name = element.repeatedField.getD field := by
  have hindex : (schema.fieldIndex? (element.repeatedField.getD field)).isSome ↔
      ∃ found ∈ schema.fields, found.name = element.repeatedField.getD field := by
    simp [Schema.fieldIndex?]
  rw [← hindex]
  simp only [target]
  cases schema.fieldIndex? (element.repeatedField.getD field) with
  | none => simp
  | some index =>
    dsimp only
    split <;> simp

theorem exists_action_iff (opcode : UInt16) (hopcodes : (descriptors.map (·.opcode)).Nodup)
    {field : Schema.Field} {kind : FieldKind}
    (hsize : kind.packedSize layouts.sizeOf < UInt64.size) :
    (∃ result, Plan.action layouts (sort descriptors) opcode layout schema field kind = .ok result) ↔
      Resolves descriptors layout schema field.name kind := by
  have helements : ∀ id, (∃ found, inner (sort descriptors) opcode field.name id = .ok found ∧
      ∃ result, target opcode schema field.name found = .ok result) ↔
      ∃ found, Chosen descriptors id found ∧
        ∃ target ∈ schema.fields, target.name = found.repeatedField.getD field.name := by
    intro id
    simp only [Plan.inner_eq_ok_iff, carrier?_sort_iff hopcodes, exists_target_iff]
  cases kind with
  | nested id =>
    rw [Resolves, ← exists_inner_iff opcode field.name]
    simp only [Plan.action, exists_bind_ok_iff]
    refine exists_congr fun found => and_iff_left ?_
    split <;> exact ⟨_, rfl⟩
  | array id count =>
    rw [Resolves, ← helements]
    simp only [Plan.action, exists_bind_ok_iff]
    refine exists_congr fun found => and_congr_right fun _ => exists_congr fun result =>
      and_iff_left ?_
    cases result with
    | error reason => exact ⟨_, rfl⟩
    | ok target =>
      exact exists_bind_ok_iff.2 ⟨_, mapError_eq_ok.2 (Size.mul_eq_ok_iff.2 ⟨rfl, hsize⟩), _, rfl⟩
  | list id =>
    rw [Resolves, ← helements]
    by_cases hid : id = layout.id
    · simp [Plan.action, hid]
    · rw [Plan.action, if_neg hid, imp_iff_right hid]
      simp only [exists_bind_ok_iff, pure_eq_ok, exists_eq', and_true]
  | int | bool | fixedText | ownedText | textRows =>
    obtain ⟨selected, hselected⟩ :=
      Coercion.exists_select (FieldKind.rowsFit_of_packedSize_lt hsize) field.type
    exact iff_of_true
      (exists_bind_ok_iff.2 ⟨selected, mapError_eq_ok.2 hselected, _, rfl⟩) trivial

/-! ## One descriptor -/

/-- An item is made of a message field unless it meets a record field that does not
resolve. -/
theorem exists_item_iff (hopcodes : (descriptors.map (·.opcode)).Nodup)
    (hnames : (layout.fields.map (·.name)).Nodup)
    (hsize : layout.packedSize layouts.sizeOf < UInt64.size) {field : Schema.Field} {index : Nat} :
    (∃ item, Plan.item layouts (sort descriptors) opcode layout schema field index = .ok item) ↔
      ∀ held ∈ layout.fields, held.name = field.name →
        Resolves descriptors layout schema field.name held.kind := by
  unfold Plan.item
  cases hfound : layout.field? field.name with
  | none =>
    have hmissing : ∀ held ∈ layout.fields, held.name ≠ field.name := fun held hm => by
      simpa using List.find?_eq_none.1 hfound held hm
    refine iff_of_true ?_ fun held hm hname => absurd hname (hmissing held hm)
    split <;> simp_all
  | some found =>
    obtain ⟨hm, hname⟩ := mem_of_find?_key hfound
    obtain ⟨index, hindex⟩ : ∃ index, layout.fieldIndex? field.name = some index := by
      rw [← Option.isSome_iff_exists]
      simpa [Layout.fieldIndex?] using ⟨found, hm, hname⟩
    have honly : (∀ held ∈ layout.fields, held.name = field.name →
        Resolves descriptors layout schema field.name held.kind) ↔
        Resolves descriptors layout schema field.name found.kind := by
      refine ⟨fun h => h found hm hname, fun h held hh hn => ?_⟩
      rwa [List.inj_on_of_nodup_map hnames hh hm (hn.trans hname.symm)]
    rw [hindex, honly, ← exists_action_iff opcode hopcodes
      ((Layout.packedSize_field_le hm).trans_lt hsize)]
    simp only [exists_bind_ok_iff]
    refine exists_congr fun result => and_iff_left ?_
    cases result <;> exact ⟨_, rfl⟩

/-- What has items is a plan: 64 bits hold the bytes of a layout, and so those of its
paired fields. -/
theorem exists_compile_iff (opcode : UInt16) (hopcodes : (descriptors.map (·.opcode)).Nodup)
    (hnames : (layout.fields.map (·.name)).Nodup) (hschema : (schema.fields.map (·.name)).Nodup)
    (hsize : layout.packedSize layouts.sizeOf < UInt64.size) :
    (∃ plan, Plan.compile layouts (sort descriptors) opcode layout schema = .ok plan) ↔
      ∀ field ∈ schema.fields, ∀ held ∈ layout.fields, held.name = field.name →
        Resolves descriptors layout schema field.name held.kind := by
  have hmade : (∃ plan, Plan.compile layouts (sort descriptors) opcode layout schema = .ok plan) ↔
      ∃ plan, Plan.Made layouts (sort descriptors) opcode layout schema plan := by
    simp only [Plan.compile_eq_ok_iff]
    exact exists_congr fun plan => and_iff_left_of_imp fun hmade =>
      (hmade.occupied_le hschema).trans_lt hsize
  rw [hmade, Plan.exists_made_iff]
  simp only [exists_item_iff hopcodes hnames hsize]
  constructor
  · intro h field hf
    obtain ⟨index, hi⟩ := List.mem_iff_getElem?.1 hf
    exact h index field hi
  · exact fun h index field hf => h field (List.mem_of_getElem? hf)

/-- A row is made of a descriptor whose layout and schema exist, when its fields resolve. -/
theorem exists_row_iff (hl : layouts.Sound) (hs : schemas.Sound)
    (hopcodes : (descriptors.map (·.opcode)).Nodup) {descriptor : Descriptor}
    (hlayout : layout ∈ layouts.layouts) (hlid : layout.id = descriptor.layout)
    (hschema : schema ∈ schemas.schemas) (hsid : schema.id = descriptor.schema) :
    (∃ row, descriptor.row layouts schemas (sort descriptors) = .ok row) ↔
      ∀ field ∈ schema.fields, ∀ held ∈ layout.fields, held.name = field.name →
        Resolves descriptors layout schema field.name held.kind := by
  have hget : layouts.get? descriptor.layout = some layout := hlid ▸ hl.get?_id hlayout
  have hget' : schemas.get? descriptor.schema = some schema := hsid ▸ hs.get?_id hschema
  rw [row, hget, hget', ← exists_compile_iff descriptor.opcode hopcodes
    (hl.fields layout hlayout).names (hs.fields schema hschema).names
    (hl.byteSize?_eq hlayout).2]
  simp only [exists_bind_ok_iff, pure_eq_ok, exists_eq', and_true]

end Descriptor

namespace Registry

/-- Descriptors that pass the check, each with a row, make a registry. -/
theorem exists_build_iff {layouts : LayoutSet} {schemas : SchemaSet}
    {descriptors : List Descriptor} :
    (∃ registry, build layouts schemas descriptors = .ok registry) ↔
      Descriptor.check layouts schemas [] (Descriptor.sort descriptors) = .ok () ∧
      ∀ descriptor ∈ descriptors, ∃ row,
        descriptor.row layouts schemas (Descriptor.sort descriptors) = .ok row := by
  have hmem : ∀ descriptor, descriptor ∈ descriptors ↔ descriptor ∈ Descriptor.sort descriptors :=
    fun _ => Descriptor.mem_sort.symm
  simp only [hmem, ← exists_mapM_ok_iff]
  constructor
  · rintro ⟨registry, h⟩
    obtain ⟨hcheck, h⟩ := check_bind_eq_ok.1 h
    obtain ⟨rows, hrows, -⟩ := bind_eq_ok.1 h
    exact ⟨hcheck, rows, hrows⟩
  · rintro ⟨hcheck, rows, hrows⟩
    exact ⟨_, check_bind_eq_ok.2 ⟨hcheck, bind_eq_ok.2 ⟨rows, hrows, rfl⟩⟩⟩

/-- Over accepted sets, descriptors make a registry if and only if they resolve. -/
theorem exists_build_iff_resolvable {layoutList : List Layout} {schemaList : List Schema}
    {layouts : LayoutSet} {schemas : SchemaSet} (hlayouts : LayoutSet.ofList layoutList = .ok layouts)
    (hschemas : SchemaSet.ofList schemaList = .ok schemas) (descriptors : List Descriptor) :
    (∃ registry, build layouts schemas descriptors = .ok registry) ↔
      Descriptor.Resolvable layouts schemas descriptors := by
  have hl := (LayoutSet.sound_of_ofList hlayouts).2
  have hs := SchemaSet.sound_of_ofList hschemas
  have hlayout : ∀ id, layouts.contains id ↔ ∃ layout ∈ layouts.layouts, layout.id = id :=
    fun id => Layout.isSome_find?_iff
  have hschema : ∀ id, schemas.contains id ↔ ∃ schema ∈ schemas.schemas, schema.id = id :=
    fun id => isSome_find?_key
  simp only [exists_build_iff, Descriptor.check_eq_ok_iff, Descriptor.nodup_sort_iff,
    Descriptor.mem_sort, hlayout, hschema, List.not_mem_nil, not_false_eq_true, implies_true,
    and_true]
  constructor
  · rintro ⟨⟨hopcodes, hknown⟩, hrows⟩
    refine ⟨hopcodes, fun d hd => (hknown d hd).1, fun d hd => (hknown d hd).2, ?_⟩
    intro descriptor hd layout hlm hlid schema hsm hsid
    exact (Descriptor.exists_row_iff hl hs hopcodes hlm hlid hsm hsid).1 (hrows descriptor hd)
  · intro h
    refine ⟨⟨h.opcodes, fun d hd => ⟨h.layout_mem d hd, h.schema_mem d hd⟩⟩, fun d hd => ?_⟩
    obtain ⟨layout, hlm, hlid⟩ := h.layout_mem d hd
    obtain ⟨schema, hsm, hsid⟩ := h.schema_mem d hd
    exact (Descriptor.exists_row_iff hl hs h.opcodes hlm hlid hsm hsid).2
      (h.fields d hd layout hlm hlid schema hsm hsid)

/-- Messages for the shelf and what is on it. Its notes go to `remarks`; the field of
their own name is of another type. -/
def shelfSchemas : List Schema :=
  [⟨"Shelf", [⟨"boxes", 1, .repeated "Box"⟩, ⟨"lid", 2, .message "Lid"⟩, ⟨"notes", 3, .int32⟩,
      ⟨"remarks", 4, .repeated "Note"⟩]⟩,
    ⟨"Box", [⟨"size", 1, .int32⟩, ⟨"lid", 2, .message "Lid"⟩]⟩,
    ⟨"Lid", [⟨"open", 1, .bool⟩]⟩,
    ⟨"Note", [⟨"text", 1, .string⟩, ⟨"next", 2, .repeated "Note"⟩]⟩]

def shelfDescriptors : List Descriptor :=
  [⟨4, "note", "Note", some "remarks"⟩, ⟨1, "shelf", "Shelf", none⟩, ⟨3, "lid", "Lid", none⟩,
    ⟨2, "box", "Box", none⟩]

/-- Shelves have a registry as long as boxes have an opcode, and notes a field to go to. -/
theorem resolvable_shelf : ∃ layouts, LayoutSet.ofList LayoutSet.shelfLayouts = .ok layouts ∧
    SchemaSet.ofList shelfSchemas = .ok ⟨shelfSchemas⟩ ∧
    Descriptor.Resolvable layouts ⟨shelfSchemas⟩ shelfDescriptors ∧
    ¬ Descriptor.Resolvable layouts ⟨shelfSchemas⟩ (shelfDescriptors.take 3) ∧
    ¬ Descriptor.Resolvable layouts ⟨shelfSchemas⟩
      (⟨0, "note", "Note", some "text"⟩ :: shelfDescriptors) := by
  let layouts : LayoutSet := ⟨LayoutSet.shelfLayouts,
    [⟨"note", [⟨"text", .ownedText⟩, ⟨"next", .list "note"⟩]⟩,
      ⟨"shelf", [⟨"boxes", .array "box" 9⟩, ⟨"lid", .nested "lid"⟩, ⟨"notes", .list "note"⟩]⟩,
      ⟨"box", [⟨"size", .int 4 false⟩, ⟨"lid", .nested "lid"⟩]⟩,
      ⟨"lid", [⟨"open", .bool⟩, ⟨"marks", .textRows 2 3⟩, ⟨"colour", .fixedText 5⟩]⟩],
    [("note", 16), ("shelf", 164), ("box", 16), ("lid", 12)], by decide⟩
  have hlayouts : LayoutSet.ofList LayoutSet.shelfLayouts = .ok layouts := by cbv
  have hschemas : SchemaSet.ofList shelfSchemas = .ok ⟨shelfSchemas⟩ := by cbv
  have hbuilt : (build layouts ⟨shelfSchemas⟩ shelfDescriptors).isOk := by cbv
  have hbox : build layouts ⟨shelfSchemas⟩ (shelfDescriptors.take 3) =
      .error (.missingNestedOpcode 1 "boxes" "box") := by cbv
  have hnote : build layouts ⟨shelfSchemas⟩ (⟨0, "note", "Note", some "text"⟩ :: shelfDescriptors) =
      .error (.missingRepeatedField 1 "notes" "text") := by cbv
  have hiff := exists_build_iff_resolvable hlayouts hschemas
  refine ⟨layouts, hlayouts, hschemas, (hiff _).1 ?_, fun h => ?_, fun h => ?_⟩
  · cases hb : build layouts ⟨shelfSchemas⟩ shelfDescriptors with
    | error defect => simp [hb, Except.isOk, Except.toBool] at hbuilt
    | ok registry => exact ⟨registry, rfl⟩
  · obtain ⟨registry, hb⟩ := (hiff _).2 h
    simp [hbox] at hb
  · obtain ⟨registry, hb⟩ := (hiff _).2 h
    simp [hnote] at hb

end Registry

end RecordBridge

import RecordBridge.Proofs.Message.Sound
import RecordBridge.Proofs.Record.Sound
import RecordBridge.Proofs.Registry.Plan
import RecordBridge.Registry.Basic
/-!
# Sound registries

An accepted registry has sound layouts and schemas, and one row per opcode,
whose plan was compiled for a layout and a schema that exist
(`sound_of_ofLists`). `Registry.Binding` is all that is known of an opcode then;
what lies inside a field is carried by an opcode that has one too
(`Sound.binding_of_carrier?`).
-/
namespace RecordBridge

namespace Registry

/-- Sound sets, and a row per opcode with the plan of its descriptor. -/
structure Sound (registry : Registry) : Prop where
  layouts : registry.layouts.Sound
  schemas : registry.schemas.Sound
  opcodes : (registry.rows.map (·.descriptor.opcode)).Nodup
  rows : ∀ row ∈ registry.rows, ∃ layout schema,
    registry.layouts.get? row.descriptor.layout = some layout ∧
    registry.schemas.get? row.descriptor.schema = some schema ∧
    Plan.compile registry.layouts registry.descriptors row.descriptor.opcode layout schema =
      .ok row.plan

/-- An opcode carries records of a layout as messages of a schema by a plan. -/
structure Binding (registry : Registry) (opcode : UInt16) (layout : Layout) (schema : Schema)
    (plan : Plan) : Prop where
  row : ∃ row ∈ registry.rows, row.descriptor.opcode = opcode ∧ row.plan = plan ∧
    row.descriptor.layout = layout.id ∧ row.descriptor.schema = schema.id
  layout_mem : layout ∈ registry.layouts.layouts
  schema_mem : schema ∈ registry.schemas.schemas
  compiled : Plan.compile registry.layouts registry.descriptors opcode layout schema = .ok plan

end Registry

/-! ## Building a registry -/

namespace Descriptor

theorem check_eq_ok_iff {layouts : LayoutSet} {schemas : SchemaSet} :
    ∀ {descriptors : List Descriptor} {seen : List UInt16},
    check layouts schemas seen descriptors = .ok () ↔ (descriptors.map (·.opcode)).Nodup ∧
      (∀ descriptor ∈ descriptors, layouts.contains descriptor.layout ∧
        schemas.contains descriptor.schema) ∧
      ∀ descriptor ∈ descriptors, descriptor.opcode ∉ seen
  | [], seen => by simp [check]
  | descriptor :: rest, seen => by
    have ih := @check_eq_ok_iff layouts schemas rest (descriptor.opcode :: seen)
    rw [check, guard_eq_ok, guard_eq_ok, guard_eq_ok, ih]
    simp only [List.map_cons, List.nodup_cons, List.mem_map, List.forall_mem_cons,
      Bool.not_eq_true', Bool.not_eq_false]
    constructor
    · rintro ⟨hs, hl, hm, hn, hall, hnot⟩
      exact ⟨⟨fun ⟨a, ha, he⟩ => hnot a ha (by simp [he]), hn⟩, ⟨⟨hl, hm⟩, hall⟩, hs,
        fun a ha hi => hnot a ha (List.mem_cons_of_mem _ hi)⟩
    · rintro ⟨⟨hn, hd⟩, ⟨⟨hl, hm⟩, hall⟩, hs, hnot⟩
      refine ⟨hs, hl, hm, hd, hall, fun a ha hi => ?_⟩
      rcases List.mem_cons.1 hi with he | hi
      · exact hn ⟨a, ha, he⟩
      · exact hnot a ha hi

theorem row_eq_ok_iff {layouts : LayoutSet} {schemas : SchemaSet} {descriptors : List Descriptor}
    {descriptor : Descriptor} {row : Registry.Row} :
    descriptor.row layouts schemas descriptors = .ok row ↔
    row.descriptor = descriptor ∧ ∃ layout schema,
      layouts.get? descriptor.layout = some layout ∧
      schemas.get? descriptor.schema = some schema ∧
      Plan.compile layouts descriptors descriptor.opcode layout schema = .ok row.plan := by
  obtain ⟨found, plan⟩ := row
  unfold Descriptor.row
  cases hl : layouts.get? descriptor.layout with
  | none => simp
  | some layout =>
    cases hs : schemas.get? descriptor.schema with
    | none => simp
    | some schema =>
      simp only [bind_eq_ok, pure_eq_ok, Registry.Row.mk.injEq, Option.some.injEq]
      constructor
      · rintro ⟨compiled, hc, rfl, rfl⟩
        exact ⟨rfl, layout, schema, rfl, rfl, hc⟩
      · rintro ⟨rfl, layout, schema, rfl, rfl, hc⟩
        exact ⟨plan, hc, rfl, rfl⟩

end Descriptor

namespace Registry

variable {registry : Registry}

theorem build_eq_ok {layouts : LayoutSet} {schemas : SchemaSet} {descriptors : List Descriptor}
    (h : build layouts schemas descriptors = .ok registry) :
    registry.layouts = layouts ∧ registry.schemas = schemas ∧
    registry.descriptors = Descriptor.sort descriptors ∧
    (registry.descriptors.map (·.opcode)).Nodup ∧
    ∀ row ∈ registry.rows,
      row.descriptor.row layouts schemas registry.descriptors = .ok row := by
  simp only [build, bind_eq_ok, pure_eq_ok] at h
  obtain ⟨_, hcheck, rows, hrows, rfl⟩ := h
  obtain ⟨hlen, hall⟩ := mapM_eq_ok.1 hrows
  have hat : ∀ (index : Nat) row, rows[index]? = some row →
      ∃ descriptor, (Descriptor.sort descriptors)[index]? = some descriptor ∧
        descriptor.row layouts schemas (Descriptor.sort descriptors) = .ok row := by
    intro index row hr
    have hi : index < (Descriptor.sort descriptors).length :=
      hlen ▸ (List.getElem?_eq_some_iff.1 hr).1
    obtain ⟨row', hr', hrow⟩ := hall index _ (List.getElem?_eq_getElem hi)
    rw [hr] at hr'
    cases hr'
    exact ⟨_, List.getElem?_eq_getElem hi, hrow⟩
  have hsort : rows.map (·.descriptor) = Descriptor.sort descriptors := by
    refine List.ext_getElem? fun index => ?_
    rw [List.getElem?_map]
    cases hr : rows[index]? with
    | none =>
      rw [List.getElem?_eq_none_iff] at hr
      rw [Option.map_none, eq_comm, List.getElem?_eq_none_iff]
      omega
    | some row =>
      obtain ⟨descriptor, hd, hrow⟩ := hat index row hr
      rw [hd, Option.map_some, (Descriptor.row_eq_ok_iff.1 hrow).1]
  have hdesc : (Registry.mk layouts schemas rows).descriptors = Descriptor.sort descriptors :=
    hsort
  refine ⟨rfl, rfl, hsort, ?_, fun row hm => ?_⟩
  · rw [hdesc]
    exact (Descriptor.check_eq_ok_iff.1 hcheck).1
  · obtain ⟨index, hr⟩ := List.mem_iff_getElem?.1 hm
    obtain ⟨descriptor, -, hrow⟩ := hat index row hr
    rw [hdesc, (Descriptor.row_eq_ok_iff.1 hrow).1]
    exact hrow

/-- An accepted registry is sound. -/
theorem sound_of_ofLists {layouts : List Layout} {schemas : List Schema}
    {descriptors : List Descriptor} (h : ofLists layouts schemas descriptors = .ok registry) :
    registry.Sound := by
  simp only [ofLists, bind_eq_ok, mapError_eq_ok] at h
  obtain ⟨layoutSet, hl, schemaSet, hs, h⟩ := h
  obtain ⟨rfl, rfl, -, hnodup, hrows⟩ := build_eq_ok h
  refine ⟨(LayoutSet.sound_of_ofList hl).2, SchemaSet.sound_of_ofList hs, ?_, fun row hm =>
    (Descriptor.row_eq_ok_iff.1 (hrows row hm)).2⟩
  rwa [Registry.descriptors, List.map_map] at hnodup

/-! ## What is known of an opcode -/

variable {opcode : UInt16} {layout : Layout} {schema : Schema} {plan : Plan}

namespace Sound

theorem binding_of_mem (h : registry.Sound) {row : Row} (hm : row ∈ registry.rows) :
    ∃ layout schema, registry.Binding row.descriptor.opcode layout schema row.plan ∧
      row.descriptor.layout = layout.id ∧ row.descriptor.schema = schema.id := by
  obtain ⟨layout, schema, hl, hs, hc⟩ := h.rows row hm
  obtain ⟨hlm, hid⟩ := LayoutSet.mem_of_get? hl
  obtain ⟨hsm, hid'⟩ := SchemaSet.mem_of_get? hs
  exact ⟨layout, schema, ⟨⟨row, hm, rfl, rfl, hid.symm, hid'.symm⟩, hlm, hsm, hc⟩, hid.symm,
    hid'.symm⟩

theorem binding_of_row? (h : registry.Sound) {row : Row} (hr : registry.row? opcode = some row) :
    ∃ layout schema, registry.Binding opcode layout schema row.plan := by
  obtain ⟨hm, rfl⟩ := mem_of_find?_key hr
  obtain ⟨layout, schema, hb, -⟩ := h.binding_of_mem hm
  exact ⟨layout, schema, hb⟩

/-- The carrier of what lies inside a field is an opcode with a binding. -/
theorem binding_of_carrier? (h : registry.Sound) {id : LayoutId} {found : Descriptor}
    (hc : Descriptor.carrier? registry.descriptors id = some found) :
    ∃ layout schema plan, registry.Binding found.opcode layout schema plan ∧
      layout.id = id ∧ schema.id = found.schema := by
  obtain ⟨hm, rfl⟩ := Descriptor.mem_of_carrier? hc
  obtain ⟨row, hrow, rfl⟩ := List.mem_map.1 hm
  obtain ⟨layout, schema, hb, hl, hs⟩ := h.binding_of_mem hrow
  exact ⟨layout, schema, row.plan, hb, hl.symm, hs.symm⟩

/-- An opcode that carries a layout has the zero record of the layout. -/
theorem exists_record?_of_layout? (h : registry.Sound) (hl : registry.layout? opcode = some layout) :
    layout ∈ registry.layouts.layouts ∧ ∃ zero, registry.record? opcode = some zero ∧
      registry.layouts.allocate layout.id = .ok zero := by
  obtain ⟨descriptor, hd, hl⟩ := Option.bind_eq_some_iff.1 hl
  obtain ⟨hmem, hid⟩ := LayoutSet.mem_of_get? hl
  obtain ⟨zero, hzero, -⟩ := Record.exists_allocate h.layouts hmem
  exact ⟨hmem, zero, by simp [record?, hd, ← hid, hzero, Except.toOption], hzero⟩

end Sound

namespace Binding

theorem row?_eq (hb : registry.Binding opcode layout schema plan) (h : registry.Sound) :
    ∃ row, registry.row? opcode = some row ∧ row.plan = plan ∧
      row.descriptor.layout = layout.id ∧ row.descriptor.schema = schema.id := by
  obtain ⟨row, hm, rfl, hp, hl, hs⟩ := hb.row
  exact ⟨row, find?_key h.opcodes hm, hp, hl, hs⟩

theorem plan?_eq (hb : registry.Binding opcode layout schema plan) (h : registry.Sound) :
    registry.plan? opcode = some plan := by
  obtain ⟨row, hr, hp, -⟩ := hb.row?_eq h
  rw [plan?, hr, Option.map_some, hp]

theorem descriptor?_eq (hb : registry.Binding opcode layout schema plan) (h : registry.Sound) :
    ∃ descriptor, registry.descriptor? opcode = some descriptor ∧
      descriptor.layout = layout.id ∧ descriptor.schema = schema.id := by
  obtain ⟨row, hr, -, hl, hs⟩ := hb.row?_eq h
  exact ⟨row.descriptor, by rw [descriptor?, hr, Option.map_some], hl, hs⟩

theorem layout?_eq (hb : registry.Binding opcode layout schema plan) (h : registry.Sound) :
    registry.layout? opcode = some layout := by
  obtain ⟨descriptor, hd, hl, -⟩ := hb.descriptor?_eq h
  simp [layout?, hd, hl, h.layouts.get?_id hb.layout_mem]

theorem schema?_eq (hb : registry.Binding opcode layout schema plan) (h : registry.Sound) :
    registry.schema? opcode = some schema := by
  obtain ⟨descriptor, hd, -, hs⟩ := hb.descriptor?_eq h
  simp [schema?, hd, hs, h.schemas.get?_id hb.schema_mem]

/-- The zero record of an opcode is a sound record of its layout. -/
theorem exists_record? (hb : registry.Binding opcode layout schema plan) (h : registry.Sound) :
    ∃ record, registry.record? opcode = some record ∧ record.Sound registry.layouts ∧
      record.layout = layout := by
  obtain ⟨descriptor, hd, hl, -⟩ := hb.descriptor?_eq h
  obtain ⟨record, ha, hsound, hlayout⟩ := Record.exists_allocate h.layouts hb.layout_mem
  exact ⟨record, by simp [record?, hd, hl, ha, Except.toOption], hsound, hlayout⟩

theorem message?_eq (hb : registry.Binding opcode layout schema plan) (h : registry.Sound) :
    registry.message? opcode = some (.blank schema) := by
  obtain ⟨descriptor, hd, -, hs⟩ := hb.descriptor?_eq h
  simp [message?, hd, hs, SchemaSet.message, h.schemas.get?_id hb.schema_mem, Except.toOption]

/-- A paired entry of the plan of an opcode. -/
theorem entry_sound (hb : registry.Binding opcode layout schema plan) {entry : Plan.Entry}
    (he : entry ∈ plan.bound) :
    ∃ field found, entry.Sound registry.descriptors layout schema field found :=
  Plan.sound_of_mem_bound hb.compiled he

end Binding

/-- An opcode with a schema has a binding. -/
theorem Sound.binding_of_schema? (h : registry.Sound) (hs : registry.schema? opcode = some schema) :
    ∃ layout plan, registry.Binding opcode layout schema plan := by
  obtain ⟨descriptor, hd, -⟩ := Option.bind_eq_some_iff.1 hs
  obtain ⟨row, hrow, -⟩ := Option.map_eq_some_iff.1 hd
  obtain ⟨layout, found, hb⟩ := h.binding_of_row? hrow
  cases (hb.schema?_eq h).symm.trans hs
  exact ⟨layout, row.plan, hb⟩

end Registry

end RecordBridge

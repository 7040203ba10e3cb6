import RecordBridge.Proofs.Record.Lists
import RecordBridge.Proofs.Registry.Coverage
import RecordBridge.Proofs.Registry.Paired
import RecordBridge.Proofs.Registry.Sound
/-!
# The bytes that a plan accounts for

A plan adds up the sizes of the record fields that it pairs. They are sizes that the
layout set has for these fields (`LayoutSet.Packs`), no field is counted twice, and a
list link never; so together with the fields that no item pairs they come to the size of
the layout (`Registry.plan_accounts`).
-/
namespace RecordBridge

/-- The packed size of a field in a set, that of the layout it embeds being known. -/
structure LayoutSet.Packs (set : LayoutSet) (kind : FieldKind) (size : Nat) : Prop where
  known : ∀ id, kind.embedded? = some id → (set.byteSize? id).isSome
  byteSize : kind.byteSize set.sizeOf = .ok size

/-- What a field of a sound set embeds has a size. -/
theorem LayoutSet.Sound.packs {set : LayoutSet} (h : set.Sound) {layout : Layout}
    (hl : layout ∈ set.layouts) {field : Layout.Field} (hf : field ∈ layout.fields) :
    set.Packs field.kind (field.kind.packedSize set.sizeOf) := by
  refine ⟨fun id hid => ?_, h.byteSize_field hl hf⟩
  have hkind := (h.fields layout hl).kinds field hf
  have hfound : (Layout.find? set.layouts id).isSome := by
    rcases FieldKind.embedded?_eq_some_iff.1 hid with hk | ⟨count, hk⟩
    · rw [hk] at hkind
      exact hkind
    · rw [hk] at hkind
      exact hkind.1
  obtain ⟨inside, hm, rfl⟩ := Layout.isSome_find?_iff.1 hfound
  rw [(h.byteSize?_eq hm).1, Option.isSome_some]

namespace Registry

variable {registry : Registry} {opcode : UInt16} {layout : Layout} {schema : Schema} {plan : Plan}

namespace Binding

/-- A plan pairs no field with the link of its own layout. -/
theorem linkIndex?_ne (hb : registry.Binding opcode layout schema plan)
    {entry : Plan.Entry} (he : entry ∈ plan.bound) :
    layout.linkIndex? ≠ some entry.recordIndex := by
  intro hlink
  obtain ⟨field, found, hentry⟩ := hb.entry_sound he
  obtain ⟨held, hheld, hkind⟩ := Record.linkIndex?_eq_some hlink
  have hpairs := hentry.pairs
  rw [hentry.record] at hheld
  cases hheld
  rw [hkind] at hpairs
  generalize entry.action = action at hpairs
  cases hpairs with
  | scalar selected => cases (Coercion.select_eq_ok_iff.1 selected).1
  | list other => exact other rfl

/-- The item of a message field skips it, or pairs it with the record field of its name. -/
theorem item_of_getElem? (hb : registry.Binding opcode layout schema plan)
    (h : registry.Sound) {index : Nat} {field : Schema.Field}
    (hf : schema.fields[index]? = some field) :
    (∃ reason, plan.items[index]? = some (.skip field.name reason)) ∨
    ∃ entry found, plan.items[index]? = some (.bind entry) ∧ entry.messageIndex = index ∧
      layout.fields[entry.recordIndex]? = some found ∧ found.name = field.name ∧
      registry.layouts.Packs found.kind entry.size := by
  obtain ⟨made, hmade, hitem⟩ := (Plan.made_of_compile hb.compiled).items index field hf
  cases made with
  | skip name reason =>
    rw [Plan.name_of_item_skip hitem] at hmade
    exact .inl ⟨reason, hmade⟩
  | bind entry =>
    obtain ⟨hindex, found, hentry, hsize⟩ := Plan.sound_of_item hf hitem
    have hpacks := h.layouts.packs hb.layout_mem (List.mem_of_getElem? hentry.record)
    exact .inr ⟨entry, found, hmade, hindex, hentry.record, hentry.name, hsize ▸ hpacks⟩

end Binding

/-- The plan of an opcode has one item for each message field, in order, and pairs it, if
at all, with the record field of its name. It pairs no record field twice, and never the
link of its own layout. The bytes that it accounts for are those of the paired fields, so
they and those of the other record fields come to the size of the layout. -/
theorem plan_accounts {layouts : List Layout} {schemas : List Schema}
    {descriptors : List Descriptor} (hreg : ofLists layouts schemas descriptors = .ok registry)
    (hp : registry.plan? opcode = some plan) (hl : registry.layout? opcode = some layout)
    (hs : registry.schema? opcode = some schema) :
    plan.items.length = schema.fields.length ∧
    (∀ (index : Nat) field, schema.fields[index]? = some field →
      (∃ reason, plan.items[index]? = some (.skip field.name reason)) ∨
      ∃ entry found, plan.items[index]? = some (.bind entry) ∧ entry.messageIndex = index ∧
        layout.fields[entry.recordIndex]? = some found ∧ found.name = field.name ∧
        registry.layouts.Packs found.kind entry.size) ∧
    (plan.bound.map (·.recordIndex)).Nodup ∧
    (∀ entry ∈ plan.bound, layout.linkIndex? ≠ some entry.recordIndex) ∧
    ∃ size, registry.layouts.byteSize? layout.id = some size ∧
      plan.occupied +
        ((plan.unpaired layout).map (layout.sizeAt registry.layouts.sizeOf)).sum = size ∧
      plan.occupied ≤ size := by
  have h := sound_of_ofLists hreg
  obtain ⟨found, made, hb⟩ := h.binding_of_schema? hs
  cases (hb.plan?_eq h).symm.trans hp
  cases (hb.layout?_eq h).symm.trans hl
  have hmade := Plan.made_of_compile hb.compiled
  have hnames := (h.schemas.fields schema hb.schema_mem).names
  exact ⟨hmade.length, fun index field hf => hb.item_of_getElem? h hf,
    hmade.nodup_recordIndex hnames, fun entry he => hb.linkIndex?_ne he, _,
    (h.layouts.byteSize?_eq hb.layout_mem).1, hmade.occupied_add_unpaired hnames,
    hmade.occupied_le hnames⟩

/-! ### Wagons of crates -/

def wagonLayouts : List Layout :=
  [⟨"crate", [⟨"weight", .int 2 false⟩, ⟨"next", .list "crate"⟩]⟩,
    ⟨"wagon", [⟨"number", .int 4 false⟩, ⟨"load", .array "crate" 3⟩, ⟨"label", .fixedText 6⟩,
      ⟨"waiting", .list "crate"⟩]⟩]

def wagonSchemas : List Schema :=
  [⟨"Crate", [⟨"next", 1, .repeated "Crate"⟩, ⟨"weight", 2, .int32⟩]⟩,
    ⟨"Wagon", [⟨"waiting", 1, .repeated "Crate"⟩, ⟨"label", 2, .int32⟩, ⟨"owner", 3, .string⟩,
      ⟨"load", 4, .repeated "Crate"⟩]⟩]

def wagonPlan : Plan :=
  ⟨[.bind ⟨0, 3, .list 2 0, 8⟩, .skip "label" .typeMismatch, .skip "owner" .missingField,
    .bind ⟨3, 1, .array 2 3 3, 30⟩]⟩

/-- Opcode 1 carries wagons, without their number and label. -/
def wagonRegistry : Registry where
  layouts := ⟨wagonLayouts, wagonLayouts.reverse, [("wagon", 48), ("crate", 10)], by decide⟩
  schemas := ⟨wagonSchemas⟩
  rows := [⟨⟨1, "wagon", "Wagon", none⟩, wagonPlan⟩,
    ⟨⟨2, "crate", "Crate", none⟩,
      ⟨[.skip "next" .ownLink, .bind ⟨1, 0, .scalar (.int 2 false), 2⟩]⟩⟩]

/-- The list and the array of a wagon take 38 of its 48 bytes, its number and label the rest. -/
theorem plan_accounts_wagon :
    ofLists wagonLayouts wagonSchemas [⟨1, "wagon", "Wagon", none⟩, ⟨2, "crate", "Crate", none⟩] =
      .ok wagonRegistry ∧
    wagonRegistry.plan? 1 = some wagonPlan ∧ wagonPlan.occupied = 38 ∧
    ∃ layout schema, wagonRegistry.layout? 1 = some layout ∧
      wagonRegistry.schema? 1 = some schema ∧
      wagonPlan.items.length = schema.fields.length ∧
      wagonPlan.unpaired layout = [0, 2] ∧
      ∃ size, wagonRegistry.layouts.byteSize? layout.id = some size ∧ size = 48 ∧
        wagonPlan.occupied +
          ((wagonPlan.unpaired layout).map (layout.sizeAt wagonRegistry.layouts.sizeOf)).sum =
            size := by
  have hreg : ofLists wagonLayouts wagonSchemas
      [⟨1, "wagon", "Wagon", none⟩, ⟨2, "crate", "Crate", none⟩] = .ok wagonRegistry := by cbv
  have hp : wagonRegistry.plan? 1 = some wagonPlan := rfl
  have hl : wagonRegistry.layout? 1 = some _ := rfl
  have hs : wagonRegistry.schema? 1 = some _ := rfl
  obtain ⟨hlength, -, -, -, size, hsize, hsum, -⟩ := plan_accounts hreg hp hl hs
  have hwhole : wagonRegistry.layouts.byteSize? "wagon" = some 48 := by decide
  have hall : size = 48 := Option.some.inj (hsize.symm.trans hwhole)
  exact ⟨hreg, hp, by decide, _, _, hl, hs, hlength, by decide, size, hsize, hall, hsum⟩

end Registry

end RecordBridge

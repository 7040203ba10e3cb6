import RecordBridge.Proofs.Codec.Outcome
import RecordBridge.Proofs.Record.Parts
/-!
# What a round trip keeps of a record

A record that was sent comes back as its normal form (`Record.norm`): paired
scalars as they are carried, what lies inside in normal form again, and zeros in
the fields that no message field is paired with. The recursion is on the size of
the record, as the nodes of a list are no parts of one another's slots;
`norm_eq` is free of it.
-/
namespace RecordBridge

/-! ## The normal form -/

/-- The slot with every part converted. -/
def Slot.mapParts : (slot : Slot) → ((part : Record) → part ∈ slot.parts → Record) → Slot
  | .record child, convert => .record (convert child (List.mem_singleton.2 rfl))
  | .array elements, convert => .array (elements.attach.map fun part => convert part.1 part.2)
  | .link head, convert => .link (Record.linkUp
      ((Record.nodesOf (.link head)).attach.map fun part => convert part.1 part.2))
  | slot, _ => slot

namespace Record

/-- What comes back of a record that was sent by the plan of an opcode. -/
def norm (registry : Registry) (opcode : UInt16) (record : Record) : Record :=
  match registry.plan? opcode, registry.record? opcode with
  | some plan, some zero =>
    plan.bound.foldl (fun made entry =>
      match _ : record.slot? entry.recordIndex, entry.action.inner? with
      | some slot, some inner =>
        made.put entry.recordIndex (slot.mapParts fun part _ => norm registry inner part)
      | some slot, none => made.put entry.recordIndex slot.carried
      | none, _ => made) zero
  | _, _ => record
termination_by sizeOf record
decreasing_by exact sizeOf_lt_of_slot? ‹_› ‹_›

variable {registry : Registry} {opcode inner : UInt16}

end Record

/-- A slot as it comes back by an action. -/
def Slot.norm (registry : Registry) (action : Plan.Action) (slot : Slot) : Slot :=
  match action.inner? with
  | some inner => slot.mapParts fun part _ => part.norm registry inner
  | none => slot.carried

theorem Slot.norm_array (registry : Registry) (inner : UInt16) (count target : Nat)
    (elements : List Record) : (Slot.array elements).norm registry (.array inner count target) =
      .array (elements.map (Record.norm registry inner)) := by
  simp [Slot.norm, Plan.Action.inner?, Slot.mapParts]

theorem Slot.norm_list (registry : Registry) (inner : UInt16) (target : Nat)
    (head : Option Record) : (Slot.link head).norm registry (.list inner target) =
      .link (Record.linkUp ((Record.nodesOf (.link head)).map (Record.norm registry inner))) := by
  simp [Slot.norm, Plan.Action.inner?, Slot.mapParts]

namespace Record

/-- Fills in the field of an entry as it comes back of a record. -/
def restore (registry : Registry) (record made : Record) (entry : Plan.Entry) : Record :=
  match record.slot? entry.recordIndex with
  | some slot => made.put entry.recordIndex (slot.norm registry entry.action)
  | none => made

/-- A normal form is a zero record with the paired fields filled in. -/
theorem norm_eq {plan : Plan} {zero : Record} (hp : registry.plan? opcode = some plan)
    (hz : registry.record? opcode = some zero) (record : Record) :
    record.norm registry opcode = plan.bound.foldl (record.restore registry) zero := by
  rw [norm, hp, hz]
  dsimp only
  congr 1
  funext made entry
  split
  · next slot inner hs hi => simp only [restore, hs, Slot.norm, hi]
  · next slot hs hi => simp only [restore, hs, Slot.norm, hi]
  · next hs => simp only [restore, hs]

theorem layout_restore (record made : Record) (entry : Plan.Entry) :
    (record.restore registry made entry).layout = made.layout := by
  unfold restore
  split <;> rfl

theorem layout_foldl_restore (record : Record) : ∀ (entries : List Plan.Entry) (made : Record),
    (entries.foldl (record.restore registry) made).layout = made.layout
  | [], made => rfl
  | entry :: rest, made => by
    rw [List.foldl_cons, layout_foldl_restore record rest, layout_restore]

theorem layout_norm (h : registry.Sound) {layout : Layout} {schema : Schema} {plan : Plan}
    (hb : registry.Binding opcode layout schema plan) (record : Record) :
    (record.norm registry opcode).layout = layout := by
  obtain ⟨zero, hz, -, rfl⟩ := hb.exists_record? h
  rw [norm_eq (hb.plan?_eq h) hz, layout_foldl_restore]

variable {record : Record}

theorem slot?_foldl_restore_of_unbound {index : Nat} : ∀ {entries : List Plan.Entry}
    {made : Record}, (∀ entry ∈ entries, entry.recordIndex ≠ index) →
    (entries.foldl (record.restore registry) made).slot? index = made.slot? index
  | [], _, _ => rfl
  | entry :: rest, made, h => by
    obtain ⟨hentry, hrest⟩ := List.forall_mem_cons.1 h
    rw [List.foldl_cons, slot?_foldl_restore_of_unbound hrest, restore]
    split
    · exact List.getElem?_set_ne hentry
    · rfl

theorem length_restore (made : Record) (entry : Plan.Entry) :
    (record.restore registry made entry).slots.length = made.slots.length := by
  unfold restore
  split <;> simp

theorem length_foldl_restore : ∀ (entries : List Plan.Entry) (made : Record),
    (entries.foldl (record.restore registry) made).slots.length = made.slots.length
  | [], made => rfl
  | entry :: rest, made => by
    rw [List.foldl_cons, length_foldl_restore rest, length_restore]

/-- Normal forms have a slot for every field. -/
theorem length_norm (h : registry.Sound) {layout : Layout} {schema : Schema} {plan : Plan}
    (hb : registry.Binding opcode layout schema plan) :
    (record.norm registry opcode).slots.length = layout.fields.length := by
  obtain ⟨zero, hz, hzero, rfl⟩ := hb.exists_record? h
  rw [norm_eq (hb.plan?_eq h) hz, length_foldl_restore, hzero.fits.length]

theorem slot?_foldl_restore {slot : Slot} {entry : Plan.Entry}
    (hs : record.slot? entry.recordIndex = some slot) : ∀ {entries : List Plan.Entry}
    {made : Record}, (entries.map (·.recordIndex)).Nodup → entry ∈ entries →
    entry.recordIndex < made.slots.length →
    (entries.foldl (record.restore registry) made).slot? entry.recordIndex =
      some (slot.norm registry entry.action)
  | first :: rest, made, hnodup, he, hlen => by
    obtain ⟨hother, hnodup⟩ := List.nodup_cons.1 hnodup
    rw [List.foldl_cons]
    rcases List.mem_cons.1 he with rfl | he
    · have hrest : ∀ other ∈ rest, other.recordIndex ≠ entry.recordIndex :=
        fun other hm hk => hother (List.mem_map.2 ⟨other, hm, hk⟩)
      rw [slot?_foldl_restore_of_unbound hrest, restore, hs]
      simp [slot?, hlen]
    · exact slot?_foldl_restore hs hnodup he (by rwa [length_restore])

/-- A field with an entry holds its slot as it comes back. -/
theorem slot?_norm (h : registry.Sound) {schema : Schema} {plan : Plan}
    (hb : registry.Binding opcode record.layout schema plan) (hr : record.Sound registry.layouts)
    {entry : Plan.Entry} (he : entry ∈ plan.bound) :
    ∃ slot, record.slot? entry.recordIndex = some slot ∧
      (record.norm registry opcode).slot? entry.recordIndex =
        some (slot.norm registry entry.action) := by
  obtain ⟨zero, hz, hzero, hlayout⟩ := hb.exists_record? h
  obtain ⟨field, found, hentry⟩ := hb.entry_sound he
  obtain ⟨slot, hs, -⟩ := hr.exists_slot hentry.record
  have hlen : entry.recordIndex < zero.slots.length := by
    rw [hzero.fits.length, hlayout]
    exact (List.getElem?_eq_some_iff.1 hentry.record).1
  refine ⟨slot, hs, ?_⟩
  rw [norm_eq (hb.plan?_eq h) hz]
  exact slot?_foldl_restore hs
    (Plan.nodup_recordIndex hb.compiled (h.schemas.fields schema hb.schema_mem).names) he hlen

/-- Normal forms by the carrier of a layout are of that layout. -/
theorem layout_norm_of_carrier? (h : registry.Sound) {id : LayoutId} {found : Descriptor}
    (hc : Descriptor.carrier? registry.descriptors id = some found) (record : Record) :
    (record.norm registry found.opcode).layout ∈ registry.layouts.layouts ∧
      (record.norm registry found.opcode).layoutId = id := by
  obtain ⟨layout, schema, plan, hb, hid, -⟩ := h.binding_of_carrier? hc
  have hlayout := layout_norm h hb record
  exact ⟨hlayout ▸ hb.layout_mem, by rw [layoutId, hlayout, hid]⟩

end Record

end RecordBridge

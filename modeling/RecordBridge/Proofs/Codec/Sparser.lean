import RecordBridge.Proofs.Codec.Explicit
import RecordBridge.Proofs.Codec.Levels
import RecordBridge.Proofs.Registry.Conversion
/-!
# Records of messages that spell out more

Where a message that spells out more is converted, so is the message
(`Walk.succeeds_of_explicit`), and what the two are converted to is the same but in one
place (`Record.SparserWhere`): an element of an array that the message lacks, and the other
one holds, stays a zero record, whose texts are null where those of the element are empty
(`Record.Sparser`). So texts differ only inside such elements (`Codec.fromMessage_explicit`);
those inside elements that both messages hold do not, nor do those of an embedded message
that is left out, since that is read as a blank one.
-/
namespace RecordBridge

/-! ## Null and empty texts -/

/-- A slot is the same as another one, but for texts, at any depth, that are null in it and
empty in the other. -/
inductive Slot.Sparser : Slot → Slot → Prop where
  | refl (slot : Slot) : Slot.Sparser slot slot
  | text : Slot.Sparser (.text none) (.text (some ""))
  | record {layout : Layout} {slots others : List Slot} (length : slots.length = others.length)
      (each : ∀ (index : Nat) slot other, slots[index]? = some slot →
        others[index]? = some other → Slot.Sparser slot other) :
      Slot.Sparser (.record (.mk layout slots)) (.record (.mk layout others))
  | array {elements others : List Record} (length : elements.length = others.length)
      (each : ∀ (index : Nat) element other, elements[index]? = some element →
        others[index]? = some other → Slot.Sparser (.record element) (.record other)) :
      Slot.Sparser (.array elements) (.array others)

/-- A record is the same as another one, but for texts, at any depth, that are null in it and
empty in the other. -/
def Record.Sparser (first second : Record) : Prop := Slot.Sparser (.record first) (.record second)

theorem Record.sparser_of_slots {first second : Record} (hlayout : first.layout = second.layout)
    (hlength : first.slots.length = second.slots.length)
    (heach : ∀ (index : Nat) slot other, first.slot? index = some slot →
      second.slot? index = some other → slot.Sparser other) : first.Sparser second := by
  obtain ⟨layout, slots⟩ := first
  obtain ⟨other, others⟩ := second
  cases hlayout
  exact .record hlength heach

/-! ## Where they may differ -/

mutual

/-- The record of a message is the same as that of another one, but inside the elements of
arrays that only the other message holds. -/
inductive Record.SparserWhere (registry : Registry) :
    UInt16 → Message → Message → Record → Record → Prop where
  | mk {opcode : UInt16} {plan : Plan} {first second : Message} {record other : Record}
      (plan_eq : registry.plan? opcode = some plan) (layout : record.layout = other.layout)
      (length : record.slots.length = other.slots.length)
      (unpaired : ∀ index, (∀ entry ∈ plan.bound, entry.recordIndex ≠ index) →
        record.slot? index = other.slot? index)
      (paired : ∀ entry ∈ plan.bound, ∀ slot given, record.slot? entry.recordIndex = some slot →
        other.slot? entry.recordIndex = some given →
        Slot.SparserWhere registry entry first second entry.action slot given) :
      Record.SparserWhere registry opcode first second record other

/-- What an entry carries of a message is the same as what it carries of another one, but
inside the elements of arrays that only the other message holds: the first record has zero
records there. -/
inductive Slot.SparserWhere (registry : Registry) :
    Plan.Entry → Message → Message → Plan.Action → Slot → Slot → Prop where
  | scalar {entry : Plan.Entry} {first second : Message} (coercion : Coercion) (slot : Slot) :
      Slot.SparserWhere registry entry first second (.scalar coercion) slot slot
  | nested {entry : Plan.Entry} {first second child next : Message} {inner : UInt16}
      {part given : Record}
      (child_eq : (first.messageAt? entry.messageIndex).or (registry.message? inner) = some child)
      (next_eq : (second.messageAt? entry.messageIndex).or (registry.message? inner) = some next)
      (sparser : Record.SparserWhere registry inner child next part given) :
      Slot.SparserWhere registry entry first second (.nested inner) (.record part) (.record given)
  | array {entry : Plan.Entry} {first second : Message} {inner : UInt16} {count target : Nat}
      {elements others : List Record} (length : elements.length = others.length)
      (held : ∀ (index : Nat) source next element other,
        (first.elementsAt target)[index]? = some source →
        (second.elementsAt target)[index]? = some next →
        elements[index]? = some element → others[index]? = some other →
        Record.SparserWhere registry inner source next element other)
      (lacked : ∀ (index : Nat) next element other,
        (first.elementsAt target)[index]? = none →
        (second.elementsAt target)[index]? = some next →
        elements[index]? = some element → others[index]? = some other →
        registry.record? inner = some element ∧ element.Sparser other)
      (missing : ∀ (index : Nat) element other, (second.elementsAt target)[index]? = none →
        elements[index]? = some element → others[index]? = some other → element = other) :
      Slot.SparserWhere registry entry first second (.array inner count target)
        (.array elements) (.array others)
  | list {entry : Plan.Entry} {first second : Message} {inner : UInt16} {target : Nat}
      {made others : List Record} (length : made.length = (first.elementsAt target).length)
      (same : others.length = (second.elementsAt target).length)
      (alike : made.length = others.length)
      (nodes : ∀ (index : Nat) source next node other,
        (first.elementsAt target)[index]? = some source →
        (second.elementsAt target)[index]? = some next →
        made[index]? = some node → others[index]? = some other →
        Record.SparserWhere registry inner source next node other) :
      Slot.SparserWhere registry entry first second (.list inner target)
        (.link (Record.linkUp made)) (.link (Record.linkUp others))

end

variable {registry : Registry} {limits : CodecLimits} {opcode inner : UInt16} {layout : Layout}
  {schema : Schema} {plan : Plan} {entry : Plan.Entry} {message changed : Message}
  {made other zero : Record} {reports : List Diagnostic} {levels : Nat}

theorem exists_of_forall₂ {R : α → β → Prop} {xs : List α} {ys : List β}
    (h : List.Forall₂ R xs ys) {index : Nat} {x : α} (hx : xs[index]? = some x) :
    ∃ y, ys[index]? = some y ∧ R x y := by
  obtain ⟨hi, rfl⟩ := List.getElem?_eq_some_iff.1 hx
  have hj : index < ys.length := h.length_eq ▸ hi
  exact ⟨ys[index], List.getElem?_eq_getElem hj, h.get hi hj⟩

namespace Walk

/-! ## What a walk leaves in a record -/

/-- A walk that ended has filled the zero record of its opcode. -/
theorem fillItems_of_run (h : registry.Sound) (hb : registry.Binding opcode layout schema plan)
    {levels : Nat} (hrun : run .toRecord registry limits (levels + 1) opcode message =
      ⟨reports, .ok made⟩) :
    ∃ zero, registry.record? opcode = some zero ∧
      fillItems (carry .toRecord registry limits (run .toRecord registry limits levels) opcode
        message) opcode plan.items zero = ⟨made, reports, none⟩ := by
  obtain ⟨zero, hzero, hfill⟩ := run_eq_ok_iff.1 hrun
  rw [fill_succ levels message zero (hb.plan?_eq h)] at hfill
  exact ⟨zero, hzero, hfill⟩

theorem slot?_of_run_of_ne (h : registry.Sound) (hb : registry.Binding opcode layout schema plan)
    (hzero : registry.record? opcode = some zero) {levels : Nat}
    (hrun : run .toRecord registry limits (levels + 1) opcode message = ⟨reports, .ok made⟩)
    {index : Nat} (hne : ∀ entry ∈ plan.bound, entry.recordIndex ≠ index) :
    made.slot? index = zero.slot? index := by
  obtain ⟨fresh, hfresh, hfill⟩ := fillItems_of_run h hb hrun
  cases hzero.symm.trans hfresh
  exact slot?_fillItems_of_ne hfill hne

/-- A scalar that was carried is in its slot. -/
theorem slot_of_run_scalar (h : registry.Sound) (hb : registry.Binding opcode layout schema plan)
    (he : entry ∈ plan.bound) {coercion : Coercion} (ha : entry.action = .scalar coercion)
    {levels : Nat}
    (hrun : run .toRecord registry limits (levels + 1) opcode message = ⟨reports, .ok made⟩)
    {slot held : Slot} (hslot : made.slot? entry.recordIndex = some slot)
    (hheld : coercion.toSlot? (message.value? entry.messageIndex) = some held) : slot = held := by
  obtain ⟨zero, hzero, hfill⟩ := fillItems_of_run h hb hrun
  obtain ⟨before, next, first, hbefore, hstep, hread⟩ := exists_visit_slot? h hb hfill entry he
  obtain ⟨_, hfresh, -, hlayout⟩ := hb.exists_record? h
  cases hzero.symm.trans hfresh
  obtain ⟨field, found, hentry⟩ := hb.entry_sound he
  obtain ⟨hk, -⟩ := Coercion.select_eq_ok_iff.1 (hentry.scalar ha)
  rw [carry_scalar ha] at hstep
  simp only [Direction.toRecord, hheld, ofExcept, Walk.mk.injEq] at hstep
  obtain ⟨field, hf, -, rfl⟩ := Record.setSlot_eq_ok_iff.1 (mapError_eq_ok.1 hstep.2)
  rw [hbefore, hlayout, hentry.record] at hf
  cases hf
  rw [Coercion.stored_toSlot? hk hheld] at hread
  exact (Record.eq_of_slot?_put (hread.symm.trans hslot)).symm

/-- What was converted inside a field is in its slot. -/
theorem fills_of_run (h : registry.Sound) (hb : registry.Binding opcode layout schema plan)
    (he : entry ∈ plan.bound) (ha : entry.action.inner? = some inner) {levels : Nat}
    (hrun : run .toRecord registry limits (levels + 1) opcode message = ⟨reports, .ok made⟩)
    {slot : Slot} (hslot : made.slot? entry.recordIndex = some slot) :
    Fills registry (run .toRecord registry limits levels) entry message entry.action slot := by
  obtain ⟨zero, hzero, hfill⟩ := fillItems_of_run h hb hrun
  obtain ⟨before, next, first, -, hstep, hread⟩ := exists_visit_slot? h hb hfill entry he
  exact fills_of_carry h hb he ha hstep (hread.symm.trans hslot)

/-- The zero record of an opcode is that of the layout that it carries. -/
theorem record?_eq_some_iff (h : registry.Sound) (hb : registry.Binding opcode layout schema plan)
    {zero : Record} :
    registry.record? opcode = some zero ↔ registry.layouts.allocate layout.id = .ok zero := by
  obtain ⟨descriptor, hd, hl, -⟩ := hb.descriptor?_eq h
  unfold Registry.record?
  simp only [hd, hl, Option.bind_eq_bind, Option.bind_some]
  cases registry.layouts.allocate layout.id <;> simp [Except.toOption]

/-- The zero slot of a field is sparser than the slot that it has when unset. -/
theorem exists_toSlot?_none {kind : FieldKind} {coercion : Coercion}
    (hk : Coercion.ofKind? kind = .ok (some coercion)) {zero : LayoutId → Except LayoutError Record}
    {slot : Slot} (hz : Slot.zero zero kind = .ok slot) :
    ∃ held, coercion.toSlot? none = some held ∧ slot.Sparser (held.stored kind) := by
  cases kind with
  | int width signed =>
    simp only [Coercion.ofKind?] at hk
    split at hk
    · cases hk
      cases hz
      exact ⟨.int 0, rfl, by rw [Slot.stored, wrapInt_zero]; exact .refl _⟩
    · cases hk
  | bool | fixedText =>
    cases hk
    cases hz
    exact ⟨_, rfl, .refl _⟩
  | textRows =>
    obtain ⟨size, hsize, hk⟩ := bind_eq_ok.1 hk
    obtain ⟨same, hsame, hz⟩ := bind_eq_ok.1 hz
    cases hsize.symm.trans hsame
    cases hk
    cases hz
    exact ⟨_, rfl, .refl _⟩
  | ownedText =>
    cases hk
    cases hz
    exact ⟨_, rfl, .text⟩
  | nested | array | list => cases hk

/-- A result, with what was reported on the way. -/
theorem eq_of_result {walk : Walk α} {value : α} (h : walk.result = .ok value) :
    walk = ⟨walk.reports, .ok value⟩ := by
  rw [← h]

theorem result_run_zero_ne :
    (run .toRecord registry limits 0 opcode message).result ≠ .ok made := by
  intro h
  obtain ⟨output, -, hfill⟩ := run_eq_ok_iff.1 (eq_of_result h)
  exact Option.some_ne_none _ (congrArg Filled.fault hfill)

end Walk

namespace Walk

/-! ## Elements that the first message lacks -/

/-- The elements of an array are those that were converted, and zero records after them. -/
theorem getElem?_filled {elements : List Message} {count : Nat} {made : List Record}
    (hmade : List.Forall₂ (fun source part => (run .toRecord registry limits levels inner
      source).result = .ok part) (elements.take count) made) {index : Nat} {element : Record}
    (h : (made ++ .replicate (count - made.length) zero)[index]? = some element) :
    (∃ source, elements[index]? = some source ∧ index < count ∧
      (run .toRecord registry limits levels inner source).result = .ok element) ∨
    elements[index]? = none ∧ element = zero := by
  have hlength := hmade.length_eq
  rw [List.length_take] at hlength
  by_cases hi : index < made.length
  · rw [List.getElem?_append_left hi] at h
    obtain ⟨source, hsource, hrun⟩ := exists_of_forall₂ hmade.flip h
    rw [List.getElem?_take_of_lt (by omega)] at hsource
    exact .inl ⟨source, hsource, by omega, hrun⟩
  · obtain ⟨hlt, -⟩ := List.getElem?_eq_some_iff.1 h
    rw [List.length_append, List.length_replicate] at hlt
    rw [List.getElem?_append_right (by omega)] at h
    exact .inr ⟨List.getElem?_eq_none (by omega),
      (List.mem_replicate.1 (List.mem_of_getElem? h)).2⟩

/-- A zero slot, and the one that an entry leaves of what is read as an unset field. -/
theorem sparser_scalar (h : registry.Sound) (hb : registry.Binding opcode layout schema plan)
    (he : entry ∈ plan.bound) {coercion : Coercion} (ha : entry.action = .scalar coercion)
    {field : Schema.Field} {found : Layout.Field}
    (hentry : entry.Sound registry.descriptors layout schema field found)
    (hread : coercion.toSlot? (message.value? entry.messageIndex) = coercion.toSlot? none)
    (hrun : run .toRecord registry limits (levels + 1) opcode message = ⟨reports, .ok made⟩)
    {slot given : Slot} (hkind : Slot.zero registry.layouts.allocate found.kind = .ok slot)
    (hgiven : made.slot? entry.recordIndex = some given) : slot.Sparser given := by
  obtain ⟨hk, -⟩ := Coercion.select_eq_ok_iff.1 (hentry.scalar ha)
  obtain ⟨unset, hunset, hsparser⟩ := exists_toSlot?_none hk hkind
  rw [Coercion.stored_toSlot? hk hunset] at hsparser
  rw [hunset] at hread
  cases slot_of_run_scalar h hb he ha hrun hgiven hread
  exact hsparser

section
variable (hlevel : ∀ {opcode : UInt16} {layout : Layout} {schema : Schema} {plan : Plan}
  {message : Message} {zero made : Record}, registry.Binding opcode layout schema plan →
  (Message.blank schema).Explicit registry opcode message → registry.record? opcode = some zero →
  (run .toRecord registry limits levels opcode message).result = .ok made → zero.Sparser made)
include hlevel

/-- An array of zero records, and one with what elements are converted to that spell out
more of blank ones. -/
theorem sparser_array (hinner : registry.Binding inner layout schema plan)
    {count target added : Nat} (hzero : registry.record? inner = some zero)
    (hall : List.Forall₂ (Message.Explicit registry inner) (.replicate added (.blank schema))
      (message.elementsAt target))
    {slot : Slot} (hfills : Fills registry (run .toRecord registry limits levels) entry message
      (.array inner count target) slot) :
    (Slot.array (.replicate count zero)).Sparser slot := by
  cases hfills with
  | @array _ _ _ _ elements _ hfresh hconverted =>
    cases hzero.symm.trans hfresh
    have hmade := (result_of_each hconverted).1
    have hlength := hmade.length_eq
    rw [List.length_take] at hlength
    refine .array (by simp; omega) fun index element other helement hother => ?_
    rw [(List.mem_replicate.1 (List.mem_of_getElem? helement)).2]
    rcases getElem?_filled hmade hother with ⟨source, hsource, -, hconverted⟩ | ⟨-, rfl⟩
    · obtain ⟨start, hstart, hex⟩ := exists_of_forall₂ hall.flip hsource
      rw [(List.mem_replicate.1 (List.mem_of_getElem? hstart)).2] at hex
      exact hlevel hinner hex hzero hconverted
    · exact .refl _

/-- A zero record, and what a message is converted to that spells out more of the blank one. -/
theorem sparser_nested (hinner : registry.Binding inner layout schema plan) {next : Message}
    (hzero : registry.record? inner = some zero)
    (hex : (Message.blank schema).Explicit registry inner next)
    (hnext : (message.messageAt? entry.messageIndex).or (registry.message? inner) = some next)
    {slot : Slot} (hfills : Fills registry (run .toRecord registry limits levels) entry message
      (.nested inner) slot) : (Slot.record zero).Sparser slot := by
  cases hfills with
  | nested hsame hconverted =>
    cases hnext.symm.trans hsame
    exact hlevel hinner hex hzero (by rw [hconverted])

/-- What an entry leaves of a message that spells out more of a blank one, and the zero slot
of its field. -/
theorem sparser_of_entry (h : registry.Sound) (hb : registry.Binding opcode layout schema plan)
    (he : entry ∈ plan.bound) {field : Schema.Field} {found : Layout.Field}
    (hentry : entry.Sound registry.descriptors layout schema field found)
    (hexpands : entry.Expands registry (.blank schema) message)
    (hrun : run .toRecord registry limits (levels + 1) opcode message = ⟨reports, .ok made⟩)
    {slot given : Slot} (hkind : Slot.zero registry.layouts.allocate found.kind = .ok slot)
    (hgiven : made.slot? entry.recordIndex = some given) : slot.Sparser given := by
  unfold Plan.Entry.Expands at hexpands
  cases ha : entry.action with
  | scalar coercion =>
    simp only [ha, Message.value?_blank] at hexpands
    exact sparser_scalar h hb he ha hentry hexpands.symm hrun hkind hgiven
  | nested inner =>
    obtain ⟨id, carrier, hk, hcarrier, rfl, -⟩ := hentry.nested ha
    obtain ⟨_, innerSchema, _, hinner, rfl, -⟩ := h.binding_of_carrier? hcarrier
    simp only [ha, Message.messageAt?_blank, Option.none_or, hinner.message?_eq h] at hexpands
    obtain ⟨_, next, hchild, hnext, hex⟩ := hexpands
    cases hchild
    rw [← hinner.message?_eq h] at hnext
    have hfills := fills_of_run h hb he (by rw [ha]; rfl) hrun hgiven
    rw [ha] at hfills
    rw [hk] at hkind
    obtain ⟨innerZero, hallocate, hkind⟩ := bind_eq_ok.1 hkind
    cases hkind
    exact sparser_nested hlevel hinner ((record?_eq_some_iff h hinner).2 hallocate) hex hnext hfills
  | array inner count target =>
    obtain ⟨id, size, carrier, hk, rfl, hcarrier, rfl, -⟩ := hentry.array ha
    obtain ⟨_, innerSchema, _, hinner, rfl, -⟩ := h.binding_of_carrier? hcarrier
    simp only [ha, Message.elementsAt_blank, List.nil_append, hinner.message?_eq h] at hexpands
    obtain ⟨_, added, hsame, hall⟩ := hexpands
    cases hsame
    have hfills := fills_of_run h hb he (by rw [ha]; rfl) hrun hgiven
    rw [ha] at hfills
    rw [hk] at hkind
    obtain ⟨innerZero, hallocate, hkind⟩ := bind_eq_ok.1 hkind
    cases hkind
    exact sparser_array hlevel hinner ((record?_eq_some_iff h hinner).2 hallocate) hall hfills
  | list inner target =>
    obtain ⟨id, carrier, hk, -⟩ := hentry.list ha
    have hfills := fills_of_run h hb he (by rw [ha]; rfl) hrun hgiven
    rw [ha] at hfills
    rw [hk] at hkind
    cases hkind
    simp only [ha, Message.elementsAt_blank] at hexpands
    cases hfills with
    | list hconverted =>
      -- nothing was added to the list, so it has no nodes
      have hlength := (length_each hconverted).trans hexpands.length_eq.symm
      rw [List.eq_nil_of_length_eq_zero hlength]
      exact .refl _

end

/-- What a message that spells out more of a blank one is converted to has empty texts
where the zero record has null ones, and is the same otherwise. -/
theorem sparser_of_run_blank (h : registry.Sound) : ∀ (levels : Nat) {opcode : UInt16}
    {layout : Layout} {schema : Schema} {plan : Plan} {message : Message} {zero made : Record},
    registry.Binding opcode layout schema plan →
    (Message.blank schema).Explicit registry opcode message →
    registry.record? opcode = some zero →
    (run .toRecord registry limits levels opcode message).result = .ok made → zero.Sparser made
  | 0, _, _, _, _, _, _, _, _, _, _, hmade => absurd hmade result_run_zero_ne
  | levels + 1, opcode, layout, schema, plan, message, zero, made, hb, hex, hzero, hmade => by
    have hrun := eq_of_result hmade
    have hblank : (Message.blank schema).Of registry opcode :=
      (hb.message_of_iff h).2 ⟨rfl, Message.sound_blank hb.schema_mem⟩
    obtain ⟨hlayout, hsound⟩ :=
      (hb.record_of_iff h).1 (of_run h (Direction.writes_toRecord h) hb hrun)
    obtain ⟨_, hfresh, hzsound, hzlayout⟩ := hb.exists_record? h
    cases hzero.symm.trans hfresh
    refine Record.sparser_of_slots (hzlayout.trans hlayout.symm)
      (by rw [hzsound.fits.length, hsound.fits.length, hzlayout, hlayout]) ?_
    intro index slot given hslot hgiven
    by_cases hpaired : ∀ entry ∈ plan.bound, entry.recordIndex ≠ index
    · rw [slot?_of_run_of_ne h hb hzero hrun hpaired, hslot] at hgiven
      cases hgiven
      exact .refl slot
    push Not at hpaired
    obtain ⟨entry, he, rfl⟩ := hpaired
    obtain ⟨field, found, hentry⟩ := hb.entry_sound he
    obtain ⟨held, hheld, hkind⟩ := Record.slot?_allocate h.layouts
      ((record?_eq_some_iff h hb).1 hzero) (hzlayout ▸ hentry.record)
    cases hslot.symm.trans hheld
    exact sparser_of_entry (sparser_of_run_blank h levels) h hb he hentry
      (hex.expands h hblank (hb.plan?_eq h) entry he) hrun hkind hgiven

end Walk

/-! ## Walks of both messages -/

namespace Message

/-- The message inside a field, or the blank one in its place, is of the opcode inside. -/
theorem Of.child (hm : message.Of registry opcode) (h : registry.Sound)
    (hb : registry.Binding opcode layout schema plan) (he : entry ∈ plan.bound)
    (ha : entry.action = .nested inner) {child : Message}
    (hchild : (message.messageAt? entry.messageIndex).or (registry.message? inner) = some child) :
    child.Of registry inner := by
  obtain ⟨_, innerSchema, _, hinner⟩ := hb.inner_binding h he
    (show entry.action.inner? = some inner by rw [ha]; rfl)
  cases hheld : message.messageAt? entry.messageIndex with
  | some held =>
    rw [hheld] at hchild
    cases hchild
    exact hm.messageAt? h hb he ha hheld
  | none =>
    rw [hheld, Option.none_or, hinner.message?_eq h] at hchild
    cases hchild
    exact (hinner.message_of_iff h).2 ⟨rfl, sound_blank hinner.schema_mem⟩

section
variable {elements others : List Message} {added : Nat} {blank source next : Message}
  (hall : List.Forall₂ (Explicit registry inner) (elements ++ .replicate added blank) others)
include hall

/-- An element is spelled out by the one in its place. -/
theorem exists_explicit {index : Nat} (hsource : elements[index]? = some source) :
    ∃ next, others[index]? = some next ∧ source.Explicit registry inner next := by
  refine exists_of_forall₂ hall ?_
  rwa [List.getElem?_append_left (List.getElem?_eq_some_iff.1 hsource).1]

/-- Elements behind the others spell out blank ones. -/
theorem explicit_of_lacked {index : Nat} (hnone : elements[index]? = none)
    (hnext : others[index]? = some next) : blank.Explicit registry inner next := by
  obtain ⟨start, hstart, hex⟩ := exists_of_forall₂ hall.flip hnext
  rw [List.getElem?_append_right (List.getElem?_eq_none_iff.1 hnone)] at hstart
  rwa [(List.mem_replicate.1 (List.mem_of_getElem? hstart)).2] at hex

end

end Message

namespace Walk

/-- What an entry goes on from is converted, if what it goes on from in a message that spells
out more is. -/
theorem succeeds_of_entry (h : registry.Sound) (hb : registry.Binding opcode layout schema plan)
    (hlevel : ∀ {opcode : UInt16} {message changed : Message}, message.Of registry opcode →
      message.Explicit registry opcode changed →
      (run .toRecord registry limits levels opcode changed).Succeeds →
      (run .toRecord registry limits levels opcode message).Succeeds)
    (hm : message.Of registry opcode) (he : entry ∈ plan.bound)
    (ha : entry.action.inner? = some inner) (hexpands : entry.Expands registry message changed)
    {slot : Slot} (hfills : Fills registry (run .toRecord registry limits levels) entry changed
      entry.action slot) :
    ∀ source ∈ entry.sources registry message,
      (run .toRecord registry limits levels inner source).Succeeds := by
  intro source hs
  have hparts := hm.elementsAt_of_carries h ⟨plan, hb.plan?_eq h, entry, he, rfl, ha⟩
  unfold Plan.Entry.Expands at hexpands
  unfold Plan.Entry.sources at hs
  unfold Plan.Entry.place at hparts
  cases hact : entry.action with
  | scalar coercion =>
    rw [hact] at ha
    cases ha
  | nested inner =>
    rw [hact] at ha hs hexpands hfills
    cases ha
    obtain ⟨child, next, hchild, hnext, hex⟩ := hexpands
    cases hchild.symm.trans (Option.mem_toList.1 hs)
    cases hfills with
    | nested hsame hconverted =>
      cases hnext.symm.trans hsame
      exact hlevel (hm.child h hb he hact hchild) hex ⟨_, by rw [hconverted]⟩
  | array inner count target =>
    rw [hact] at ha hs hexpands hfills hparts
    cases ha
    obtain ⟨blank, added, -, hall⟩ := hexpands
    obtain ⟨index, hindex⟩ := List.mem_iff_getElem?.1 hs
    have hlt : index < count := by
      have := (List.getElem?_eq_some_iff.1 hindex).1
      rw [List.length_take] at this
      omega
    rw [List.getElem?_take_of_lt hlt] at hindex
    obtain ⟨next, hnext, hex⟩ := Message.exists_explicit hall hindex
    rw [← List.getElem?_take_of_lt hlt] at hnext
    cases hfills with
    | array _ hconverted =>
      obtain ⟨part, -, hpart⟩ := exists_of_forall₂ (result_of_each hconverted).1 hnext
      exact hlevel (hparts source (List.mem_of_mem_take hs)) hex ⟨part, hpart⟩
  | list inner target =>
    rw [hact] at ha hs hexpands hfills hparts
    cases ha
    obtain ⟨index, hindex⟩ := List.mem_iff_getElem?.1 hs
    obtain ⟨next, hnext, hex⟩ := exists_of_forall₂ hexpands hindex
    cases hfills with
    | list hconverted =>
      obtain ⟨part, -, hpart⟩ := exists_of_forall₂ (result_of_each hconverted).1 hnext
      exact hlevel (hparts source hs) hex ⟨part, hpart⟩

/-- Where a message that spells out more is converted, so is the message: what its walk
goes on from is spelled out by what that of the other one goes on from. -/
theorem succeeds_of_explicit (h : registry.Sound) : ∀ (levels : Nat) {opcode : UInt16}
    {message changed : Message}, message.Of registry opcode →
    message.Explicit registry opcode changed →
    (run .toRecord registry limits levels opcode changed).Succeeds →
    (run .toRecord registry limits levels opcode message).Succeeds
  | 0, _, _, _, _, _, ⟨_, hother⟩ => absurd hother result_run_zero_ne
  | levels + 1, opcode, message, changed, hm, hex, ⟨other, hother⟩ => by
    obtain ⟨layout, plan, hb⟩ := h.binding_of_schema? hm.1
    have hrun := eq_of_result hother
    obtain ⟨hlayout, hsound⟩ :=
      (hb.record_of_iff h).1 (of_run h (Direction.writes_toRecord h) hb hrun)
    refine succeeds_run_of_sources h hb fun entry he inner ha => ?_
    obtain ⟨field, found, hentry⟩ := hb.entry_sound he
    obtain ⟨slot, hslot, -⟩ := hsound.exists_slot (hlayout ▸ hentry.record)
    exact succeeds_of_entry h hb (succeeds_of_explicit h levels) hm he ha
      (hex.expands h hm (hb.plan?_eq h) entry he) (fills_of_run h hb he ha hrun hslot)

/-- Scalars that are read in the same way are carried to one slot. -/
theorem slot_eq_of_scalar (h : registry.Sound) (hb : registry.Binding opcode layout schema plan)
    (hm : message.Of registry opcode) (he : entry ∈ plan.bound) {coercion : Coercion}
    (ha : entry.action = .scalar coercion)
    (hread : coercion.toSlot? (message.value? entry.messageIndex) =
      coercion.toSlot? (changed.value? entry.messageIndex))
    (hrun : run .toRecord registry limits (levels + 1) opcode message = ⟨reports, .ok made⟩)
    {others : List Diagnostic}
    (hrun' : run .toRecord registry limits (levels + 1) opcode changed = ⟨others, .ok other⟩)
    {slot given : Slot} (hslot : made.slot? entry.recordIndex = some slot)
    (hgiven : other.slot? entry.recordIndex = some given) : slot = given := by
  obtain ⟨rfl, -⟩ := (hb.message_of_iff h).1 hm
  obtain ⟨field, found, hentry⟩ := hb.entry_sound he
  obtain ⟨-, htype⟩ := Coercion.select_eq_ok_iff.1 (hentry.scalar ha)
  obtain ⟨held, hheld⟩ : ∃ held, coercion.toSlot? (message.value? entry.messageIndex) =
      some held := by
    refine Coercion.exists_toSlot? fun value hv => ?_
    exact htype ▸ hm.2.fits.fits _ field value hentry.message (Message.value?_eq_some.1 hv)
  rw [slot_of_run_scalar h hb he ha hrun hslot hheld]
  rw [slot_of_run_scalar h hb he ha hrun' hgiven (hread.symm.trans hheld)]

section
variable {target : Nat} {slot given : Slot}
  (hlevel : ∀ {opcode : UInt16} {message changed : Message} {made other : Record},
    message.Of registry opcode → message.Explicit registry opcode changed →
    (run .toRecord registry limits levels opcode message).result = .ok made →
    (run .toRecord registry limits levels opcode changed).result = .ok other →
    made.SparserWhere registry opcode message changed other)
include hlevel

theorem sparserWhere_nested {child next : Message} (hof : child.Of registry inner)
    (hex : child.Explicit registry inner next)
    (hchild : (message.messageAt? entry.messageIndex).or (registry.message? inner) = some child)
    (hnext : (changed.messageAt? entry.messageIndex).or (registry.message? inner) = some next)
    (hfills : Fills registry (run .toRecord registry limits levels) entry message
      (.nested inner) slot)
    (hfills' : Fills registry (run .toRecord registry limits levels) entry changed
      (.nested inner) given) :
    Slot.SparserWhere registry entry message changed (.nested inner) slot given := by
  cases hfills with
  | nested hsame hconverted =>
  cases hfills' with
  | nested hsame' hconverted' =>
    cases hchild.symm.trans hsame
    cases hnext.symm.trans hsame'
    exact .nested hchild hnext (hlevel hof hex (by rw [hconverted]) (by rw [hconverted']))

/-- Arrays of two messages, one of which spells out more: where both hold an element, the two
were converted, where only the second one does, the first array has a zero record, and where
none does, both have one. -/
theorem sparserWhere_array (h : registry.Sound)
    (hinner : registry.Binding inner layout schema plan) {count added : Nat}
    (hparts : ∀ element ∈ message.elementsAt target, element.Of registry inner)
    (hall : List.Forall₂ (Message.Explicit registry inner)
      (message.elementsAt target ++ .replicate added (.blank schema)) (changed.elementsAt target))
    (hfills : Fills registry (run .toRecord registry limits levels) entry message
      (.array inner count target) slot)
    (hfills' : Fills registry (run .toRecord registry limits levels) entry changed
      (.array inner count target) given) :
    Slot.SparserWhere registry entry message changed (.array inner count target) slot given := by
  cases hfills with
  | @array _ _ _ _ elements zero hzero hconverted =>
  cases hfills' with
  | @array _ _ _ _ others _ hzero' hconverted' =>
    cases hzero.symm.trans hzero'
    have hmade := (result_of_each hconverted).1
    have hothers := (result_of_each hconverted').1
    refine .array ?_ ?_ ?_ ?_
    · have hlength := hmade.length_eq
      have hlength' := hothers.length_eq
      rw [List.length_take] at hlength hlength'
      simp only [List.length_append, List.length_replicate]
      omega
    · intro index source next element other hsource hnext helement hother
      obtain ⟨_, hsame, hex⟩ := Message.exists_explicit hall hsource
      cases hnext.symm.trans hsame
      rcases getElem?_filled hmade helement with ⟨_, hsame, -, hfirst⟩ | ⟨hnone, -⟩
      · cases hsource.symm.trans hsame
        rcases getElem?_filled hothers hother with ⟨_, hsame, -, hsecond⟩ | ⟨hnone, -⟩
        · cases hnext.symm.trans hsame
          exact hlevel (hparts source (List.mem_of_getElem? hsource)) hex hfirst hsecond
        · cases hnext.symm.trans hnone
      · cases hsource.symm.trans hnone
    · intro index next element other hnone hnext helement hother
      rcases getElem?_filled hmade helement with ⟨_, hsame, -⟩ | ⟨-, rfl⟩
      · cases hnone.symm.trans hsame
      rcases getElem?_filled hothers hother with ⟨_, hsame, -, hsecond⟩ | ⟨hlacked, -⟩
      · cases hnext.symm.trans hsame
        exact ⟨hzero, sparser_of_run_blank h levels hinner
          (Message.explicit_of_lacked hall hnone hnext) hzero hsecond⟩
      · cases hnext.symm.trans hlacked
    · intro index element other hnone helement hother
      rcases getElem?_filled hothers hother with ⟨_, hsame, -⟩ | ⟨-, rfl⟩
      · cases hnone.symm.trans hsame
      rcases getElem?_filled hmade helement with ⟨_, hsource, -⟩ | ⟨-, rfl⟩
      · obtain ⟨_, hnext, -⟩ := Message.exists_explicit hall hsource
        cases hnone.symm.trans hnext
      · rfl

/-- Lists of two messages, one of which spells out more, have one node for each other. -/
theorem sparserWhere_list
    (hparts : ∀ element ∈ message.elementsAt target, element.Of registry inner)
    (hall : List.Forall₂ (Message.Explicit registry inner) (message.elementsAt target)
      (changed.elementsAt target))
    (hfills : Fills registry (run .toRecord registry limits levels) entry message
      (.list inner target) slot)
    (hfills' : Fills registry (run .toRecord registry limits levels) entry changed
      (.list inner target) given) :
    Slot.SparserWhere registry entry message changed (.list inner target) slot given := by
  cases hfills with
  | list hconverted =>
  cases hfills' with
  | list hconverted' =>
    have hmade := (result_of_each hconverted).1
    have hothers := (result_of_each hconverted').1
    refine .list hmade.length_eq.symm hothers.length_eq.symm
      (by rw [← hmade.length_eq, ← hothers.length_eq, hall.length_eq])
      fun index source next node other hsource hnext hnode hother => ?_
    obtain ⟨_, hsame, hex⟩ := exists_of_forall₂ hall hsource
    cases hnext.symm.trans hsame
    obtain ⟨_, hsame, hfirst⟩ := exists_of_forall₂ hmade hsource
    cases hnode.symm.trans hsame
    obtain ⟨_, hsame, hsecond⟩ := exists_of_forall₂ hothers hnext
    cases hother.symm.trans hsame
    exact hlevel (hparts source (List.mem_of_getElem? hsource)) hex hfirst hsecond

/-- What an entry leaves of two messages, one of which spells out more. -/
theorem sparserWhere_of_entry (h : registry.Sound)
    (hb : registry.Binding opcode layout schema plan) (hm : message.Of registry opcode)
    (he : entry ∈ plan.bound) (hexpands : entry.Expands registry message changed)
    (hrun : run .toRecord registry limits (levels + 1) opcode message = ⟨reports, .ok made⟩)
    {others : List Diagnostic}
    (hrun' : run .toRecord registry limits (levels + 1) opcode changed = ⟨others, .ok other⟩)
    (hslot : made.slot? entry.recordIndex = some slot)
    (hgiven : other.slot? entry.recordIndex = some given) :
    Slot.SparserWhere registry entry message changed entry.action slot given := by
  have hfills := fun {inner : UInt16} (ha : entry.action.inner? = some inner) =>
    fills_of_run h hb he ha hrun hslot
  have hfills' := fun {inner : UInt16} (ha : entry.action.inner? = some inner) =>
    fills_of_run h hb he ha hrun' hgiven
  have hparts := fun {inner : UInt16} (ha : entry.action.inner? = some inner) =>
    hm.elementsAt_of_carries h ⟨plan, hb.plan?_eq h, entry, he, rfl, ha⟩
  unfold Plan.Entry.Expands at hexpands
  unfold Plan.Entry.place at hparts
  cases ha : entry.action with
  | scalar coercion =>
    rw [ha] at hexpands
    cases slot_eq_of_scalar h hb hm he ha hexpands hrun hrun' hslot hgiven
    exact .scalar coercion slot
  | nested inner =>
    have hfills := hfills (by rw [ha]; rfl)
    have hfills' := hfills' (by rw [ha]; rfl)
    rw [ha] at hexpands hfills hfills'
    obtain ⟨child, next, hchild, hnext, hex⟩ := hexpands
    exact sparserWhere_nested hlevel (hm.child h hb he ha hchild) hex hchild hnext hfills hfills'
  | array inner count target =>
    obtain ⟨_, innerSchema, _, hinner⟩ := hb.inner_binding h he
      (show entry.action.inner? = some inner by rw [ha]; rfl)
    have hfills := hfills (by rw [ha]; rfl)
    have hfills' := hfills' (by rw [ha]; rfl)
    have hparts := hparts (show entry.action.inner? = some inner by rw [ha]; rfl)
    rw [ha] at hexpands hfills hfills' hparts
    obtain ⟨_, added, hblank, hall⟩ := hexpands
    cases (hinner.message?_eq h).symm.trans hblank
    exact sparserWhere_array hlevel h hinner hparts hall hfills hfills'
  | list inner target =>
    have hfills := hfills (by rw [ha]; rfl)
    have hfills' := hfills' (by rw [ha]; rfl)
    have hparts := hparts (show entry.action.inner? = some inner by rw [ha]; rfl)
    rw [ha] at hexpands hfills hfills' hparts
    exact sparserWhere_list hlevel hparts hexpands hfills hfills'

end

/-- What a message is converted to is the same as what one is converted to that spells out
more, but inside the elements of arrays that it lacks. -/
theorem sparserWhere_of_explicit (h : registry.Sound) : ∀ (levels : Nat) {opcode : UInt16}
    {message changed : Message} {made other : Record}, message.Of registry opcode →
    message.Explicit registry opcode changed →
    (run .toRecord registry limits levels opcode message).result = .ok made →
    (run .toRecord registry limits levels opcode changed).result = .ok other →
    made.SparserWhere registry opcode message changed other
  | 0, _, _, _, _, _, _, _, hmade, _ => absurd hmade result_run_zero_ne
  | levels + 1, opcode, message, changed, made, other, hm, hex, hmade, hother => by
    obtain ⟨layout, plan, hb⟩ := h.binding_of_schema? hm.1
    have hp := hb.plan?_eq h
    have hw := Direction.writes_toRecord h
    have hrun := eq_of_result hmade
    have hrun' := eq_of_result hother
    obtain ⟨hlayout, hsound⟩ := (hb.record_of_iff h).1 (of_run h hw hb hrun)
    obtain ⟨hlayout', hsound'⟩ := (hb.record_of_iff h).1 (of_run h hw hb hrun')
    obtain ⟨zero, hzero, -⟩ := hb.exists_record? h
    refine .mk hp (hlayout.trans hlayout'.symm)
      (by rw [hsound.fits.length, hsound'.fits.length, hlayout, hlayout']) (fun index hne => ?_)
      fun entry he slot given hslot hgiven => ?_
    · rw [slot?_of_run_of_ne h hb hzero hrun hne, slot?_of_run_of_ne h hb hzero hrun' hne]
    · exact sparserWhere_of_entry (sparserWhere_of_explicit h levels) h hb hm he
        (hex.expands h hm hp entry he) hrun hrun' hslot hgiven

end Walk

namespace Codec

variable {codec : Codec} {message explicit : Message}

/-- Where a message that spells out more is converted, so is the message, to a record of the
same size that is the same but inside the elements of arrays that the message lacks: those
are zero records, in which texts are null that are empty in the other record. -/
theorem fromMessage_explicit {layouts : List Layout} {schemas : List Schema}
    {descriptors : List Descriptor}
    (hreg : Registry.ofLists layouts schemas descriptors = .ok codec.registry)
    (hschema : codec.registry.schema? opcode = some message.schema)
    (hm : Message.Built codec.registry.schemas message)
    (hex : message.Explicit codec.registry opcode explicit) {second : Decoded}
    (hsecond : (codec.fromMessage opcode explicit).result = .ok (some second)) :
    ∃ first, (codec.fromMessage opcode message).result = .ok (some first) ∧
      first.record.SparserWhere codec.registry opcode message explicit second.record ∧
      first.size = second.size := by
  have h := Registry.sound_of_ofLists hreg
  obtain ⟨layout, plan, hb⟩ := h.binding_of_schema? hschema
  have hp := hb.plan?_eq h
  have hof : message.Of codec.registry opcode := ⟨hschema, hm.sound⟩
  obtain ⟨hother, hsize⟩ := (fromMessage_eq_ok_iff hp).1 hsecond
  obtain ⟨made, hmade⟩ := Walk.succeeds_of_explicit h _ hof hex ⟨_, hother⟩
  exact ⟨⟨made, plan.occupied⟩, (fromMessage_eq_ok_iff hp).2 ⟨hmade, rfl⟩,
    Walk.sparserWhere_of_explicit h _ hof hex hmade hother, hsize.symm⟩

end Codec

/-! ### Trays and bins of cells -/

def trayLayouts : List Layout :=
  [⟨"cell", [⟨"name", .ownedText⟩]⟩, ⟨"node", [⟨"name", .ownedText⟩, ⟨"next", .list "node"⟩]⟩,
    ⟨"tray", [⟨"cells", .array "cell" 2⟩, ⟨"spare", .nested "cell"⟩]⟩,
    ⟨"bin", [⟨"cells", .array "cell" 1⟩, ⟨"more", .list "node"⟩]⟩]

def cellSchema : Schema := ⟨"Cell", [⟨"name", 1, .string⟩]⟩

def traySchema : Schema :=
  ⟨"Tray", [⟨"cells", 1, .repeated "Cell"⟩, ⟨"spare", 2, .message "Cell"⟩, ⟨"mark", 3, .bool⟩]⟩

def binSchema : Schema :=
  ⟨"Bin", [⟨"cells", 1, .repeated "Cell"⟩, ⟨"more", 2, .repeated "Cell"⟩]⟩

def trayDescriptors : List Descriptor :=
  [⟨1, "tray", "Tray", none⟩, ⟨2, "cell", "Cell", none⟩, ⟨3, "node", "Cell", some "cells"⟩,
    ⟨4, "bin", "Bin", none⟩]

/-- Opcode 1 carries trays, with an array of two cells and a spare one; opcode 4
carries bins, whose array of one cell shares its repeated field with a list. -/
def trayCodec : Codec where
  registry.layouts := ⟨trayLayouts, trayLayouts.reverse,
    [("bin", 16), ("tray", 24), ("node", 16), ("cell", 8)], by decide⟩
  registry.schemas := ⟨[cellSchema, traySchema, binSchema]⟩
  registry.rows :=
    [⟨⟨1, "tray", "Tray", none⟩, ⟨[.bind ⟨0, 0, .array 2 2 0, 16⟩, .bind ⟨1, 1, .nested 2, 8⟩,
        .skip "mark" .missingField]⟩⟩,
      ⟨⟨2, "cell", "Cell", none⟩, ⟨[.bind ⟨0, 0, .scalar .ownedText, 8⟩]⟩⟩,
      ⟨⟨3, "node", "Cell", some "cells"⟩, ⟨[.bind ⟨0, 0, .scalar .ownedText, 8⟩]⟩⟩,
      ⟨⟨4, "bin", "Bin", none⟩, ⟨[.bind ⟨0, 0, .array 2 1 0, 8⟩, .bind ⟨1, 1, .list 3 0, 8⟩]⟩⟩]

theorem ofLists_tray : Registry.ofLists trayLayouts [cellSchema, traySchema, binSchema]
    trayDescriptors = .ok trayCodec.registry := by cbv

def cellRecord (name : Option String) : Record :=
  .mk ⟨"cell", [⟨"name", .ownedText⟩]⟩ [.text name]

def nodeRecord (name : String) : Record :=
  .mk ⟨"node", [⟨"name", .ownedText⟩, ⟨"next", .list "node"⟩]⟩ [.text (some name), .link none]

def trayRecord (cells : List Record) (spare : Record) : Record :=
  .mk ⟨"tray", [⟨"cells", .array "cell" 2⟩, ⟨"spare", .nested "cell"⟩]⟩
    [.array cells, .record spare]

def binRecord (cells : List Record) (more : Option Record) : Record :=
  .mk ⟨"bin", [⟨"cells", .array "cell" 1⟩, ⟨"more", .list "node"⟩]⟩ [.array cells, .link more]

/-- A cell with an explicit empty name. -/
def explicitCell : Message := .mk cellSchema [some (.string "")]

/-- A tray with one explicit cell and an explicit spare one. -/
def explicitTray : Message :=
  .mk traySchema [some (.list [explicitCell]), some (.message explicitCell), some (.bool false)]

theorem explicit_cell (inner : UInt16) :
    (Message.blank cellSchema).Explicit trayCodec.registry inner explicitCell :=
  @Message.Explicit.default _ _ _ _ 0 (.string "") rfl rfl rfl

theorem sound_explicitCell : explicitCell.Sound trayCodec.registry.schemas := by
  have hblank : Message.Built trayCodec.registry.schemas (.blank cellSchema) :=
    .blank (show SchemaSet.message _ "Cell" = .ok _ from rfl)
  exact (@Message.Built.setAt _ _ explicitCell 0 (.string "") hblank nofun rfl).sound

theorem not_listsFrom_tray : ¬ trayCodec.registry.ListsFrom 1 0 := by
  rintro ⟨plan, hp, entry, he, inner, ha⟩
  cases hp
  simp only [Plan.bound_bind, Plan.bound_skip, List.mem_cons] at he
  rcases he with rfl | rfl | he
  · cases ha
  · cases ha
  · cases he

theorem explicit_tray :
    (Message.blank traySchema).Explicit trayCodec.registry 1 explicitTray := by
  have cell := @Message.Explicit.append trayCodec.registry 1 (.blank traySchema) _ _ 0 "Cell"
    not_listsFrom_tray rfl rfl
  have named := cell.trans (@Message.Explicit.element _ 1 _ _ (.blank cellSchema) explicitCell 0
    [] [] rfl sound_explicitCell (fun inner _ => explicit_cell inner) rfl)
  have spare := named.trans (@Message.Explicit.blank _ 1 _ _ _ 1 "Cell" rfl rfl rfl)
  have whole := spare.trans (@Message.Explicit.inside _ 1 _ _ (.blank cellSchema) explicitCell 1
    rfl sound_explicitCell (fun inner _ => explicit_cell inner) rfl)
  exact whole.trans (@Message.Explicit.default _ 1 _ _ 2 (.bool false) rfl rfl rfl)

/-- The explicit tray is converted, with a null text in the cell that is missing. -/
theorem Codec.fromMessage_explicitTray :
    Registry.ofLists trayLayouts [cellSchema, traySchema, binSchema] trayDescriptors =
        .ok trayCodec.registry ∧
      trayCodec.registry.schema? 1 = some traySchema ∧
      Message.Built trayCodec.registry.schemas (.blank traySchema) ∧
      (Message.blank traySchema).Explicit trayCodec.registry 1 explicitTray ∧
      (trayCodec.fromMessage 1 explicitTray).result = .ok (some
        ⟨trayRecord [cellRecord (some ""), cellRecord none] (cellRecord (some "")), 24⟩) ∧
      ∃ first, (trayCodec.fromMessage 1 (.blank traySchema)).result = .ok (some first) ∧
        first.record.SparserWhere trayCodec.registry 1 (.blank traySchema) explicitTray
          (trayRecord [cellRecord (some ""), cellRecord none] (cellRecord (some ""))) ∧
        first.size = 24 := by
  have hschema : trayCodec.registry.schema? 1 = some traySchema := rfl
  have hm : Message.Built trayCodec.registry.schemas (.blank traySchema) :=
    .blank (show SchemaSet.message _ "Tray" = .ok _ from rfl)
  have hsecond : (trayCodec.fromMessage 1 explicitTray).result = .ok (some
      ⟨trayRecord [cellRecord (some ""), cellRecord none] (cellRecord (some "")), 24⟩) := by rfl
  exact ⟨ofLists_tray, hschema, hm, explicit_tray, hsecond,
    fromMessage_explicit ofLists_tray hschema hm explicit_tray hsecond⟩

/-- A blank cell that is appended to a bin takes the place of the missing one of its
array, with an empty text for a null one, and is a node of its list, too. -/
theorem Codec.appended_cell :
    Registry.ofLists trayLayouts [cellSchema, traySchema, binSchema] trayDescriptors =
        .ok trayCodec.registry ∧
      trayCodec.registry.schema? 4 = some binSchema ∧
      Message.Built trayCodec.registry.schemas (.blank binSchema) ∧
      (Message.blank binSchema).pushAt 0 (.blank cellSchema) =
        .ok (.mk binSchema [some (.list [.blank cellSchema]), none]) ∧
      (trayCodec.fromMessage 4 (.blank binSchema)).result =
        .ok (some ⟨binRecord [cellRecord none] none, 16⟩) ∧
      (trayCodec.fromMessage 4 (.mk binSchema [some (.list [.blank cellSchema]), none])).result =
        .ok (some ⟨binRecord [cellRecord (some "")] (some (nodeRecord "")), 16⟩) ∧
      binRecord [cellRecord none] none ≠
        binRecord [cellRecord (some "")] (some (nodeRecord "")) :=
  ⟨ofLists_tray, rfl, .blank (show SchemaSet.message _ "Bin" = .ok _ from rfl), rfl, rfl, rfl,
    nofun⟩

end RecordBridge

import RecordBridge.Proofs.Codec.Norm
import RecordBridge.Proofs.Codec.Prepare
import RecordBridge.Proofs.Message.Canon
/-!
# What a record is sent as

A record is sent field by field: `Walk.Sends` relates a slot to the value its
place in the message holds and to what was reported about it, and `Walk.Sent` a
whole record to its message. Both say how what lies inside comes back, if the
conversions there and back mirror each other one level further in
(`Walk.Mirrors`).
-/
namespace RecordBridge

/-! ## Places in a message -/

namespace Message

/-- What the field of a list holds; without elements it is unset. -/
def listValue (elements : List Message) : Option Value :=
  if elements.isEmpty then none else some (.list elements)

/-- A message that holds a value at one place, and otherwise what another holds. -/
structure Gains (message : Message) (place : Nat) (content : Option Value) (next : Message) :
    Prop where
  schema : next.schema = message.schema
  length : next.values.length = message.values.length
  value? : ∀ index, next.value? index = if place = index then content else message.value? index

variable {message next : Message} {index : Nat}

theorem gains_setAt (hlen : message.values.length = message.schema.fields.length) {value : Value}
    (h : message.setAt index value = .ok next) : message.Gains index (some value) next := by
  obtain ⟨hc, rfl⟩ := setAt_eq_ok_iff.1 h
  obtain ⟨field, hf, -⟩ := check_eq_ok_iff.1 hc
  have hi : index < message.values.length := hlen ▸ (List.getElem?_eq_some_iff.1 hf).1
  exact ⟨rfl, by simp, value?_put hi _⟩

theorem gains_elements (hlen : message.values.length = message.schema.fields.length)
    {elements : List Message} (hne : elements ≠ [])
    (h : message.appendAt index elements = .ok next) :
    message.Gains index (some (.list (message.elementsAt index ++ elements))) next := by
  rw [appendAt, if_neg (by simpa using hne)] at h
  simp only [bind_eq_ok, pure_eq_ok] at h
  obtain ⟨_, hc, rfl⟩ := h
  obtain ⟨field, hf, -⟩ := check_eq_ok_iff.1 hc
  have hi : index < message.values.length := hlen ▸ (List.getElem?_eq_some_iff.1 hf).1
  exact ⟨rfl, by simp, value?_put hi _⟩

theorem gains_appendAt (hlen : message.values.length = message.schema.fields.length)
    (hunset : message.value? index = none) {elements : List Message}
    (h : message.appendAt index elements = .ok next) :
    message.Gains index (listValue elements) next := by
  cases elements with
  | nil =>
    cases h
    refine ⟨rfl, rfl, fun other => ?_⟩
    rw [listValue, if_pos List.isEmpty_nil]
    split
    · next ho => rw [← ho, hunset]
    · rfl
  | cons element rest =>
    have hnone : message.elementsAt index = [] := by rw [elementsAt, hunset]
    have hgains := gains_elements hlen (List.cons_ne_nil element rest) h
    rwa [hnone] at hgains

theorem elementsAt_of_listValue {elements : List Message}
    (h : message.value? index = listValue elements) : message.elementsAt index = elements := by
  rw [elementsAt, h, listValue]
  cases elements <;> rfl

end Message

/-- Whether a diagnostic reports a skipped field. -/
def Diagnostic.isFieldSkipped : Diagnostic → Bool
  | .fieldSkipped .. => true
  | _ => false

namespace Walk

/-! ## Conversions that mirror each other -/

/-- A walk that gives a result back from messages, which nest less deep than
`levels`, and reports no more than skipped fields. -/
structure Returns (levels : Nat) (made : List Message) (reports : List Diagnostic) (result : α)
    (walk : Walk α) : Prop where
  eq : walk = ⟨reports, .ok result⟩
  skipped : ∀ report ∈ reports, report.isFieldSkipped
  nesting : ∀ message ∈ made, message.nesting < levels

/-- What goes there comes back in normal form. -/
def Mirrors (registry : Registry) (levels : Nat) (there : UInt16 → Record → Walk Message)
    (back : UInt16 → Message → Walk Record) : Prop :=
  ∀ {opcode record reports made}, record.Of registry opcode →
    there opcode record = ⟨reports, .ok made⟩ →
    (back opcode made.canon).Returns levels [made] reports (record.norm registry opcode)

variable {registry : Registry} {limits : CodecLimits} {levels : Nat}
  {there : UInt16 → Record → Walk Message} {back : UInt16 → Message → Walk Record}

theorem Mirrors.each (h : Mirrors registry levels there back) {inner : UInt16} :
    ∀ {records : List Record} {made : List Message} {reports : List Diagnostic},
    (∀ record ∈ records, record.Of registry inner) →
    each (there inner) records = ⟨reports, .ok made⟩ →
    (Walk.each (back inner) (made.map Message.canon)).Returns levels made reports
      (records.map (Record.norm registry inner))
  | [], made, reports, _, hr => by
    obtain ⟨rfl, rfl⟩ := pure_eq_ok_iff.1 hr
    exact ⟨rfl, nofun, nofun⟩
  | record :: rest, made, reports, hall, hr => by
    obtain ⟨hrecord, hrest⟩ := List.forall_mem_cons.1 hall
    rw [Walk.each, bind_eq_ok_iff] at hr
    obtain ⟨first, head, others, hhead, hothers, rfl⟩ := hr
    obtain ⟨mid, tail, last, htail, hlast, rfl⟩ := bind_eq_ok_iff.1 hothers
    obtain ⟨rfl, rfl⟩ := pure_eq_ok_iff.1 hlast
    have hfirst := h hrecord hhead
    have ih := h.each hrest htail
    refine ⟨?_, fun report hm => ?_, List.forall_mem_cons.2 ⟨hfirst.nesting head ?_, ih.nesting⟩⟩
    · rw [List.map_cons, Walk.each, hfirst.eq, ok_bind_eq, ih.eq]
      rfl
    · rcases List.mem_append.1 hm with hm | hm
      · exact hfirst.skipped report hm
      · exact ih.skipped report (by simpa using hm)
    · exact List.mem_singleton.2 rfl

/-- A slot was sent by an action: what its place in the message holds, and what
was reported. -/
inductive Sends (registry : Registry) (levels : Nat) (back : UInt16 → Message → Walk Record) :
    Plan.Action → Slot → Option Value → List Diagnostic → Prop where
  | scalar {coercion : Coercion} {slot : Slot} {value : Value}
      (value_eq : coercion.toValue? slot = some value) :
      Sends registry levels back (.scalar coercion) slot (some value) []
  | nested {inner : UInt16} {child : Record} {made : Message} {reports : List Diagnostic}
      (returns : (back inner made.canon).Returns levels [made] reports
        (child.norm registry inner)) :
      Sends registry levels back (.nested inner) (.record child) (some (.message made)) reports
  | array {inner : UInt16} {count target : Nat} {elements : List Record} {made : List Message}
      {reports : List Diagnostic} (length : made.length = count)
      (returns : (each (back inner) (made.map Message.canon)).Returns levels made reports
        (elements.map (Record.norm registry inner))) :
      Sends registry levels back (.array inner count target) (.array elements)
        (Message.listValue made) reports
  | list {inner : UInt16} {target : Nat} {head : Option Record} {made : List Message}
      {reports : List Diagnostic}
      (returns : (each (back inner) (made.map Message.canon)).Returns levels made reports
        ((Record.nodesOf (.link head)).map (Record.norm registry inner))) :
      Sends registry levels back (.list inner target) (.link head) (Message.listValue made) reports

/-- A record was sent as a message: every paired slot is where its entry places
it, and the skipped fields were reported. -/
inductive Sent (registry : Registry) (levels : Nat) (back : UInt16 → Message → Walk Record)
    (opcode : UInt16) (record : Record) (message : Message) :
    List Plan.Item → List Diagnostic → Prop where
  | nil : Sent registry levels back opcode record message [] []
  | skip {field : String} {reason : SkipReason} {rest : List Plan.Item}
      {reports : List Diagnostic}
      (sent : Sent registry levels back opcode record message rest reports) :
      Sent registry levels back opcode record message (.skip field reason :: rest)
        (.fieldSkipped opcode field reason :: reports)
  | bind {entry : Plan.Entry} {slot : Slot} {rest : List Plan.Item}
      {first reports : List Diagnostic} (slot_eq : record.slot? entry.recordIndex = some slot)
      (sends : Sends registry levels back entry.action slot (message.value? entry.place) first)
      (sent : Sent registry levels back opcode record message rest reports) :
      Sent registry levels back opcode record message (.bind entry :: rest) (first ++ reports)

/-! ## Sending a record -/

variable {opcode : UInt16} {layout : Layout} {schema : Schema} {plan : Plan}

/-- What an entry of a plan carries inside a slot is of the opcode that carries it. -/
theorem of_mem_parts (h : registry.Sound) {source : Record}
    (hb : registry.Binding opcode source.layout schema plan)
    (hsound : source.Sound registry.layouts) {entry : Plan.Entry} (he : entry ∈ plan.bound)
    {slot : Slot} (hslot : source.slot? entry.recordIndex = some slot) {inner : UInt16}
    (ha : entry.action.inner? = some inner) : ∀ part ∈ slot.parts, part.Of registry inner := by
  obtain ⟨field, found, hentry⟩ := hb.entry_sound he
  have hfits := (hsound.fits.suits _ found slot hentry.record hslot).fits
  have hinside := hsound.slot?_inside hslot
  cases hact : entry.action with
  | scalar coercion =>
    rw [hact] at ha
    cases ha
  | nested opcode =>
    obtain ⟨id, carrier, hk, hcarrier, rfl, -⟩ := hentry.nested hact
    obtain ⟨child, rfl, hid⟩ := Slot.fits_nested_iff.1 (hk ▸ hfits)
    cases hact ▸ ha
    exact List.forall_mem_singleton.2
      (Record.of_layoutId_eq h hcarrier (hinside child (List.mem_singleton.2 rfl)) hid)
  | array opcode count target =>
    obtain ⟨id, size, carrier, hk, -, hcarrier, rfl, -⟩ := hentry.array hact
    obtain ⟨elements, rfl, -, hids⟩ := Slot.fits_array_iff.1 (hk ▸ hfits)
    cases hact ▸ ha
    exact fun element hm => Record.of_layoutId_eq h hcarrier (hinside element hm) (hids element hm)
  | list opcode target =>
    obtain ⟨id, carrier, hk, -, hcarrier, rfl, -⟩ := hentry.list hact
    obtain ⟨head, rfl, hid⟩ := Slot.fits_list_iff.1 (hk ▸ hfits)
    cases hact ▸ ha
    intro node hm
    have hhead : ∀ first ∈ head, first.Sound registry.layouts ∧ first.layoutId = id :=
      fun first hfirst => ⟨hinside first (Option.mem_toList.2 hfirst), hid first hfirst⟩
    obtain ⟨hnode, hsame⟩ := Record.Sound.mem_nodesOf hhead node hm
    exact Record.of_layoutId_eq h hcarrier hnode hsame

/-- What a step from a record does with the slot of its entry: a scalar and a record are
converted and set, elements and nodes are converted and appended. -/
inductive Stores (there : UInt16 → Record → Walk Message) (entry : Plan.Entry)
    (output next : Message) : Plan.Action → Slot → List Diagnostic → Prop where
  | scalar {coercion : Coercion} {slot : Slot} {value : Value}
      (value_eq : coercion.toValue? slot = some value)
      (set : output.setAt entry.messageIndex value = .ok next) :
      Stores there entry output next (.scalar coercion) slot []
  | nested {inner : UInt16} {child : Record} {made : Message} {reports : List Diagnostic}
      (converted : there inner child = ⟨reports, .ok made⟩)
      (set : output.setAt entry.messageIndex (.message made) = .ok next) :
      Stores there entry output next (.nested inner) (.record child) reports
  | array {inner : UInt16} {count target : Nat} {elements : List Record} {made : List Message}
      {reports : List Diagnostic} (length : elements.length = count)
      (converted : each (there inner) elements = ⟨reports, .ok made⟩)
      (appended : output.appendAt target made = .ok next) :
      Stores there entry output next (.array inner count target) (.array elements) reports
  | list {inner : UInt16} {target : Nat} {head : Option Record} {made : List Message}
      {reports : List Diagnostic}
      (converted : each (there inner) (Record.nodesOf (.link head)) = ⟨reports, .ok made⟩)
      (appended : output.appendAt target made = .ok next) :
      Stores there entry output next (.list inner target) (.link head) reports

/-- A step from a record stores the slot of its entry. -/
theorem stores_of_carry (h : registry.Sound) (hb : registry.Binding opcode layout schema plan)
    {source : Record} (hsource : source.Of registry opcode) {entry : Plan.Entry}
    (he : entry ∈ plan.bound) {output next : Message} {reports : List Diagnostic}
    (hstep : carry .toMessage registry limits there opcode source entry output =
      ⟨reports, .ok next⟩) :
    ∃ slot, source.slot? entry.recordIndex = some slot ∧
      Stores there entry output next entry.action slot reports := by
  obtain ⟨field, found, hentry⟩ := hb.entry_sound he
  obtain ⟨rfl, hsound⟩ := (hb.record_of_iff h).1 hsource
  obtain ⟨slot, hslot, hsuits⟩ := hsound.exists_slot hentry.record
  have hfits := hsuits.fits
  obtain ⟨write, hprepare, hwrite⟩ := carry_eq_ok_iff.1 hstep
  have hprepared := prepares_of_eq_ok hprepare
  refine ⟨slot, hslot, ?_⟩
  cases ha : entry.action with
  | scalar coercion =>
    obtain ⟨hk, -⟩ := Coercion.select_eq_ok_iff.1 (hentry.scalar ha)
    obtain ⟨value, _, hvalue, -⟩ := Coercion.toSlot?_toValue? hk hsuits
    rw [ha] at hprepared
    cases hprepared
    simp only [Direction.toMessage, hslot, Option.bind_some, hvalue, mapError_eq_ok] at hwrite
    exact .scalar hvalue hwrite
  | nested inner =>
    obtain ⟨id, carrier, hk, -⟩ := hentry.nested ha
    obtain ⟨child, rfl, -⟩ := Slot.fits_nested_iff.1 (hk ▸ hfits)
    rw [ha] at hprepared
    cases hprepared with
    | nested hchild hmade =>
      rw [child_toMessage inner hslot] at hchild
      cases (pure_eq_ok_iff.1 hchild).1
      exact .nested hmade (mapError_eq_ok.1 hwrite)
  | array inner count target =>
    obtain ⟨id, size, carrier, hk, rfl, -⟩ := hentry.array ha
    obtain ⟨elements, rfl, hcount, -⟩ := Slot.fits_array_iff.1 (hk ▸ hfits)
    rw [ha] at hprepared
    cases hprepared with
    | array hmade hpadding =>
      -- the array of a record is full: no element is left out, and none is filled up
      rw [elements_toMessage target hslot] at hmade ⊢
      rw [List.take_of_length_le (Nat.le_of_eq hcount)] at hmade
      rw [length_each hmade, hcount, Nat.sub_self] at hpadding
      cases (pure_eq_ok_iff.1 hpadding).1
      rw [List.append_nil] at hwrite
      rw [reports_reportSurplus, if_neg (Nat.not_lt_of_le (Nat.le_of_eq hcount)), List.nil_append]
      exact .array hcount hmade (mapError_eq_ok.1 hwrite)
  | list inner target =>
    obtain ⟨id, carrier, hk, -⟩ := hentry.list ha
    obtain ⟨head, rfl, -⟩ := Slot.fits_list_iff.1 (hk ▸ hfits)
    rw [ha] at hprepared
    cases hprepared with
    | list hwithin hmade =>
      rw [nodes_toMessage target hslot] at hmade
      exact .list hmade (mapError_eq_ok.1 hwrite)

/-- One entry: the slot is sent, and its place gains what was made of it. -/
theorem carry_sends (h : registry.Sound) (hb : registry.Binding opcode layout schema plan)
    (hmirror : Mirrors registry levels there back) {source : Record}
    (hsource : source.Of registry opcode) {entry : Plan.Entry} (he : entry ∈ plan.bound)
    {output next : Message} (hlen : output.values.length = output.schema.fields.length)
    (hunset : output.value? entry.place = none) {reports : List Diagnostic}
    (hstep : carry .toMessage registry limits there opcode source entry output =
      ⟨reports, .ok next⟩) :
    ∃ slot content, source.slot? entry.recordIndex = some slot ∧
      Sends registry levels back entry.action slot content reports ∧
      output.Gains entry.place content next := by
  obtain ⟨slot, hslot, hstores⟩ := stores_of_carry h hb hsource he hstep
  obtain ⟨rfl, hsound⟩ := (hb.record_of_iff h).1 hsource
  have hparts : ∀ {inner : UInt16}, entry.action.inner? = some inner →
      ∀ part ∈ slot.parts, part.Of registry inner := of_mem_parts h hb hsound he hslot
  unfold Plan.Entry.place at hunset ⊢
  generalize entry.action = action at hstores hparts hunset
  cases hstores with
  | scalar hvalue hset =>
    exact ⟨slot, _, hslot, .scalar hvalue, Message.gains_setAt hlen hset⟩
  | nested hmade hset =>
    have hof := hparts rfl _ (List.mem_singleton.2 rfl)
    exact ⟨_, _, hslot, .nested (hmirror hof hmade), Message.gains_setAt hlen hset⟩
  | array hlength hmade happend =>
    exact ⟨_, _, hslot, .array ((length_each hmade).trans hlength) (hmirror.each (hparts rfl) hmade),
      Message.gains_appendAt hlen hunset happend⟩
  | list hmade happend =>
    exact ⟨_, _, hslot, .list (hmirror.each (hparts rfl) hmade),
      Message.gains_appendAt hlen hunset happend⟩

/-- All entries: each is sent to a place of its own, and other places are left. -/
theorem fillItems_sent (h : registry.Sound) (hb : registry.Binding opcode layout schema plan)
    (hmirror : Mirrors registry levels there back) {source : Record}
    (hsource : source.Of registry opcode) : ∀ {items : List Plan.Item} {output made : Message}
    {reports : List Diagnostic}, (∀ entry ∈ (Plan.mk items).bound, entry ∈ plan.bound) →
    ((Plan.mk items).bound.map Plan.Entry.place).Nodup →
    (∀ entry ∈ (Plan.mk items).bound, output.value? entry.place = none) →
    output.values.length = output.schema.fields.length →
    fillItems (carry .toMessage registry limits there opcode source) opcode items output =
      ⟨made, reports, none⟩ →
    Sent registry levels back opcode source made items reports ∧
      ∀ index, (∀ entry ∈ (Plan.mk items).bound, entry.place ≠ index) →
        made.value? index = output.value? index
  | [], output, made, reports, _, _, _, _, hfill => by
    cases hfill
    exact ⟨.nil, fun _ _ => rfl⟩
  | .skip field reason :: rest, output, made, reports, hmem, hnodup, hunset, hlen, hfill => by
    obtain ⟨others, hrest, rfl⟩ := fillItems_skip_eq_iff.1 hfill
    simp only [Plan.bound_skip] at hmem hnodup hunset ⊢
    obtain ⟨hsent, hframe⟩ := fillItems_sent h hb hmirror hsource hmem hnodup hunset hlen hrest
    exact ⟨.skip hsent, hframe⟩
  | .bind entry :: rest, output, made, reports, hmem, hnodup, hunset, hlen, hfill => by
    obtain ⟨first, next, others, hstep, hrest, rfl⟩ := fillItems_bind_eq_iff.1 hfill
    simp only [Plan.bound_bind] at hmem hnodup hunset ⊢
    obtain ⟨hentry, hmem⟩ := List.forall_mem_cons.1 hmem
    obtain ⟨hfree, hunset⟩ := List.forall_mem_cons.1 hunset
    obtain ⟨hother, hnodup⟩ := List.nodup_cons.1 hnodup
    have hplaces : ∀ other ∈ (Plan.mk rest).bound, other.place ≠ entry.place :=
      fun other hm he => hother (he ▸ List.mem_map_of_mem hm)
    obtain ⟨slot, content, hslot, hsends, hgains⟩ :=
      carry_sends h hb hmirror hsource hentry hlen hfree hstep
    obtain ⟨hsent, hframe⟩ := fillItems_sent h hb hmirror hsource hmem hnodup
      (fun other hm => by
        rw [hgains.value?, if_neg (hplaces other hm).symm]
        exact hunset other hm)
      (by rw [hgains.length, hgains.schema, hlen]) hrest
    refine ⟨.bind hslot ?_ hsent, fun index hindex => ?_⟩
    · rwa [hframe _ hplaces, hgains.value?, if_pos rfl]
    · obtain ⟨hne, hindex⟩ := List.forall_mem_cons.1 hindex
      rw [hframe index hindex, hgains.value?, if_neg hne]

/-! ## What was sent -/

variable {record : Record} {message : Message} {items : List Plan.Item}
  {reports : List Diagnostic}

theorem Sends.skipped {action : Plan.Action} {slot : Slot} {content : Option Value}
    (h : Sends registry levels back action slot content reports) :
    ∀ report ∈ reports, report.isFieldSkipped := by
  cases h with
  | scalar => exact nofun
  | nested returns | array _ returns | list returns => exact returns.skipped

theorem Sends.nesting {action : Plan.Action} {slot : Slot} {value : Value}
    (h : Sends registry levels back action slot (some value) reports) :
    ∀ inner ∈ value.inner, inner.nesting < levels := by
  have hlist : ∀ {made : List Message}, (∀ message ∈ made, message.nesting < levels) →
      Message.listValue made = some value → ∀ inner ∈ value.inner, inner.nesting < levels := by
    intro made hmade hvalue
    unfold Message.listValue at hvalue
    split at hvalue
    · cases hvalue
    · cases hvalue
      exact hmade
  generalize hcontent : some value = content at h
  cases h with
  | scalar value_eq =>
    cases hcontent
    rw [(Coercion.fits_toValue? value_eq).2]
    exact nofun
  | nested returns =>
    cases hcontent
    exact returns.nesting
  | array _ returns | list returns => exact hlist returns.nesting hcontent.symm

namespace Sent

/-- Nothing but skipped fields is reported. -/
theorem skipped (h : Sent registry levels back opcode record message items reports) :
    ∀ report ∈ reports, report.isFieldSkipped := by
  induction h with
  | nil => exact nofun
  | skip _ ih => exact List.forall_mem_cons.2 ⟨rfl, ih⟩
  | bind _ sends _ ih =>
    exact fun report hm => (List.mem_append.1 hm).elim (sends.skipped report) (ih report)

theorem exists_sends (h : Sent registry levels back opcode record message items reports) :
    ∀ entry ∈ (Plan.mk items).bound, ∃ slot first,
      Sends registry levels back entry.action slot (message.value? entry.place) first := by
  induction h with
  | nil => exact nofun
  | skip _ ih => exact ih
  | bind _ sends _ ih => exact List.forall_mem_cons.2 ⟨⟨_, _, sends⟩, ih⟩

/-- A message of what was sent nests one level deeper than that. -/
theorem nesting_le (h : Sent registry levels back opcode record message items reports)
    (hframe : ∀ index, (∀ entry ∈ (Plan.mk items).bound, entry.place ≠ index) →
      message.value? index = none) : message.nesting ≤ levels := by
  refine Message.nesting_le fun inner hin => ?_
  obtain ⟨value, hv, hi⟩ := Message.mem_inner.1 hin
  obtain ⟨index, hindex⟩ := List.mem_iff_getElem?.1 hv
  have hvalue : message.value? index = some value := Message.value?_eq_some.2 hindex
  by_cases hplace : ∀ entry ∈ (Plan.mk items).bound, entry.place ≠ index
  · rw [hframe index hplace] at hvalue
    cases hvalue
  · simp only [Classical.not_forall, Classical.not_not] at hplace
    obtain ⟨entry, he, rfl⟩ := hplace
    obtain ⟨slot, first, hsends⟩ := h.exists_sends entry he
    rw [hvalue] at hsends
    exact hsends.nesting inner hi

end Sent

end Walk

end RecordBridge

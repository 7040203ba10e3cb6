import RecordBridge.Codec.Basic
import RecordBridge.Proofs.Codec.Walk
import RecordBridge.Proofs.Record.Built
import RecordBridge.Proofs.Registry.Coercion
/-!
# Outcomes of a conversion

Both directions write what a plan of a sound registry asks for: a record takes
the slots that its layout has fields for (`writes_toRecord`), a message the
values that its schema has (`writes_toMessage`). So a conversion gives nothing,
or a result of the opcode, or stops at a limit; no record, message or plan is
ever found wanting (`toMessage_fromMessage_outcome`).
-/
namespace RecordBridge

/-! ## The outputs of an opcode -/

/-- A sound record of the layout of an opcode. -/
def Record.Of (registry : Registry) (opcode : UInt16) (record : Record) : Prop :=
  registry.layout? opcode = some record.layout ∧ record.Sound registry.layouts

/-- A sound message of the schema of an opcode. -/
def Message.Of (registry : Registry) (opcode : UInt16) (message : Message) : Prop :=
  registry.schema? opcode = some message.schema ∧ message.Sound registry.schemas

variable {registry : Registry} {opcode : UInt16} {layout : Layout} {schema : Schema} {plan : Plan}

namespace Registry.Binding

theorem record_of_iff (hb : registry.Binding opcode layout schema plan) (h : registry.Sound)
    {record : Record} :
    record.Of registry opcode ↔ record.layout = layout ∧ record.Sound registry.layouts := by
  rw [Record.Of, hb.layout?_eq h, Option.some.injEq, eq_comm]

theorem message_of_iff (hb : registry.Binding opcode layout schema plan) (h : registry.Sound)
    {message : Message} :
    message.Of registry opcode ↔ message.schema = schema ∧ message.Sound registry.schemas := by
  rw [Message.Of, hb.schema?_eq h, Option.some.injEq, eq_comm]

end Registry.Binding

theorem Record.Of.binding (h : registry.Sound) {record : Record}
    (hr : record.Of registry opcode) :
    ∃ schema plan, registry.Binding opcode record.layout schema plan := by
  obtain ⟨descriptor, hd, -⟩ := Option.bind_eq_some_iff.1 hr.1
  obtain ⟨row, hrow, -⟩ := Option.map_eq_some_iff.1 hd
  obtain ⟨layout, schema, hb⟩ := h.binding_of_row? hrow
  exact ⟨schema, row.plan, ((hb.record_of_iff h).1 hr).1 ▸ hb⟩

/-- Records of the opcode that carries a layout are of that layout. -/
theorem Record.Of.layoutId_eq (h : registry.Sound) {id : LayoutId} {found : Descriptor}
    (hc : Descriptor.carrier? registry.descriptors id = some found) {record : Record}
    (hr : record.Of registry found.opcode) : record.layoutId = id := by
  obtain ⟨_, _, _, hb, hid, -⟩ := h.binding_of_carrier? hc
  rw [layoutId, ((hb.record_of_iff h).1 hr).1, hid]

/-- The opcode that carries a layout carries all its records. -/
theorem Record.of_layoutId_eq (h : registry.Sound) {id : LayoutId} {found : Descriptor}
    (hc : Descriptor.carrier? registry.descriptors id = some found) {record : Record}
    (hr : record.Sound registry.layouts) (hid : record.layoutId = id) :
    record.Of registry found.opcode := by
  obtain ⟨_, _, _, hb, hid', -⟩ := h.binding_of_carrier? hc
  exact (hb.record_of_iff h).2
    ⟨h.layouts.eq_of_id_eq hr.known hb.layout_mem (hid.trans hid'.symm), hr⟩

/-- Messages of the opcode that carries a layout are of its descriptor's schema. -/
theorem Message.Of.schemaId_eq (h : registry.Sound) {id : LayoutId} {found : Descriptor}
    (hc : Descriptor.carrier? registry.descriptors id = some found) {message : Message}
    (hm : message.Of registry found.opcode) : message.schemaId = found.schema := by
  obtain ⟨_, _, _, hb, -, hid⟩ := h.binding_of_carrier? hc
  rw [schemaId, ((hb.message_of_iff h).1 hm).1, hid]

/-! ## Writing records -/

/-- A record of an opcode takes slots that fit. -/
theorem Record.Of.exists_setSlot (h : registry.Sound)
    (hb : registry.Binding opcode layout schema plan) {record : Record}
    (hr : record.Of registry opcode) {index : Nat} {slot : Slot} {field : Layout.Field}
    (hf : layout.fields[index]? = some field) (hfit : slot.fits field.kind)
    (hin : ∀ inner ∈ slot.inner, inner.Sound registry.layouts) :
    ∃ next, (record.setSlot index slot).mapError CodecError.layout = .ok next ∧
      next.Of registry opcode := by
  obtain ⟨rfl, hsound⟩ := (hb.record_of_iff h).1 hr
  have hset := setSlot_eq_ok_iff.2 ⟨field, hf, hfit, rfl⟩
  exact ⟨_, mapError_eq_ok.2 hset, (hb.record_of_iff h).2 ⟨rfl, hsound.setSlot hin hset⟩⟩

/-- Nodes of a layout that lists are made of have a link. -/
theorem LayoutSet.Sound.isSome_linkIndex? {set : LayoutSet} (h : set.Sound) {layout node : Layout}
    (hm : layout ∈ set.layouts) {field : Layout.Field} (hf : field ∈ layout.fields) {id : LayoutId}
    (hk : field.kind = .list id) (hn : node ∈ set.layouts) (hid : node.id = id) :
    node.linkIndex?.isSome := by
  have hkind := (h.fields layout hm).kinds field hf
  rw [hk] at hkind
  obtain ⟨found, hfound, hlink⟩ := hkind
  obtain ⟨hfm, hfid⟩ := mem_of_find?_key hfound
  rwa [h.eq_of_id_eq hn hfm (hid.trans hfid.symm)]

namespace Direction

/-- A record takes whatever its plan carries. -/
theorem writes_toRecord (h : registry.Sound) :
    Direction.Writes .toRecord registry (Record.Of registry) where
  fresh hb := by
    obtain ⟨record, hr, hsound, hlayout⟩ := hb.exists_record? h
    exact ⟨record, hr, (hb.record_of_iff h).2 ⟨hlayout, hsound⟩⟩
  blank hb := ⟨_, hb.message?_eq h⟩
  scalar := by
    intro opcode layout schema plan entry coercion output hb he ha ho source
    obtain ⟨field, found, hentry⟩ := hb.entry_sound he
    obtain ⟨hk, -⟩ := Coercion.select_eq_ok_iff.1 (hentry.scalar ha)
    simp only [toRecord]
    cases ht : coercion.toSlot? (source.value? entry.messageIndex) with
    | none => exact ⟨output, rfl, ho⟩
    | some slot =>
      obtain ⟨hfit, hin⟩ := Coercion.fits_toSlot? hk ht
      exact ho.exists_setSlot h hb hentry.record hfit (by rw [hin]; exact List.forall_mem_nil _)
  putChild := by
    intro opcode layout schema plan entry inner child output hb he ha hc ho
    obtain ⟨field, found, hentry⟩ := hb.entry_sound he
    obtain ⟨id, carrier, hk, hcarrier, rfl, -⟩ := hentry.nested ha
    have hfit : (Slot.record child).fits found.kind :=
      hk ▸ Slot.fits_nested_iff.2 ⟨child, rfl, hc.layoutId_eq h hcarrier⟩
    exact ho.exists_setSlot h hb hentry.record hfit (List.forall_mem_singleton.2 hc.2)
  putElements := by
    intro opcode layout schema plan entry inner count target elements output hb he ha hlen hall ho
    obtain ⟨field, found, hentry⟩ := hb.entry_sound he
    obtain ⟨id, size, carrier, hk, rfl, hcarrier, rfl, -⟩ := hentry.array ha
    have hfit : (Slot.array elements).fits found.kind := hk ▸ Slot.fits_array_iff.2
      ⟨elements, rfl, hlen, fun element hm => (hall element hm).layoutId_eq h hcarrier⟩
    exact ho.exists_setSlot h hb hentry.record hfit fun element hm => (hall element hm).2
  putNodes := by
    intro opcode layout schema plan entry inner target nodes output hb he ha hall ho
    obtain ⟨field, found, hentry⟩ := hb.entry_sound he
    obtain ⟨id, carrier, hk, -, hcarrier, rfl, -⟩ := hentry.list ha
    obtain ⟨rfl, hsound⟩ := (hb.record_of_iff h).1 ho
    have hnodes : ∀ node ∈ nodes, node.layoutId = id ∧ node.layout.linkIndex?.isSome := by
      intro node hm
      have hid := (hall node hm).layoutId_eq h hcarrier
      exact ⟨hid, h.layouts.isSome_linkIndex? hsound.known (List.mem_of_getElem? hentry.record) hk
        (hall node hm).2.known hid⟩
    have hset := Record.setListAt_eq_ok_iff.2 ⟨found, id, hentry.record, hk, hnodes, rfl⟩
    exact ⟨_, mapError_eq_ok.2 hset, (hb.record_of_iff h).2
      ⟨rfl, hsound.setListAt (fun node hm => (hall node hm).2) hset⟩⟩

end Direction

/-! ## Writing messages -/

/-- Elements that fit a field can be appended to it. -/
theorem Message.exists_appendAt {message : Message} {index : Nat} {elements : List Message}
    {field : Schema.Field} (hf : message.schema.fields[index]? = some field)
    (hfit : (Value.list elements).fits field.type) :
    ∃ changed, message.appendAt index elements = .ok changed ∧
      changed.schema = message.schema := by
  unfold appendAt
  split
  · exact ⟨message, rfl, rfl⟩
  · rw [check_eq_ok_iff.2 ⟨field, hf, hfit⟩]
    exact ⟨message.put index _, rfl, rfl⟩

/-- A message of an opcode takes values that fit. -/
theorem Message.Of.exists_setAt (h : registry.Sound)
    (hb : registry.Binding opcode layout schema plan) {message : Message}
    (hm : message.Of registry opcode) {index : Nat} {value : Value} {field : Schema.Field}
    (hf : schema.fields[index]? = some field) (hfit : value.fits field.type)
    (hin : ∀ inner ∈ value.inner, inner.Sound registry.schemas) :
    ∃ next, (message.setAt index value).mapError CodecError.message = .ok next ∧
      next.Of registry opcode := by
  obtain ⟨rfl, hsound⟩ := (hb.message_of_iff h).1 hm
  have hset := setAt_eq_ok_iff.2 ⟨check_eq_ok_iff.2 ⟨field, hf, hfit⟩, rfl⟩
  exact ⟨_, mapError_eq_ok.2 hset, (hb.message_of_iff h).2 ⟨rfl, hsound.setAt hin hset⟩⟩

/-- A message of an opcode takes elements of the schema that its field repeats. -/
theorem Message.Of.exists_appendAt (h : registry.Sound)
    (hb : registry.Binding opcode layout schema plan) {message : Message}
    (hm : message.Of registry opcode) {target : Nat} {id : LayoutId} {carrier : Descriptor}
    (hc : Descriptor.carrier? registry.descriptors id = some carrier)
    (ht : schema.fields[target]?.map (·.type) = some (.repeated carrier.schema))
    {elements : List Message} (hall : ∀ element ∈ elements, element.Of registry carrier.opcode) :
    ∃ next, (message.appendAt target elements).mapError CodecError.message = .ok next ∧
      next.Of registry opcode := by
  obtain ⟨rfl, hsound⟩ := (hb.message_of_iff h).1 hm
  obtain ⟨field, hf, htype⟩ := Option.map_eq_some_iff.1 ht
  have hfit : (Value.list elements).fits field.type := by
    simp only [htype, Value.fits, List.all_eq_true, beq_iff_eq]
    exact fun element he => (hall element he).schemaId_eq h hc
  obtain ⟨next, hnext, hschema⟩ := Message.exists_appendAt hf hfit
  exact ⟨next, mapError_eq_ok.2 hnext, (hb.message_of_iff h).2
    ⟨hschema, hsound.appendAt (fun element he => (hall element he).2) hnext⟩⟩

namespace Direction

/-- A message takes whatever its plan carries. -/
theorem writes_toMessage (h : registry.Sound) :
    Direction.Writes .toMessage registry (Message.Of registry) where
  fresh hb := ⟨_, hb.message?_eq h,
    (hb.message_of_iff h).2 ⟨rfl, Message.sound_blank hb.schema_mem⟩⟩
  blank hb := by
    obtain ⟨record, hr, -⟩ := hb.exists_record? h
    exact ⟨record, hr⟩
  scalar := by
    intro opcode layout schema plan entry coercion output hb he ha ho source
    obtain ⟨field, found, hentry⟩ := hb.entry_sound he
    obtain ⟨-, htype⟩ := Coercion.select_eq_ok_iff.1 (hentry.scalar ha)
    simp only [toMessage]
    cases ht : (source.slot? entry.recordIndex).bind coercion.toValue? with
    | none => exact ⟨output, rfl, ho⟩
    | some value =>
      obtain ⟨slot, -, hv⟩ := Option.bind_eq_some_iff.1 ht
      obtain ⟨hfit, hin⟩ := Coercion.fits_toValue? hv
      exact ho.exists_setAt h hb hentry.message (htype ▸ hfit)
        (by rw [hin]; exact List.forall_mem_nil _)
  putChild := by
    intro opcode layout schema plan entry inner child output hb he ha hc ho
    obtain ⟨field, found, hentry⟩ := hb.entry_sound he
    obtain ⟨id, carrier, -, hcarrier, rfl, htype⟩ := hentry.nested ha
    refine ho.exists_setAt h hb hentry.message ?_ (List.forall_mem_singleton.2 hc.2)
    simp [htype, Value.fits, hc.schemaId_eq h hcarrier]
  putElements := by
    intro opcode layout schema plan entry inner count target elements output hb he ha _ hall ho
    obtain ⟨field, found, hentry⟩ := hb.entry_sound he
    obtain ⟨id, size, carrier, -, -, hcarrier, rfl, htype⟩ := hentry.array ha
    exact ho.exists_appendAt h hb hcarrier htype hall
  putNodes := by
    intro opcode layout schema plan entry inner target nodes output hb he ha hall ho
    obtain ⟨field, found, hentry⟩ := hb.entry_sound he
    obtain ⟨id, carrier, -, -, hcarrier, rfl, htype⟩ := hentry.list ha
    exact ho.exists_appendAt h hb hcarrier htype hall

end Direction

/-! ## The outcome of a conversion -/

/-- Nothing, a result, or the error in its place, and what holds of each. -/
def Codec.Outcome (N : Prop) (P : α → Prop) (E : CodecError → Prop) :
    Except CodecError (Option α) → Prop
  | .ok none => N
  | .ok (some value) => P value
  | .error error => E error

theorem Walk.Ends.outcome {N : Prop} {P : α → Prop} {E : CodecError → Prop} {walk : Walk α}
    {f : α → β} {Q : β → Prop} (h : walk.Ends P E) (hf : ∀ value, P value → Q (f value)) :
    Codec.Outcome N Q E (walk.result.map (some ∘ f)) := by
  unfold Walk.Ends at h
  cases hr : walk.result with
  | ok value => exact hf value (by rwa [hr] at h)
  | error error => rwa [hr] at h

namespace Codec

/-- Converting gives a result of the opcode or stops at a limit; only the lists of
records have one. There is nothing only for an unknown opcode, and for a record
of another layout than the opcode carries. -/
theorem toMessage_fromMessage_outcome {codec : Codec} {layouts : List Layout}
    {schemas : List Schema} {descriptors : List Descriptor}
    (hreg : Registry.ofLists layouts schemas descriptors = .ok codec.registry) (opcode : UInt16)
    (record : Record) (message : Message) :
    Outcome (∀ descriptor, codec.registry.descriptor? opcode = some descriptor →
          record.layoutId ≠ descriptor.layout)
        (fun made => made.Of codec.registry opcode) (CodecError.IsLimit true)
        (codec.toMessage opcode record).result ∧
      Outcome (codec.registry.plan? opcode = none)
        (fun made => made.record.Of codec.registry opcode) (CodecError.IsLimit false)
        (codec.fromMessage opcode message).result := by
  have h := Registry.sound_of_ofLists hreg
  constructor
  · unfold toMessage
    cases hd : codec.registry.descriptor? opcode with
    | none => exact fun _ hnone => by cases hnone
    | some descriptor =>
      obtain ⟨row, hr, rfl⟩ := Option.map_eq_some_iff.1 hd
      obtain ⟨layout, schema, hb⟩ := h.binding_of_row? hr
      by_cases hid : record.layoutId = row.descriptor.layout
      · dsimp only
        rw [if_pos hid]
        exact (Walk.run_ends h (Direction.writes_toMessage h) _ hb record).outcome fun _ hm => hm
      · dsimp only
        rw [if_neg hid]
        intro other ho
        cases ho
        exact hid
  · unfold fromMessage
    cases hp : codec.registry.plan? opcode with
    | none => rfl
    | some plan =>
      obtain ⟨row, hr, rfl⟩ := Option.map_eq_some_iff.1 hp
      obtain ⟨layout, schema, hb⟩ := h.binding_of_row? hr
      exact (Walk.run_ends h (Direction.writes_toRecord h) _ hb message).outcome fun _ hm => hm

end Codec

/-! ### Queues of nodes -/

def queueLayouts : List Layout :=
  [⟨"node", [⟨"name", .fixedText 4⟩, ⟨"count", .int 2 false⟩, ⟨"next", .list "node"⟩]⟩,
    ⟨"queue", [⟨"first", .nested "node"⟩, ⟨"nodes", .list "node"⟩]⟩]

def queueSchemas : List Schema :=
  [⟨"Node", [⟨"name", 1, .string⟩, ⟨"count", 2, .int32⟩]⟩,
    ⟨"Queue", [⟨"first", 1, .message "Node"⟩, ⟨"mark", 2, .bool⟩, ⟨"nodes", 3, .repeated "Node"⟩]⟩]

def queueDescriptors : List Descriptor :=
  [⟨1, "queue", "Queue", none⟩, ⟨2, "node", "Node", none⟩]

/-- Opcode 1 carries queues, and opcode 2 their nodes. -/
def queueCodec : Codec where
  registry.layouts := ⟨queueLayouts, queueLayouts.reverse, [("queue", 22), ("node", 14)], by decide⟩
  registry.schemas := ⟨queueSchemas⟩
  registry.rows :=
    [⟨⟨1, "queue", "Queue", none⟩, ⟨[.bind ⟨0, 0, .nested 2, 14⟩, .skip "mark" .missingField,
        .bind ⟨2, 1, .list 2 2, 8⟩]⟩⟩,
      ⟨⟨2, "node", "Node", none⟩, ⟨[.bind ⟨0, 0, .scalar (.fixedText 4), 4⟩,
        .bind ⟨1, 1, .scalar (.int 2 false), 2⟩]⟩⟩]

def queueNode (name : List UInt8) (count : Int64) (next : Option Record) : Record :=
  .mk ⟨"node", [⟨"name", .fixedText 4⟩, ⟨"count", .int 2 false⟩, ⟨"next", .list "node"⟩]⟩
    [.bytes name, .int count, .link next]

def queueRecord (first : Record) (nodes : Option Record) : Record :=
  .mk ⟨"queue", [⟨"first", .nested "node"⟩, ⟨"nodes", .list "node"⟩]⟩ [.record first, .link nodes]

theorem Codec.outcome_queue :
    Registry.ofLists queueLayouts queueSchemas queueDescriptors = .ok queueCodec.registry ∧
      Codec.Outcome (∀ descriptor, queueCodec.registry.descriptor? 1 = some descriptor →
          (queueNode [65, 0, 66, 255] 7 none).layoutId ≠ descriptor.layout)
        (fun made => made.Of queueCodec.registry 1) (CodecError.IsLimit true)
        (queueCodec.toMessage 1 (queueNode [65, 0, 66, 255] 7 none)).result ∧
      Codec.Outcome (queueCodec.registry.plan? 1 = none)
        (fun made => made.record.Of queueCodec.registry 1) (CodecError.IsLimit false)
        (queueCodec.fromMessage 1 (.blank ⟨"Queue", []⟩)).result :=
  have hreg : Registry.ofLists queueLayouts queueSchemas queueDescriptors =
      .ok queueCodec.registry := by cbv
  ⟨hreg, Codec.toMessage_fromMessage_outcome hreg 1 _ _⟩

end RecordBridge

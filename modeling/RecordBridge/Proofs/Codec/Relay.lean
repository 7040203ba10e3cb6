import RecordBridge.Proofs.Codec.Calls
import RecordBridge.Proofs.Codec.Reads
import RecordBridge.Proofs.Codec.RoundTrip
import RecordBridge.Proofs.Text.FixedBuffer
/-!
# Relays

A relay decodes a payload and encodes the record again. What it decodes, from
whatever bytes, is a record with settled texts (`decode_received`): cut and made
valid once, they are read the same ever after. The normal form of such a record
holds the same for every step of a walk (`prepare_norm`), so it is encoded to the
same frame (`encode_norm`). A second relay decodes that normal form, and passes
on the frame that it got (`relay_stable`).
-/
namespace RecordBridge

/-! ## Settled texts -/

/-- The text of a slot is read the same after it was carried. -/
def Slot.Settled : Slot → Prop
  | .bytes buffer => readText (packText (readText buffer) buffer.length) = readText buffer
  | _ => True

namespace Slot

theorem settled_packText (text : String) (length : Nat) :
    (Slot.bytes (packText text length)).Settled := by
  rw [Settled, length_packText]
  exact readText_packText_readText text length

theorem settled_stored {slot : Slot} (h : slot.Settled) (kind : FieldKind) :
    (slot.stored kind).Settled := by
  cases slot <;> cases kind <;> exact h

theorem settled_zero {zero : LayoutId → Except LayoutError Record} {kind : FieldKind} {slot : Slot}
    (h : Slot.zero zero kind = .ok slot) : slot.Settled := by
  cases kind with
  | fixedText =>
    cases h
    rw [← packText_empty]
    exact settled_packText "" _
  | textRows =>
    obtain ⟨size, -, h⟩ := bind_eq_ok.1 h
    cases h
    rw [← packText_empty]
    exact settled_packText "" _
  | int | bool | ownedText | list => cases h; trivial
  | nested | array =>
    obtain ⟨inner, -, h⟩ := bind_eq_ok.1 h
    cases h
    trivial

end Slot

namespace Coercion

variable {coercion : Coercion} {slot : Slot}

/-- What comes from a message is settled. -/
theorem settled_toSlot? {value : Option Value} (h : coercion.toSlot? value = some slot) :
    slot.Settled := by
  cases coercion with
  | fixedText length =>
    rcases value with _ | value
    · cases h
      rw [← packText_empty]
      exact Slot.settled_packText "" length
    · cases value <;> cases h
      exact Slot.settled_packText _ length
  | int | bool | ownedText =>
    rcases value with _ | value
    · cases h; trivial
    · cases value <;> cases h; trivial

/-- What is settled is sent on as it was. -/
theorem toValue?_carried (h : slot.Settled) :
    coercion.toValue? slot.carried = coercion.toValue? slot := by
  cases slot with
  | bytes buffer =>
    cases coercion with
    | fixedText length => exact congrArg (fun text => some (Value.string text)) h
    | int | bool | ownedText => rfl
  | text held =>
    cases coercion with
    | ownedText =>
      cases held with
      | none => simp [Slot.carried, toValue?, untilNul_empty]
      | some text => simp [Slot.carried, toValue?, untilNul_untilNul]
    | int | bool | fixedText => rfl
  | _ => rfl

end Coercion

/-! ## Received records -/

variable {registry : Registry} {limits : CodecLimits} {opcode : UInt16} {layout : Layout}
  {schema : Schema} {plan : Plan}

/-- A record as it is received for an opcode: sound, and settled down to the innermost. -/
structure Record.Received (registry : Registry) (opcode : UInt16) (record : Record) : Prop where
  of : record.Of registry opcode
  settled : record.AllSlots Slot.Settled

namespace Record

theorem AllSlots.setSlot_settled {record next : Record} (h : record.AllSlots Slot.Settled)
    {index : Nat} {slot : Slot} (hslot : slot.Settled)
    (hin : ∀ inner ∈ slot.inner, inner.AllSlots Slot.Settled)
    (hset : (record.setSlot index slot).mapError CodecError.layout = .ok next) :
    next.AllSlots Slot.Settled := by
  obtain ⟨field, -, -, rfl⟩ := setSlot_eq_ok_iff.1 (mapError_eq_ok.1 hset)
  exact h.put (Slot.settled_stored hslot field.kind) (by rwa [Slot.inner_stored])

/-- What a slot of a received record brings was received, too. -/
theorem Received.mem_parts (h : registry.Sound) {record : Record}
    (hb : registry.Binding opcode record.layout schema plan)
    (hrecord : record.Received registry opcode) {entry : Plan.Entry} (he : entry ∈ plan.bound)
    {slot : Slot} (hslot : record.slot? entry.recordIndex = some slot) {inner : UInt16}
    (ha : entry.action.inner? = some inner) : ∀ part ∈ slot.parts, part.Received registry inner :=
  fun part hm => ⟨Walk.of_mem_parts h hb hrecord.of.2 he hslot ha part hm,
    hrecord.settled.mem_parts hslot part hm⟩

end Record

/-- Whatever the message, a walk makes records of the kind that is received. -/
theorem Direction.writes_received (h : registry.Sound) :
    Direction.Writes .toRecord registry (Record.Received registry) where
  fresh hb := by
    obtain ⟨record, hfresh, hof⟩ := (writes_toRecord h).fresh hb
    exact ⟨record, hfresh, hof,
      Record.allSlots_of_record? (fun _ _ _ => Slot.settled_zero) hfresh⟩
  blank := (writes_toRecord h).blank
  scalar := by
    intro opcode layout schema plan entry coercion output hb he ha ho source
    obtain ⟨next, hnext, hof⟩ := (writes_toRecord h).scalar hb he ha ho.of source
    refine ⟨next, hnext, hof, ?_⟩
    obtain ⟨field, found, hentry⟩ := hb.entry_sound he
    obtain ⟨hk, -⟩ := Coercion.select_eq_ok_iff.1 (hentry.scalar ha)
    simp only [toRecord] at hnext
    cases ht : coercion.toSlot? (source.value? entry.messageIndex) with
    | none =>
      rw [ht] at hnext
      cases hnext
      exact ho.settled
    | some slot =>
      rw [ht] at hnext
      refine ho.settled.setSlot_settled (Coercion.settled_toSlot? ht) ?_ hnext
      rw [(Coercion.fits_toSlot? hk ht).2]
      exact List.forall_mem_nil _
  putChild := by
    intro opcode layout schema plan entry inner child output hb he ha hc ho
    obtain ⟨next, hnext, hof⟩ := (writes_toRecord h).putChild hb he ha hc.of ho.of
    refine ⟨next, hnext, hof, ho.settled.setSlot_settled ?_ ?_ hnext⟩
    · trivial
    · exact List.forall_mem_singleton.2 hc.settled
  putElements := by
    intro opcode layout schema plan entry inner count target elements output hb he ha hlen hall ho
    obtain ⟨next, hnext, hof⟩ := (writes_toRecord h).putElements hb he ha hlen
      (fun element hm => (hall element hm).of) ho.of
    refine ⟨next, hnext, hof, ho.settled.setSlot_settled ?_ ?_ hnext⟩
    · trivial
    · exact fun element hm => (hall element hm).settled
  putNodes := by
    intro opcode layout schema plan entry inner target nodes output hb he ha hall ho
    obtain ⟨next, hnext, hof⟩ := (writes_toRecord h).putNodes hb he ha
      (fun node hm => (hall node hm).of) ho.of
    refine ⟨next, hnext, hof, ?_⟩
    obtain ⟨_, _, -, -, -, rfl⟩ := Record.setListAt_eq_ok_iff.1 (mapError_eq_ok.1 hnext)
    refine ho.settled.put trivial fun head hhead => ?_
    exact Record.AllSlots.linkUp (fun _ => trivial) (fun node hm => (hall node hm).settled)
      (Option.mem_toList.1 hhead)

/-! ## Normal forms of received records -/

namespace Walk

/-- The nodes of a list in normal form are converted as the nodes of the list are. -/
theorem run_nodes_norm (h : registry.Sound) {levels : Nat} {inner : UInt16} {nodes : List Record}
    (hnodes : ∀ node ∈ nodes, node.Of registry inner ∧ node.layout.linkIndex?.isSome ∧
      run .toMessage registry limits levels inner (node.norm registry inner) =
        run .toMessage registry limits levels inner node) :
    List.Forall₂ (fun linked node => run .toMessage registry limits levels inner linked =
        run .toMessage registry limits levels inner node)
      (Record.nodesOf (.link (Record.linkUp (nodes.map (Record.norm registry inner))))) nodes := by
  have hlinks : ∀ node ∈ nodes.map (Record.norm registry inner),
      ∃ link, node.layout.linkIndex? = some link ∧ link < node.slots.length := by
    intro node hm
    obtain ⟨origin, ho, rfl⟩ := List.mem_map.1 hm
    obtain ⟨hof, hlink, -⟩ := hnodes origin ho
    obtain ⟨schema, plan, hb⟩ := hof.binding h
    rw [Record.layout_norm h hb, Record.length_norm h hb, ← hof.2.fits.length]
    exact hof.2.exists_link hlink
  have hrelinked := List.forall₂_map_left_iff.1 (Record.nodesOf_linkUp hlinks)
  have hpairs := (List.forall₂_and_left _ _).2 ⟨hnodes, hrelinked⟩
  refine (hpairs.imp fun node linked hpair => ?_).flip
  obtain ⟨⟨hof, -, hnorm⟩, hlinked⟩ := hpair
  obtain ⟨schema, plan, hb⟩ := hof.binding h
  exact (run_relinked h (Record.layout_norm h hb node ▸ hb) levels hlinked).trans hnorm

/-- A step reads a normal form as it reads the record. -/
theorem prepare_norm (h : registry.Sound) {record : Record}
    (hb : registry.Binding opcode record.layout schema plan)
    (hrecord : record.Received registry opcode) {levels : Nat}
    (hinner : ∀ {inner : UInt16} {part : Record}, part.Received registry inner →
      run .toMessage registry limits levels inner (part.norm registry inner) =
        run .toMessage registry limits levels inner part)
    {entry : Plan.Entry} (he : entry ∈ plan.bound) :
    prepare .toMessage registry limits (run .toMessage registry limits levels) opcode
        (record.norm registry opcode) entry =
      prepare .toMessage registry limits (run .toMessage registry limits levels) opcode record
        entry := by
  obtain ⟨slot, hslot, hnorm⟩ := Record.slot?_norm h hb hrecord.of.2 he
  obtain ⟨field, found, hentry⟩ := hb.entry_sound he
  have hfits := (hrecord.of.2.fits.suits _ found slot hentry.record hslot).fits
  have hparts : ∀ {inner : UInt16}, entry.action.inner? = some inner →
      ∀ part ∈ slot.parts, part.Received registry inner := hrecord.mem_parts h hb he hslot
  unfold prepare
  cases ha : entry.action with
  | scalar coercion =>
    have hcarried : slot.norm registry entry.action = slot.carried := by rw [ha]; rfl
    rw [hcarried] at hnorm
    dsimp only
    congr 1
    funext output
    simp only [Direction.toMessage, hnorm, hslot, Option.bind_some,
      Coercion.toValue?_carried (hrecord.settled.of_slot? hslot)]
  | nested inner =>
    obtain ⟨id, carrier, hk, -⟩ := hentry.nested ha
    obtain ⟨child, rfl, -⟩ := Slot.fits_nested_iff.1 (hk ▸ hfits)
    have hchild : (Slot.record child).norm registry entry.action =
        .record (child.norm registry inner) := by rw [ha]; rfl
    rw [hchild] at hnorm
    have hsame := hinner (hparts (by rw [ha]; rfl) child (List.mem_singleton.2 rfl))
    dsimp only
    rw [child_toMessage inner hnorm, child_toMessage inner hslot, pure_bind_eq, pure_bind_eq,
      hsame]
  | array inner count target =>
    obtain ⟨id, size, carrier, hk, -⟩ := hentry.array ha
    obtain ⟨elements, rfl, -⟩ := Slot.fits_array_iff.1 (hk ▸ hfits)
    rw [ha, Slot.norm_array] at hnorm
    have hof := hparts (by rw [ha]; rfl)
    have hsame : each (run .toMessage registry limits levels inner)
          ((elements.map (Record.norm registry inner)).take count) =
        each (run .toMessage registry limits levels inner) (elements.take count) := by
      rw [← List.map_take]
      refine each_congr (List.forall₂_map_left_iff.2 (List.forall₂_same.2 fun element hm => ?_))
      exact hinner (hof element (List.mem_of_mem_take hm))
    simp only [elements_toMessage target hnorm, elements_toMessage target hslot, List.length_map,
      hsame]
  | list inner target =>
    obtain ⟨id, carrier, hk, -, hcarrier, rfl, -⟩ := hentry.list ha
    obtain ⟨head, rfl, -⟩ := Slot.fits_list_iff.1 (hk ▸ hfits)
    rw [ha, Slot.norm_list] at hnorm
    have hof : ∀ node ∈ Record.nodesOf (.link head), node.Received registry carrier.opcode :=
      hparts (by rw [ha]; rfl)
    have hnodes := run_nodes_norm h fun node hm => ⟨(hof node hm).of,
      h.layouts.isSome_linkIndex? hrecord.of.2.known (List.mem_of_getElem? hentry.record) hk
        (hof node hm).of.2.known ((hof node hm).of.layoutId_eq h hcarrier),
      hinner (hof node hm)⟩
    simp only [nodes_toMessage target hnorm, nodes_toMessage target hslot, hnodes.length_eq,
      each_congr hnodes]

/-- A normal form is converted as the record is. -/
theorem run_norm (h : registry.Sound) : ∀ (levels : Nat) {opcode : UInt16} {record : Record},
    record.Received registry opcode →
    run .toMessage registry limits levels opcode (record.norm registry opcode) =
      run .toMessage registry limits levels opcode record
  | 0, _, _, _ => rfl
  | levels + 1, opcode, record, hrecord => by
    obtain ⟨schema, plan, hb⟩ := hrecord.of.binding h
    have hp := hb.plan?_eq h
    rw [run, run]
    congr 1
    funext output
    rw [fill_succ levels _ output hp, fill_succ levels _ output hp]
    refine congrArg Filled.toWalk (fillItems_congr (fun entry he output => ?_) output)
    rw [carry_eq_prepare, carry_eq_prepare,
      prepare_norm h hb hrecord (fun hpart => run_norm h levels hpart) (Plan.mem_bound.2 he)]

end Walk

namespace Codec

variable {codec : Codec} {record : Record} {payload frame : List UInt8}

/-- A normal form is encoded as the record is. -/
theorem encode_norm (h : codec.registry.Sound) (hrecord : record.Received codec.registry opcode) :
    codec.encode opcode (record.norm codec.registry opcode) = codec.encode opcode record := by
  obtain ⟨schema, plan, hb⟩ := hrecord.of.binding h
  have hid : (record.norm codec.registry opcode).layoutId = record.layoutId := by
    rw [Record.layoutId, Record.layout_norm h hb, Record.layoutId]
  have hsame : codec.toMessage opcode (record.norm codec.registry opcode) =
      codec.toMessage opcode record := by
    unfold toMessage
    simp only [hid, Walk.run_norm h _ hrecord]
  unfold encode
  rw [hsame]

/-- Whatever the payload, the record decoded from it is one that is received. -/
theorem decode_received (h : codec.registry.Sound)
    (hb : codec.registry.Binding opcode layout schema plan) (payload : List UInt8) :
    (codec.decode opcode payload).result.record.Received codec.registry opcode := by
  obtain ⟨zero, hz, hzero⟩ := (Direction.writes_received h).fresh hb
  generalize hm : Message.decode codec.registry.schemas schema payload = read
  obtain ⟨message, fault⟩ := read
  have hfill : (Walk.fill .toRecord codec.registry codec.limits (codec.limits.maxDepth + 1) opcode
      message zero).output.Received codec.registry opcode :=
    (Walk.fill_ends h (Direction.writes_received h) _ hb message hzero).1
  rw [decode_eq (hb.schema?_eq h) (hb.plan?_eq h) hz hm rfl]
  exact hfill

/-- A frame of a sound record is decoded to the normal form of the record. -/
theorem decode_frame_eq_norm (h : codec.registry.Sound)
    (htargets : ∀ row ∈ codec.registry.rows,
      (row.plan.bound.filterMap (·.action.target?)).Nodup)
    (hdepth : codec.limits.maxDepth ≤ 100) (hlimit : codec.frameLimit ≤ unlimited)
    (hrecord : record.Of codec.registry opcode)
    (hencode : (codec.encode opcode record).result = .ok (some frame)) :
    (codec.decode opcode (frame.drop 2)).result.record = record.norm codec.registry opcode := by
  obtain ⟨message, hmessage, -, hsize, hpayload⟩ := encode_eq_ok hencode
  have hthere := run_of_toMessage hmessage
  obtain ⟨schema, plan, hb⟩ := hrecord.binding h
  have hback := Walk.mirrors_run h htargets _ hrecord hthere
  obtain ⟨zero, hzero, hfill⟩ := Walk.run_eq_ok_iff.1 hback.eq
  obtain ⟨rfl, hsound⟩ :=
    (hb.message_of_iff h).1 (Walk.of_run h (Direction.writes_toMessage h) hb hthere)
  have hnesting := hback.nesting message (List.mem_singleton.2 rfl)
  have hdecode := hsound.decode_encode h.schemas (by rw [nestingLimit]; omega)
    (by simp only [unlimited, UInt64.size, opcodeSize] at hlimit hsize ⊢; omega)
  rw [hpayload, decode_eq (hb.schema?_eq h) (hb.plan?_eq h) hzero hdecode hfill]

/-- Once a payload was relayed, relaying it again changes no byte: the frame that is
encoded of the record decoded from it is encoded again of the record decoded from
that frame. The payload may be any bytes, also none that are a message. -/
theorem relay_stable {layouts : List Layout} {schemas : List Schema}
    {descriptors : List Descriptor}
    (hreg : Registry.ofLists layouts schemas descriptors = .ok codec.registry)
    (htargets : ∀ row ∈ codec.registry.rows,
      (row.plan.bound.filterMap (·.action.target?)).Nodup)
    (hdepth : codec.limits.maxDepth ≤ 100) (hlimit : codec.frameLimit ≤ unlimited)
    (hrelay : (codec.encode opcode (codec.decode opcode payload).result.record).result =
      .ok (some frame)) :
    (codec.encode opcode (codec.decode opcode (frame.drop 2)).result.record).result =
      .ok (some frame) := by
  have h := Registry.sound_of_ofLists hreg
  cases hd : codec.registry.descriptor? opcode with
  | none => simp [encode, toMessage, hd] at hrelay
  | some descriptor =>
    obtain ⟨row, hrow, -⟩ := Option.map_eq_some_iff.1 hd
    obtain ⟨layout, schema, hb⟩ := h.binding_of_row? hrow
    have hreceived := decode_received h hb payload
    rw [decode_frame_eq_norm h htargets hdepth hlimit hreceived.of hrelay,
      encode_norm h hreceived, hrelay]

end Codec

/-- What is read of a queue whose payload breaks off in its second field. -/
def brokenQueue : Message :=
  .mk ⟨"Queue", [⟨"first", 1, .message "Node"⟩, ⟨"mark", 2, .bool⟩, ⟨"nodes", 3, .repeated "Node"⟩]⟩
    [none, none, some (.list [.mk ⟨"Node", [⟨"name", 1, .string⟩, ⟨"count", 2, .int32⟩]⟩
      [none, some (.int32 7)]])]

/-- A payload that breaks off is relayed as what was read of it, and so on. -/
theorem Codec.relay_stable_brokenQueue :
    Registry.ofLists queueLayouts queueSchemas queueDescriptors = .ok queueCodec.registry ∧
      (∀ row ∈ queueCodec.registry.rows,
        (row.plan.bound.filterMap (·.action.target?)).Nodup) ∧
      queueCodec.limits.maxDepth ≤ 100 ∧ queueCodec.frameLimit ≤ unlimited ∧
      (queueCodec.encode 1
        (queueCodec.decode 1 [26, 2, 16, 7, 10, 3]).result.record).result =
          .ok (some [1, 0, 10, 0, 26, 2, 16, 7]) ∧
      (queueCodec.encode 1 (queueCodec.decode 1 [10, 0, 26, 2, 16, 7]).result.record).result =
          .ok (some [1, 0, 10, 0, 26, 2, 16, 7]) := by
  have hreg : Registry.ofLists queueLayouts queueSchemas queueDescriptors =
      .ok queueCodec.registry := by cbv
  have htargets : ∀ row ∈ queueCodec.registry.rows,
      (row.plan.bound.filterMap (·.action.target?)).Nodup := by decide
  have hdepth : queueCodec.limits.maxDepth ≤ 100 := by decide
  have hlimit : queueCodec.frameLimit ≤ unlimited := by decide
  have hs : queueCodec.registry.schema? 1 = some brokenQueue.schema := rfl
  have hp : queueCodec.registry.plan? 1 = some _ := rfl
  have hz : queueCodec.registry.record? 1 =
      some (queueRecord (queueNode [0, 0, 0, 0] 0 none) none) := rfl
  have hread : (Message.decode queueCodec.registry.schemas brokenQueue.schema
      [26, 2, 16, 7, 10, 3]).1 = brokenQueue := by cbv
  have hfill : Walk.fill .toRecord queueCodec.registry queueCodec.limits 33 1 brokenQueue
      (queueRecord (queueNode [0, 0, 0, 0] 0 none) none) =
    ⟨queueRecord (queueNode [0, 0, 0, 0] 0 none) (some (queueNode [0, 0, 0, 0] 7 none)),
      [.fieldSkipped 1 "mark" .missingField], none⟩ := rfl
  have hdecode := decode_eq hs hp hz (Prod.ext hread rfl) hfill
  have hrelay : (queueCodec.encode 1
      (queueCodec.decode 1 [26, 2, 16, 7, 10, 3]).result.record).result =
        .ok (some [1, 0, 10, 0, 26, 2, 16, 7]) := by
    rw [hdecode]
    cbv
  have hagain := relay_stable hreg htargets hdepth hlimit hrelay
  exact ⟨hreg, htargets, hdepth, hlimit, hrelay, hagain⟩

end RecordBridge

import RecordBridge.Proofs.Codec.Calls
import RecordBridge.Proofs.Codec.Sent
import RecordBridge.Proofs.Message.RoundTrip
/-!
# Sending a record there and back

What was sent is found again in the canonical message, entry by entry
(`carry_back`), so conversions that mirror each other one level further in do so
at this level (`mirrors_run`). With messages coming back in canonical form, a
frame decodes to the normal form of the record it was encoded from
(`decode_encode_norm`).
-/
namespace RecordBridge

variable {registry : Registry} {limits : CodecLimits} {levels : Nat} {opcode : UInt16}
  {layout : Layout} {schema : Schema} {plan : Plan} {back : UInt16 → Message → Walk Record}
  {reports : List Diagnostic}

namespace Walk

section

variable {entry : Plan.Entry} {field : Schema.Field} {found : Layout.Field} {message : Message}
  {output : Record}

/-- A slot that fits the field of an entry is put there. -/
theorem setSlot_eq_put (hentry : entry.Sound registry.descriptors layout schema field found)
    (ho : output.layout = layout) {made : Slot} (hfit : made.fits found.kind) :
    (output.setSlot entry.recordIndex made).mapError CodecError.layout =
      .ok (output.put entry.recordIndex (made.stored found.kind)) :=
  mapError_eq_ok.2 (Record.setSlot_eq_ok_iff.2 ⟨found, ho ▸ hentry.record, hfit, rfl⟩)

theorem carry_scalar_back (hentry : entry.Sound registry.descriptors layout schema field found)
    {coercion : Coercion} (ha : entry.action = .scalar coercion) {slot : Slot}
    (hsuits : slot.Suits found.kind) {value : Value} (hvalue : coercion.toValue? slot = some value)
    (hheld : message.value? entry.messageIndex = some value) (ho : output.layout = layout) :
    carry .toRecord registry limits back opcode message.canon entry output =
      ⟨[], .ok (output.put entry.recordIndex (slot.norm registry (.scalar coercion)))⟩ := by
  obtain ⟨hk, -⟩ := Coercion.select_eq_ok_iff.1 (hentry.scalar ha)
  obtain ⟨value', made, hvalue', hmade, hstored⟩ := Coercion.toSlot?_toValue? hk hsuits
  cases hvalue.symm.trans hvalue'
  have hback : coercion.toSlot? (message.canon.value? entry.messageIndex) = some made := by
    rw [Coercion.toSlot?_canon hheld (Coercion.fits_toValue? hvalue).1, hmade]
  rw [carry_scalar ha]
  simp only [Direction.toRecord, hback,
    setSlot_eq_put hentry ho (Coercion.fits_toSlot? hk hmade).1, hstored]
  rfl

theorem carry_nested_back (h : registry.Sound)
    (hentry : entry.Sound registry.descriptors layout schema field found) {inner : UInt16}
    (ha : entry.action = .nested inner) {child : Record} {made : Message}
    (hheld : message.value? entry.messageIndex = some (.message made))
    (hback : back inner made.canon = ⟨reports, .ok (child.norm registry inner)⟩)
    (ho : output.layout = layout) :
    carry .toRecord registry limits back opcode message.canon entry output =
      ⟨reports, .ok (output.put entry.recordIndex
        ((Slot.record child).norm registry (.nested inner)))⟩ := by
  obtain ⟨id, carrier, hk, hcarrier, rfl, -⟩ := hentry.nested ha
  have hchild : Walk.child .toRecord registry carrier.opcode entry message.canon =
      pure made.canon := by
    simp only [Walk.child, Direction.toRecord, Message.messageAt?_canon,
      Message.messageAt?_eq_some.2 hheld, Option.map_some]
  have hfit : (Slot.record (child.norm registry carrier.opcode)).fits found.kind :=
    hk ▸ Slot.fits_nested_iff.2 ⟨_, rfl, (Record.layout_norm_of_carrier? h hcarrier child).2⟩
  rw [carry_nested ha, hchild, pure_bind_eq, hback, ok_bind_eq]
  simp only [Direction.toRecord, setSlot_eq_put hentry ho hfit, ofExcept, List.append_nil]
  rfl

theorem carry_array_back (h : registry.Sound)
    (hentry : entry.Sound registry.descriptors layout schema field found) {inner : UInt16}
    {count target : Nat} (ha : entry.action = .array inner count target) {elements : List Record}
    {made : List Message} (hcount : made.length = count)
    (hheld : message.value? target = Message.listValue made)
    (hback : each (back inner) (made.map Message.canon) =
      ⟨reports, .ok (elements.map (Record.norm registry inner))⟩)
    (ho : output.layout = layout) :
    carry .toRecord registry limits back opcode message.canon entry output =
      ⟨reports, .ok (output.put entry.recordIndex
        ((Slot.array elements).norm registry (.array inner count target)))⟩ := by
  obtain ⟨id, size, carrier, hk, rfl, hcarrier, rfl, -⟩ := hentry.array ha
  have helements : Direction.toRecord.elements entry target message.canon =
      made.map Message.canon := by
    rw [← Message.elementsAt_of_listValue hheld]
    exact Message.elementsAt_canon message target
  have hlength := length_each hback
  rw [List.length_map, List.length_map] at hlength
  have hfit : (Slot.array (elements.map (Record.norm registry carrier.opcode))).fits
      found.kind := by
    refine hk ▸ Slot.fits_array_iff.2 ⟨_, rfl, by simp [hlength, hcount], fun element hm => ?_⟩
    obtain ⟨record, -, rfl⟩ := List.mem_map.1 hm
    exact (Record.layout_norm_of_carrier? h hcarrier record).2
  -- as many elements as the array has places, so none is dropped and none is added
  rw [carry_array ha, helements, if_neg (by simp [hcount]), pure_bind_eq,
    List.take_of_length_le (by simp [hcount]), hback, ok_bind_eq, padding,
    if_pos (by simp [hlength, hcount]), pure_bind_eq, List.append_nil]
  simp only [Direction.toRecord, setSlot_eq_put hentry ho hfit, ofExcept, List.append_nil,
    Slot.norm_array]
  rfl

theorem carry_list_back (h : registry.Sound) (hlayout : layout ∈ registry.layouts.layouts)
    (hentry : entry.Sound registry.descriptors layout schema field found) {inner : UInt16}
    {target : Nat} (ha : entry.action = .list inner target) {head : Option Record}
    {made : List Message} (hheld : message.value? target = Message.listValue made)
    (hback : each (back inner) (made.map Message.canon) =
      ⟨reports, .ok ((Record.nodesOf (.link head)).map (Record.norm registry inner))⟩)
    (ho : output.layout = layout) :
    carry .toRecord registry limits back opcode message.canon entry output =
      ⟨reports, .ok (output.put entry.recordIndex
        ((Slot.link head).norm registry (.list inner target)))⟩ := by
  obtain ⟨id, carrier, hk, -, hcarrier, rfl, -⟩ := hentry.list ha
  have hnodes : Direction.toRecord.nodes entry target message.canon = made.map Message.canon := by
    rw [← Message.elementsAt_of_listValue hheld]
    exact Message.elementsAt_canon message target
  have hlinks : ∀ node ∈ (Record.nodesOf (.link head)).map (Record.norm registry carrier.opcode),
      node.layoutId = id ∧ node.layout.linkIndex?.isSome := by
    intro node hm
    obtain ⟨record, -, rfl⟩ := List.mem_map.1 hm
    obtain ⟨hnode, hid⟩ := Record.layout_norm_of_carrier? h hcarrier record
    exact ⟨hid, h.layouts.isSome_linkIndex? hlayout (List.mem_of_getElem? hentry.record) hk hnode
      hid⟩
  have hput := Record.setListAt_eq_ok_iff.2 ⟨found, id, ho ▸ hentry.record, hk, hlinks, rfl⟩
  rw [carry_list ha, hnodes, if_neg (by simp [Direction.toRecord]), hback, ok_bind_eq]
  simp only [Direction.toRecord, hput, Except.mapError, ofExcept, List.append_nil, Slot.norm_list]

end

/-- One entry: its place in the message gives the slot back. -/
theorem carry_back (h : registry.Sound) (hb : registry.Binding opcode layout schema plan)
    {source : Record} (hsource : source.Of registry opcode) {entry : Plan.Entry}
    (he : entry ∈ plan.bound) {slot : Slot} (hslot : source.slot? entry.recordIndex = some slot)
    {message : Message}
    (hsends : Sends registry levels back entry.action slot (message.value? entry.place) reports)
    {output : Record} (ho : output.layout = layout) :
    carry .toRecord registry limits back opcode message.canon entry output =
      ⟨reports, .ok (source.restore registry output entry)⟩ := by
  obtain ⟨field, found, hentry⟩ := hb.entry_sound he
  obtain ⟨rfl, hsound⟩ := (hb.record_of_iff h).1 hsource
  rw [Record.restore, hslot]
  unfold Plan.Entry.place at hsends
  generalize ha : entry.action = action at hsends
  generalize hheld : message.value? _ = content at hsends
  cases hsends with
  | scalar value_eq =>
    exact carry_scalar_back hentry ha (hsound.fits.suits _ found slot hentry.record hslot) value_eq
      hheld ho
  | nested returns => exact carry_nested_back h hentry ha hheld returns.eq ho
  | array length returns => exact carry_array_back h hentry ha length hheld returns.eq ho
  | list returns => exact carry_list_back h hsound.known hentry ha hheld returns.eq ho

/-- All entries: what was sent is restored, and the same fields are skipped. -/
theorem fillItems_back (h : registry.Sound) (hb : registry.Binding opcode layout schema plan)
    {source : Record} (hsource : source.Of registry opcode) {message : Message}
    {items : List Plan.Item}
    (hsent : Sent registry levels back opcode source message items reports) :
    (∀ entry ∈ (Plan.mk items).bound, entry ∈ plan.bound) →
    ∀ {output : Record}, output.layout = layout →
    fillItems (carry .toRecord registry limits back opcode message.canon) opcode items output =
      ⟨(Plan.mk items).bound.foldl (source.restore registry) output, reports, none⟩ := by
  induction hsent with
  | nil => exact fun _ _ _ => rfl
  | skip _ ih =>
    intro hmem output ho
    exact fillItems_skip_eq_iff.2 ⟨_, ih hmem ho, rfl⟩
  | bind slot_eq sends _ ih =>
    intro hmem output ho
    obtain ⟨hentry, hrest⟩ := List.forall_mem_cons.1 hmem
    exact fillItems_bind_eq_iff.2 ⟨_, _, _, carry_back h hb hsource hentry slot_eq sends ho,
      ih hrest ((Record.layout_restore _ _ _).trans ho), rfl⟩

/-! ## Level by level -/

/-- Conversions there and back mirror each other at every level, if the array and
list entries of each plan have targets of their own. -/
theorem mirrors_run (h : registry.Sound)
    (htargets : ∀ row ∈ registry.rows, (row.plan.bound.filterMap (·.action.target?)).Nodup) :
    ∀ levels : Nat, Mirrors registry levels (run .toMessage registry limits levels)
      (run .toRecord registry limits levels)
  | 0, opcode, record, reports, made, _, hthere => by
    obtain ⟨output, -, hfill⟩ := run_eq_ok_iff.1 hthere
    cases hfill
  | levels + 1, opcode, record, reports, made, hrecord, hthere => by
    obtain ⟨schema, plan, hb⟩ := hrecord.binding h
    obtain ⟨row, hrow, -, rfl, -⟩ := hb.row
    have hplan := hb.plan?_eq h
    obtain ⟨output, hfresh, hfill⟩ := run_eq_ok_iff.1 hthere
    cases (hb.message?_eq h).symm.trans hfresh
    rw [fill_succ levels record _ hplan] at hfill
    obtain ⟨hsent, hframe⟩ := fillItems_sent h hb (mirrors_run h htargets levels) hrecord
      (fun _ he => he) (Plan.nodup_place hb.compiled (htargets row hrow))
      (fun _ _ => Message.value?_blank _ _) (by simp) hfill
    obtain ⟨zero, hzero, -, hlayout⟩ := hb.exists_record? h
    refine ⟨run_eq_ok_iff.2 ⟨zero, hzero, ?_⟩, hsent.skipped, List.forall_mem_singleton.2 ?_⟩
    · rw [fill_succ levels _ zero hplan, Record.norm_eq hplan hzero]
      exact fillItems_back h hb hrecord hsent (fun _ he => he) hlayout
    · refine Nat.lt_succ_of_le (hsent.nesting_le fun index hindex => ?_)
      rw [hframe index hindex, Message.value?_blank]

end Walk

/-! ## Frames there and back -/

theorem Frame.encode_eq_ok_iff {limit : Nat} {frame : Frame} {out bytes : List UInt8} :
    frame.encode limit out = .ok bytes ↔
      frame.encodedLength ≤ limit ∧ out ++ frame.toBytes = bytes := by
  unfold Frame.encode
  split
  · next hlong => simp [Nat.not_le_of_lt hlong]
  · next hfits => simp [Nat.le_of_not_lt hfits]

namespace Codec

variable {codec : Codec} {record : Record} {frame : List UInt8}

/-- What is encoded is a frame of the message of the record. -/
theorem exists_message_of_encode (h : (codec.encode opcode record).result = .ok (some frame)) :
    ∃ message, (codec.toMessage opcode record).result = .ok (some message) ∧
      (codec.toMessage opcode record).reports = (codec.encode opcode record).reports ∧
      Frame.encode codec.frameLimit ⟨opcode, message.encode⟩ [] = .ok frame := by
  unfold encode at h ⊢
  generalize codec.toMessage opcode record = answer at h ⊢
  obtain ⟨result, reports, log⟩ := answer
  rcases result with error | _ | message
  · cases h
  · cases h
  · dsimp only at h ⊢
    cases hf : Frame.encode codec.frameLimit ⟨opcode, message.encode⟩ [] with
    | error error => simp [hf] at h
    | ok bytes =>
      rw [hf] at h
      cases h
      exact ⟨message, rfl, rfl, hf⟩

/-- An encoded frame is the opcode and the message of the record. -/
theorem encode_eq_ok (h : (codec.encode opcode record).result = .ok (some frame)) :
    ∃ message, (codec.toMessage opcode record).result = .ok (some message) ∧
      (codec.toMessage opcode record).reports = (codec.encode opcode record).reports ∧
      opcodeSize + message.encode.length ≤ codec.frameLimit ∧ frame.drop 2 = message.encode := by
  obtain ⟨message, hmessage, hreports, hframe⟩ := exists_message_of_encode h
  obtain ⟨hsize, rfl⟩ := Frame.encode_eq_ok_iff.1 hframe
  exact ⟨message, hmessage, hreports, hsize, rfl⟩

/-- Built records are converted by a walk that ends, if they are converted at all. -/
theorem toMessage_eq_ok {message : Message} (h : codec.registry.Sound)
    (hrecord : record.Sound codec.registry.layouts)
    (hm : (codec.toMessage opcode record).result = .ok (some message)) :
    record.Of codec.registry opcode ∧
      Walk.run .toMessage codec.registry codec.limits (codec.limits.maxDepth + 1) opcode record =
        ⟨(codec.toMessage opcode record).reports, .ok message⟩ := by
  refine ⟨⟨?_, hrecord⟩, run_of_toMessage hm⟩
  unfold toMessage at hm
  cases hd : codec.registry.descriptor? opcode with
  | none => simp [hd] at hm
  | some descriptor =>
    rw [hd] at hm
    dsimp only at hm
    split at hm
    · next hid =>
      rw [Registry.layout?, hd]
      exact (congrArg _ hid).symm.trans (h.layouts.get?_id hrecord.known)
    · cases hm

/-- What an accepted registry encodes of a built record decodes to the normal form
of the record, with the skipped fields reported again, in order, and nothing
else. Records may be as deep as messages nest, and frames as long as `unlimited`. -/
theorem decode_encode_norm {layouts : List Layout} {schemas : List Schema}
    {descriptors : List Descriptor}
    (hreg : Registry.ofLists layouts schemas descriptors = .ok codec.registry)
    (htargets : ∀ row ∈ codec.registry.rows,
      (row.plan.bound.filterMap (·.action.target?)).Nodup)
    (hdepth : codec.limits.maxDepth ≤ 100) (hlimit : codec.frameLimit ≤ unlimited)
    (hbuilt : Record.Built codec.registry.layouts record)
    (hencode : (codec.encode opcode record).result = .ok (some frame)) :
    (codec.decode opcode (frame.drop 2)).result.record = record.norm codec.registry opcode ∧
      (codec.decode opcode (frame.drop 2)).reports =
        (codec.encode opcode record).reports.filter (·.isFieldSkipped) := by
  have h := Registry.sound_of_ofLists hreg
  obtain ⟨message, hmessage, hreports, hsize, hpayload⟩ := encode_eq_ok hencode
  obtain ⟨hof, hthere⟩ := toMessage_eq_ok h (hbuilt.sound h.layouts) hmessage
  obtain ⟨schema, plan, hb⟩ := hof.binding h
  have hback := Walk.mirrors_run h htargets _ hof hthere
  obtain ⟨zero, hzero, hfill⟩ := Walk.run_eq_ok_iff.1 hback.eq
  have hsent : (Walk.run .toMessage codec.registry codec.limits (codec.limits.maxDepth + 1) opcode
      record).Ends (Message.Of codec.registry opcode) (CodecError.IsLimit true) :=
    Walk.run_ends h (Direction.writes_toMessage h) _ hb record
  rw [Walk.Ends, hthere] at hsent
  obtain ⟨rfl, hsound⟩ := (hb.message_of_iff h).1 hsent
  have hnesting := hback.nesting message (List.mem_singleton.2 rfl)
  have hdecode := hsound.decode_encode h.schemas (by rw [nestingLimit]; omega)
    (by simp only [unlimited, UInt64.size, opcodeSize] at hlimit hsize ⊢; omega)
  have hall : ∀ report ∈ (codec.encode opcode record).reports, report.isFieldSkipped :=
    hreports ▸ hback.skipped
  rw [hpayload, List.filter_eq_self.2 hall]
  unfold decode
  have hrecord : codec.registry.record? opcode = some zero := hzero
  simp only [hb.schema?_eq h, hb.plan?_eq h, hrecord, hdecode, bind, hfill]
  simpa using hreports

end Codec

/-- A first node with bytes after its name, and a list whose first name is no UTF-8. -/
def sampleQueue : Record :=
  queueRecord (queueNode [65, 0, 66, 255] 7 none)
    (some (queueNode [255, 67, 0, 0] 300 (some (queueNode [0, 0, 0, 0] 0 none))))

theorem built_sampleQueue : Record.Built queueCodec.registry.layouts sampleQueue := by
  have zero : Record.Built queueCodec.registry.layouts (queueNode [0, 0, 0, 0] 0 none) :=
    .allocate (show LayoutSet.allocate _ "node" = .ok _ from rfl)
  have first : Record.Built queueCodec.registry.layouts (queueNode [65, 0, 66, 255] 7 none) := by
    refine @Record.Built.setInt _ (queueNode [65, 0, 66, 255] 0 none) _ "count" 7 ?_ rfl
    refine zero.setSlot ?_ (show Record.setSlot _ 0 (.bytes [65, 0, 66, 255]) = .ok _ from rfl)
    exact nofun
  have second : Record.Built queueCodec.registry.layouts (queueNode [255, 67, 0, 0] 300 none) := by
    refine @Record.Built.setInt _ (queueNode [255, 67, 0, 0] 0 none) _ "count" 300 ?_ rfl
    refine zero.setSlot ?_ (show Record.setSlot _ 0 (.bytes [255, 67, 0, 0]) = .ok _ from rfl)
    exact nofun
  have queue : Record.Built queueCodec.registry.layouts
      (queueRecord (queueNode [0, 0, 0, 0] 0 none) none) :=
    .allocate (show LayoutSet.allocate _ "queue" = .ok _ from rfl)
  have nested := @Record.Built.setSlot _ _ _ 0 (.record _) queue
    (List.forall_mem_singleton.2 first) rfl
  exact @Record.Built.setListAt _ _ _ 1 [_, _] nested
    (List.forall_mem_cons.2 ⟨second, List.forall_mem_singleton.2 zero⟩) rfl

theorem Codec.decode_encode_sampleQueue :
    Registry.ofLists queueLayouts queueSchemas queueDescriptors = .ok queueCodec.registry ∧
      (∀ row ∈ queueCodec.registry.rows,
        (row.plan.bound.filterMap (·.action.target?)).Nodup) ∧
      queueCodec.limits.maxDepth ≤ 100 ∧ queueCodec.frameLimit ≤ unlimited ∧
      Record.Built queueCodec.registry.layouts sampleQueue ∧
      (queueCodec.encode 1 sampleQueue).result = .ok (some [1, 0, 10, 5, 10, 1, 65, 16, 7,
        26, 9, 10, 4, 239, 191, 189, 67, 16, 172, 2, 26, 0]) ∧
      (queueCodec.decode 1 [10, 5, 10, 1, 65, 16, 7, 26, 9, 10, 4, 239, 191, 189, 67, 16, 172, 2,
        26, 0]).result.record = sampleQueue.norm queueCodec.registry 1 ∧
      (queueCodec.decode 1 [10, 5, 10, 1, 65, 16, 7, 26, 9, 10, 4, 239, 191, 189, 67, 16, 172, 2,
        26, 0]).reports = (queueCodec.encode 1 sampleQueue).reports.filter (·.isFieldSkipped) := by
  have hreg : Registry.ofLists queueLayouts queueSchemas queueDescriptors =
      .ok queueCodec.registry := by cbv
  have htargets : ∀ row ∈ queueCodec.registry.rows,
      (row.plan.bound.filterMap (·.action.target?)).Nodup := by decide
  have hdepth : queueCodec.limits.maxDepth ≤ 100 := by decide
  have hlimit : queueCodec.frameLimit ≤ unlimited := by decide
  have hencode : (queueCodec.encode 1 sampleQueue).result = .ok (some [1, 0, 10, 5, 10, 1, 65, 16,
      7, 26, 9, 10, 4, 239, 191, 189, 67, 16, 172, 2, 26, 0]) := by cbv
  exact ⟨hreg, htargets, hdepth, hlimit, built_sampleQueue, hencode,
    decode_encode_norm hreg htargets hdepth hlimit built_sampleQueue hencode⟩

end RecordBridge

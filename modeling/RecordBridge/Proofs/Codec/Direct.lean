import RecordBridge.Proofs.Codec.Calls
import RecordBridge.Proofs.Codec.Reads
import RecordBridge.Proofs.Message.RoundTrip
/-!
# Converting a message and decoding its bytes

The bytes of a message leave out defaults and empty lists, so what is read of
them is another message, its canonical form. A walk tells the two apart nowhere:
an unset scalar gives the slot of its default (`Coercion.toSlot?_canon_value?`),
and an unset list has as few elements as an empty one (`prepare_canon`). So both
are walked with the same reports to the same end, at every level (`fill_canon`),
and decoding the bytes of a message does what converting it does
(`decode_encode_message`).
-/
namespace RecordBridge

variable {registry : Registry} {limits : CodecLimits} {opcode inner : UInt16} {layout : Layout}
  {schema : Schema} {plan : Plan} {entry : Plan.Entry}

/-! ## What lies inside a message -/

namespace Message

/-- The opcode that carries a layout carries all messages of its schema. -/
theorem of_schemaId_eq (h : registry.Sound) {id : LayoutId} {found : Descriptor}
    (hc : Descriptor.carrier? registry.descriptors id = some found) {message : Message}
    (hm : message.Sound registry.schemas) (hid : message.schemaId = found.schema) :
    message.Of registry found.opcode := by
  obtain ⟨_, schema, _, hb, -, hid'⟩ := h.binding_of_carrier? hc
  have hget := h.schemas.get?_id hm.known
  rw [show message.schema.id = schema.id from hid.trans hid'.symm,
    h.schemas.get?_id hb.schema_mem] at hget
  exact (hb.message_of_iff h).2 ⟨(Option.some.inj hget).symm, hm⟩

namespace Of

variable {message : Message}

/-- The message that a nested entry reads is of the opcode inside. -/
theorem messageAt? (hm : message.Of registry opcode) (h : registry.Sound)
    (hb : registry.Binding opcode layout schema plan) (he : entry ∈ plan.bound)
    (ha : entry.action = .nested inner) {child : Message}
    (hchild : message.messageAt? entry.messageIndex = some child) : child.Of registry inner := by
  obtain ⟨field, found, hentry⟩ := hb.entry_sound he
  obtain ⟨id, carrier, -, hcarrier, rfl, ht⟩ := hentry.nested ha
  obtain ⟨rfl, hsound⟩ := (hb.message_of_iff h).1 hm
  have hheld := value?_eq_some.1 (messageAt?_eq_some.1 hchild)
  have hfit := hsound.fits.fits _ field _ hentry.message hheld
  rw [ht] at hfit
  refine of_schemaId_eq h hcarrier (hsound.inside ?_) (by simpa [Value.fits] using hfit)
  exact mem_inner.2 ⟨_, List.mem_of_getElem? hheld, List.mem_singleton.2 rfl⟩

/-- The elements of a repeated field are of the opcode that carries them. -/
theorem elementsAt (hm : message.Of registry opcode) (h : registry.Sound)
    (hb : registry.Binding opcode layout schema plan) {id : LayoutId} {carrier : Descriptor}
    (hcarrier : Descriptor.carrier? registry.descriptors id = some carrier) {target : Nat}
    (ht : schema.fields[target]?.map (·.type) = some (.repeated carrier.schema)) :
    ∀ element ∈ message.elementsAt target, element.Of registry carrier.opcode := by
  intro element hmem
  obtain ⟨rfl, hsound⟩ := (hb.message_of_iff h).1 hm
  obtain ⟨field, hf, htype⟩ := Option.map_eq_some_iff.1 ht
  have hempty : (Value.list []).fits field.type := by rw [htype]; rfl
  have hfit := hsound.fits_elementsAt hf hempty
  rw [htype, Value.fits, List.all_eq_true] at hfit
  exact of_schemaId_eq h hcarrier (hsound.inside (mem_inner_of_mem_elementsAt hmem))
    (by simpa using hfit element hmem)

end Of

end Message

/-! ## Walking a canonical form -/

/-- A field of a canonical message gives the slot that it gave before, set or not. -/
theorem Coercion.toSlot?_canon_value? {message : Message} (hm : message.Of registry opcode)
    (h : registry.Sound) (hb : registry.Binding opcode layout schema plan)
    (he : entry ∈ plan.bound) {coercion : Coercion} (ha : entry.action = .scalar coercion) :
    coercion.toSlot? (message.canon.value? entry.messageIndex) =
      coercion.toSlot? (message.value? entry.messageIndex) := by
  obtain ⟨field, found, hentry⟩ := hb.entry_sound he
  obtain ⟨-, htype⟩ := Coercion.select_eq_ok_iff.1 (hentry.scalar ha)
  obtain ⟨rfl, hsound⟩ := (hb.message_of_iff h).1 hm
  cases hv : message.value? entry.messageIndex with
  | none => rw [Message.value?_canon, hv]; rfl
  | some value =>
    have hfit := hsound.fits.fits _ field value hentry.message (Message.value?_eq_some.1 hv)
    exact Coercion.toSlot?_canon hv (htype ▸ hfit)

namespace Walk

/-- A step reads a canonical form as it reads the message. -/
theorem prepare_canon (h : registry.Sound) (hb : registry.Binding opcode layout schema plan)
    {message : Message} (hm : message.Of registry opcode)
    {convert : UInt16 → Message → Walk Record}
    (hinner : ∀ {inner : UInt16} {part : Message}, part.Of registry inner →
      convert inner part.canon = convert inner part) (he : entry ∈ plan.bound) :
    prepare .toRecord registry limits convert opcode message.canon entry =
      prepare .toRecord registry limits convert opcode message entry := by
  have hmany : ∀ {id : LayoutId} {carrier : Descriptor} {target : Nat},
      Descriptor.carrier? registry.descriptors id = some carrier →
      schema.fields[target]?.map (·.type) = some (.repeated carrier.schema) →
      ∀ elements ⊆ message.elementsAt target,
        each (convert carrier.opcode) (elements.map Message.canon) =
          each (convert carrier.opcode) elements := by
    intro id carrier target hcarrier ht elements hsub
    refine each_congr (List.forall₂_map_left_iff.2 (List.forall₂_same.2 fun part hpart => ?_))
    exact hinner (hm.elementsAt h hb hcarrier ht part (hsub hpart))
  obtain ⟨field, found, hentry⟩ := hb.entry_sound he
  unfold prepare
  cases ha : entry.action with
  | scalar coercion =>
    dsimp only
    congr 1
    funext output
    simp only [Direction.toRecord, Coercion.toSlot?_canon_value? hm h hb he ha]
  | nested inner =>
    dsimp only
    simp only [child, Direction.toRecord, Message.messageAt?_canon]
    cases hc : message.messageAt? entry.messageIndex with
    | none => rfl
    | some part =>
      simp only [Option.map_some, pure_bind_eq, hinner (hm.messageAt? h hb he ha hc)]
  | array inner count target =>
    obtain ⟨id, size, carrier, -, -, hcarrier, rfl, ht⟩ := hentry.array ha
    simp only [Direction.toRecord, Message.elementsAt_canon, List.length_map, ← List.map_take,
      hmany hcarrier ht _ (List.take_subset _ _)]
  | list inner target =>
    obtain ⟨id, carrier, -, -, hcarrier, rfl, ht⟩ := hentry.list ha
    have hnodes : Direction.toRecord.nodes entry target message.canon =
        (Direction.toRecord.nodes entry target message).map Message.canon :=
      Message.elementsAt_canon message target
    have hsame : each (convert carrier.opcode)
          ((Direction.toRecord.nodes entry target message).map Message.canon) =
        each (convert carrier.opcode) (Direction.toRecord.nodes entry target message) :=
      hmany hcarrier ht _ (List.Subset.refl _)
    simp only [hnodes, List.length_map, hsame]

/-- A record is filled from a canonical form as it is from the message. -/
theorem fill_canon (h : registry.Sound) : ∀ (levels : Nat) {opcode : UInt16} {message : Message},
    message.Of registry opcode → ∀ output : Record,
    fill .toRecord registry limits levels opcode message.canon output =
      fill .toRecord registry limits levels opcode message output
  | 0, _, _, _, _ => rfl
  | levels + 1, opcode, message, hm, output => by
    obtain ⟨layout, plan, hb⟩ := h.binding_of_schema? hm.1
    have hinner : ∀ {inner : UInt16} {part : Message}, part.Of registry inner →
        run .toRecord registry limits levels inner part.canon =
          run .toRecord registry limits levels inner part := by
      intro inner part hpart
      rw [run, run]
      congr 1
      funext output
      rw [fill_canon h levels hpart output]
    rw [fill_succ levels _ output (hb.plan?_eq h), fill_succ levels _ output (hb.plan?_eq h)]
    refine fillItems_congr (fun entry he output => ?_) output
    rw [carry_eq_prepare, carry_eq_prepare, prepare_canon h hb hm hinner (Plan.mem_bound.2 he)]

end Walk

namespace Codec

variable {codec : Codec} {message : Message}

/-- Converting a message of an opcode fills a zero record. -/
theorem fromMessage_of_fill (hp : codec.registry.plan? opcode = some plan) {zero made : Record}
    (hz : codec.registry.record? opcode = some zero) {reports : List Diagnostic}
    {left : Option CodecError}
    (hfill : Walk.fill .toRecord codec.registry codec.limits (codec.limits.maxDepth + 1) opcode
      message zero = ⟨made, reports, left⟩) :
    codec.fromMessage opcode message =
      ⟨left.elim (.ok (some ⟨made, plan.occupied⟩)) .error, reports, []⟩ := by
  have hrun : Walk.run .toRecord codec.registry codec.limits (codec.limits.maxDepth + 1) opcode
      message = ⟨reports, left.elim (.ok made) .error⟩ := by
    rw [Walk.run, show Direction.toRecord.fresh codec.registry opcode = some zero from hz]
    change (Walk.fill .toRecord _ _ _ _ _ _).toWalk = _
    rw [hfill]
    cases left <;> rfl
  rw [fromMessage_eq hp, hrun]
  cases left <;> rfl

/-- Decoding the bytes of a message, where they fit the address space, gives the
record that the message is converted to, with the same reports, and reports the error
that ends the conversion last. -/
theorem decode_encode_message {layouts : List Layout} {schemas : List Schema}
    {descriptors : List Descriptor}
    (hreg : Registry.ofLists layouts schemas descriptors = .ok codec.registry)
    (hschema : codec.registry.schema? opcode = some message.schema)
    (hm : Message.Built codec.registry.schemas message) (hn : message.nesting ≤ nestingLimit)
    (hsize : message.encode.length < UInt64.size) :
    Outcome False
      (fun decoded => (codec.decode opcode message.encode).result = decoded ∧
        (codec.decode opcode message.encode).reports = (codec.fromMessage opcode message).reports)
      (fun error => (codec.decode opcode message.encode).reports =
        (codec.fromMessage opcode message).reports ++ [.aborted opcode error])
      (codec.fromMessage opcode message).result := by
  have h := Registry.sound_of_ofLists hreg
  obtain ⟨layout, plan, hb⟩ := h.binding_of_schema? hschema
  obtain ⟨zero, hz, -⟩ := hb.exists_record? h
  have hof : message.Of codec.registry opcode := ⟨hschema, hm.sound⟩
  have hread := hm.sound.decode_encode h.schemas hn hsize
  generalize hfill : Walk.fill .toRecord codec.registry codec.limits (codec.limits.maxDepth + 1)
    opcode message zero = filled
  obtain ⟨made, reports, left⟩ := filled
  have hcanon := (Walk.fill_canon h _ hof zero).trans hfill
  rw [decode_eq hschema (hb.plan?_eq h) hz hread hcanon, fromMessage_of_fill (hb.plan?_eq h) hz hfill]
  cases left with
  | none => exact ⟨rfl, by simp⟩
  | some error => simp [Outcome]

end Codec

/-- A queue whose first node has an explicit empty name, with an explicit flag and
an explicit empty list. -/
def explicitQueue : Message :=
  .mk ⟨"Queue", [⟨"first", 1, .message "Node"⟩, ⟨"mark", 2, .bool⟩, ⟨"nodes", 3, .repeated "Node"⟩]⟩
    [some (.message (.mk ⟨"Node", [⟨"name", 1, .string⟩, ⟨"count", 2, .int32⟩]⟩
      [some (.string ""), some (.int32 7)])), some (.bool false), some (.list [])]

theorem built_explicitQueue : Message.Built queueCodec.registry.schemas explicitQueue := by
  have blankNode : Message.Built queueCodec.registry.schemas _ :=
    .blank (show SchemaSet.message _ "Node" = .ok _ from rfl)
  have named := @Message.Built.setAt _ _ _ 0 (.string "") blankNode nofun rfl
  have node := @Message.Built.setAt _ _ _ 1 (.int32 7) named nofun rfl
  have blankQueue : Message.Built queueCodec.registry.schemas _ :=
    .blank (show SchemaSet.message _ "Queue" = .ok _ from rfl)
  have first := @Message.Built.setAt _ _ _ 0 (.message _) blankQueue
    (List.forall_mem_singleton.2 node) rfl
  have mark := @Message.Built.setAt _ _ _ 1 (.bool false) first nofun rfl
  exact @Message.Built.setAt _ _ _ 2 (.list []) mark nofun rfl

/-- Its bytes hold no more than the number, and give the record that it is converted to. -/
theorem Codec.decode_encode_explicitQueue :
    Registry.ofLists queueLayouts queueSchemas queueDescriptors = .ok queueCodec.registry ∧
      queueCodec.registry.schema? 1 = some explicitQueue.schema ∧
      Message.Built queueCodec.registry.schemas explicitQueue ∧
      explicitQueue.nesting ≤ nestingLimit ∧ explicitQueue.encode.length < UInt64.size ∧
      explicitQueue.encode = [0x0a, 2, 0x10, 7] ∧
      (queueCodec.decode 1 explicitQueue.encode).result =
        ⟨queueRecord (queueNode [0, 0, 0, 0] 7 none) none, 22⟩ ∧
      (queueCodec.decode 1 explicitQueue.encode).reports =
        (queueCodec.fromMessage 1 explicitQueue).reports := by
  have hreg : Registry.ofLists queueLayouts queueSchemas queueDescriptors =
      .ok queueCodec.registry := by cbv
  have hschema : queueCodec.registry.schema? 1 = some explicitQueue.schema := rfl
  have hn : explicitQueue.nesting ≤ nestingLimit := by decide
  have hbytes : explicitQueue.encode = [0x0a, 2, 0x10, 7] := by cbv
  have hsize : explicitQueue.encode.length < UInt64.size := by rw [hbytes]; decide
  have hmade : (queueCodec.fromMessage 1 explicitQueue).result =
      .ok (some ⟨queueRecord (queueNode [0, 0, 0, 0] 7 none) none, 22⟩) := rfl
  have hagree := decode_encode_message hreg hschema built_explicitQueue hn hsize
  rw [hmade] at hagree
  exact ⟨hreg, hschema, built_explicitQueue, hn, hsize, hbytes, hagree⟩

end RecordBridge

import RecordBridge.Proofs.Codec.Sparser
import RecordBridge.Proofs.Codec.Padding
import RecordBridge.Proofs.Codec.RoundTrip
import RecordBridge.Proofs.Codec.Visits
import RecordBridge.Proofs.Record.Chains
/-!
# Conversions inside conversions

What lies inside is converted as it would be on its own, by a call for its opcode. So
a conversion that gives a result is one of calls for the fields that the plan pairs: what
a message is received as holds what is inside the message, received (`Codec.Composes`),
and a record is sent with what is inside its slots, sent (`Walk.Adds`). The levels are
those of the calls: a call inside has more of them than the step that stands for it,
and comes to the same end (`Walk.fill_of_run`).
-/
namespace RecordBridge

/-! ## The calls -/

namespace Codec

variable (codec : Codec)

/-- The walk of a call, in one direction. -/
abbrev walk (direction : Direction σ τ) : UInt16 → σ → Walk τ :=
  Walk.run direction codec.registry codec.limits (codec.limits.maxDepth + 1)

/-- A step of a call: what lies inside is converted by calls. -/
abbrev step (direction : Direction σ τ) (opcode : UInt16) (source : σ) :
    Plan.Entry → τ → Walk τ :=
  Walk.carry direction codec.registry codec.limits (codec.walk direction) opcode source

/-- A message is converted to a record. -/
def Receives (opcode : UInt16) (message : Message) (record : Record) : Prop :=
  ∃ decoded, (codec.fromMessage opcode message).result = .ok (some decoded) ∧
    decoded.record = record

/-- A record is converted to a message. -/
def Sends (opcode : UInt16) (record : Record) (message : Message) : Prop :=
  (codec.toMessage opcode record).result = .ok (some message)

/-- What a slot holds for the field of a message: what lies inside is converted on its own.
A child that is unset is blank, an array has no room for surplus elements and zero records
for missing ones, and nodes are linked up. -/
inductive Composes (entry : Plan.Entry) (message : Message) : Plan.Action → Slot → Prop where
  | nested {inner : UInt16} {child : Message} {part : Record}
      (child_eq : (message.messageAt? entry.messageIndex).or (codec.registry.message? inner) =
        some child)
      (received : codec.Receives inner child part) :
      Composes entry message (.nested inner) (.record part)
  | array {inner : UInt16} {count target : Nat} {elements : List Record}
      (length : elements.length = count)
      (received : ∀ (position : Nat) source element,
        (message.elementsAt target)[position]? = some source →
        elements[position]? = some element → codec.Receives inner source element)
      (missing : ∀ (position : Nat) element,
        (message.elementsAt target)[position]? = none →
        elements[position]? = some element → codec.registry.record? inner = some element) :
      Composes entry message (.array inner count target) (.array elements)
  | list {inner : UInt16} {target : Nat} {head : Option Record} {made : List Record}
      (received : List.Forall₂ (codec.Receives inner) (message.elementsAt target) made)
      (chained : Record.Chained made (Record.nodesOf (.link head))) :
      Composes entry message (.list inner target) (.link head)

/-- What is reported of a field of a message: the elements that an array has no room for,
and what is reported of each message inside. -/
def receivedReports (opcode : UInt16) (message : Message) (entry : Plan.Entry) : List Diagnostic :=
  let inside (inner : UInt16) := (entry.sources codec.registry message).flatMap fun source =>
    (codec.fromMessage inner source).reports
  match entry.action with
  | .scalar _ => []
  | .nested inner | .list inner _ => inside inner
  | .array inner count target =>
    let elements := message.elementsAt target
    let name := Walk.fieldName codec.registry opcode entry.recordIndex
    (if count < elements.length then [.arrayOverflow opcode name count elements.length] else []) ++
      inside inner

end Codec

namespace Plan

/-- The records that an entry converts, with the opcode that carries them. -/
def Entry.parts (entry : Entry) (record : Record) : List (UInt16 × Record) :=
  match entry.action.inner?, record.slot? entry.recordIndex with
  | some inner, some slot => slot.parts.map (inner, ·)
  | _, _ => []

/-- The records that an entry appends to a repeated field. -/
def Entry.repeats (target : Nat) (entry : Entry) (record : Record) : List (UInt16 × Record) :=
  if entry.action.target? = some target then entry.parts record else []

end Plan

/-- What is reported of a field of a record: what is reported of each record inside. -/
def Codec.sentReports (codec : Codec) (record : Record) (entry : Plan.Entry) : List Diagnostic :=
  (entry.parts record).flatMap fun part => (codec.toMessage part.1 part.2).reports

variable {codec : Codec} {opcode inner : UInt16} {layout : Layout} {schema : Schema} {plan : Plan}
  {entry : Plan.Entry} {reports : List Diagnostic}

namespace Codec

/-- A call that gives a record is a walk that ended. -/
theorem receives_iff (hp : codec.registry.plan? opcode = some plan) (message : Message)
    (record : Record) : codec.Receives opcode message record ↔
      (codec.walk .toRecord opcode message).result = .ok record := by
  constructor
  · rintro ⟨decoded, hresult, rfl⟩
    exact ((fromMessage_eq_ok_iff hp).1 hresult).1
  · intro hrun
    exact ⟨⟨record, plan.occupied⟩, (fromMessage_eq_ok_iff hp).2 ⟨hrun, rfl⟩, rfl⟩

theorem reports_fromMessage (hp : codec.registry.plan? opcode = some plan) (message : Message) :
    (codec.fromMessage opcode message).reports = (codec.walk .toRecord opcode message).reports := by
  rw [fromMessage_eq hp]

theorem map_some_eq_ok {result : Except CodecError α} {a : α} :
    result.map some = .ok (some a) ↔ result = .ok a := by
  cases result <;> simp [Except.map]

/-- A call that gives a message is a walk that ended. -/
theorem sends_iff (h : codec.registry.Sound) {record : Record}
    (hrecord : record.Of codec.registry opcode) {message : Message} :
    codec.Sends opcode record message ↔
      (codec.walk .toMessage opcode record).result = .ok message := by
  rw [Sends, result_toMessage h hrecord]
  exact map_some_eq_ok

theorem reports_toMessage (h : codec.registry.Sound) {record : Record}
    (hrecord : record.Of codec.registry opcode) :
    (codec.toMessage opcode record).reports = (codec.walk .toMessage opcode record).reports := by
  rw [toMessage_eq h hrecord]

end Codec

/-! ## What is received -/

section
variable {message : Message}

/-- Received elements, filled up with zero records. -/
theorem Codec.composes_array {count target : Nat} {made : List Record} {zero : Record}
    (hmade : List.Forall₂ (codec.Receives inner) ((message.elementsAt target).take count) made)
    (hzero : codec.registry.record? inner = some zero) :
    codec.Composes entry message (.array inner count target)
      (.array (made ++ .replicate (count - made.length) zero)) := by
  have hlength : made.length = min count (message.elementsAt target).length := by
    rw [← hmade.length_eq, List.length_take]
  refine .array ?_ ?_ ?_
  · rw [List.length_append, List.length_replicate]
    omega
  · intro position source element hsource helement
    obtain ⟨hreceived, -⟩ := List.getElem?_eq_some_iff.1 hsource
    obtain ⟨hheld, -⟩ := List.getElem?_eq_some_iff.1 helement
    rw [List.length_append, List.length_replicate] at hheld
    have hposition : position < made.length := by omega
    rw [List.getElem?_append_left hposition] at helement
    rw [← List.getElem?_take_of_lt (show position < count by omega)] at hsource
    obtain ⟨hi, rfl⟩ := List.getElem?_eq_some_iff.1 hsource
    obtain ⟨hj, rfl⟩ := List.getElem?_eq_some_iff.1 helement
    exact hmade.get hi hj
  · intro position element hnone helement
    have hposition := List.getElem?_eq_none_iff.1 hnone
    rw [List.getElem?_append_right (by omega)] at helement
    rw [(List.mem_replicate.1 (List.mem_of_getElem? helement)).2, hzero]

end

namespace Walk

section
variable {message : Message} {output next : Record}

/-- A step leaves what it received inside the field, converted on its own. -/
theorem composes_of_carry (h : codec.registry.Sound)
    (hb : codec.registry.Binding opcode layout schema plan) (he : entry ∈ plan.bound)
    (hinside : entry.action.inner?.isSome)
    (hstep : codec.step .toRecord opcode message entry output = ⟨reports, .ok next⟩) {slot : Slot}
    (hslot : next.slot? entry.recordIndex = some slot) :
    codec.Composes entry message entry.action slot := by
  obtain ⟨inner, ha⟩ := Option.isSome_iff_exists.1 hinside
  obtain ⟨_, _, _, hinner⟩ := hb.inner_binding h he ha
  have hreceives := Codec.receives_iff (hinner.plan?_eq h)
  have hfills := fills_of_carry h hb he ha hstep hslot
  clear hinside
  generalize entry.action = action at ha hfills
  cases hfills with
  | nested hchild hmade =>
    cases ha
    exact .nested hchild ((hreceives _ _).2 (by rw [hmade]))
  | array hzero hmade =>
    cases ha
    exact Codec.composes_array ((result_of_each hmade).1.imp fun _ _ => (hreceives _ _).2) hzero
  | list hmade hlinks =>
    cases ha
    have hof := of_each h (Direction.writes_toRecord h) hinner hmade
    exact .list ((result_of_each hmade).1.imp fun _ _ => (hreceives _ _).2)
      (Record.chained_linkUp (fun node hn => (hof node hn).2.fits.length) hlinks)

/-- A step reports what was received. -/
theorem reports_of_carry (h : codec.registry.Sound)
    (hb : codec.registry.Binding opcode layout schema plan) (he : entry ∈ plan.bound)
    (hstep : codec.step .toRecord opcode message entry output = ⟨reports, .ok next⟩) :
    reports = codec.receivedReports opcode message entry := by
  obtain ⟨write, hprepare, -⟩ := carry_eq_ok_iff.1 hstep
  have hprepared := prepares_of_eq_ok hprepare
  have hinner : ∀ inner, entry.action.inner? = some inner → ∀ source : Message,
      (codec.fromMessage inner source).reports =
        (codec.walk .toRecord inner source).reports := by
    intro inner ha source
    obtain ⟨_, _, _, hbinner⟩ := hb.inner_binding h he ha
    exact Codec.reports_fromMessage (hbinner.plan?_eq h) source
  unfold Codec.receivedReports
  cases hact : entry.action with
  | scalar =>
    rw [hact] at hprepared
    cases hprepared
    rfl
  | nested inner =>
    rw [hact] at hprepared
    cases hprepared with
    | nested hchild hmade =>
      simp [sources_of_child hact hchild, hinner inner (by rw [hact]; rfl), hmade]
  | array inner count target =>
    rw [hact] at hprepared
    cases hprepared with
    | array hmade hpadding =>
      obtain ⟨-, rfl⟩ := result_of_each hmade
      simp only [hinner inner (by rw [hact]; rfl), Plan.Entry.sources, hact,
        reports_reportSurplus]
      rfl
  | list inner target =>
    rw [hact] at hprepared
    cases hprepared with
    | list hwithin hmade =>
      obtain ⟨-, rfl⟩ := result_of_each hmade
      simp only [hinner inner (by rw [hact]; rfl), Plan.Entry.sources, hact]
      rfl

end

end Walk

/-- A record that was received holds, in each field that is paired, what was received inside
that, and what was reported is what the skipped and the paired fields report. -/
theorem Codec.fromMessage_composed (h : codec.registry.Sound)
    (hp : codec.registry.plan? opcode = some plan) {message : Message} {decoded : Decoded}
    (hm : (codec.fromMessage opcode message).result = .ok (some decoded)) :
    (∀ entry ∈ plan.bound, entry.action.inner?.isSome →
      ∃ slot, decoded.record.slot? entry.recordIndex = some slot ∧
        codec.Composes entry message entry.action slot) ∧
    (codec.fromMessage opcode message).reports =
      plan.items.flatMap (Plan.Item.reports opcode (codec.receivedReports opcode message)) := by
  obtain ⟨row, hr, rfl⟩ := Option.map_eq_some_iff.1 hp
  obtain ⟨layout, schema, hb⟩ := h.binding_of_row? hr
  have hrun := run_of_fromMessage hm
  have hof := Walk.of_run h (Direction.writes_toRecord h) hb hrun
  obtain ⟨rfl, hsound⟩ := (hb.record_of_iff h).1 hof
  obtain ⟨zero, hzero, ho⟩ := (Direction.writes_toRecord h).fresh hb
  obtain ⟨_, hfresh, hfill⟩ := Walk.fill_of_run hp hrun
  cases hzero.symm.trans hfresh
  have hvisits := Walk.exists_visit_slot? h hb hfill
  refine ⟨fun entry he hinside => ?_, ?_⟩
  · obtain ⟨field, found, hentry⟩ := hb.entry_sound he
    obtain ⟨slot, hslot, -⟩ := hsound.exists_slot hentry.record
    obtain ⟨before, next, first, -, hstep, hread⟩ := hvisits entry he
    exact ⟨slot, hslot, Walk.composes_of_carry h hb he hinside hstep (hread.symm.trans hslot)⟩
  · refine Walk.reports_of_fillItems
      (Walk.preserves_carry h (Direction.writes_toRecord h) hb) ?_ ho hfill
    exact fun entry he before next first _ hstep => Walk.reports_of_carry h hb he hstep

/-! ## What is sent -/

namespace Message

variable {message next : Message}

/-- Elements are appended to one field. -/
theorem elementsAt_appendAt (hlen : message.values.length = message.schema.fields.length)
    {index : Nat} {elements : List Message} (h : message.appendAt index elements = .ok next)
    (target : Nat) : next.elementsAt target =
      message.elementsAt target ++ if index = target then elements else [] := by
  by_cases hne : elements = []
  · subst hne
    cases h
    rw [ite_self, List.append_nil]
  · have hgains := gains_elements hlen hne h
    rw [elementsAt_eq, hgains.value? target]
    split
    · next he => rw [← he]; rfl
    · rw [List.append_nil, elementsAt_eq]

/-- A field that is not repeated has no elements. -/
theorem Of.elementsAt_eq_nil {registry : Registry} (hm : message.Of registry opcode) {index : Nat}
    (hother : ¬ ∃ id, message.schema.fields[index]?.map (·.type) = some (.repeated id)) :
    message.elementsAt index = [] := by
  unfold Message.elementsAt
  split
  · next elements hv =>
    obtain ⟨field, hf, hfit⟩ := hm.exists_field hv
    obtain ⟨id, htype, -⟩ := Value.exists_type_of_fits_list hfit
    exact absurd ⟨id, by rw [hf, Option.map_some, htype]⟩ hother
  · rfl

end Message

namespace Walk

/-- What a step adds to a message: the message in a nested field, or the elements of a
repeated one, after those that it has. -/
structure Adds (entry : Plan.Entry) (made : List Message) (output next : Message) : Prop where
  child : ∀ inner, entry.action = .nested inner →
    ∃ part, made = [part] ∧ next.messageAt? entry.messageIndex = some part
  elements : ∀ target, next.elementsAt target =
    output.elementsAt target ++ if entry.action.target? = some target then made else []

section
variable {record : Record} {output next : Message}

/-- Setting a field that is not repeated leaves all elements as they are. -/
theorem elementsAt_of_setAt (h : codec.registry.Sound)
    (hb : codec.registry.Binding opcode layout schema plan) (he : entry ∈ plan.bound)
    (htarget : entry.action.target? = none) (ho : output.Of codec.registry opcode)
    (hn : next.Of codec.registry opcode) {value : Value}
    (hset : output.setAt entry.messageIndex value = .ok next) (target : Nat) :
    next.elementsAt target = output.elementsAt target := by
  obtain ⟨field, found, hentry⟩ := hb.entry_sound he
  have hplace : entry.place = entry.messageIndex := by rw [Plan.Entry.place, htarget]; rfl
  by_cases htaken : entry.messageIndex = target
  · have hother : ¬ ∃ id, schema.fields[target]?.map (·.type) = some (.repeated id) := by
      rw [← htaken, ← hplace, hentry.repeated_place_iff, htarget]
      exact Bool.false_ne_true
    have hbefore := ((hb.message_of_iff h).1 ho).1
    have hafter := ((hb.message_of_iff h).1 hn).1
    rw [ho.elementsAt_eq_nil (hbefore ▸ hother), hn.elementsAt_eq_nil (hafter ▸ hother)]
  · obtain ⟨-, rfl⟩ := Message.setAt_eq_ok_iff.1 hset
    rw [Message.elementsAt_eq, Message.value?_put_of_ne htaken, Message.elementsAt_eq]

theorem Adds.set (h : codec.registry.Sound)
    (hb : codec.registry.Binding opcode layout schema plan) (he : entry ∈ plan.bound)
    (htarget : entry.action.target? = none) (ho : output.Of codec.registry opcode)
    (hn : next.Of codec.registry opcode) {value : Value}
    (hset : output.setAt entry.messageIndex value = .ok next) {made : List Message}
    (hchild : ∀ inner, entry.action = .nested inner → ∃ part, made = [part] ∧ value = .message part) :
    Adds entry made output next := by
  refine ⟨fun inner ha => ?_, fun target => ?_⟩
  · obtain ⟨part, hmade, hvalue⟩ := hchild inner ha
    have hgains := Message.gains_setAt ho.2.fits.length hset
    exact ⟨part, hmade, by rw [Message.messageAt?, hgains.value?, if_pos rfl, hvalue]⟩
  · rw [elementsAt_of_setAt h hb he htarget ho hn hset, htarget,
      if_neg (Option.some_ne_none target).symm, List.append_nil]

theorem Adds.append (ho : output.Of codec.registry opcode) {target : Nat}
    (htarget : entry.action.target? = some target) {made : List Message}
    (happend : output.appendAt target made = .ok next) : Adds entry made output next := by
  refine ⟨fun inner ha => ?_, fun other => ?_⟩
  · rw [ha] at htarget
    cases htarget
  · rw [Message.elementsAt_appendAt ho.2.fits.length happend, htarget]
    simp only [Option.some.injEq]

/-- Records that are converted one by one are sent on their own. -/
theorem sends_parts (h : codec.registry.Sound)
    (hb : codec.registry.Binding opcode record.layout schema plan)
    (hrecord : record.Of codec.registry opcode) (he : entry ∈ plan.bound) {slot : Slot}
    (hslot : record.slot? entry.recordIndex = some slot) (ha : entry.action.inner? = some inner)
    {made : List Message}
    (heach : each (codec.walk .toMessage inner) slot.parts = ⟨reports, .ok made⟩) :
    List.Forall₂ (fun part message => codec.Sends part.1 part.2 message) (entry.parts record) made ∧
      reports = codec.sentReports record entry := by
  obtain ⟨hmade, rfl⟩ := result_of_each heach
  have hof := of_mem_parts h hb hrecord.2 he hslot ha
  have hparts : entry.parts record = slot.parts.map (inner, ·) := by
    rw [Plan.Entry.parts, ha, hslot]
  rw [Codec.sentReports, hparts, List.forall₂_map_left_iff, List.flatMap_map]
  constructor
  · exact ((List.forall₂_and_left _ _).2 ⟨hof, hmade⟩).imp fun part message hpart =>
      (Codec.sends_iff h hpart.1).2 hpart.2
  · exact List.flatMap_congr fun part hm => (Codec.reports_toMessage h (hof part hm)).symm

/-- A step sends what is in the slot, each part on its own, and reports that. -/
theorem adds_of_carry (h : codec.registry.Sound)
    (hb : codec.registry.Binding opcode record.layout schema plan)
    (hrecord : record.Of codec.registry opcode) (he : entry ∈ plan.bound)
    (ho : output.Of codec.registry opcode)
    (hstep : codec.step .toMessage opcode record entry output = ⟨reports, .ok next⟩) :
    reports = codec.sentReports record entry ∧
      ∃ made, List.Forall₂ (fun part message => codec.Sends part.1 part.2 message)
        (entry.parts record) made ∧ Adds entry made output next := by
  have hn := preserves_carry h (Direction.writes_toMessage h) hb entry he ho hstep
  obtain ⟨slot, hslot, hstores⟩ := stores_of_carry h hb hrecord he hstep
  cases hact : entry.action with
  | scalar coercion =>
    have hparts : entry.parts record = [] := by rw [Plan.Entry.parts, hact]; rfl
    rw [hact] at hstores
    cases hstores with
    | scalar hvalue hset =>
      have hnone : ∀ inner, entry.action ≠ .nested inner := fun inner => hact ▸ nofun
      exact ⟨by rw [Codec.sentReports, hparts]; rfl, [], hparts ▸ .nil,
        .set h hb he (by rw [hact]; rfl) ho hn hset fun inner ha => absurd ha (hnone inner)⟩
  | nested inner =>
    rw [hact] at hstores
    cases hstores with
    | @nested _ _ made _ hmade hset =>
      obtain ⟨hsends, hreports⟩ :=
        sends_parts h hb hrecord he hslot (by rw [hact]; rfl) (each_singleton hmade)
      exact ⟨hreports, [made], hsends,
        .set h hb he (by rw [hact]; rfl) ho hn hset fun _ _ => ⟨made, rfl, rfl⟩⟩
  | array inner count target =>
    rw [hact] at hstores
    cases hstores with
    | array hlength hmade happend =>
      obtain ⟨hsends, hreports⟩ := sends_parts h hb hrecord he hslot (by rw [hact]; rfl) hmade
      exact ⟨hreports, _, hsends, .append ho (by rw [hact]; rfl) happend⟩
  | list inner target =>
    rw [hact] at hstores
    cases hstores with
    | list hmade happend =>
      obtain ⟨hsends, hreports⟩ := sends_parts h hb hrecord he hslot (by rw [hact]; rfl) hmade
      exact ⟨hreports, _, hsends, .append ho (by rw [hact]; rfl) happend⟩

/-- The steps add to a repeated field, one after the other. -/
theorem exists_elements_of_fillItems (h : codec.registry.Sound)
    (hb : codec.registry.Binding opcode record.layout schema plan)
    (hrecord : record.Of codec.registry opcode) (target : Nat) :
    ∀ {items : List Plan.Item} {output made : Message} {reports : List Diagnostic},
    (∀ entry ∈ (Plan.mk items).bound, entry ∈ plan.bound) → output.Of codec.registry opcode →
    fillItems (codec.step .toMessage opcode record) opcode items output =
      ⟨made, reports, none⟩ →
    ∃ added, List.Forall₂ (fun part message => codec.Sends part.1 part.2 message)
        ((Plan.mk items).bound.flatMap (·.repeats target record)) added ∧
      made.elementsAt target = output.elementsAt target ++ added
  | [], output, made, reports, _, _, hfill => by
    cases hfill
    exact ⟨[], .nil, (List.append_nil _).symm⟩
  | .skip field reason :: rest, output, made, reports, hmem, ho, hfill => by
    obtain ⟨others, hrest, -⟩ := fillItems_skip_eq_iff.1 hfill
    rw [Plan.bound_skip] at hmem ⊢
    exact exists_elements_of_fillItems h hb hrecord target hmem ho hrest
  | .bind entry :: rest, output, made, reports, hmem, ho, hfill => by
    obtain ⟨first, next, others, hstep, hrest, -⟩ := fillItems_bind_eq_iff.1 hfill
    rw [Plan.bound_bind] at hmem
    obtain ⟨he, hmem⟩ := List.forall_mem_cons.1 hmem
    have hn := preserves_carry h (Direction.writes_toMessage h) hb entry he ho hstep
    obtain ⟨-, sent, hsent, hadds⟩ := adds_of_carry h hb hrecord he ho hstep
    obtain ⟨added, hadded, hmade⟩ :=
      exists_elements_of_fillItems h hb hrecord target hmem hn hrest
    refine ⟨(if entry.action.target? = some target then sent else []) ++ added, ?_, ?_⟩
    · rw [Plan.bound_bind, List.flatMap_cons]
      refine List.rel_append ?_ hadded
      rw [Plan.Entry.repeats]
      split
      · exact hsent
      · exact .nil
    · rw [hmade, hadds.elements, List.append_assoc]

end

end Walk

/-- The message in a nested field is what the step of the entry left there. -/
theorem Walk.exists_visit_messageAt? {registry : Registry} {limits : CodecLimits}
    (h : registry.Sound) (hb : registry.Binding opcode layout schema plan) {levels : Nat}
    {record : Record} {output made : Message} (hfill : fillItems (carry .toMessage registry limits
      (run .toMessage registry limits levels) opcode record) opcode plan.items output =
      ⟨made, reports, none⟩) (ho : output.Of registry opcode) (he : entry ∈ plan.bound)
    (htarget : entry.action.target? = none) :
    ∃ before next first, before.Of registry opcode ∧
      carry .toMessage registry limits (run .toMessage registry limits levels) opcode record entry
        before = ⟨first, .ok next⟩ ∧
      made.messageAt? entry.messageIndex = next.messageAt? entry.messageIndex := by
  have hindices := Plan.nodup_messageIndex hb.compiled
  have hplace : entry.place = entry.messageIndex := by rw [Plan.Entry.place, htarget]; rfl
  have hspares : ∀ other ∈ plan.bound, other ≠ entry → Spares (Message.Of registry opcode)
      (fun message : Message => message.messageAt? entry.messageIndex) (carry .toMessage registry
        limits (run .toMessage registry limits levels) opcode record other) := by
    intro other hm hne before next first _ hstep
    have hapart : other.place ≠ entry.messageIndex := by
      intro hsame
      obtain ⟨target, -, ht⟩ := Plan.target?_eq_of_place_eq hb.compiled hm he
        (fun hi => hne (List.inj_on_of_nodup_map hindices hm he hi)) (hsame.trans hplace.symm)
      rw [htarget] at ht
      cases ht
    obtain ⟨write, hprepare, hwrite⟩ := carry_eq_ok_iff.1 hstep
    obtain ⟨update, hupdate⟩ := exists_update hprepare
    simp only [hupdate before next hwrite, Message.messageAt?, Message.value?_put_of_ne hapart]
  exact exists_visit (fun message : Message => message.messageAt? entry.messageIndex)
    (preserves_carry h (Direction.writes_toMessage h) hb) hspares hindices.of_map he ho hfill

/-- A message that was sent holds, in each field for one record, what that was sent as, and
in each repeated field what its parts were sent as; what was reported is what the skipped
and the paired fields report. -/
theorem Codec.toMessage_composed (h : codec.registry.Sound)
    (hp : codec.registry.plan? opcode = some plan) {record : Record}
    (hrecord : record.Sound codec.registry.layouts) {message : Message}
    (hm : codec.Sends opcode record message) :
    (∀ entry ∈ plan.bound, ∀ inner, entry.action = .nested inner →
      ∃ child part, record.slot? entry.recordIndex = some (.record child) ∧
        codec.Sends inner child part ∧ message.messageAt? entry.messageIndex = some part) ∧
    (∀ target, List.Forall₂ (fun part element => codec.Sends part.1 part.2 element)
      (plan.bound.flatMap (·.repeats target record)) (message.elementsAt target)) ∧
    (codec.toMessage opcode record).reports =
      plan.items.flatMap (Plan.Item.reports opcode (codec.sentReports record)) := by
  obtain ⟨hof, hrun⟩ := toMessage_eq_ok h hrecord hm
  obtain ⟨schema, rowPlan, hb⟩ := hof.binding h
  cases (hb.plan?_eq h).symm.trans hp
  obtain ⟨output, hfresh, hfill⟩ := Walk.fill_of_run hp hrun
  have ho : output.Of codec.registry opcode ∧ ∀ target, output.elementsAt target = [] := by
    cases (hb.message?_eq h).symm.trans hfresh
    exact ⟨(hb.message_of_iff h).2 ⟨rfl, Message.sound_blank hb.schema_mem⟩,
      Message.elementsAt_blank schema⟩
  refine ⟨fun entry he inner hact => ?_, fun target => ?_, ?_⟩
  · obtain ⟨before, next, first, hbefore, hstep, hread⟩ :=
      Walk.exists_visit_messageAt? h hb hfill ho.1 he (by rw [hact]; rfl)
    obtain ⟨-, made, hmade, hadds⟩ := Walk.adds_of_carry h hb hof he hbefore hstep
    obtain ⟨part, rfl, hpart⟩ := hadds.child inner hact
    obtain ⟨field, found, hentry⟩ := hb.entry_sound he
    obtain ⟨id, carrier, hk, -⟩ := hentry.nested hact
    obtain ⟨slot, hslot, hsuits⟩ := hrecord.exists_slot hentry.record
    obtain ⟨child, rfl, -⟩ := Slot.fits_nested_iff.1 (hk ▸ hsuits.fits)
    have hparts : entry.parts record = [(inner, child)] := by
      rw [Plan.Entry.parts, hact, hslot]
      rfl
    rw [hparts] at hmade
    cases hmade with
    | cons hsent _ => exact ⟨child, part, hslot, hsent, hread.trans hpart⟩
  · obtain ⟨added, hadded, hmade⟩ := Walk.exists_elements_of_fillItems h hb hof target
      (fun _ he => he) ho.1 hfill
    rw [hmade, ho.2, List.nil_append]
    exact hadded
  · exact Walk.reports_of_fillItems (Walk.preserves_carry h (Direction.writes_toMessage h) hb)
      (fun entry he before next first hbefore hstep =>
        (Walk.adds_of_carry h hb hof he hbefore hstep).1) ho.1 hfill

/-- Conversions are composed of the conversions of what lies inside, each as it would be on
its own, whatever the limits. -/
theorem Codec.composed {layouts : List Layout} {schemas : List Schema}
    {descriptors : List Descriptor}
    (hreg : Registry.ofLists layouts schemas descriptors = .ok codec.registry)
    (hp : codec.registry.plan? opcode = some plan) :
    (∀ message decoded, (codec.fromMessage opcode message).result = .ok (some decoded) →
      (∀ entry ∈ plan.bound, entry.action.inner?.isSome →
        ∃ slot, decoded.record.slot? entry.recordIndex = some slot ∧
          codec.Composes entry message entry.action slot) ∧
      (codec.fromMessage opcode message).reports =
        plan.items.flatMap (Plan.Item.reports opcode (codec.receivedReports opcode message))) ∧
    ∀ record message, Record.Built codec.registry.layouts record →
      codec.Sends opcode record message →
      (∀ entry ∈ plan.bound, ∀ inner, entry.action = .nested inner →
        ∃ child part, record.slot? entry.recordIndex = some (.record child) ∧
          codec.Sends inner child part ∧ message.messageAt? entry.messageIndex = some part) ∧
      (∀ target, List.Forall₂ (fun part element => codec.Sends part.1 part.2 element)
        (plan.bound.flatMap (·.repeats target record)) (message.elementsAt target)) ∧
      (codec.toMessage opcode record).reports =
        plan.items.flatMap (Plan.Item.reports opcode (codec.sentReports record)) := by
  have h := Registry.sound_of_ofLists hreg
  exact ⟨fun _ _ hm => fromMessage_composed h hp hm,
    fun _ _ hbuilt hm => toMessage_composed h hp (hbuilt.sound h.layouts) hm⟩

/-! ### Bins and trays, filled -/

def binPlan : Plan := ⟨[.bind ⟨0, 0, .array 2 1 0, 8⟩, .bind ⟨1, 1, .list 3 0, 8⟩]⟩

def trayPlan : Plan :=
  ⟨[.bind ⟨0, 0, .array 2 2 0, 16⟩, .bind ⟨1, 1, .nested 2, 8⟩, .skip "mark" .missingField]⟩

/-- Cells by name. -/
def cellMessages (names : List String) : Option Value :=
  some (.list (names.map fun name => .mk cellSchema [some (.string name)]))

/-- A bin with one cell and two nodes. -/
def fullBin : Record :=
  binRecord [cellRecord (some "a")] (some (.mk ⟨"node", [⟨"name", .ownedText⟩,
    ⟨"next", .list "node"⟩]⟩ [.text (some "a"), .link (some (nodeRecord "b"))]))

theorem built_fullBin : Record.Built trayCodec.registry.layouts fullBin := by
  have hcell : Record.Built trayCodec.registry.layouts (cellRecord (some "a")) :=
    .setOwnedText (.allocate (show trayCodec.registry.layouts.allocate "cell" = .ok _ by cbv))
      (show (cellRecord none).setOwnedText "name" (some "a") = .ok (cellRecord (some "a")) by cbv)
  have hnode : ∀ name, Record.Built trayCodec.registry.layouts (nodeRecord name) := fun name =>
    .setOwnedText (.allocate (show trayCodec.registry.layouts.allocate "node" = .ok _ by cbv))
      (show Record.setOwnedText _ "name" (some name) = .ok (nodeRecord name) from rfl)
  have hempty : Record.Built trayCodec.registry.layouts (binRecord [cellRecord none] none) :=
    .allocate (show trayCodec.registry.layouts.allocate "bin" = .ok _ by cbv)
  have hset : (binRecord [cellRecord none] none).setSlot 0 (.array [cellRecord (some "a")]) =
      .ok (binRecord [cellRecord (some "a")] none) := by cbv
  have hfilled : Record.Built trayCodec.registry.layouts
      (binRecord [cellRecord (some "a")] none) := by
    refine hempty.setSlot ?_ hset
    exact List.forall_mem_singleton.2 hcell
  exact hfilled.setListAt
    (List.forall_mem_cons.2 ⟨hnode "a", List.forall_mem_singleton.2 (hnode "b")⟩)
    (show Record.setListAt _ 1 [nodeRecord "a", nodeRecord "b"] = .ok fullBin by cbv)

/-- A bin is received with a cell for its array, and both for its list, and sent with all
three; a tray that is blank is received with blank cells. -/
theorem Codec.composed_bin_tray :
    Registry.ofLists trayLayouts [cellSchema, traySchema, binSchema] trayDescriptors =
        .ok trayCodec.registry ∧
      trayCodec.registry.plan? 4 = some binPlan ∧ trayCodec.registry.plan? 1 = some trayPlan ∧
      (trayCodec.fromMessage 4 (.mk binSchema [cellMessages ["a", "b"], none])).result =
        .ok (some ⟨fullBin, 16⟩) ∧
      (trayCodec.fromMessage 4 (.mk binSchema [cellMessages ["a", "b"], none])).reports =
        [.arrayOverflow 4 "cells" 1 2] ∧
      (∀ entry ∈ binPlan.bound, entry.action.inner?.isSome →
        ∃ slot, fullBin.slot? entry.recordIndex = some slot ∧ trayCodec.Composes entry
          (.mk binSchema [cellMessages ["a", "b"], none]) entry.action slot) ∧
      (trayCodec.fromMessage 1 (.blank traySchema)).result = .ok (some
        ⟨trayRecord [cellRecord none, cellRecord none] (cellRecord (some "")), 24⟩) ∧
      (∀ entry ∈ trayPlan.bound, entry.action.inner?.isSome →
        ∃ slot, (trayRecord [cellRecord none, cellRecord none]
          (cellRecord (some ""))).slot? entry.recordIndex = some slot ∧
          trayCodec.Composes entry (.blank traySchema) entry.action slot) ∧
      Record.Built trayCodec.registry.layouts fullBin ∧
      trayCodec.Sends 4 fullBin (.mk binSchema [cellMessages ["a", "a", "b"], none]) ∧
      ∀ target, List.Forall₂ (fun part element => trayCodec.Sends part.1 part.2 element)
        (binPlan.bound.flatMap (·.repeats target fullBin))
        ((Message.mk binSchema [cellMessages ["a", "a", "b"], none]).elementsAt target) := by
  have hbin : trayCodec.registry.plan? 4 = some binPlan := rfl
  have htray : trayCodec.registry.plan? 1 = some trayPlan := rfl
  have hreceived : (trayCodec.fromMessage 4
      (.mk binSchema [cellMessages ["a", "b"], none])).result = .ok (some ⟨fullBin, 16⟩) := by rfl
  have hreports : (trayCodec.fromMessage 4
      (.mk binSchema [cellMessages ["a", "b"], none])).reports =
      [.arrayOverflow 4 "cells" 1 2] := by rfl
  have hblank : (trayCodec.fromMessage 1 (.blank traySchema)).result = .ok (some
      ⟨trayRecord [cellRecord none, cellRecord none] (cellRecord (some "")), 24⟩) := by rfl
  have hsent : trayCodec.Sends 4 fullBin
      (.mk binSchema [cellMessages ["a", "a", "b"], none]) := by rfl
  obtain ⟨hback, hforth⟩ := Codec.composed ofLists_tray hbin
  exact ⟨ofLists_tray, hbin, htray, hreceived, hreports, (hback _ _ hreceived).1, hblank,
    ((Codec.composed ofLists_tray htray).1 _ _ hblank).1, built_fullBin, hsent,
    (hforth _ _ built_fullBin hsent).2.1⟩

end RecordBridge

import RecordBridge.Proofs.Codec.Calls
import RecordBridge.Proofs.Codec.Reads
import RecordBridge.Proofs.Codec.RoundTrip
import RecordBridge.Proofs.Message.Complete
/-!
# Fields that share a repeated field

Arrays and lists go to the repeated field that the opcode of their elements
names, so two fields of a record may meet in one (`Plan.Shares`): both come back
with the elements of both. No other field is changed by a field that is sent
along (`slot?_eq_of_delivers`). The argument compares two runs: the messages
agree off the places of the changed field (`agree_of_run`), so the records agree
off the fields that are read from these places (`agree_of_run_back`).
-/
namespace RecordBridge

/-- Two paired fields of a record whose elements go to one repeated field. -/
def Plan.Shares (plan : Plan) (first second : Nat) : Prop :=
  ∃ a ∈ plan.bound, ∃ b ∈ plan.bound, a.recordIndex = first ∧ b.recordIndex = second ∧
    a.action.target?.isSome ∧ a.action.target? = b.action.target?

instance (plan : Plan) (first second : Nat) : Decidable (plan.Shares first second) :=
  inferInstanceAs (Decidable (∃ a ∈ plan.bound, ∃ b ∈ plan.bound, _ ∧ _ ∧ _ ∧ _))

/-- A place that a field of a record is sent to. -/
def Plan.SendsTo (plan : Plan) (index place : Nat) : Prop :=
  ∃ entry ∈ plan.bound, entry.recordIndex = index ∧ entry.place = place

/-- A field of a record that is read from some of the places. -/
def Plan.ReadsFrom (plan : Plan) (places : Nat → Prop) (index : Nat) : Prop :=
  ∃ entry ∈ plan.bound, entry.recordIndex = index ∧ places entry.place

/-- A record is delivered as another one: it is encoded to a frame, and that is
decoded whole. -/
def Codec.Delivers (codec : Codec) (opcode : UInt16) (record made : Record) : Prop :=
  ∃ frame, (codec.encode opcode record).result = .ok (some frame) ∧
    (codec.decode opcode (frame.drop 2)).result.record = made ∧
    ∀ report ∈ (codec.decode opcode (frame.drop 2)).reports,
      ¬ report.isMalformed ∧ ¬ report.isAborted

/-! ## Agreement -/

/-- Messages that hold the same at every place but some. -/
structure Message.AgreeOff (places : Nat → Prop) (first second : Message) : Prop where
  length : first.values.length = second.values.length
  value? : ∀ index, ¬ places index → first.value? index = second.value? index

/-- Records of one layout that hold the same in every field but some. -/
structure Record.AgreeOff (fields : Nat → Prop) (first second : Record) : Prop where
  layout : first.layout = second.layout
  length : first.slots.length = second.slots.length
  slot? : ∀ index, ¬ fields index → first.slot? index = second.slot? index

namespace Message

variable {places : Nat → Prop} {first second : Message}

namespace AgreeOff

/-- Messages go on to agree off a place that is put anything. -/
theorem put_of_mem (h : first.AgreeOff places second) {index : Nat} (hi : places index)
    (a b : Option Value) : (first.put index a).AgreeOff places (second.put index b) := by
  refine ⟨by simpa using h.length, fun other ho => ?_⟩
  have hne : index ≠ other := fun he => ho (he ▸ hi)
  rw [value?_put_of_ne hne, value?_put_of_ne hne, h.value? other ho]

/-- Messages go on to agree when both are put the same. -/
theorem put (h : first.AgreeOff places second) (index : Nat) (value : Option Value) :
    (first.put index value).AgreeOff places (second.put index value) := by
  refine ⟨by simpa using h.length, fun other ho => ?_⟩
  by_cases he : index = other
  · subst he
    simp [Message.value?, List.getElem?_set, h.length]
  · rw [value?_put_of_ne he, value?_put_of_ne he, h.value? other ho]

theorem canon (h : first.AgreeOff places second) :
    first.canon.AgreeOff places second.canon := by
  refine ⟨?_, fun index hi => ?_⟩
  · simpa [values_canon, canonFields_eq_map] using h.length
  · rw [value?_canon, value?_canon, h.value? index hi]

end AgreeOff

end Message

namespace Record.AgreeOff

variable {fields : Nat → Prop} {first second : Record}

/-- Records go on to agree off a field that is written or left. -/
theorem elim_of_mem (h : first.AgreeOff fields second) {index : Nat} (hi : fields index)
    (a b : Option Slot) : (a.elim first (first.put index)).AgreeOff fields
      (b.elim second (second.put index)) := by
  have hleft : ∀ (record : Record) (slot : Option Slot),
      (slot.elim record (record.put index)).layout = record.layout ∧
        (slot.elim record (record.put index)).slots.length = record.slots.length ∧
        ∀ other, ¬ fields other →
          (slot.elim record (record.put index)).slot? other = record.slot? other := by
    intro record slot
    cases slot with
    | none => exact ⟨rfl, rfl, fun _ _ => rfl⟩
    | some slot =>
      refine ⟨rfl, by simp, fun other ho => slot?_put_of_ne ?_ slot⟩
      rintro rfl
      exact ho hi
  obtain ⟨hlayout, hlength, hslot⟩ := hleft first a
  obtain ⟨hlayout', hlength', hslot'⟩ := hleft second b
  refine ⟨by rw [hlayout, hlayout', h.layout], by rw [hlength, hlength', h.length], ?_⟩
  intro other ho
  rw [hslot other ho, hslot' other ho, h.slot? other ho]

/-- Records go on to agree when the same is done to both. -/
theorem elim (h : first.AgreeOff fields second) (index : Nat) (slot : Option Slot) :
    (slot.elim first (first.put index)).AgreeOff fields
      (slot.elim second (second.put index)) := by
  cases slot with
  | none => exact h
  | some slot =>
    refine ⟨h.layout, by simpa using h.length, fun other ho => ?_⟩
    by_cases he : index = other
    · subst he
      simp [Record.slot?, List.getElem?_set, h.length]
    · exact (slot?_put_of_ne he slot).trans ((h.slot? other ho).trans
        (slot?_put_of_ne he slot).symm)

end Record.AgreeOff

namespace Walk

variable {registry : Registry} {limits : CodecLimits} {opcode : UInt16} {layout : Layout}
  {schema : Schema} {plan : Plan} {τ : Type}

/-! ## Two runs, item by item -/

/-- What every step keeps of two outputs, two runs keep. -/
theorem fillItems_related {R : τ → τ → Prop} {one two : Plan.Entry → τ → Walk τ} :
    ∀ {items : List Plan.Item} {a b made other : τ} {reports others : List Diagnostic},
    (∀ entry, .bind entry ∈ items → ∀ {a b next next' : τ} {first second : List Diagnostic},
      R a b → one entry a = ⟨first, .ok next⟩ → two entry b = ⟨second, .ok next'⟩ →
      R next next') → R a b →
    fillItems one opcode items a = ⟨made, reports, none⟩ →
    fillItems two opcode items b = ⟨other, others, none⟩ → R made other
  | [], _, _, _, _, _, _, _, hr, hone, htwo => by
    cases hone
    cases htwo
    exact hr
  | .skip field reason :: rest, _, _, _, _, _, _, hstep, hr, hone, htwo => by
    obtain ⟨_, hone, -⟩ := fillItems_skip_eq_iff.1 hone
    obtain ⟨_, htwo, -⟩ := fillItems_skip_eq_iff.1 htwo
    exact fillItems_related (fun entry he => hstep entry (List.mem_cons_of_mem _ he)) hr hone htwo
  | .bind entry :: rest, _, _, _, _, _, _, hstep, hr, hone, htwo => by
    obtain ⟨_, next, _, hfirst, hone, -⟩ := fillItems_bind_eq_iff.1 hone
    obtain ⟨_, next', _, hsecond, htwo, -⟩ := fillItems_bind_eq_iff.1 htwo
    exact fillItems_related (fun entry he => hstep entry (List.mem_cons_of_mem _ he))
      (hstep entry List.mem_cons_self hr hfirst hsecond) hone htwo

/-- Records that differ in one field are sent as messages that agree off its places. -/
theorem agree_of_run (h : registry.Sound) (hb : registry.Binding opcode layout schema plan)
    {levels : Nat} {changed : Nat} {first second : Record}
    (hdiffer : ∀ index, index ≠ changed → first.slot? index = second.slot? index)
    {one two : Message} {reports others : List Diagnostic}
    (hone : run .toMessage registry limits levels opcode first = ⟨reports, .ok one⟩)
    (htwo : run .toMessage registry limits levels opcode second = ⟨others, .ok two⟩) :
    one.AgreeOff (plan.SendsTo changed) two := by
  obtain ⟨output, hfresh, hone⟩ := run_eq_ok_iff.1 hone
  obtain ⟨_, hfresh', htwo⟩ := run_eq_ok_iff.1 htwo
  cases hfresh.symm.trans hfresh'
  cases levels with
  | zero => cases hone
  | succ levels =>
    have hp := hb.plan?_eq h
    rw [fill_succ levels _ _ hp] at hone htwo
    refine fillItems_related ?_ ⟨rfl, fun _ _ => rfl⟩ hone htwo
    intro entry he a b next next' _ _ hr hnext hnext'
    obtain ⟨write, hprepare, hnext⟩ := carry_eq_ok_iff.1 hnext
    obtain ⟨write', hprepare', hnext'⟩ := carry_eq_ok_iff.1 hnext'
    obtain ⟨update, hupdate⟩ := exists_update hprepare
    by_cases hc : entry.recordIndex = changed
    · obtain ⟨update', hupdate'⟩ := exists_update hprepare'
      rw [hupdate a next hnext, hupdate' b next' hnext']
      exact hr.put_of_mem ⟨entry, Plan.mem_bound.2 he, hc, rfl⟩ _ _
    · rw [prepare_toMessage_congr (hdiffer _ hc), hprepare'] at hprepare
      cases hprepare
      rw [hupdate a next hnext, hupdate b next' hnext']
      by_cases hplace : plan.SendsTo changed entry.place
      · exact hr.put_of_mem hplace _ _
      · rw [hr.value? _ hplace]
        exact hr.put _ _

/-- Messages that agree off some places are received as records that agree off the
fields that are read from these. -/
theorem agree_of_run_back (h : registry.Sound) (hb : registry.Binding opcode layout schema plan)
    {levels : Nat} {places : Nat → Prop} {first second : Message}
    (hagree : first.AgreeOff places second) {one two : Record} {reports others : List Diagnostic}
    (hone : run .toRecord registry limits levels opcode first = ⟨reports, .ok one⟩)
    (htwo : run .toRecord registry limits levels opcode second = ⟨others, .ok two⟩) :
    one.AgreeOff (plan.ReadsFrom places) two := by
  obtain ⟨output, hfresh, hone⟩ := run_eq_ok_iff.1 hone
  obtain ⟨_, hfresh', htwo⟩ := run_eq_ok_iff.1 htwo
  cases hfresh.symm.trans hfresh'
  cases levels with
  | zero => cases hone
  | succ levels =>
    have hp := hb.plan?_eq h
    rw [fill_succ levels _ _ hp] at hone htwo
    refine fillItems_related ?_ ⟨rfl, rfl, fun _ _ => rfl⟩ hone htwo
    intro entry he a b next next' _ _ hr hnext hnext'
    obtain ⟨write, hprepare, hnext⟩ := carry_eq_ok_iff.1 hnext
    obtain ⟨write', hprepare', hnext'⟩ := carry_eq_ok_iff.1 hnext'
    obtain ⟨content, hcontent⟩ := exists_write hprepare
    by_cases hplace : places entry.place
    · obtain ⟨content', hcontent'⟩ := exists_write hprepare'
      rw [hcontent a next hnext, hcontent' b next' hnext']
      exact hr.elim_of_mem ⟨entry, Plan.mem_bound.2 he, rfl, hplace⟩ _ _
    · rw [prepare_toRecord_congr (hagree.value? _ hplace), hprepare'] at hprepare
      cases hprepare
      rw [hcontent a next hnext, hcontent b next' hnext', hr.layout]
      exact hr.elim _ _

end Walk

/-! ## Delivered records -/

/-- The fields that are read from the places of a field share a repeated field with it. -/
theorem Plan.shares_of_readsFrom {layouts : LayoutSet} {descriptors : List Descriptor}
    {opcode : UInt16} {layout : Layout} {schema : Schema} {plan : Plan}
    (hc : compile layouts descriptors opcode layout schema = .ok plan) {changed other : Nat}
    (hne : other ≠ changed) (hread : plan.ReadsFrom (plan.SendsTo changed) other) :
    plan.Shares changed other := by
  obtain ⟨b, hb, rfl, a, ha, rfl, hplace⟩ := hread
  have hindex : a.messageIndex ≠ b.messageIndex := by
    intro he
    have hsame := List.inj_on_of_nodup_map (nodup_messageIndex hc) ha hb he
    exact hne (by rw [hsame])
  obtain ⟨target, hta, htb⟩ := target?_eq_of_place_eq hc ha hb hindex hplace
  exact ⟨a, ha, b, hb, rfl, rfl, by rw [hta]; rfl, by rw [hta, htb]⟩

namespace Codec

variable {codec : Codec} {opcode : UInt16} {record made first second one two : Record}

/-- A delivered record went through a message, and came back from its canonical form. -/
theorem Delivers.exists_message (h : codec.registry.Sound) (hlimit : codec.frameLimit ≤ unlimited)
    (hrecord : record.Sound codec.registry.layouts) (hmade : codec.Delivers opcode record made) :
    record.Of codec.registry opcode ∧ ∃ (message : Message) (reports others : List Diagnostic),
      Walk.run .toMessage codec.registry codec.limits (codec.limits.maxDepth + 1) opcode record =
        ⟨reports, .ok message⟩ ∧
      Walk.run .toRecord codec.registry codec.limits (codec.limits.maxDepth + 1) opcode
        message.canon = ⟨others, .ok made⟩ := by
  obtain ⟨frame, hencode, rfl, hclean⟩ := hmade
  obtain ⟨message, hmessage, -, hsize, hpayload⟩ := encode_eq_ok hencode
  obtain ⟨hof, hthere⟩ := toMessage_eq_ok h hrecord hmessage
  obtain ⟨schema, plan, hb⟩ := hof.binding h
  obtain ⟨rfl, hsound⟩ :=
    (hb.message_of_iff h).1 (Walk.of_run h (Direction.writes_toMessage h) hb hthere)
  have hfault := fault_eq_none_of_decode h hb fun report hm => (hclean report hm).1
  obtain ⟨others, hback⟩ := run_eq_ok_of_decode h hb fun report hm => (hclean report hm).2
  rw [hpayload] at hfault hback ⊢
  have hcanon := hsound.decode_encode_of_fault h.schemas
    (by simp only [unlimited, UInt64.size, opcodeSize] at hlimit hsize ⊢; omega) hfault
  rw [hcanon] at hback
  exact ⟨hof, message, _, others, hthere, hback⟩

/-- Records that differ in one field are delivered as records that agree in every
other field, unless it shares a repeated field with the changed one. -/
theorem slot?_eq_of_delivers {layouts : List Layout} {schemas : List Schema}
    {descriptors : List Descriptor}
    (hreg : Registry.ofLists layouts schemas descriptors = .ok codec.registry)
    (hlimit : codec.frameLimit ≤ unlimited)
    (hfirst : Record.Built codec.registry.layouts first)
    (hsecond : Record.Built codec.registry.layouts second) {changed other : Nat}
    (hdiffer : ∀ index, index ≠ changed → first.slot? index = second.slot? index)
    (hother : other ≠ changed)
    (hshares : ∀ plan, codec.registry.plan? opcode = some plan → ¬ plan.Shares changed other)
    (hone : codec.Delivers opcode first one) (htwo : codec.Delivers opcode second two) :
    one.slot? other = two.slot? other := by
  have h := Registry.sound_of_ofLists hreg
  obtain ⟨hof, message, _, _, hsent, hmade⟩ :=
    hone.exists_message h hlimit (hfirst.sound h.layouts)
  obtain ⟨-, message', _, _, hsent', hmade'⟩ :=
    htwo.exists_message h hlimit (hsecond.sound h.layouts)
  obtain ⟨schema, plan, hb⟩ := hof.binding h
  have hmessages := Walk.agree_of_run h hb hdiffer hsent hsent'
  have hrecords := Walk.agree_of_run_back h hb hmessages.canon hmade hmade'
  refine hrecords.slot? other fun hread => ?_
  exact hshares plan (hb.plan?_eq h) (Plan.shares_of_readsFrom hb.compiled hother hread)

end Codec

/-! ### Pairs of lists -/

def pairLayouts : List Layout :=
  [⟨"node", [⟨"value", .int 4 true⟩, ⟨"next", .list "node"⟩]⟩,
    ⟨"pair", [⟨"front", .list "node"⟩, ⟨"back", .list "node"⟩, ⟨"mark", .bool⟩]⟩]

def pairSchema : Schema :=
  ⟨"Pair", [⟨"front", 1, .repeated "Node"⟩, ⟨"back", 2, .repeated "Node"⟩, ⟨"mark", 3, .bool⟩]⟩

def pairSchemas : List Schema := [⟨"Node", [⟨"value", 1, .int32⟩]⟩, pairSchema]

def pairDescriptors : List Descriptor :=
  [⟨1, "pair", "Pair", none⟩, ⟨2, "node", "Node", some "back"⟩]

/-- Opcode 1 carries marked pairs of lists, and opcode 2 their nodes, all of them in the
field of the second list. -/
def pairCodec : Codec where
  registry.layouts := ⟨pairLayouts, pairLayouts.reverse, [("pair", 17), ("node", 12)], by decide⟩
  registry.schemas := ⟨pairSchemas⟩
  registry.rows :=
    [⟨⟨1, "pair", "Pair", none⟩, ⟨[.bind ⟨0, 0, .list 2 1, 8⟩, .bind ⟨1, 1, .list 2 1, 8⟩,
        .bind ⟨2, 2, .scalar .bool, 1⟩]⟩⟩,
      ⟨⟨2, "node", "Node", some "back"⟩, ⟨[.bind ⟨0, 0, .scalar (.int 4 true), 4⟩]⟩⟩]

def pairNode (value : Int64) : Record :=
  .mk ⟨"node", [⟨"value", .int 4 true⟩, ⟨"next", .list "node"⟩]⟩ [.int value, .link none]

def pairRecord (front back : Option Record) (mark : Bool) : Record :=
  .mk ⟨"pair", [⟨"front", .list "node"⟩, ⟨"back", .list "node"⟩, ⟨"mark", .bool⟩]⟩
    [.link front, .link back, .bool mark]

theorem built_pairRecord :
    Record.Built pairCodec.registry.layouts (pairRecord none none true) ∧
      Record.Built pairCodec.registry.layouts (pairRecord (some (pairNode 7)) none true) := by
  have zero : Record.Built pairCodec.registry.layouts (pairRecord none none false) :=
    .allocate (show LayoutSet.allocate _ "pair" = .ok _ from rfl)
  have marked : Record.Built pairCodec.registry.layouts (pairRecord none none true) :=
    @Record.Built.setBool _ (pairRecord none none false) _ "mark" true zero rfl
  have node : Record.Built pairCodec.registry.layouts (pairNode 0) :=
    .allocate (show LayoutSet.allocate _ "node" = .ok _ from rfl)
  have seven : Record.Built pairCodec.registry.layouts (pairNode 7) :=
    @Record.Built.setInt _ (pairNode 0) _ "value" 7 node rfl
  exact ⟨marked,
    @Record.Built.setListAt _ _ _ 0 [_] marked (List.forall_mem_singleton.2 seven) rfl⟩

theorem slot?_pairRecord_of_ne : ∀ index, index ≠ 0 →
    (pairRecord (some (pairNode 7)) none true).slot? index =
      (pairRecord none none true).slot? index := by
  intro index hindex
  obtain ⟨index, rfl⟩ := Nat.exists_eq_succ_of_ne_zero hindex
  rfl

/-- A node of the first list is delivered in both. -/
theorem delivers_pairRecord :
    pairCodec.Delivers 1 (pairRecord none none true) (pairRecord none none true) ∧
      pairCodec.Delivers 1 (pairRecord (some (pairNode 7)) none true)
        (pairRecord (some (pairNode 7)) (some (pairNode 7)) true) := by
  have hs : pairCodec.registry.schema? 1 = some pairSchema := rfl
  have hp : pairCodec.registry.plan? 1 = some _ := rfl
  have hz : pairCodec.registry.record? 1 = some (pairRecord none none false) := rfl
  have hmark : Message.decode pairCodec.registry.schemas pairSchema [24, 1] =
      (.mk pairSchema [none, none, some (.bool true)], none) := by cbv
  have hseven : Message.decode pairCodec.registry.schemas pairSchema [18, 2, 8, 7, 24, 1] =
      (.mk pairSchema [none, some (.list [.mk ⟨"Node", [⟨"value", 1, .int32⟩]⟩
        [some (.int32 7)]]), some (.bool true)], none) := by cbv
  have hempty : pairCodec.decode 1 [24, 1] =
      ⟨⟨pairRecord none none true, 17⟩, [], [.decoded 1 2 17]⟩ :=
    Codec.decode_eq hs hp hz hmark rfl
  have hfull : pairCodec.decode 1 [18, 2, 8, 7, 24, 1] =
      ⟨⟨pairRecord (some (pairNode 7)) (some (pairNode 7)) true, 17⟩, [], [.decoded 1 6 17]⟩ :=
    Codec.decode_eq hs hp hz hseven rfl
  constructor
  · refine ⟨[1, 0, 24, 1], by cbv, congrArg (·.result.record) hempty, fun report hm => ?_⟩
    change report ∈ (pairCodec.decode 1 [24, 1]).reports at hm
    rw [hempty] at hm
    cases hm
  · refine ⟨[1, 0, 18, 2, 8, 7, 24, 1], by cbv, congrArg (·.result.record) hfull,
      fun report hm => ?_⟩
    change report ∈ (pairCodec.decode 1 [18, 2, 8, 7, 24, 1]).reports at hm
    rw [hfull] at hm
    cases hm

/-- Pairs that differ in the first list are delivered with different second lists. -/
theorem Codec.pairs_leak :
    Registry.ofLists pairLayouts pairSchemas pairDescriptors = .ok pairCodec.registry ∧
      Record.Built pairCodec.registry.layouts (pairRecord none none true) ∧
      Record.Built pairCodec.registry.layouts (pairRecord (some (pairNode 7)) none true) ∧
      (∀ index, index ≠ 0 → (pairRecord (some (pairNode 7)) none true).slot? index =
        (pairRecord none none true).slot? index) ∧
      pairCodec.Delivers 1 (pairRecord none none true) (pairRecord none none true) ∧
      pairCodec.Delivers 1 (pairRecord (some (pairNode 7)) none true)
        (pairRecord (some (pairNode 7)) (some (pairNode 7)) true) ∧
      (pairRecord (some (pairNode 7)) (some (pairNode 7)) true).slot? 1 ≠
        (pairRecord none none true).slot? 1 := by
  have hreg : Registry.ofLists pairLayouts pairSchemas pairDescriptors =
      .ok pairCodec.registry := by cbv
  refine ⟨hreg, built_pairRecord.1, built_pairRecord.2, slot?_pairRecord_of_ne,
    delivers_pairRecord.1, delivers_pairRecord.2, fun he => ?_⟩
  simp [pairRecord, Record.slot?] at he

/-- The mark of a pair is delivered alike. -/
theorem Codec.pairs_keep_mark :
    Registry.ofLists pairLayouts pairSchemas pairDescriptors = .ok pairCodec.registry ∧
      pairCodec.frameLimit ≤ unlimited ∧
      Record.Built pairCodec.registry.layouts (pairRecord (some (pairNode 7)) none true) ∧
      Record.Built pairCodec.registry.layouts (pairRecord none none true) ∧
      (∀ index, index ≠ 0 → (pairRecord (some (pairNode 7)) none true).slot? index =
        (pairRecord none none true).slot? index) ∧
      (∀ plan, pairCodec.registry.plan? 1 = some plan → ¬ plan.Shares 0 2) ∧
      pairCodec.Delivers 1 (pairRecord (some (pairNode 7)) none true)
        (pairRecord (some (pairNode 7)) (some (pairNode 7)) true) ∧
      pairCodec.Delivers 1 (pairRecord none none true) (pairRecord none none true) ∧
      (pairRecord (some (pairNode 7)) (some (pairNode 7)) true).slot? 2 =
        (pairRecord none none true).slot? 2 := by
  have hreg : Registry.ofLists pairLayouts pairSchemas pairDescriptors =
      .ok pairCodec.registry := by cbv
  have hlimit : pairCodec.frameLimit ≤ unlimited := by decide
  have hshares : ∀ plan, pairCodec.registry.plan? 1 = some plan → ¬ plan.Shares 0 2 := by
    intro plan hp
    cases hp
    decide
  exact ⟨hreg, hlimit, built_pairRecord.2, built_pairRecord.1, slot?_pairRecord_of_ne, hshares,
    delivers_pairRecord.2, delivers_pairRecord.1,
    slot?_eq_of_delivers hreg hlimit built_pairRecord.2 built_pairRecord.1
      slot?_pairRecord_of_ne (by decide) hshares delivers_pairRecord.2 delivers_pairRecord.1⟩

end RecordBridge

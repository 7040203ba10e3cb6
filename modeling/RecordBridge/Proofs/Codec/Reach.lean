import RecordBridge.Proofs.Codec.RoundTrip
import RecordBridge.Proofs.Codec.Shortens
import RecordBridge.Proofs.Codec.Succeeds
/-!
# How far an encode goes

An encode meets the records that are reached from the one it is given by following
paired fields into what they hold (`Registry.Reaches`). It succeeds exactly when none of
them is too deep and none of their paired lists too long (`succeeds_run_iff_reaches`); otherwise
it ends at one of the limits. The message does not depend on the limits
(`toMessage_within_limits`).
-/
namespace RecordBridge

/-- A record is reached from a record of an opcode, that many levels below it: it is the
record itself, or is reached from an embedded record, an element or a node in a paired field. -/
inductive Registry.Reaches (registry : Registry) :
    UInt16 → Record → (depth : Nat) → UInt16 → Record → Prop where
  | here (opcode : UInt16) (record : Record) : Reaches registry opcode record 0 opcode record
  | inside {opcode inner found : UInt16} {record part place : Record} {plan : Plan}
      {entry : Plan.Entry} {slot : Slot} {depth : Nat}
      (plan_eq : registry.plan? opcode = some plan) (bound : entry ∈ plan.bound)
      (carried : entry.action.inner? = some inner)
      (slot_eq : record.slot? entry.recordIndex = some slot) (part_mem : part ∈ slot.parts)
      (reaches : Reaches registry inner part depth found place) :
      Reaches registry opcode record (depth + 1) found place

namespace Record

/-- The paired lists of a record have no more nodes than allowed. -/
def ShortLists (registry : Registry) (limit : Nat) (opcode : UInt16) (record : Record) : Prop :=
  ∀ plan, registry.plan? opcode = some plan → ∀ entry ∈ plan.bound, ∀ inner target nodes,
    entry.action = .list inner target → record.list? entry.recordIndex = some nodes →
      nodes.length ≤ limit

/-- No record that is reached is deeper than allowed or has a paired list longer than allowed. -/
def WithinLimits (registry : Registry) (limits : CodecLimits) (opcode : UInt16)
    (record : Record) : Prop :=
  ∀ depth found place, registry.Reaches opcode record depth found place →
    depth ≤ limits.maxDepth ∧ place.ShortLists registry limits.maxListNodes found

end Record

variable {registry : Registry} {limits : CodecLimits} {opcode : UInt16} {schema : Schema}
  {plan : Plan} {record : Record}

/-- What holds of all records that are reached holds of the record itself and, one level
further in, of what is reached from its parts. -/
theorem Registry.forall_reaches_iff (hp : registry.plan? opcode = some plan)
    {Q : Nat → UInt16 → Record → Prop} :
    (∀ depth found place, registry.Reaches opcode record depth found place →
        Q depth found place) ↔
      Q 0 opcode record ∧ ∀ entry ∈ plan.bound, ∀ inner, entry.action.inner? = some inner →
        ∀ slot, record.slot? entry.recordIndex = some slot → ∀ part ∈ slot.parts,
          ∀ depth found place, registry.Reaches inner part depth found place →
            Q (depth + 1) found place := by
  constructor
  · intro hall
    refine ⟨hall 0 opcode record (.here opcode record), ?_⟩
    intro entry he inner ha slot hs part hpart depth found place hreach
    exact hall (depth + 1) found place (.inside hp he ha hs hpart hreach)
  · rintro ⟨hhere, hinside⟩ depth found place hreach
    cases hreach with
    | here => exact hhere
    | inside plan_eq bound carried slot_eq part_mem reaches =>
      cases hp.symm.trans plan_eq
      exact hinside _ bound _ carried _ slot_eq _ part_mem _ _ _ reaches

namespace Walk

/-- The paired lists of a record are those of the slots that its plan goes into. -/
theorem shortLists_iff (h : registry.Sound)
    (hb : registry.Binding opcode record.layout schema plan)
    (hrecord : record.Of registry opcode) {limit : Nat} :
    record.ShortLists registry limit opcode ↔
      ∀ entry ∈ plan.bound, ∀ inner, entry.action.inner? = some inner →
        ∀ slot, record.slot? entry.recordIndex = some slot → slot.Within limit := by
  constructor
  · intro hshort entry he inner ha slot hslot
    obtain ⟨field, found, hentry⟩ := hb.entry_sound he
    have hfits := (hrecord.2.fits.suits _ found slot hentry.record hslot).fits
    cases hact : entry.action with
    | scalar coercion =>
      rw [hact] at ha
      cases ha
    | nested opcode =>
      obtain ⟨id, carrier, hk, -⟩ := hentry.nested hact
      obtain ⟨child, rfl, -⟩ := Slot.fits_nested_iff.1 (hk ▸ hfits)
      trivial
    | array opcode count target =>
      obtain ⟨id, size, carrier, hk, -⟩ := hentry.array hact
      obtain ⟨elements, rfl, -⟩ := Slot.fits_array_iff.1 (hk ▸ hfits)
      trivial
    | list opcode target =>
      obtain ⟨id, carrier, hk, -⟩ := hentry.list hact
      obtain ⟨head, rfl, -⟩ := Slot.fits_list_iff.1 (hk ▸ hfits)
      exact hshort plan (hb.plan?_eq h) entry he opcode target _ hact (by rw [Record.list?, hslot])
  · intro hwithin other hother entry he inner target nodes hact hnodes
    cases (hb.plan?_eq h).symm.trans hother
    obtain ⟨field, found, hentry⟩ := hb.entry_sound he
    obtain ⟨slot, hslot, hsuits⟩ := hrecord.2.exists_slot hentry.record
    obtain ⟨id, carrier, hk, -⟩ := hentry.list hact
    obtain ⟨head, rfl, -⟩ := Slot.fits_list_iff.1 (hk ▸ hsuits.fits)
    rw [Record.list?, hslot] at hnodes
    cases hnodes
    exact hwithin entry he inner (by rw [hact]; rfl) _ hslot

/-- A record is converted exactly when all that is reached from it is on the levels left
and has short lists. -/
theorem succeeds_run_iff_reaches (h : registry.Sound) : ∀ (levels : Nat) {opcode : UInt16}
    {record : Record}, record.Of registry opcode →
    ((run .toMessage registry limits levels opcode record).Succeeds ↔
      ∀ depth found place, registry.Reaches opcode record depth found place →
        depth < levels ∧ place.ShortLists registry limits.maxListNodes found)
  | 0, opcode, record, hrecord => by
    obtain ⟨schema, plan, hb⟩ := hrecord.binding h
    rw [succeeds_run_iff_fault (hb.message?_eq h)]
    refine iff_of_false nofun fun hall => ?_
    exact Nat.not_lt_zero 0 (hall 0 opcode record (.here opcode record)).1
  | levels + 1, opcode, record, hrecord => by
    obtain ⟨schema, plan, hb⟩ := hrecord.binding h
    have hpart : ∀ entry ∈ plan.bound, ∀ inner, entry.action.inner? = some inner →
        ∀ slot, record.slot? entry.recordIndex = some slot → ∀ part ∈ slot.parts,
        ((run .toMessage registry limits levels inner part).Succeeds ↔
          ∀ depth found place, registry.Reaches inner part depth found place →
            depth < levels ∧ place.ShortLists registry limits.maxListNodes found) :=
      fun entry he inner ha slot hslot part hp =>
        succeeds_run_iff_reaches h levels (of_mem_parts h hb hrecord.2 he hslot ha part hp)
    rw [succeeds_run_iff h hb hrecord, Registry.forall_reaches_iff (hb.plan?_eq h),
      shortLists_iff h hb hrecord]
    constructor
    · intro hall
      refine ⟨⟨levels.succ_pos, fun entry he inner ha slot hs => (hall entry he inner ha slot hs).1⟩,
        ?_⟩
      intro entry he inner ha slot hs part hp depth found place hreach
      have hdeep := (hpart entry he inner ha slot hs part hp).1
        ((hall entry he inner ha slot hs).2 part hp) depth found place hreach
      exact ⟨Nat.succ_lt_succ hdeep.1, hdeep.2⟩
    · rintro ⟨⟨-, hwithin⟩, hinside⟩ entry he inner ha slot hs
      refine ⟨hwithin entry he inner ha slot hs, fun part hp => ?_⟩
      refine (hpart entry he inner ha slot hs part hp).2 fun depth found place hreach => ?_
      have hdeep := hinside entry he inner ha slot hs part hp depth found place hreach
      exact ⟨Nat.lt_of_succ_lt_succ hdeep.1, hdeep.2⟩

end Walk

namespace Codec

/-- A record is converted to a message exactly when what is reached from it is within the limits. -/
theorem exists_toMessage_iff_within {codec : Codec} (h : codec.registry.Sound)
    (hrecord : record.Of codec.registry opcode) :
    (∃ message, (codec.toMessage opcode record).result = .ok (some message)) ↔
      record.WithinLimits codec.registry codec.limits opcode := by
  rw [exists_toMessage_iff h hrecord, Walk.succeeds_run_iff_reaches h _ hrecord]
  simp only [Nat.lt_succ_iff]
  rfl

/-- What is converted to no message ends at a limit. -/
theorem exists_error_toMessage {codec : Codec} (h : codec.registry.Sound)
    (hrecord : record.Of codec.registry opcode)
    (hnone : ¬ ∃ message, (codec.toMessage opcode record).result = .ok (some message)) :
    ∃ error, (codec.toMessage opcode record).result = .error error ∧ error.IsLimit true := by
  obtain ⟨schema, plan, hb⟩ := hrecord.binding h
  have hends : (Walk.run .toMessage codec.registry codec.limits (codec.limits.maxDepth + 1) opcode
      record).Ends (Message.Of codec.registry opcode) (CodecError.IsLimit true) :=
    Walk.run_ends h (Direction.writes_toMessage h) _ hb record
  rw [result_toMessage h hrecord] at hnone ⊢
  unfold Walk.Ends at hends
  cases hresult : (Walk.run .toMessage codec.registry codec.limits (codec.limits.maxDepth + 1)
      opcode record).result with
  | ok made => exact absurd ⟨made, by rw [hresult]; rfl⟩ hnone
  | error error =>
    rw [hresult] at hends
    exact ⟨error, rfl, hends⟩

/-- Codecs of one registry that convert a record to a message convert it to the same. -/
theorem eq_of_toMessage {codec other : Codec} (hregistry : other.registry = codec.registry)
    {message message' : Message}
    (h : (codec.toMessage opcode record).result = .ok (some message))
    (h' : (other.toMessage opcode record).result = .ok (some message')) : message' = message := by
  have hother := run_of_toMessage h'
  rw [hregistry] at hother
  exact (Walk.run_eq_of_ok (run_of_toMessage h) hother).1

/-- The limits of an encode are exact. A record that was built is converted to a message if
and only if no record reached from it is too deep or has a paired list that is too long;
otherwise the encode ends at a limit. The message is the same under all limits that
allow one. -/
theorem toMessage_within_limits {layouts : List Layout} {schemas : List Schema}
    {descriptors : List Descriptor}
    (hreg : Registry.ofLists layouts schemas descriptors = .ok registry)
    (hlayout : registry.layout? opcode = some record.layout)
    (hbuilt : Record.Built registry.layouts record) :
    ∃ message, ∀ codec : Codec, codec.registry = registry →
      ((codec.toMessage opcode record).result = .ok (some message) ↔
        record.WithinLimits registry codec.limits opcode) ∧
      (¬ record.WithinLimits registry codec.limits opcode →
        ∃ error, (codec.toMessage opcode record).result = .error error ∧ error.IsLimit true) := by
  have h := Registry.sound_of_ofLists hreg
  have hrecord : record.Of registry opcode := ⟨hlayout, hbuilt.sound h.layouts⟩
  have hiff : ∀ codec : Codec, codec.registry = registry →
      ((∃ message, (codec.toMessage opcode record).result = .ok (some message)) ↔
        record.WithinLimits registry codec.limits opcode) := by
    rintro codec rfl
    exact exists_toMessage_iff_within h hrecord
  -- any codec that converts the record gives the message that all of them give
  obtain ⟨message, hmessage⟩ : ∃ message, ∀ codec : Codec, codec.registry = registry →
      ∀ made, (codec.toMessage opcode record).result = .ok (some made) → made = message := by
    by_cases hany : ∃ (codec : Codec) (made : Message), codec.registry = registry ∧
        (codec.toMessage opcode record).result = .ok (some made)
    · obtain ⟨first, message, hfirst, hmade⟩ := hany
      exact ⟨message, fun codec hc made hm => eq_of_toMessage (hc.trans hfirst.symm) hmade hm⟩
    · exact ⟨.blank ⟨"", []⟩, fun codec hc made hm => absurd ⟨codec, made, hc, hm⟩ hany⟩
  refine ⟨message, fun codec hc => ⟨⟨fun hm => (hiff codec hc).1 ⟨message, hm⟩, ?_⟩, ?_⟩⟩
  · intro hwithin
    obtain ⟨made, hm⟩ := (hiff codec hc).2 hwithin
    rw [hm, hmessage codec hc made hm]
  · intro hbeyond
    subst hc
    exact exists_error_toMessage h hrecord fun hm => hbeyond ((hiff codec rfl).1 hm)

/-- A queue of two nodes is converted with room for two nodes, one level below it. With less
room or no level the encode ends at the limit. -/
theorem queue_within_limits :
    Registry.ofLists queueLayouts queueSchemas queueDescriptors = .ok queueCodec.registry ∧
      queueCodec.registry.layout? 1 = some sampleQueue.layout ∧
      Record.Built queueCodec.registry.layouts sampleQueue ∧
      sampleQueue.WithinLimits queueCodec.registry ⟨2, 1⟩ 1 ∧
      ¬ sampleQueue.WithinLimits queueCodec.registry ⟨1, 1⟩ 1 ∧
      ¬ sampleQueue.WithinLimits queueCodec.registry ⟨2, 0⟩ 1 ∧
      ({ queueCodec with limits := ⟨1, 1⟩ }.toMessage 1 sampleQueue).result =
        .error (.malformedList 1 "nodes" 1) ∧
      ({ queueCodec with limits := ⟨2, 0⟩ }.toMessage 1 sampleQueue).result =
        .error (.depthExceeded 2 0) := by
  have hreg : Registry.ofLists queueLayouts queueSchemas queueDescriptors =
      .ok queueCodec.registry := by cbv
  have hlayout : queueCodec.registry.layout? 1 = some sampleQueue.layout := by cbv
  obtain ⟨message, hmessage⟩ := toMessage_within_limits hreg hlayout built_sampleQueue
  have hlong : ({ queueCodec with limits := ⟨1, 1⟩ }.toMessage 1 sampleQueue).result =
      .error (.malformedList 1 "nodes" 1) := by cbv
  have hdeep : ({ queueCodec with limits := ⟨2, 0⟩ }.toMessage 1 sampleQueue).result =
      .error (.depthExceeded 2 0) := by cbv
  refine ⟨hreg, hlayout, built_sampleQueue, ?_, fun hwithin => ?_, fun hwithin => ?_, hlong, hdeep⟩
  · by_contra hbeyond
    obtain ⟨error, herror, -⟩ := (hmessage { queueCodec with limits := ⟨2, 1⟩ } rfl).2 hbeyond
    have hok : ({ queueCodec with limits := ⟨2, 1⟩ }.toMessage 1 sampleQueue).result.isOk := by cbv
    rw [herror] at hok
    cases hok
  · cases hlong.symm.trans ((hmessage { queueCodec with limits := ⟨1, 1⟩ } rfl).1.2 hwithin)
  · cases hdeep.symm.trans ((hmessage { queueCodec with limits := ⟨2, 0⟩ } rfl).1.2 hwithin)

end Codec

end RecordBridge

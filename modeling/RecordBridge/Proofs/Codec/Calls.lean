import RecordBridge.Codec.Basic
import RecordBridge.Proofs.Codec.Walk
/-!
# What the calls of a codec do

A conversion that gives a result is a walk that ended (`run_of_toMessage`,
`run_of_fromMessage`). For a registered opcode a decode reads a message and fills
a zero record from it (`decode_eq`), so a decode that reports no malformed payload
read the message without a fault (`fault_eq_none_of_decode`), and one that reports
no abort is a walk that ended, too (`run_eq_ok_of_decode`).
-/
namespace RecordBridge

namespace Diagnostic

/-- Whether a diagnostic reports a payload that is no message. -/
def isMalformed : Diagnostic → Bool
  | .malformedPayload .. => true
  | _ => false

/-- Whether a diagnostic reports a decode that an error cut short. -/
def isAborted : Diagnostic → Bool
  | .aborted .. => true
  | _ => false

end Diagnostic

namespace Codec

variable {codec : Codec} {opcode : UInt16} {layout : Layout} {schema : Schema} {plan : Plan}

/-! ## Conversions without bytes -/

theorem run_of_toMessage {record : Record} {message : Message}
    (h : (codec.toMessage opcode record).result = .ok (some message)) :
    Walk.run .toMessage codec.registry codec.limits (codec.limits.maxDepth + 1) opcode record =
      ⟨(codec.toMessage opcode record).reports, .ok message⟩ := by
  unfold toMessage at h ⊢
  cases hd : codec.registry.descriptor? opcode with
  | none => simp [hd] at h
  | some descriptor =>
    rw [hd] at h
    dsimp only at h ⊢
    split at h
    · next hid =>
      rw [if_pos hid]
      generalize Walk.run _ _ _ _ _ _ = walk at h ⊢
      obtain ⟨reports, result⟩ := walk
      cases result with
      | error error => cases h
      | ok made => cases h; rfl
    · cases h

theorem fromMessage_eq (hp : codec.registry.plan? opcode = some plan) (message : Message) :
    codec.fromMessage opcode message =
      let walk := Walk.run .toRecord codec.registry codec.limits (codec.limits.maxDepth + 1) opcode
        message
      ⟨walk.result.map fun record => some ⟨record, plan.occupied⟩, walk.reports, []⟩ := by
  rw [fromMessage, hp]

theorem fromMessage_eq_ok_iff (hp : codec.registry.plan? opcode = some plan) {message : Message}
    {decoded : Decoded} : (codec.fromMessage opcode message).result = .ok (some decoded) ↔
      (Walk.run .toRecord codec.registry codec.limits (codec.limits.maxDepth + 1) opcode
        message).result = .ok decoded.record ∧ decoded.size = plan.occupied := by
  obtain ⟨record, size⟩ := decoded
  rw [fromMessage_eq hp]
  dsimp only
  generalize Walk.run _ _ _ _ _ _ = walk
  cases walk.result with
  | error error => simp [Except.map]
  | ok made => simp [Except.map, eq_comm]

theorem run_of_fromMessage {message : Message} {decoded : Decoded}
    (h : (codec.fromMessage opcode message).result = .ok (some decoded)) :
    Walk.run .toRecord codec.registry codec.limits (codec.limits.maxDepth + 1) opcode message =
      ⟨(codec.fromMessage opcode message).reports, .ok decoded.record⟩ := by
  cases hp : codec.registry.plan? opcode with
  | none => simp [fromMessage, hp] at h
  | some plan => rw [fromMessage_eq hp, ← ((fromMessage_eq_ok_iff hp).1 h).1]

/-! ## Decoding -/

theorem decode_eq (hs : codec.registry.schema? opcode = some schema)
    (hp : codec.registry.plan? opcode = some plan) {zero : Record}
    (hz : codec.registry.record? opcode = some zero) {payload : List UInt8} {message : Message}
    {fault : Option MessageError}
    (hm : Message.decode codec.registry.schemas schema payload = (message, fault))
    {made : Record} {reports : List Diagnostic} {left : Option CodecError}
    (hfill : Walk.fill .toRecord codec.registry codec.limits (codec.limits.maxDepth + 1) opcode
      message zero = ⟨made, reports, left⟩) :
    codec.decode opcode payload = ⟨⟨made, plan.occupied⟩,
      fault.toList.map (.malformedPayload opcode) ++
        (reports ++ left.toList.map (.aborted opcode)),
      [.decoded opcode payload.length plan.occupied]⟩ := by
  unfold decode
  simp only [hs, hp, hz, hm, bind, hfill]

variable {payload : List UInt8}

/-- Without a report of it the payload was a message. -/
theorem fault_eq_none_of_decode (h : codec.registry.Sound)
    (hb : codec.registry.Binding opcode layout schema plan)
    (hnone : ∀ report ∈ (codec.decode opcode payload).reports, ¬ report.isMalformed) :
    (Message.decode codec.registry.schemas schema payload).2 = none := by
  obtain ⟨zero, hz, -⟩ := hb.exists_record? h
  generalize hm : Message.decode codec.registry.schemas schema payload = read
  obtain ⟨message, fault⟩ := read
  generalize hfill : Walk.fill .toRecord codec.registry codec.limits (codec.limits.maxDepth + 1)
    opcode message zero = filled
  rw [decode_eq (hb.schema?_eq h) (hb.plan?_eq h) hz hm hfill] at hnone
  cases fault with
  | none => rfl
  | some fault => exact absurd rfl (hnone (.malformedPayload opcode fault) (by simp))

/-- Without a report of an error the walk ended with the record. -/
theorem run_eq_ok_of_decode (h : codec.registry.Sound)
    (hb : codec.registry.Binding opcode layout schema plan)
    (hnone : ∀ report ∈ (codec.decode opcode payload).reports, ¬ report.isAborted) :
    ∃ reports, Walk.run .toRecord codec.registry codec.limits (codec.limits.maxDepth + 1) opcode
        (Message.decode codec.registry.schemas schema payload).1 =
      ⟨reports, .ok (codec.decode opcode payload).result.record⟩ := by
  obtain ⟨zero, hz, -⟩ := hb.exists_record? h
  generalize hm : Message.decode codec.registry.schemas schema payload = read
  obtain ⟨message, fault⟩ := read
  generalize hfill : Walk.fill .toRecord codec.registry codec.limits (codec.limits.maxDepth + 1)
    opcode message zero = filled
  obtain ⟨made, reports, left⟩ := filled
  rw [decode_eq (hb.schema?_eq h) (hb.plan?_eq h) hz hm hfill] at hnone ⊢
  cases left with
  | none => exact ⟨reports, Walk.run_eq_ok_iff.2 ⟨zero, hz, hfill⟩⟩
  | some error => exact absurd rfl (hnone (.aborted opcode error) (by simp))

end Codec

end RecordBridge

import RecordBridge.Proofs.Codec.Sent
import RecordBridge.Proofs.Codec.Skipped
/-!
# Whatever the payload

A decode for a registered opcode fills a zero record until something ends it, and
no write leaves the layout: the record is sound and of the opcode, also where the
payload broke off or a limit was reached in the middle of a list. What is
reported comes in order: a fault of the payload, then what the walk got over, then
the limit that ended it (`decode_well_formed`).
-/
namespace RecordBridge

/-- Whether a diagnostic reports elements that an array has no room for. -/
def Diagnostic.isArrayOverflow : Diagnostic → Bool
  | .arrayOverflow .. => true
  | _ => false

/-- Without a limit on lists, only the depth ends a walk. -/
theorem CodecError.isLimit_false_iff {error : CodecError} :
    error.IsLimit false ↔ ∃ opcode limit, error = .depthExceeded opcode limit := by
  cases error <;> simp [IsLimit]

variable {opcode : UInt16} {layout : Layout} {schema : Schema} {plan : Plan}

namespace Codec

variable {codec : Codec}

/-- Whatever the payload and the limits, the decode for a registered opcode gives a
sound record of the layout of its descriptor and the size that its plan occupies. It
reports a fault of the payload at most once and first, skipped fields and surplus
elements after that, and a depth that was exceeded at most once and last. -/
theorem decode_well_formed {layouts : List Layout} {schemas : List Schema}
    {descriptors : List Descriptor} {descriptor : Descriptor}
    (hreg : Registry.ofLists layouts schemas descriptors = .ok codec.registry)
    (hd : codec.registry.descriptor? opcode = some descriptor) (payload : List UInt8) :
    (codec.decode opcode payload).result.record.layoutId = descriptor.layout ∧
    (codec.decode opcode payload).result.record.Sound codec.registry.layouts ∧
    (codec.registry.plan? opcode).map Plan.occupied =
      some (codec.decode opcode payload).result.size ∧
    ∃ (fault : Option MessageError) (remarks : List Diagnostic) (depth : Option (UInt16 × Nat)),
      (codec.decode opcode payload).reports =
        fault.toList.map (.malformedPayload opcode) ++ remarks ++
          depth.toList.map (fun (inner, limit) => .aborted opcode (.depthExceeded inner limit)) ∧
      ∀ report ∈ remarks, report.isFieldSkipped ∨ report.isArrayOverflow := by
  have h := Registry.sound_of_ofLists hreg
  obtain ⟨row, hrow, rfl⟩ := Option.map_eq_some_iff.1 hd
  obtain ⟨layout, schema, hb⟩ := h.binding_of_row? hrow
  have hw := Direction.writes_toRecord h
  obtain ⟨zero, hz, hzero⟩ := hw.fresh hb
  generalize hread : Message.decode codec.registry.schemas schema payload = read
  obtain ⟨message, fault⟩ := read
  generalize hfill : Walk.fill .toRecord codec.registry codec.limits (codec.limits.maxDepth + 1)
    opcode message zero = filled
  obtain ⟨hof, hlimit⟩ : filled.output.Of codec.registry opcode ∧
      ∀ error, filled.fault = some error → error.IsLimit false := by
    rw [← hfill]
    exact Walk.fill_ends h hw _ hb message hzero
  have hremarks : ∀ report ∈ filled.reports, report.isFieldSkipped ∨ report.isArrayOverflow := by
    rw [← hfill]
    exact Walk.reports_fill (fun _ _ _ _ => .inr rfl) (fun _ _ => .inl rfl) _ opcode message zero
  obtain ⟨made, remarks, left⟩ := filled
  rw [decode_eq (hb.schema?_eq h) (hb.plan?_eq h) hz hread hfill]
  refine ⟨?_, hof.2, by rw [hb.plan?_eq h]; rfl, fault, remarks, ?_⟩
  · obtain ⟨found, hfound, hid, -⟩ := hb.descriptor?_eq h
    cases hfound.symm.trans hd
    rw [Record.layoutId, ((hb.record_of_iff h).1 hof).1, hid]
  · cases left with
    | none => exact ⟨none, by simp, hremarks⟩
    | some error =>
      obtain ⟨inner, limit, rfl⟩ := CodecError.isLimit_false_iff.1 (hlimit error rfl)
      exact ⟨some (inner, limit), by simp, hremarks⟩

/-- A payload that breaks off in its second field. -/
theorem decode_broken_queue :
    Registry.ofLists queueLayouts queueSchemas queueDescriptors = .ok queueCodec.registry ∧
      queueCodec.registry.descriptor? 1 = some ⟨1, "queue", "Queue", none⟩ ∧
      (queueCodec.decode 1 [26, 2, 16, 7, 10, 3]).result.record.layoutId = "queue" ∧
      (queueCodec.decode 1 [26, 2, 16, 7, 10, 3]).result.record.Sound
        queueCodec.registry.layouts ∧
      (queueCodec.decode 1 [26, 2, 16, 7, 10, 3]).result.size = 22 ∧
      ∃ (fault : Option MessageError) (remarks : List Diagnostic) (depth : Option (UInt16 × Nat)),
        (queueCodec.decode 1 [26, 2, 16, 7, 10, 3]).reports =
          fault.toList.map (.malformedPayload 1) ++ remarks ++
            depth.toList.map (fun (inner, limit) => .aborted 1 (.depthExceeded inner limit)) ∧
        ∀ report ∈ remarks, report.isFieldSkipped ∨ report.isArrayOverflow := by
  have hreg : Registry.ofLists queueLayouts queueSchemas queueDescriptors =
      .ok queueCodec.registry := by cbv
  have hd : queueCodec.registry.descriptor? 1 = some ⟨1, "queue", "Queue", none⟩ := rfl
  obtain ⟨hid, hsound, hsize, hreports⟩ := decode_well_formed hreg hd [26, 2, 16, 7, 10, 3]
  exact ⟨hreg, hd, hid, hsound, (Option.some.inj hsize).symm, hreports⟩

end Codec

end RecordBridge

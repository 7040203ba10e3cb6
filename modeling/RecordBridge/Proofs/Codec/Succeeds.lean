import RecordBridge.Proofs.Codec.Reads
import RecordBridge.Proofs.Codec.Sent
/-!
# Walks that succeed

A walk succeeds when it ends with a result. A plan is gone through when each of its
steps succeeds (`fillItems_fault_iff`), so with levels left a record is converted
exactly when its lists are within the limit and all its parts are converted with
one level less (`succeeds_run_iff`).
-/
namespace RecordBridge

/-- The list of a slot has no more nodes than allowed; other slots have none. -/
def Slot.Within (limit : Nat) : Slot → Prop
  | .link head => (Record.nodesOf (.link head)).length ≤ limit
  | _ => True

namespace Walk

/-- A walk ends with a result. -/
def Succeeds (walk : Walk α) : Prop := ∃ value, walk.result = .ok value

section
variable {P : α → Prop} {E : CodecError → Prop} {walk : Walk α}

theorem succeeds_pure (value : α) : (pure value : Walk α).Succeeds := ⟨value, rfl⟩

theorem succeeds_ofExcept {result : Except CodecError α}
    (h : ∃ value, result = .ok value ∧ P value) : (ofExcept result).Succeeds :=
  h.imp fun _ hvalue => hvalue.1

theorem not_succeeds_error (reports : List Diagnostic) (error : CodecError) :
    ¬ (⟨reports, .error error⟩ : Walk α).Succeeds := by
  rintro ⟨value, h⟩
  cases h

theorem not_succeeds_fail (error : CodecError) : ¬ (fail error : Walk α).Succeeds :=
  not_succeeds_error [] error

/-- What cannot fail does not matter for whether a walk succeeds. -/
theorem succeeds_bind_iff {next : α → Walk β} (h : walk.Ends P E)
    (hnext : ∀ value, P value → (next value).Succeeds) :
    (walk >>= next).Succeeds ↔ walk.Succeeds := by
  obtain ⟨reports, result⟩ := walk
  cases result with
  | error error => exact iff_of_false (not_succeeds_error _ _) (not_succeeds_error _ _)
  | ok value => exact iff_of_true (hnext value h) ⟨value, rfl⟩

/-- Each of a list is converted exactly when every item is. -/
theorem succeeds_each_iff {convert : α → Walk β} : ∀ {items : List α},
    (each convert items).Succeeds ↔ ∀ item ∈ items, (convert item).Succeeds
  | [] => iff_of_true (succeeds_pure []) (List.forall_mem_nil _)
  | item :: rest => by
    rw [each, List.forall_mem_cons, ← succeeds_each_iff]
    generalize convert item = first
    generalize each convert rest = others
    obtain ⟨reports, result⟩ := first
    obtain ⟨more, results⟩ := others
    cases result with
    | error error =>
      exact iff_of_false (not_succeeds_error _ _) fun h => not_succeeds_error _ _ h.1
    | ok head =>
      cases results with
      | error error =>
        exact iff_of_false (not_succeeds_error _ _) fun h => not_succeeds_error _ _ h.2
      | ok tail => exact iff_of_true ⟨head :: tail, rfl⟩ ⟨⟨head, rfl⟩, ⟨tail, rfl⟩⟩

end

variable {registry : Registry} {limits : CodecLimits} {opcode : UInt16} {layout : Layout}
  {schema : Schema} {plan : Plan} {σ τ : Type} {direction : Direction σ τ}

/-! ## A whole plan -/

/-- All items are gone through exactly when every step succeeds. -/
theorem fillItems_fault_iff {carry : Plan.Entry → τ → Walk τ} {Of : τ → Prop}
    {E : CodecError → Prop} {Q : Plan.Entry → Prop} : ∀ {items : List Plan.Item},
    (∀ entry, .bind entry ∈ items → ∀ output, Of output →
      (carry entry output).Ends Of E ∧ ((carry entry output).Succeeds ↔ Q entry)) →
    ∀ {output : τ}, Of output →
    ((fillItems carry opcode items output).fault = none ↔
      ∀ entry ∈ (Plan.mk items).bound, Q entry)
  | [], _, output, _ => iff_of_true rfl (List.forall_mem_nil _)
  | .skip field reason :: rest, h, output, ho => by
    rw [fillItems, Plan.bound_skip]
    exact fillItems_fault_iff (fun entry he => h entry (List.mem_cons_of_mem _ he)) ho
  | .bind entry :: rest, h, output, ho => by
    obtain ⟨hends, hiff⟩ := h entry List.mem_cons_self output ho
    have hrest := fun {output : τ} (ho : Of output) => fillItems_fault_iff
      (fun entry he => h entry (List.mem_cons_of_mem _ he)) ho
    rw [fillItems, Plan.bound_bind, List.forall_mem_cons, ← hiff]
    unfold Ends at hends
    unfold Succeeds
    dsimp only
    split
    · next error he => simp [he]
    · next next he =>
      rw [he] at hends
      simp [he, hrest hends]

/-- A walk succeeds when nothing ends the filling of its output. -/
theorem succeeds_run_iff_fault {levels : Nat} {source : σ} {output : τ}
    (hfresh : direction.fresh registry opcode = some output) :
    (run direction registry limits levels opcode source).Succeeds ↔
      (fill direction registry limits levels opcode source output).fault = none := by
  rw [run, hfresh]
  generalize hfill : fill direction registry limits levels opcode source output = filled
  obtain ⟨made, reports, fault⟩ := filled
  unfold Succeeds
  rw [require, pure_bind_eq, hfill, Filled.toWalk]
  cases fault <;> simp

/-! ## Records -/

/-- A step from a record succeeds exactly when the list there, if there is one, is
within the limit and all parts are converted. -/
theorem succeeds_carry_iff (h : registry.Sound) {record : Record}
    (hb : registry.Binding opcode record.layout schema plan)
    (hrecord : record.Of registry opcode) {levels : Nat} {entry : Plan.Entry}
    (he : entry ∈ plan.bound) {slot : Slot} (hslot : record.slot? entry.recordIndex = some slot)
    {output : Message} (ho : output.Of registry opcode) :
    (carry .toMessage registry limits (run .toMessage registry limits levels) opcode record entry
        output).Succeeds ↔
      ∀ inner, entry.action.inner? = some inner → slot.Within limits.maxListNodes ∧
        ∀ part ∈ slot.parts, (run .toMessage registry limits levels inner part).Succeeds := by
  have hw := Direction.writes_toMessage h
  obtain ⟨field, found, hentry⟩ := hb.entry_sound he
  have hfits := (hrecord.2.fits.suits _ found slot hentry.record hslot).fits
  have heach : ∀ {inner : UInt16}, entry.action.inner? = some inner → ∀ items : List Record,
      (each (run .toMessage registry limits levels inner) items).Ends
        (fun made => made.length = items.length ∧ ∀ message ∈ made, message.Of registry inner)
        (CodecError.IsLimit true) := by
    intro inner ha items
    obtain ⟨_, _, _, hinner⟩ := hb.inner_binding h he ha
    exact ends_each fun item _ => run_ends h hw levels hinner item
  cases ha : entry.action with
  | scalar coercion =>
    rw [carry_scalar ha]
    exact ⟨fun _ => nofun, fun _ => succeeds_ofExcept (hw.scalar hb he ha ho record)⟩
  | nested inner =>
    obtain ⟨id, carrier, hk, -⟩ := hentry.nested ha
    obtain ⟨child, rfl, -⟩ := Slot.fits_nested_iff.1 (hk ▸ hfits)
    obtain ⟨_, _, _, hinner⟩ := hb.inner_binding h he (show _ = some inner by rw [ha]; rfl)
    rw [carry_nested ha, child_toMessage inner hslot, pure_bind_eq,
      succeeds_bind_iff (run_ends h hw levels hinner child) fun made hm =>
        succeeds_ofExcept (hw.putChild hb he ha hm ho)]
    simp [Plan.Action.inner?, Slot.Within, Slot.parts]
  | array inner count target =>
    obtain ⟨id, size, carrier, hk, rfl, -⟩ := hentry.array ha
    obtain ⟨elements, rfl, hcount, -⟩ := Slot.fits_array_iff.1 (hk ▸ hfits)
    have hwrite : ∀ made : List Message, made.length = elements.length ∧
        (∀ message ∈ made, message.Of registry inner) →
        (padding .toMessage registry inner (size.toNat - made.length) >>= fun more =>
          ofExcept (Direction.toMessage.putElements entry target (made ++ more)
            output)).Succeeds := by
      intro made hm
      rw [padding, if_pos (by omega), pure_bind_eq, List.append_nil]
      exact succeeds_ofExcept (hw.putElements hb he ha (hm.1.trans hcount) hm.2 ho)
    rw [carry_array ha, elements_toMessage target hslot, if_neg (by omega), pure_bind_eq,
      List.take_of_length_le (by omega),
      succeeds_bind_iff (heach (by rw [ha]; rfl) elements) hwrite, succeeds_each_iff]
    simp [Plan.Action.inner?, Slot.Within, Slot.parts]
  | list inner target =>
    obtain ⟨id, carrier, hk, -⟩ := hentry.list ha
    obtain ⟨head, rfl, -⟩ := Slot.fits_list_iff.1 (hk ▸ hfits)
    rw [carry_list ha, nodes_toMessage target hslot]
    by_cases hlong : limits.maxListNodes < (Record.nodesOf (.link head)).length
    · rw [if_pos ⟨rfl, hlong⟩]
      simp [Plan.Action.inner?, Slot.Within, not_succeeds_fail, hlong]
    · rw [if_neg (fun hc => hlong hc.2),
        succeeds_bind_iff (heach (by rw [ha]; rfl) _) fun made hm =>
          succeeds_ofExcept (hw.putNodes hb he ha hm.2 ho), succeeds_each_iff]
      simp [Plan.Action.inner?, Slot.Within, Slot.parts, Nat.le_of_not_lt hlong]

/-- With a level left, a record is converted exactly when all its paired lists are
within the limit and the parts of all paired slots are converted one level further in. -/
theorem succeeds_run_iff (h : registry.Sound) {record : Record}
    (hb : registry.Binding opcode record.layout schema plan)
    (hrecord : record.Of registry opcode) (levels : Nat) :
    (run .toMessage registry limits (levels + 1) opcode record).Succeeds ↔
      ∀ entry ∈ plan.bound, ∀ inner, entry.action.inner? = some inner →
        ∀ slot, record.slot? entry.recordIndex = some slot → slot.Within limits.maxListNodes ∧
          ∀ part ∈ slot.parts, (run .toMessage registry limits levels inner part).Succeeds := by
  have hw := Direction.writes_toMessage h
  obtain ⟨output, hfresh, ho⟩ := hw.fresh hb
  rw [succeeds_run_iff_fault hfresh, fill_succ levels record output (hb.plan?_eq h)]
  refine fillItems_fault_iff (E := CodecError.IsLimit true)
    (fun entry hm output ho => ⟨?_, ?_⟩) ho
  · exact carry_ends h hw hb (fun hinner source => run_ends h hw levels hinner source) record
      (Plan.mem_bound.2 hm) ho
  · have he := Plan.mem_bound.2 hm
    obtain ⟨field, found, hentry⟩ := hb.entry_sound he
    obtain ⟨slot, hslot, -⟩ := hrecord.2.exists_slot hentry.record
    rw [succeeds_carry_iff h hb hrecord he hslot ho]
    simp [hslot]

end Walk

namespace Codec

variable {codec : Codec} {opcode : UInt16} {record : Record}

/-- A record of an opcode is converted by a walk. -/
theorem toMessage_eq (h : codec.registry.Sound) (hrecord : record.Of codec.registry opcode) :
    codec.toMessage opcode record =
      let walk := Walk.run .toMessage codec.registry codec.limits (codec.limits.maxDepth + 1) opcode
        record
      ⟨walk.result.map some, walk.reports, []⟩ := by
  obtain ⟨schema, plan, hb⟩ := hrecord.binding h
  obtain ⟨descriptor, hd, hl, -⟩ := hb.descriptor?_eq h
  have hid : record.layoutId = descriptor.layout := hl.symm
  unfold toMessage
  simp only [hd, if_pos hid]

theorem result_toMessage (h : codec.registry.Sound) (hrecord : record.Of codec.registry opcode) :
    (codec.toMessage opcode record).result =
      (Walk.run .toMessage codec.registry codec.limits (codec.limits.maxDepth + 1) opcode
        record).result.map some := by
  rw [toMessage_eq h hrecord]

/-- A record of an opcode is converted to a message exactly when the walk succeeds. -/
theorem exists_toMessage_iff (h : codec.registry.Sound)
    (hrecord : record.Of codec.registry opcode) :
    (∃ message, (codec.toMessage opcode record).result = .ok (some message)) ↔
      (Walk.run .toMessage codec.registry codec.limits (codec.limits.maxDepth + 1) opcode
        record).Succeeds := by
  rw [result_toMessage h hrecord]
  generalize Walk.run _ _ _ _ _ _ = walk
  obtain ⟨reports, result⟩ := walk
  cases result with
  | error error => exact iff_of_false nofun (Walk.not_succeeds_error _ _)
  | ok made => exact iff_of_true ⟨made, rfl⟩ ⟨made, rfl⟩

end Codec

end RecordBridge

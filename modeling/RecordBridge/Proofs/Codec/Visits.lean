import RecordBridge.Proofs.Codec.Prepare
import RecordBridge.Proofs.Codec.Shortens
import RecordBridge.Proofs.Record.Slots
/-!
# The steps of a walk that ended

A walk that ended went through all items of its plan. What a step wrote is still there in
the end if the steps after it spare it (`exists_visit`), and what was reported is
what the steps reported, one after the other (`reports_of_fillItems`). And it ended with
levels to spare for what lies inside: converting that by walks of their own, with as many
levels as the whole, comes to the same (`fill_of_run`).
-/
namespace RecordBridge

/-- A filling that no error ended is cut short by nothing. -/
theorem Filled.Shortens.eq_of_none {output : τ} {reports : List Diagnostic} {other : Filled τ}
    (h : (⟨output, reports, none⟩ : Filled τ).Shortens other) :
    other = ⟨output, reports, none⟩ := by
  cases h
  rfl

/-- What is reported on an item, given what a step reports. -/
def Plan.Item.reports (opcode : UInt16) (step : Plan.Entry → List Diagnostic) :
    Plan.Item → List Diagnostic
  | .skip field reason => [.fieldSkipped opcode field reason]
  | .bind entry => step entry

namespace Walk

variable {σ τ : Type} {opcode : UInt16}

/-! ## Step by step -/

section
variable {step : τ → Walk τ} {carry : Plan.Entry → τ → Walk τ} {Inv : τ → Prop}

/-- A step keeps an invariant of its output. -/
def Preserves (Inv : τ → Prop) (step : τ → Walk τ) : Prop :=
  ∀ {before next : τ} {reports : List Diagnostic}, Inv before →
    step before = ⟨reports, .ok next⟩ → Inv next

/-- A step spares what is read of its output. -/
def Spares (Inv : τ → Prop) (read : τ → α) (step : τ → Walk τ) : Prop :=
  ∀ {before next : τ} {reports : List Diagnostic}, Inv before →
    step before = ⟨reports, .ok next⟩ → read next = read before

/-- What every step spares is in the end what it was. -/
theorem read_fillItems (read : τ → α) : ∀ {items : List Plan.Item} {output made : τ}
    {reports : List Diagnostic}, (∀ entry ∈ (Plan.mk items).bound, Preserves Inv (carry entry)) →
    (∀ entry ∈ (Plan.mk items).bound, Spares Inv read (carry entry)) → Inv output →
    fillItems carry opcode items output = ⟨made, reports, none⟩ → read made = read output
  | [], output, made, reports, _, _, _, hfill => by
    cases hfill
    rfl
  | .skip field reason :: rest, output, made, reports, hinv, hspares, ho, hfill => by
    obtain ⟨others, hrest, -⟩ := fillItems_skip_eq_iff.1 hfill
    rw [Plan.bound_skip] at hinv hspares
    exact read_fillItems read hinv hspares ho hrest
  | .bind entry :: rest, output, made, reports, hinv, hspares, ho, hfill => by
    obtain ⟨first, next, others, hstep, hrest, -⟩ := fillItems_bind_eq_iff.1 hfill
    rw [Plan.bound_bind] at hinv hspares
    obtain ⟨hkept, hinv⟩ := List.forall_mem_cons.1 hinv
    obtain ⟨hleft, hspares⟩ := List.forall_mem_cons.1 hspares
    rw [read_fillItems read hinv hspares (hkept ho hstep) hrest, hleft ho hstep]

/-- An entry was visited, and what its step wrote is there in the end if the other steps
spare that. -/
theorem exists_visit (read : τ → α) {entry : Plan.Entry} : ∀ {items : List Plan.Item}
    {output made : τ} {reports : List Diagnostic},
    (∀ other ∈ (Plan.mk items).bound, Preserves Inv (carry other)) →
    (∀ other ∈ (Plan.mk items).bound, other ≠ entry → Spares Inv read (carry other)) →
    (Plan.mk items).bound.Nodup → entry ∈ (Plan.mk items).bound → Inv output →
    fillItems carry opcode items output = ⟨made, reports, none⟩ →
    ∃ before next first, Inv before ∧ carry entry before = ⟨first, .ok next⟩ ∧
      read made = read next
  | [], output, made, reports, _, _, _, he, _, _ => by cases he
  | .skip field reason :: rest, output, made, reports, hinv, hspares, hnodup, he, ho, hfill => by
    obtain ⟨others, hrest, -⟩ := fillItems_skip_eq_iff.1 hfill
    rw [Plan.bound_skip] at hinv hspares hnodup he
    exact exists_visit read hinv hspares hnodup he ho hrest
  | .bind head :: rest, output, made, reports, hinv, hspares, hnodup, he, ho, hfill => by
    obtain ⟨first, next, others, hstep, hrest, -⟩ := fillItems_bind_eq_iff.1 hfill
    rw [Plan.bound_bind] at hinv hspares hnodup he
    obtain ⟨hkept, hrestInv⟩ := List.forall_mem_cons.1 hinv
    obtain ⟨-, hrestSpares⟩ := List.forall_mem_cons.1 hspares
    obtain ⟨hhead, hrestNodup⟩ := List.nodup_cons.1 hnodup
    have hnext := hkept ho hstep
    rcases List.mem_cons.1 he with rfl | he
    · have hread : read made = read next := read_fillItems read hrestInv
        (fun other hm => hrestSpares other hm (ne_of_mem_of_not_mem hm hhead)) hnext hrest
      exact ⟨output, next, first, ho, hstep, hread⟩
    · exact exists_visit read hrestInv hrestSpares hrestNodup he hnext hrest

/-- What was reported is what the skipped fields and the steps report. -/
theorem reports_of_fillItems {report : Plan.Entry → List Diagnostic} :
    ∀ {items : List Plan.Item} {output made : τ} {reports : List Diagnostic},
    (∀ entry ∈ (Plan.mk items).bound, Preserves Inv (carry entry)) →
    (∀ entry ∈ (Plan.mk items).bound, ∀ before next first, Inv before →
      carry entry before = ⟨first, .ok next⟩ → first = report entry) → Inv output →
    fillItems carry opcode items output = ⟨made, reports, none⟩ →
    reports = items.flatMap (Plan.Item.reports opcode report)
  | [], output, made, reports, _, _, _, hfill => by
    cases hfill
    rfl
  | .skip field reason :: rest, output, made, reports, hinv, hsteps, ho, hfill => by
    obtain ⟨others, hrest, rfl⟩ := fillItems_skip_eq_iff.1 hfill
    rw [Plan.bound_skip] at hinv hsteps
    rw [reports_of_fillItems hinv hsteps ho hrest]
    rfl
  | .bind entry :: rest, output, made, reports, hinv, hsteps, ho, hfill => by
    obtain ⟨first, next, others, hstep, hrest, rfl⟩ := fillItems_bind_eq_iff.1 hfill
    rw [Plan.bound_bind] at hinv hsteps
    obtain ⟨hkept, hinv⟩ := List.forall_mem_cons.1 hinv
    obtain ⟨hentry, hsteps⟩ := List.forall_mem_cons.1 hsteps
    rw [reports_of_fillItems hinv hsteps (hkept ho hstep) hrest, hentry output next first ho hstep]
    rfl

end

/-! ## Records, field by field -/

section
variable {registry : Registry} {limits : CodecLimits} {layout : Layout} {schema : Schema}
  {plan : Plan} {back : UInt16 → Message → Walk Record} {source : Message} {output : Record}
  {reports : List Diagnostic}

theorem slot?_carry_of_ne {entry : Plan.Entry} {index : Nat} (hne : entry.recordIndex ≠ index)
    {next : Record} (hstep : carry .toRecord registry limits back opcode source entry output =
      ⟨reports, .ok next⟩) : next.slot? index = output.slot? index := by
  obtain ⟨write, hprepare, hnext⟩ := carry_eq_ok_iff.1 hstep
  obtain ⟨content, hcontent⟩ := exists_write hprepare
  rw [hcontent output next hnext]
  cases content output.layout with
  | none => rfl
  | some slot => exact Record.slot?_put_of_ne hne slot

theorem layout_carry {entry : Plan.Entry} {next : Record}
    (hstep : carry .toRecord registry limits back opcode source entry output =
      ⟨reports, .ok next⟩) : next.layout = output.layout := by
  obtain ⟨write, hprepare, hnext⟩ := carry_eq_ok_iff.1 hstep
  obtain ⟨content, hcontent⟩ := exists_write hprepare
  rw [hcontent output next hnext]
  cases content output.layout <;> rfl

/-- Fields that no entry is bound to are left as they were. -/
theorem slot?_fillItems_of_ne {index : Nat} {items : List Plan.Item} {made : Record}
    (hfill : fillItems (carry .toRecord registry limits back opcode source) opcode items output =
      ⟨made, reports, none⟩)
    (hne : ∀ entry ∈ (Plan.mk items).bound, entry.recordIndex ≠ index) :
    made.slot? index = output.slot? index := by
  have hkept : ∀ entry ∈ (Plan.mk items).bound, Preserves (fun _ => True)
      (carry .toRecord registry limits back opcode source entry) := fun _ _ _ _ _ _ _ => trivial
  refine read_fillItems (fun record : Record => record.slot? index) hkept (fun entry he => ?_)
    trivial hfill
  intro before next first _ hstep
  exact slot?_carry_of_ne (hne entry he) hstep

/-- The slot of an entry is what the step of the entry left there, in a record of the
layout that was begun with. -/
theorem exists_visit_slot? (h : registry.Sound)
    (hb : registry.Binding opcode layout schema plan) {made : Record}
    (hfill : fillItems (carry .toRecord registry limits back opcode source) opcode plan.items
      output = ⟨made, reports, none⟩) :
    ∀ entry ∈ plan.bound, ∃ before next first, before.layout = output.layout ∧
      carry .toRecord registry limits back opcode source entry before = ⟨first, .ok next⟩ ∧
        made.slot? entry.recordIndex = next.slot? entry.recordIndex := by
  have hkept : ∀ entry ∈ plan.bound, Preserves (fun record : Record =>
      record.layout = output.layout) (carry .toRecord registry limits back opcode source entry) :=
    fun _ _ _ _ _ hlayout hstep => (layout_carry hstep).trans hlayout
  have hindices := Plan.nodup_recordIndex hb.compiled (h.schemas.fields schema hb.schema_mem).names
  intro entry he
  have hspares : ∀ other ∈ plan.bound, other ≠ entry → Spares (fun record : Record =>
      record.layout = output.layout) (fun record : Record => record.slot? entry.recordIndex)
      (carry .toRecord registry limits back opcode source other) := by
    intro other ho hne before next first _ hstep
    exact slot?_carry_of_ne (fun hsame => hne (List.inj_on_of_nodup_map hindices ho he hsame)) hstep
  exact exists_visit (fun record : Record => record.slot? entry.recordIndex) hkept hspares
    hindices.of_map he rfl hfill

end

/-! ## Walks of their own -/

/-- A walk that ended is met again when what lies inside is converted with as many levels
as the whole: it took fewer. -/
theorem fill_of_run {direction : Direction σ τ} {registry : Registry} {limits : CodecLimits}
    {plan : Plan} (hp : registry.plan? opcode = some plan) {levels : Nat} {source : σ} {made : τ}
    {reports : List Diagnostic}
    (h : run direction registry limits levels opcode source = ⟨reports, .ok made⟩) :
    ∃ output, direction.fresh registry opcode = some output ∧
      fillItems (carry direction registry limits (run direction registry limits levels) opcode
        source) opcode plan.items output = ⟨made, reports, none⟩ := by
  obtain ⟨output, hfresh, hfill⟩ := run_eq_ok_iff.1 h
  cases levels with
  | zero => cases hfill
  | succ levels =>
    rw [fill_succ levels source output hp] at hfill
    have hsteps : ∀ entry output,
        (carry direction registry limits (run direction registry limits levels) opcode source
          entry output).Shortens
        (carry direction registry limits (run direction registry limits (levels + 1)) opcode source
          entry output) :=
      carry_shortens (fun _ => Nat.le_refl _)
        (run_shortens (fun _ => Nat.le_refl _) levels.le_succ) source
    have hshortens : (fillItems _ opcode plan.items output).Shortens
        (fillItems _ opcode plan.items output) := fillItems_shortens hsteps plan.items output
    rw [hfill] at hshortens
    exact ⟨output, hfresh, hshortens.eq_of_none⟩
/-- A step to an output of an opcode leaves one, if it ends. -/
theorem preserves_carry {direction : Direction σ τ} {registry : Registry} {limits : CodecLimits}
    {Of : UInt16 → τ → Prop} {layout : Layout} {schema : Schema} {plan : Plan}
    (h : registry.Sound) (hw : direction.Writes registry Of)
    (hb : registry.Binding opcode layout schema plan) {levels : Nat} {source : σ} :
    ∀ entry ∈ plan.bound, Preserves (Of opcode) (carry direction registry limits
      (run direction registry limits levels) opcode source entry) := by
  intro entry he before next reports hof hstep
  have hends : (carry direction registry limits (run direction registry limits levels) opcode
      source entry before).Ends (Of opcode) (CodecError.IsLimit direction.boundedLists) :=
    carry_ends h hw hb (fun hinner source => run_ends h hw levels hinner source) source he hof
  rwa [Ends, hstep] at hends

end Walk

end RecordBridge

import RecordBridge.Proofs.Codec.Walk
/-!
# Walks cut short

Closer limits do not change what a walk does, only how far it gets. A walk shortens
another one when it is the same, or when an error ends it and what it reported is what
the other one reports first (`Walk.Shortens`). With fewer levels and closer limits on
lists every walk shortens itself (`run_shortens`), so two walks from one source that end
with results are the same (`run_eq_of_ok`).
-/
namespace RecordBridge

/-- A walk is another one, or an error ended it on the way. -/
inductive Walk.Shortens : Walk α → Walk α → Prop where
  | same (walk : Walk α) : Shortens walk walk
  | early {reports : List Diagnostic} {error : CodecError} {other : Walk α}
      (first : reports <+: other.reports) : Shortens ⟨reports, .error error⟩ other

/-- Filling an output went as another filling, or an error ended it on the way. -/
inductive Filled.Shortens : Filled τ → Filled τ → Prop where
  | same (filled : Filled τ) : Shortens filled filled
  | early {output : τ} {reports : List Diagnostic} {error : CodecError} {other : Filled τ}
      (first : reports <+: other.reports) : Shortens ⟨output, reports, some error⟩ other

/-- A walk that ends with what was filled is cut short as the filling is. -/
theorem Filled.Shortens.toWalk {filled more : Filled τ} (h : filled.Shortens more) :
    filled.toWalk.Shortens more.toWalk := by
  cases h with
  | same => exact .same _
  | early first => exact .early first

namespace Walk

section
variable {walk other : Walk α} {next next' : α → Walk β}

/-- What a walk reported comes first in what its continuation reports. -/
theorem reports_prefix_bind (walk : Walk α) (next : α → Walk β) :
    walk.reports <+: (walk >>= next).reports := by
  obtain ⟨reports, result⟩ := walk
  cases result with
  | error error => exact List.prefix_rfl
  | ok a => exact List.prefix_append reports _

theorem Shortens.bind (h : walk.Shortens other) (hnext : ∀ a, (next a).Shortens (next' a)) :
    (walk >>= next).Shortens (other >>= next') := by
  cases h with
  | early first => exact .early (first.trans (reports_prefix_bind other next'))
  | same =>
    obtain ⟨reports, result⟩ := walk
    cases result with
    | error error => exact .same _
    | ok a =>
      have ha := hnext a
      rw [ok_bind_eq, ok_bind_eq]
      generalize next a = rest, next' a = rest' at ha
      cases ha with
      | same => exact .same _
      | early first => exact .early ((List.prefix_append_right_inj reports).2 first)

theorem Shortens.each {convert convert' : α → Walk β}
    (h : ∀ item, (convert item).Shortens (convert' item)) : ∀ items : List α,
    (Walk.each convert items).Shortens (Walk.each convert' items)
  | [] => .same _
  | item :: rest => (h item).bind fun _ => (Shortens.each h rest).bind fun _ => .same _

/-- A walk with a result is cut short by nothing. -/
theorem Shortens.eq_of_ok {reports : List Diagnostic} {value : α}
    (h : (⟨reports, .ok value⟩ : Walk α).Shortens other) : other = ⟨reports, .ok value⟩ := by
  cases h
  rfl

end

variable {σ τ : Type} {direction : Direction σ τ} {registry : Registry}
  {limits wider : CodecLimits} {opcode : UInt16}

/-- A step from the same source to the same output. -/
theorem carry_shortens {convert convert' : UInt16 → σ → Walk τ}
    (hlists : direction.boundedLists → limits.maxListNodes ≤ wider.maxListNodes)
    (hconvert : ∀ inner source, (convert inner source).Shortens (convert' inner source))
    (source : σ) (entry : Plan.Entry) (output : τ) :
    (carry direction registry limits convert opcode source entry output).Shortens
      (carry direction registry wider convert' opcode source entry output) := by
  cases ha : entry.action with
  | scalar coercion =>
    rw [carry_scalar ha, carry_scalar ha]
    exact .same _
  | nested inner =>
    rw [carry_nested ha, carry_nested ha]
    exact (Shortens.same _).bind fun child => (hconvert inner child).bind fun _ => .same _
  | array inner count target =>
    rw [carry_array ha, carry_array ha]
    exact (Shortens.same _).bind fun _ => (Shortens.each (hconvert inner) _).bind fun _ => .same _
  | list inner target =>
    rw [carry_list ha, carry_list ha]
    split
    · exact .early List.nil_prefix
    · next hshort =>
      -- a list within the closer limit is within the wider one
      rw [if_neg fun hlong => hshort ⟨hlong.1, Nat.lt_of_le_of_lt (hlists hlong.1) hlong.2⟩]
      exact (Shortens.each (hconvert inner) _).bind fun _ => .same _

/-- All items of a plan, if every step goes as far as it can. -/
theorem fillItems_shortens {carry carry' : Plan.Entry → τ → Walk τ}
    (h : ∀ entry output, (carry entry output).Shortens (carry' entry output)) :
    ∀ (items : List Plan.Item) (output : τ),
    (fillItems carry opcode items output).Shortens (fillItems carry' opcode items output)
  | [], _ => .same _
  | .skip field reason :: rest, output => by
    have hrest := fillItems_shortens h rest output
    rw [fillItems, fillItems]
    generalize fillItems carry opcode rest output = filled,
      fillItems carry' opcode rest output = more at hrest
    cases hrest with
    | same => exact .same _
    | early first => exact .early ((List.prefix_cons_inj _).2 first)
  | .bind entry :: rest, output => by
    have hstep := h entry output
    rw [fillItems, fillItems]
    generalize carry entry output = step, carry' entry output = step' at hstep
    cases hstep with
    | same =>
      obtain ⟨reports, result⟩ := step
      cases result with
      | error error => exact .same _
      | ok next =>
        have hrest := fillItems_shortens h rest next
        dsimp only
        generalize fillItems carry opcode rest next = filled,
          fillItems carry' opcode rest next = more at hrest
        cases hrest with
        | same => exact .same _
        | early first => exact .early ((List.prefix_append_right_inj reports).2 first)
    | early first =>
      refine .early (first.trans ?_)
      dsimp only
      split
      · exact List.prefix_rfl
      · exact List.prefix_append _ _

theorem run_shortens_of_fill {levels more : Nat} {source : σ}
    (hfill : ∀ output, (fill direction registry limits levels opcode source output).Shortens
      (fill direction registry wider more opcode source output)) :
    (run direction registry limits levels opcode source).Shortens
      (run direction registry wider more opcode source) :=
  (Shortens.same _).bind fun output => (hfill output).toWalk

/-- With fewer levels and closer limits, filling an output is cut short. -/
theorem fill_shortens (hlists : direction.boundedLists → limits.maxListNodes ≤ wider.maxListNodes)
    {levels more : Nat} (hlevels : levels ≤ more) (opcode : UInt16) (source : σ) (output : τ) :
    (fill direction registry limits levels opcode source output).Shortens
      (fill direction registry wider more opcode source output) := by
  induction levels generalizing more opcode source output with
  | zero => exact .early List.nil_prefix
  | succ levels ih =>
    obtain ⟨more, rfl⟩ := Nat.exists_eq_add_of_le' (Nat.lt_of_lt_of_le levels.succ_pos hlevels)
    cases hp : registry.plan? opcode with
    | none =>
      rw [fill, fill, hp]
      exact .same _
    | some plan =>
      rw [fill_succ levels source output hp, fill_succ more source output hp]
      refine fillItems_shortens (fun entry output => ?_) plan.items output
      exact carry_shortens hlists (fun inner source => run_shortens_of_fill
        fun output => ih (Nat.le_of_succ_le_succ hlevels) inner source output) source entry output

/-- With fewer levels and closer limits a walk is cut short. -/
theorem run_shortens (hlists : direction.boundedLists → limits.maxListNodes ≤ wider.maxListNodes)
    {levels more : Nat} (hlevels : levels ≤ more) (opcode : UInt16) (source : σ) :
    (run direction registry limits levels opcode source).Shortens
      (run direction registry wider more opcode source) :=
  run_shortens_of_fill (fill_shortens hlists hlevels opcode source)

/-- Walks from one source that end with results are the same walk. -/
theorem run_eq_of_ok {levels more : Nat} {source : σ} {made : τ} {reports : List Diagnostic}
    (h : run direction registry limits levels opcode source = ⟨reports, .ok made⟩)
    {made' : τ} {reports' : List Diagnostic}
    (h' : run direction registry wider more opcode source = ⟨reports', .ok made'⟩) :
    made' = made ∧ reports' = reports := by
  -- both are met again where both limits are at their widest
  have hone : (run direction registry limits levels opcode source).Shortens
      (run direction registry ⟨max limits.maxListNodes wider.maxListNodes, 0⟩ (max levels more)
        opcode source) :=
    run_shortens (fun _ => Nat.le_max_left _ _) (Nat.le_max_left _ _) opcode source
  have hother : (run direction registry wider more opcode source).Shortens
      (run direction registry ⟨max limits.maxListNodes wider.maxListNodes, 0⟩ (max levels more)
        opcode source) :=
    run_shortens (fun _ => Nat.le_max_right _ _) (Nat.le_max_right _ _) opcode source
  rw [h] at hone
  rw [h'] at hother
  cases hone.eq_of_ok.symm.trans hother.eq_of_ok
  exact ⟨rfl, rfl⟩

end Walk

end RecordBridge

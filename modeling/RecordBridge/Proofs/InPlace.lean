/-!
# Programs that change a state in place

A program with a state ends with a result or an error, and leaves a state either way
(`outcome`). It is the form in place of an operation when it has changed nothing where
the operation fails, and otherwise has done what the operation does (`InPlace`).
-/
namespace RecordBridge

/-- What a program with a state comes to: a result or an error, and the state left. -/
def outcome (program : ExceptT ε (StateM σ) α) (state : σ) : Except ε α × σ :=
  program.run.run state

section Outcome

variable {state : σ}

theorem outcome_bind (program : ExceptT ε (StateM σ) α) (next : α → ExceptT ε (StateM σ) β) :
    outcome (program >>= next) state = match outcome program state with
      | (.ok value, left) => outcome (next value) left
      | (.error error, left) => (.error error, left) := by
  change (match outcome program state with
    | (result, left) => outcome (ExceptT.mk (ExceptT.bindCont next result)) left) = _
  obtain ⟨_ | _, left⟩ := outcome program state <;> rfl

@[simp] theorem outcome_get :
    outcome (get : ExceptT ε (StateM σ) σ) state = (.ok state, state) := rfl

@[simp] theorem outcome_modify (f : σ → σ) :
    outcome (modify f : ExceptT ε (StateM σ) PUnit) state = (.ok ⟨⟩, f state) := rfl

@[simp] theorem outcome_throw (error : ε) :
    outcome (throw error : ExceptT ε (StateM σ) α) state = (.error error, state) := rfl

@[simp] theorem outcome_ofExcept (result : Except ε α) :
    outcome (MonadExcept.ofExcept result : ExceptT ε (StateM σ) α) state = (result, state) := by
  cases result <;> rfl

end Outcome

/-- A program has changed nothing when it fails, and otherwise has done what the
operation does that gives the changed state. -/
def InPlace (program : ExceptT ε (StateM σ) Unit) (operation : σ → Except ε σ) : Prop :=
  ∀ state, outcome program state = match operation state with
    | .ok changed => (.ok (), changed)
    | .error error => (.error error, state)

namespace InPlace

variable {program : ExceptT ε (StateM σ) Unit} {operation : σ → Except ε σ} {state : σ}

theorem unchanged (h : InPlace program operation) {error : ε}
    (herror : (outcome program state).1 = .error error) : (outcome program state).2 = state := by
  rw [h state] at herror ⊢
  cases hop : operation state with
  | ok changed => simp [hop] at herror
  | error => rfl

theorem changed (h : InPlace program operation) :
    (outcome program state).2 = state ∨ operation state = .ok (outcome program state).2 := by
  rw [h state]
  cases operation state with
  | ok changed => exact .inr rfl
  | error => exact .inl rfl

/-- A program that reads the state before it changes it. -/
theorem read_bind {read : σ → Except ε α} {next : α → ExceptT ε (StateM σ) Unit}
    {operation : α → σ → Except ε σ} (h : ∀ a, InPlace (next a) (operation a)) :
    InPlace ((get >>= fun state => MonadExcept.ofExcept (read state)) >>= next)
      (fun state => read state >>= fun a => operation a state) := by
  intro state
  rw [outcome_bind, outcome_bind, outcome_get]
  dsimp only
  rw [outcome_ofExcept]
  cases read state with
  | error error => rfl
  | ok a => exact h a state

end InPlace

end RecordBridge

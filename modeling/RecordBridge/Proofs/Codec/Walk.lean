import RecordBridge.Codec.Walk
import RecordBridge.Proofs.Registry.Sound
/-!
# How walks end

`Walk.Ends` says what holds of the result of a walk, and of the error in its
place. A direction that writes only outputs of their opcode (`Direction.Writes`)
never refuses what a plan of a sound registry carries: a walk ends with an
output of its opcode or at one of the limits (`run_ends`), whatever the source.
A walk that succeeds has succeeded at every step (`fillItems_bind_eq_iff`).
-/
namespace RecordBridge

/-- The errors of a walk that reached a limit; lists have one if `bounded`. -/
def CodecError.IsLimit (bounded : Bool) : CodecError → Prop
  | .malformedList .. => bounded
  | .depthExceeded .. => True
  | _ => False

namespace Walk

/-- The result, or the error in its place. -/
def Ends (P : α → Prop) (E : CodecError → Prop) (walk : Walk α) : Prop :=
  match walk.result with
  | .ok value => P value
  | .error error => E error

section
variable {P : α → Prop} {Q : β → Prop} {E : CodecError → Prop} {walk : Walk α}

theorem ends_pure {value : α} (h : P value) : (pure value : Walk α).Ends P E := h

theorem ends_ofExcept {value : α} (h : P value) : (ofExcept (.ok value)).Ends P E := h

theorem ends_fail {error : CodecError} (h : E error) : (fail error : Walk α).Ends P E := h

theorem ends_bind {next : α → Walk β} (h : walk.Ends P E)
    (hnext : ∀ value, P value → (next value).Ends Q E) : (walk >>= next).Ends Q E := by
  obtain ⟨reports, result⟩ := walk
  cases result with
  | ok value => exact hnext value h
  | error error => exact h

theorem ends_require {opcode : UInt16} {value : α} (h : P value) :
    (require opcode (some value)).Ends P E := h

/-- Each of a list is converted, or the first error ends it. -/
theorem ends_each {convert : α → Walk β} : ∀ {items : List α},
    (∀ item ∈ items, (convert item).Ends Q E) →
    (each convert items).Ends (fun out => out.length = items.length ∧ ∀ b ∈ out, Q b) E
  | [], _ => ⟨rfl, fun _ h => absurd h List.not_mem_nil⟩
  | item :: rest, h => by
    obtain ⟨hitem, hrest⟩ := List.forall_mem_cons.1 h
    refine ends_bind hitem fun head hhead => ends_bind (ends_each hrest) fun tail htail => ?_
    exact ⟨by simp [htail.1], List.forall_mem_cons.2 ⟨hhead, htail.2⟩⟩

end

end Walk

variable {σ τ : Type} {direction : Direction σ τ} {registry : Registry}

/-- A direction whose writes succeed wherever a plan asks for them: `Of` tells
the outputs of an opcode, and every write keeps them. -/
structure Direction.Writes (direction : Direction σ τ) (registry : Registry)
    (Of : UInt16 → τ → Prop) : Prop where
  fresh : ∀ {opcode layout schema plan}, registry.Binding opcode layout schema plan →
    ∃ output, direction.fresh registry opcode = some output ∧ Of opcode output
  blank : ∀ {opcode layout schema plan}, registry.Binding opcode layout schema plan →
    ∃ source, direction.blank registry opcode = some source
  scalar : ∀ {opcode layout schema plan entry coercion output},
    registry.Binding opcode layout schema plan → entry ∈ plan.bound →
    entry.action = .scalar coercion → Of opcode output → ∀ source,
    ∃ next, direction.scalar entry coercion source output = .ok next ∧ Of opcode next
  putChild : ∀ {opcode layout schema plan entry inner child output},
    registry.Binding opcode layout schema plan → entry ∈ plan.bound →
    entry.action = .nested inner → Of inner child → Of opcode output →
    ∃ next, direction.putChild entry child output = .ok next ∧ Of opcode next
  putElements : ∀ {opcode layout schema plan entry inner count target elements output},
    registry.Binding opcode layout schema plan → entry ∈ plan.bound →
    entry.action = .array inner count target → elements.length = count →
    (∀ element ∈ elements, Of inner element) → Of opcode output →
    ∃ next, direction.putElements entry target elements output = .ok next ∧ Of opcode next
  putNodes : ∀ {opcode layout schema plan entry inner target nodes output},
    registry.Binding opcode layout schema plan → entry ∈ plan.bound →
    entry.action = .list inner target → (∀ node ∈ nodes, Of inner node) → Of opcode output →
    ∃ next, direction.putNodes entry target nodes output = .ok next ∧ Of opcode next

namespace Registry.Binding

variable {opcode : UInt16} {layout : Layout} {schema : Schema} {plan : Plan}

/-- What an entry carries inside has an opcode with a binding. -/
theorem inner_binding (hb : registry.Binding opcode layout schema plan) (h : registry.Sound)
    {entry : Plan.Entry} (he : entry ∈ plan.bound) {inner : UInt16}
    (ha : entry.action.inner? = some inner) :
    ∃ layout schema plan, registry.Binding inner layout schema plan := by
  obtain ⟨field, found, hsound⟩ := hb.entry_sound he
  have hpairs := hsound.pairs
  generalize found.kind = kind, entry.action = action at hpairs ha
  cases hpairs with
  | scalar => cases ha
  | nested hc | array hc | list _ hc =>
    cases ha
    obtain ⟨layout, schema, plan, hb, -⟩ := h.binding_of_carrier? hc
    exact ⟨layout, schema, plan, hb⟩

end Registry.Binding

namespace Walk

variable {Of : UInt16 → τ → Prop} {limits : CodecLimits} {opcode : UInt16} {layout : Layout}
  {schema : Schema} {plan : Plan}

/-! ## One entry -/

/-- The source inside a field, or a blank one in its place. -/
def child (direction : Direction σ τ) (registry : Registry) (inner : UInt16) (entry : Plan.Entry)
    (source : σ) : Walk σ :=
  match direction.child? entry source with
  | some child => pure child
  | none => require inner (direction.blank registry inner)

/-- What fills an array up. -/
def padding (direction : Direction σ τ) (registry : Registry) (inner : UInt16) (missing : Nat) :
    Walk (List τ) :=
  if missing = 0 then pure []
  else List.replicate missing <$> require inner (direction.fresh registry inner)

section
variable {convert : UInt16 → σ → Walk τ} {source : σ} {entry : Plan.Entry} {output : τ}
  {inner : UInt16}

theorem carry_scalar {coercion : Coercion} (ha : entry.action = .scalar coercion) :
    carry direction registry limits convert opcode source entry output =
      ofExcept (direction.scalar entry coercion source output) := by
  rw [carry, ha]

theorem carry_nested (ha : entry.action = .nested inner) :
    carry direction registry limits convert opcode source entry output =
      (child direction registry inner entry source >>= fun child =>
        convert inner child >>= fun made =>
          ofExcept (direction.putChild entry made output)) := by
  rw [carry, ha, child]
  dsimp only
  cases direction.child? entry source <;> rfl

theorem carry_array {count target : Nat} (ha : entry.action = .array inner count target) :
    carry direction registry limits convert opcode source entry output =
      ((if count < (direction.elements entry target source).length then
          report (.arrayOverflow opcode (fieldName registry opcode entry.recordIndex) count
            (direction.elements entry target source).length)
        else pure ()) >>= fun _ =>
        each (convert inner) ((direction.elements entry target source).take count) >>= fun made =>
          padding direction registry inner (count - made.length) >>= fun more =>
            ofExcept (direction.putElements entry target (made ++ more) output)) := by
  have hpad : ∀ {missing : Nat} {next : List τ → Walk τ},
      (if missing = 0 then pure [] >>= next
        else (List.replicate missing <$> require inner (direction.fresh registry inner)) >>= next) =
      padding direction registry inner missing >>= next := by
    intro missing next
    unfold padding
    split <;> rfl
  rw [carry, ha]
  dsimp only
  simp only [hpad]
  split <;> rfl

theorem carry_list {target : Nat} (ha : entry.action = .list inner target) :
    carry direction registry limits convert opcode source entry output =
      if direction.boundedLists ∧
          limits.maxListNodes < (direction.nodes entry target source).length then
        fail (.malformedList opcode (fieldName registry opcode entry.recordIndex)
          limits.maxListNodes)
      else each (convert inner) (direction.nodes entry target source) >>= fun made =>
        ofExcept (direction.putNodes entry target made output) := by
  rw [carry, ha]
  dsimp only
  split <;> rfl

end

/-- The record in a slot is the source inside its field. -/
theorem child_toMessage (inner : UInt16) {entry : Plan.Entry} {source record : Record}
    (h : source.slot? entry.recordIndex = some (.record record)) :
    child .toMessage registry inner entry source = pure record := by
  simp only [child, Direction.toMessage, h]

theorem elements_toMessage (target : Nat) {entry : Plan.Entry} {source : Record}
    {elements : List Record} (h : source.slot? entry.recordIndex = some (.array elements)) :
    Direction.toMessage.elements entry target source = elements := by
  simp only [Direction.toMessage, h]

theorem nodes_toMessage (target : Nat) {entry : Plan.Entry} {source : Record}
    {head : Option Record} (h : source.slot? entry.recordIndex = some (.link head)) :
    Direction.toMessage.nodes entry target source = Record.nodesOf (.link head) := by
  simp only [Direction.toMessage, Record.list?, h, Option.getD_some]

theorem padding_eq {inner : UInt16} {fresh : τ} (h : direction.fresh registry inner = some fresh)
    (missing : Nat) :
    padding direction registry inner missing = pure (.replicate missing fresh) := by
  unfold padding
  split
  · next h0 => rw [h0, List.replicate_zero]
  · rw [h]
    rfl

theorem padding_ends (hw : direction.Writes registry Of) {inner : UInt16} {missing : Nat}
    (hinner : registry.Binding inner layout schema plan) {E : CodecError → Prop} :
    (padding direction registry inner missing).Ends
      (fun more => more.length = missing ∧ ∀ b ∈ more, Of inner b) E := by
  obtain ⟨fresh, hfresh, hof⟩ := hw.fresh hinner
  rw [padding_eq hfresh]
  exact ends_pure ⟨List.length_replicate, fun b hm => (List.mem_replicate.1 hm).2 ▸ hof⟩

theorem child_ends (hw : direction.Writes registry Of) {inner : UInt16} {entry : Plan.Entry}
    (hinner : registry.Binding inner layout schema plan) {E : CodecError → Prop} (source : σ) :
    (child direction registry inner entry source).Ends (fun _ => True) E := by
  obtain ⟨blank, hblank⟩ := hw.blank hinner
  unfold child
  cases direction.child? entry source with
  | some child => exact ends_pure trivial
  | none =>
    rw [hblank]
    exact ends_require trivial

/-- One entry: what lies inside is converted, and then written. -/
theorem carry_ends (h : registry.Sound) (hw : direction.Writes registry Of)
    (hb : registry.Binding opcode layout schema plan) {convert : UInt16 → σ → Walk τ}
    (hconvert : ∀ {inner layout schema plan}, registry.Binding inner layout schema plan →
      ∀ source, (convert inner source).Ends (Of inner) (CodecError.IsLimit direction.boundedLists))
    (source : σ) {entry : Plan.Entry} (he : entry ∈ plan.bound) {output : τ}
    (ho : Of opcode output) :
    (carry direction registry limits convert opcode source entry output).Ends (Of opcode)
      (CodecError.IsLimit direction.boundedLists) := by
  cases ha : entry.action with
  | scalar coercion =>
    obtain ⟨next, hnext, hof⟩ := hw.scalar hb he ha ho source
    rw [carry_scalar ha, hnext]
    exact ends_ofExcept hof
  | nested inner =>
    obtain ⟨_, _, _, hinner⟩ := hb.inner_binding h he (show _ = some inner by rw [ha]; rfl)
    rw [carry_nested ha]
    refine ends_bind (child_ends hw hinner source) fun child _ => ?_
    refine ends_bind (hconvert hinner child) fun made hm => ?_
    obtain ⟨next, hnext, hof⟩ := hw.putChild hb he ha hm ho
    rw [hnext]
    exact ends_ofExcept hof
  | array inner count target =>
    obtain ⟨_, _, _, hinner⟩ := hb.inner_binding h he (show _ = some inner by rw [ha]; rfl)
    rw [carry_array ha]
    refine ends_bind (P := fun _ => True) (by split <;> trivial) fun _ _ => ?_
    refine ends_bind (ends_each fun item _ => hconvert hinner item) fun made hm => ?_
    refine ends_bind (padding_ends hw hinner) fun more hp => ?_
    have hlen : (made ++ more).length = count := by
      have := List.length_take_le count (direction.elements entry target source)
      rw [List.length_append]
      omega
    have hall : ∀ element ∈ made ++ more, Of inner element := by
      intro element he
      rcases List.mem_append.1 he with he | he
      · exact hm.2 element he
      · exact hp.2 element he
    obtain ⟨next, hnext, hof⟩ := hw.putElements hb he ha hlen hall ho
    rw [hnext]
    exact ends_ofExcept hof
  | list inner target =>
    obtain ⟨_, _, _, hinner⟩ := hb.inner_binding h he (show _ = some inner by rw [ha]; rfl)
    rw [carry_list ha]
    split
    · next hlong => exact ends_fail hlong.1
    · refine ends_bind (ends_each fun item _ => hconvert hinner item) fun made hm => ?_
      obtain ⟨next, hnext, hof⟩ := hw.putNodes hb he ha hm.2 ho
      rw [hnext]
      exact ends_ofExcept hof

/-! ## A whole plan, at every level -/

/-- All entries of a plan: every one leaves an output of the opcode. -/
theorem fillItems_ends {carry : Plan.Entry → τ → Walk τ} {E : CodecError → Prop} :
    ∀ {items : List Plan.Item},
    (∀ entry, .bind entry ∈ items → ∀ output, Of opcode output →
      (carry entry output).Ends (Of opcode) E) → ∀ {output : τ}, Of opcode output →
    Of opcode (fillItems carry opcode items output).output ∧
      ∀ error, (fillItems carry opcode items output).fault = some error → E error
  | [], _, output, ho => ⟨ho, nofun⟩
  | .skip field reason :: rest, hcarry, output, ho => by
    rw [fillItems]
    exact fillItems_ends (fun entry he => hcarry entry (List.mem_cons_of_mem _ he)) ho
  | .bind entry :: rest, hcarry, output, ho => by
    have hstep := hcarry entry List.mem_cons_self output ho
    have hrest := fun {output : τ} (ho : Of opcode output) => fillItems_ends
      (fun entry he => hcarry entry (List.mem_cons_of_mem _ he)) ho
    rw [fillItems]
    unfold Ends at hstep
    dsimp only
    split
    · next error he =>
      rw [he] at hstep
      refine ⟨ho, fun error' h' => ?_⟩
      cases h'
      exact hstep
    · next next he =>
      rw [he] at hstep
      exact hrest hstep

theorem fill_succ (levels : Nat) (source : σ) (output : τ)
    (hp : registry.plan? opcode = some plan) :
    fill direction registry limits (levels + 1) opcode source output =
      fillItems (carry direction registry limits (run direction registry limits levels) opcode
        source) opcode plan.items output := by
  rw [fill, hp]
  rfl

theorem toWalk_ends {filled : Filled τ} {P : τ → Prop} {E : CodecError → Prop}
    (hout : P filled.output) (hfault : ∀ error, filled.fault = some error → E error) :
    filled.toWalk.Ends P E := by
  unfold Filled.toWalk Ends
  cases h : filled.fault with
  | none => exact hout
  | some error => exact hfault error h

/-- A walk ends as the filling of a fresh output does. -/
theorem run_ends_of_fill (hw : direction.Writes registry Of)
    (hb : registry.Binding opcode layout schema plan) {levels : Nat} {source : σ}
    (hfill : ∀ {output : τ}, Of opcode output →
      Of opcode (fill direction registry limits levels opcode source output).output ∧
        ∀ error, (fill direction registry limits levels opcode source output).fault = some error →
          error.IsLimit direction.boundedLists) :
    (run direction registry limits levels opcode source).Ends (Of opcode)
      (CodecError.IsLimit direction.boundedLists) := by
  obtain ⟨fresh, hfresh, hof⟩ := hw.fresh hb
  obtain ⟨hout, hfault⟩ := hfill hof
  rw [run, hfresh]
  exact ends_bind (ends_require rfl) fun _ he => he ▸ toWalk_ends hout hfault

/-- Filling an output of an opcode leaves one, and ends early only at a limit. -/
theorem fill_ends (h : registry.Sound) (hw : direction.Writes registry Of) (levels : Nat) :
    ∀ {opcode : UInt16} {layout : Layout} {schema : Schema} {plan : Plan},
    registry.Binding opcode layout schema plan → ∀ (source : σ) {output : τ}, Of opcode output →
    Of opcode (fill direction registry limits levels opcode source output).output ∧
      ∀ error, (fill direction registry limits levels opcode source output).fault = some error →
        error.IsLimit direction.boundedLists := by
  induction levels with
  | zero =>
    intro opcode layout schema plan _ source output ho
    refine ⟨ho, fun error he => ?_⟩
    cases he
    trivial
  | succ levels ih =>
    intro opcode layout schema plan hb source output ho
    rw [fill_succ levels source output (hb.plan?_eq h)]
    refine fillItems_ends (fun entry he output ho => ?_) ho
    exact carry_ends h hw hb (fun hinner source => run_ends_of_fill hw hinner (ih hinner source))
      source (Plan.mem_bound.2 he) ho

/-- A walk ends with an output of the opcode, or at a limit. -/
theorem run_ends (h : registry.Sound) (hw : direction.Writes registry Of) (levels : Nat)
    (hb : registry.Binding opcode layout schema plan) (source : σ) :
    (run direction registry limits levels opcode source).Ends (Of opcode)
      (CodecError.IsLimit direction.boundedLists) :=
  run_ends_of_fill hw hb (fill_ends h hw levels hb source)

/-! ## Walks that succeed -/

section
variable {walk : Walk α} {reports : List Diagnostic}

theorem ok_bind_eq (first : List Diagnostic) (a : α) (next : α → Walk β) :
    (⟨first, .ok a⟩ : Walk α) >>= next = ⟨first ++ (next a).reports, (next a).result⟩ := rfl

theorem bind_eq_ok_iff {next : α → Walk β} {b : β} : walk >>= next = ⟨reports, .ok b⟩ ↔
    ∃ first a rest, walk = ⟨first, .ok a⟩ ∧ next a = ⟨rest, .ok b⟩ ∧ first ++ rest = reports := by
  constructor
  · intro h
    obtain ⟨first, result⟩ := walk
    cases result with
    | error error => cases h
    | ok a =>
      rw [ok_bind_eq, Walk.mk.injEq] at h
      exact ⟨first, a, (next a).reports, rfl, by rw [← h.2], h.1⟩
  · rintro ⟨first, a, rest, rfl, hn, rfl⟩
    rw [ok_bind_eq, hn]

theorem pure_bind_eq (a : α) (next : α → Walk β) : (pure a : Walk α) >>= next = next a := rfl

theorem pure_eq_ok_iff {a b : α} :
    (pure a : Walk α) = ⟨reports, .ok b⟩ ↔ a = b ∧ reports = [] := by
  rw [show (pure a : Walk α) = ⟨[], .ok a⟩ from rfl]
  simp only [Walk.mk.injEq, Except.ok.injEq, and_comm, eq_comm]

theorem ofExcept_eq_ok_iff {result : Except CodecError α} {b : α} :
    ofExcept result = ⟨reports, .ok b⟩ ↔ result = .ok b ∧ reports = [] := by
  simp only [ofExcept, Walk.mk.injEq, and_comm, eq_comm]

/-- Each of a list was converted, in order, and what was reported on the way is theirs. -/
theorem result_of_each {convert : α → Walk β} : ∀ {items : List α} {made : List β}
    {reports : List Diagnostic}, each convert items = ⟨reports, .ok made⟩ →
    List.Forall₂ (fun item out => (convert item).result = .ok out) items made ∧
      reports = items.flatMap fun item => (convert item).reports
  | [], made, reports, h => by
    obtain ⟨rfl, rfl⟩ := pure_eq_ok_iff.1 h
    exact ⟨.nil, rfl⟩
  | item :: rest, made, reports, h => by
    rw [each, bind_eq_ok_iff] at h
    obtain ⟨first, head, others, hhead, hothers, rfl⟩ := h
    obtain ⟨middle, tail, last, htail, hlast, rfl⟩ := bind_eq_ok_iff.1 hothers
    obtain ⟨rfl, rfl⟩ := pure_eq_ok_iff.1 hlast
    obtain ⟨hmade, rfl⟩ := result_of_each htail
    refine ⟨.cons (by rw [hhead]) hmade, ?_⟩
    rw [List.flatMap_cons, hhead, List.append_nil]

theorem each_singleton {convert : α → Walk β} {item : α} {made : β}
    (h : convert item = ⟨reports, .ok made⟩) : each convert [item] = ⟨reports, .ok [made]⟩ := by
  rw [each, h, ok_bind_eq]
  exact congrArg (Walk.mk · _) (List.append_nil reports)

theorem length_each {convert : α → Walk β} {items : List α} {made : List β}
    (h : each convert items = ⟨reports, .ok made⟩) : made.length = items.length :=
  (result_of_each h).1.length_eq.symm

end

section
variable {carry : Plan.Entry → τ → Walk τ} {rest : List Plan.Item} {output made : τ}
  {reports : List Diagnostic}

theorem fillItems_skip_eq_iff {field : String} {reason : SkipReason} :
    fillItems carry opcode (.skip field reason :: rest) output = ⟨made, reports, none⟩ ↔
    ∃ others, fillItems carry opcode rest output = ⟨made, others, none⟩ ∧
      .fieldSkipped opcode field reason :: others = reports := by
  rw [fillItems]
  generalize fillItems carry opcode rest output = filled
  obtain ⟨out, others, fault⟩ := filled
  simp only [Filled.mk.injEq]
  constructor
  · rintro ⟨rfl, rfl, rfl⟩
    exact ⟨others, ⟨rfl, rfl, rfl⟩, rfl⟩
  · rintro ⟨_, ⟨rfl, rfl, rfl⟩, rfl⟩
    exact ⟨rfl, rfl, rfl⟩

theorem fillItems_bind_eq_iff {entry : Plan.Entry} :
    fillItems carry opcode (.bind entry :: rest) output = ⟨made, reports, none⟩ ↔
    ∃ first next others, carry entry output = ⟨first, .ok next⟩ ∧
      fillItems carry opcode rest next = ⟨made, others, none⟩ ∧ first ++ others = reports := by
  rw [fillItems]
  generalize carry entry output = step
  obtain ⟨first, result⟩ := step
  cases result with
  | error error => simp
  | ok next =>
    dsimp only
    generalize hfill : fillItems carry opcode rest next = filled
    obtain ⟨out, others, fault⟩ := filled
    simp only [Filled.mk.injEq, Walk.mk.injEq, Except.ok.injEq]
    constructor
    · rintro ⟨rfl, rfl, rfl⟩
      exact ⟨first, next, others, ⟨rfl, rfl⟩, hfill, rfl⟩
    · rintro ⟨_, _, others', ⟨rfl, rfl⟩, hfill', rfl⟩
      rw [hfill] at hfill'
      cases hfill'
      exact ⟨rfl, rfl, rfl⟩

theorem toWalk_eq_ok_iff {filled : Filled τ} :
    filled.toWalk = ⟨reports, .ok made⟩ ↔ filled = ⟨made, reports, none⟩ := by
  obtain ⟨out, others, fault⟩ := filled
  cases fault <;> simp [Filled.toWalk, and_comm]

/-- What a walk ends with is an output of the opcode. -/
theorem of_run (h : registry.Sound) (hw : direction.Writes registry Of) {levels : Nat}
    (hb : registry.Binding opcode layout schema plan) {source : σ}
    (hrun : run direction registry limits levels opcode source = ⟨reports, .ok made⟩) :
    Of opcode made := by
  have hends : (run direction registry limits levels opcode source).Ends (Of opcode)
      (CodecError.IsLimit direction.boundedLists) := run_ends h hw levels hb source
  rwa [Ends, hrun] at hends

/-- Whatever each of a list is converted to is an output of the opcode. -/
theorem of_each (h : registry.Sound) (hw : direction.Writes registry Of) {levels : Nat}
    (hb : registry.Binding opcode layout schema plan) {sources : List σ} {outputs : List τ}
    (heach : each (run direction registry limits levels opcode) sources = ⟨reports, .ok outputs⟩) :
    ∀ out ∈ outputs, Of opcode out := by
  have hends : (each (run direction registry limits levels opcode) sources).Ends
      (fun outputs => outputs.length = sources.length ∧ ∀ out ∈ outputs, Of opcode out)
      (CodecError.IsLimit direction.boundedLists) :=
    ends_each fun source _ => run_ends h hw levels hb source
  rw [Ends, heach] at hends
  exact hends.2

theorem run_eq_ok_iff {levels : Nat} {source : σ} :
    run direction registry limits levels opcode source = ⟨reports, .ok made⟩ ↔
    ∃ output, direction.fresh registry opcode = some output ∧
      fill direction registry limits levels opcode source output = ⟨made, reports, none⟩ := by
  rw [run]
  cases direction.fresh registry opcode with
  | none => simp [require, bind_eq_ok_iff, fail]
  | some output => simp [require, pure_bind_eq, toWalk_eq_ok_iff]

end

end Walk

end RecordBridge

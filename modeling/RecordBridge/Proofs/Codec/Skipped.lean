import RecordBridge.Proofs.Codec.Calls
import RecordBridge.Proofs.Codec.Outcome
import RecordBridge.Proofs.Codec.Prepare
import RecordBridge.Proofs.Registry.Coverage
/-!
# Skipped fields are reported

Besides surplus elements a walk reports the fields that plans skip, at any level,
and nothing else (`planned_of_run`); a walk that ends has reported all that its own
plan skips (`reported_of_fillItems`). That is not quite what it does not carry: elements
may be redirected to another field than their own, which is carried then although
it may be reported, while their own field is not reported and need not be carried
(`reported_iff_and_carries_iff`).
-/
namespace RecordBridge

variable {registry : Registry} {limits : CodecLimits} {opcode : UInt16} {layout : Layout}
  {schema : Schema} {plan : Plan} {σ τ : Type} {direction : Direction σ τ}

/-- A skipped field is one that the plan of its opcode skips. -/
def Diagnostic.Planned (registry : Registry) : Diagnostic → Prop
  | .fieldSkipped opcode field reason =>
    ∃ plan, registry.plan? opcode = some plan ∧ .skip field reason ∈ plan.items
  | _ => True

namespace Walk

/-- A property of everything that is reported. -/
def Reports (P : Diagnostic → Prop) (walk : Walk α) : Prop :=
  ∀ report ∈ walk.reports, P report

section
variable {P : Diagnostic → Prop}

theorem reports_of_nil {walk : Walk α} (h : walk.reports = []) : walk.Reports P := by
  rw [Reports, h]
  exact List.forall_mem_nil _

theorem reports_pure (value : α) : (pure value : Walk α).Reports P := reports_of_nil rfl

theorem reports_fail (error : CodecError) : (fail error : Walk α).Reports P := reports_of_nil rfl

theorem reports_require (opcode : UInt16) (value : Option α) :
    (require opcode value).Reports P := by
  cases value with
  | none => exact reports_fail _
  | some value => exact reports_pure value

theorem reports_bind {walk : Walk α} {next : α → Walk β} (h : walk.Reports P)
    (hnext : ∀ value, (next value).Reports P) : (walk >>= next).Reports P := by
  obtain ⟨reports, result⟩ := walk
  cases result with
  | error error => exact h
  | ok value =>
    intro report hm
    rcases List.mem_append.1 hm with hm | hm
    · exact h report hm
    · exact hnext value report hm

theorem reports_each {convert : α → Walk β} (h : ∀ item, (convert item).Reports P) :
    ∀ items : List α, (each convert items).Reports P
  | [] => reports_pure []
  | item :: rest =>
    reports_bind (h item) fun _ => reports_bind (reports_each h rest) fun _ => reports_pure _

theorem reports_padding (inner : UInt16) (missing : Nat) :
    (padding direction registry inner missing).Reports P := by
  unfold padding
  split
  · exact reports_pure []
  · cases direction.fresh registry inner with
    | none => exact reports_of_nil rfl
    | some output => exact reports_of_nil rfl

theorem reports_child (inner : UInt16) (entry : Plan.Entry) (source : σ) :
    (child direction registry inner entry source).Reports P := by
  unfold child
  split
  · exact reports_pure _
  · exact reports_require inner _

/-! ## A step, a plan, a walk -/

/-- A step reports surplus elements and what is reported inside. -/
theorem reports_carry {convert : UInt16 → σ → Walk τ}
    (hconvert : ∀ inner source, (convert inner source).Reports P)
    (hsurplus : ∀ opcode field capacity received,
      P (.arrayOverflow opcode field capacity received))
    (source : σ) (entry : Plan.Entry) (output : τ) :
    (carry direction registry limits convert opcode source entry output).Reports P := by
  have hover : ∀ capacity received,
      (reportSurplus registry opcode entry capacity received).Reports P := by
    intro capacity received
    unfold reportSurplus
    split
    · exact List.forall_mem_singleton.2 (hsurplus _ _ _ _)
    · exact reports_pure ()
  rw [carry_eq_prepare]
  refine reports_bind ?_ fun _ => reports_of_nil rfl
  unfold prepare
  cases entry.action with
  | scalar coercion => exact reports_pure _
  | nested inner =>
    exact reports_bind (reports_child inner entry source) fun child =>
      reports_bind (hconvert inner child) fun _ => reports_pure _
  | array inner count target =>
    exact reports_bind (hover _ _) fun _ =>
      reports_bind (reports_each (hconvert inner) _) fun _ =>
        reports_bind (reports_padding inner _) fun _ => reports_pure _
  | list inner target =>
    dsimp only
    split
    · exact reports_fail _
    · exact reports_bind (reports_each (hconvert inner) _) fun _ => reports_pure _

theorem reports_fillItems {carry : Plan.Entry → τ → Walk τ}
    (hcarry : ∀ entry output, (carry entry output).Reports P) : ∀ {items : List Plan.Item},
    (∀ field reason, .skip field reason ∈ items → P (.fieldSkipped opcode field reason)) →
    ∀ output, ∀ report ∈ (fillItems carry opcode items output).reports, P report
  | [], _, output => List.forall_mem_nil _
  | .skip field reason :: rest, hskip, output => by
    rw [fillItems]
    exact List.forall_mem_cons.2 ⟨hskip field reason List.mem_cons_self, reports_fillItems hcarry
      (fun other cause hm => hskip other cause (List.mem_cons_of_mem _ hm)) output⟩
  | .bind entry :: rest, hskip, output => by
    have hstep := hcarry entry output
    have hrest := reports_fillItems hcarry
      fun other cause hm => hskip other cause (List.mem_cons_of_mem _ hm)
    rw [fillItems]
    dsimp only
    split
    · exact hstep
    · next next _ =>
      intro report hm
      rcases List.mem_append.1 hm with hm | hm
      · exact hstep report hm
      · exact hrest next report hm

end

/-- At every level, what is reported is surplus elements and skipped fields. -/
theorem reports_fill {P : Diagnostic → Prop}
    (hsurplus : ∀ opcode field capacity received, P (.arrayOverflow opcode field capacity received))
    (hskip : ∀ {opcode plan field reason}, registry.plan? opcode = some plan →
      .skip field reason ∈ plan.items → P (.fieldSkipped opcode field reason)) :
    ∀ (levels : Nat) (opcode : UInt16) (source : σ) (output : τ),
    ∀ report ∈ (fill direction registry limits levels opcode source output).reports, P report
  | 0, _, _, _ => List.forall_mem_nil _
  | levels + 1, opcode, source, output => by
    have hrun : ∀ inner source, (run direction registry limits levels inner source).Reports P :=
      fun inner source => reports_bind (reports_require inner _) fun output =>
        reports_fill hsurplus hskip levels inner source output
    cases hp : registry.plan? opcode with
    | none =>
      rw [fill, hp]
      exact List.forall_mem_nil _
    | some plan =>
      rw [fill_succ levels source output hp]
      exact reports_fillItems (fun entry output => reports_carry hrun hsurplus source entry output)
        (fun field reason hm => hskip hp hm) output

/-- What is reported is surplus elements, and the fields that plans skip. -/
theorem planned_of_run (levels : Nat) (opcode : UInt16) (source : σ) :
    (run direction registry limits levels opcode source).Reports (Diagnostic.Planned registry) :=
  reports_bind (reports_require opcode _) fun output => reports_fill (fun _ _ _ _ => trivial)
    (fun hp hm => ⟨_, hp, hm⟩) levels opcode source output

/-- Items that were all gone through reported what they skip. -/
theorem reported_of_fillItems {carry : Plan.Entry → τ → Walk τ} {field : String}
    {reason : SkipReason} : ∀ {items : List Plan.Item} {output made : τ}
    {reports : List Diagnostic}, fillItems carry opcode items output = ⟨made, reports, none⟩ →
    .skip field reason ∈ items → .fieldSkipped opcode field reason ∈ reports
  | .skip other cause :: rest, output, made, reports, h, hm => by
    obtain ⟨others, hrest, rfl⟩ := fillItems_skip_eq_iff.1 h
    rcases List.mem_cons.1 hm with hm | hm
    · cases hm
      exact List.mem_cons_self
    · exact List.mem_cons_of_mem _ (reported_of_fillItems hrest hm)
  | .bind entry :: rest, output, made, reports, h, hm => by
    obtain ⟨first, next, others, -, hrest, rfl⟩ := fillItems_bind_eq_iff.1 h
    have hrest := reported_of_fillItems hrest (by simpa using hm)
    exact List.mem_append_right first hrest

/-- A walk that ended reported exactly the fields that its plan skips, for its opcode. -/
theorem reported_iff_skips (hp : registry.plan? opcode = some plan) {levels : Nat} {source : σ}
    {made : τ} {reports : List Diagnostic}
    (hrun : run direction registry limits levels opcode source = ⟨reports, .ok made⟩)
    (field : String) :
    (∃ reason, .fieldSkipped opcode field reason ∈ reports) ↔ plan.Skips field := by
  rw [Plan.skips_iff_exists]
  constructor
  · rintro ⟨reason, hm⟩
    have hall := @planned_of_run registry limits σ τ direction levels opcode source
    rw [hrun] at hall
    obtain ⟨other, ho, hskip⟩ := hall _ hm
    cases hp.symm.trans ho
    exact ⟨reason, hskip⟩
  · rintro ⟨reason, hskip⟩
    obtain ⟨output, -, hfill⟩ := run_eq_ok_iff.1 hrun
    cases levels with
    | zero => cases hfill
    | succ levels =>
      rw [fill_succ levels _ _ hp] at hfill
      exact ⟨reason, reported_of_fillItems hfill hskip⟩

end Walk

namespace Codec

/-- What a conversion that gives a result reports as skipped is what the plan of its opcode
skips. The fields that are carried are those that are not skipped and not redirected, and
those that another field is redirected to, as the descriptor of its elements says. So a
field that is skipped although one is redirected to it is carried and reported, and one that
is redirected, without another in its place, is neither; every other field is carried or
else reported. -/
theorem reported_iff_and_carries_iff {codec : Codec} {layouts : List Layout}
    {schemas : List Schema} {descriptors : List Descriptor}
    (hreg : Registry.ofLists layouts schemas descriptors = .ok codec.registry)
    (hp : codec.registry.plan? opcode = some plan)
    (hs : codec.registry.schema? opcode = some schema) {index : Nat} {field : Schema.Field}
    (hf : schema.fields[index]? = some field) :
    (∀ record message, (codec.toMessage opcode record).result = .ok (some message) →
      ((∃ reason, .fieldSkipped opcode field.name reason ∈
        (codec.toMessage opcode record).reports) ↔ plan.Skips field.name)) ∧
    (∀ message decoded, (codec.fromMessage opcode message).result = .ok (some decoded) →
      ((∃ reason, .fieldSkipped opcode field.name reason ∈
        (codec.fromMessage opcode message).reports) ↔ plan.Skips field.name)) ∧
    (plan.Carries index ↔ (¬ plan.Skips field.name ∧ ¬ ∃ target, plan.Redirects index target) ∨
      ∃ own, plan.Redirects own index) ∧
    ((plan.Carries index ↔ ¬ plan.Skips field.name) ↔
      ¬ (plan.Skips field.name ∧ ∃ own, plan.Redirects own index) ∧
      ¬ ((∃ target, plan.Redirects index target) ∧ ¬ ∃ own, plan.Redirects own index)) ∧
    ∀ own target, plan.Redirects own target → ∃ element ∈ codec.registry.descriptors, ∃ name,
      element.repeatedField = some name ∧ schema.fieldIndex? name = some target := by
  have h := Registry.sound_of_ofLists hreg
  obtain ⟨layout, found, hb⟩ := h.binding_of_schema? hs
  cases (hb.plan?_eq h).symm.trans hp
  have hnames := (h.schemas.fields schema hb.schema_mem).names
  refine ⟨fun record message hm => ?_, fun message decoded hm => ?_,
    Plan.carries_iff hb.compiled hnames hf, Plan.carries_iff_not_skips_iff hb.compiled hnames hf,
    fun own target hr => hr.named hb.compiled hnames⟩
  · exact Walk.reported_iff_skips hp (run_of_toMessage hm) field.name
  · exact Walk.reported_iff_skips hp (run_of_fromMessage hm) field.name

end Codec

/-! ### Baskets of nodes -/

def basketLayouts : List Layout :=
  [⟨"node", [⟨"value", .int 4 true⟩, ⟨"next", .list "node"⟩]⟩,
    ⟨"basket", [⟨"nodes", .list "node"⟩]⟩]

def basketSchema : Schema :=
  ⟨"Basket", [⟨"nodes", 1, .repeated "Node"⟩, ⟨"items", 2, .repeated "Node"⟩]⟩

def basketSchemas : List Schema := [⟨"Node", [⟨"value", 1, .int32⟩]⟩, basketSchema]

def basketDescriptors : List Descriptor :=
  [⟨1, "basket", "Basket", none⟩, ⟨2, "node", "Node", some "items"⟩]

def basketPlan : Plan := ⟨[.bind ⟨0, 0, .list 2 1, 8⟩, .skip "items" .missingField]⟩

/-- Opcode 1 carries baskets, with their nodes in another field than that of their name. -/
def basketCodec : Codec where
  registry.layouts :=
    ⟨basketLayouts, basketLayouts.reverse, [("basket", 8), ("node", 12)], by decide⟩
  registry.schemas := ⟨basketSchemas⟩
  registry.rows := [⟨⟨1, "basket", "Basket", none⟩, basketPlan⟩,
    ⟨⟨2, "node", "Node", some "items"⟩, ⟨[.bind ⟨0, 0, .scalar (.int 4 true), 4⟩]⟩⟩]

def basketNode (value : Int64) : Record :=
  .mk ⟨"node", [⟨"value", .int 4 true⟩, ⟨"next", .list "node"⟩]⟩ [.int value, .link none]

def basketRecord (nodes : Option Record) : Record :=
  .mk ⟨"basket", [⟨"nodes", .list "node"⟩]⟩ [.link nodes]

namespace Codec

/-- The items of a basket are carried, in the place of its nodes, and reported. -/
theorem basket_items_reported :
    Registry.ofLists basketLayouts basketSchemas basketDescriptors = .ok basketCodec.registry ∧
      basketCodec.registry.plan? 1 = some basketPlan ∧
      basketCodec.registry.schema? 1 = some basketSchema ∧
      basketSchema.fields[1]? = some ⟨"items", 2, .repeated "Node"⟩ ∧
      (∀ record message, (basketCodec.toMessage 1 record).result = .ok (some message) →
        ((∃ reason, .fieldSkipped 1 "items" reason ∈ (basketCodec.toMessage 1 record).reports) ↔
          basketPlan.Skips "items")) ∧
      (∀ message decoded, (basketCodec.fromMessage 1 message).result = .ok (some decoded) →
        ((∃ reason, .fieldSkipped 1 "items" reason ∈ (basketCodec.fromMessage 1 message).reports) ↔
          basketPlan.Skips "items")) ∧
      (basketPlan.Carries 1 ↔
        (¬ basketPlan.Skips "items" ∧ ¬ ∃ target, basketPlan.Redirects 1 target) ∨
          ∃ own, basketPlan.Redirects own 1) ∧
      basketPlan.Skips "items" ∧ basketPlan.Redirects 0 1 := by
  have hreg : Registry.ofLists basketLayouts basketSchemas basketDescriptors =
      .ok basketCodec.registry := by cbv
  have hp : basketCodec.registry.plan? 1 = some basketPlan := rfl
  have hs : basketCodec.registry.schema? 1 = some basketSchema := rfl
  have hf : basketSchema.fields[1]? = some ⟨"items", 2, .repeated "Node"⟩ := rfl
  obtain ⟨hto, hfrom, hcarries, -, -⟩ := reported_iff_and_carries_iff hreg hp hs hf
  exact ⟨hreg, hp, hs, hf, hto, hfrom, hcarries, by decide, by decide⟩

/-- Of a basket with a node and an item the item is carried, although it is reported, and
the node is not, although nothing is said of it. -/
theorem basket_nodes_lost :
    Registry.ofLists basketLayouts basketSchemas basketDescriptors = .ok basketCodec.registry ∧
      basketCodec.registry.plan? 1 = some basketPlan ∧
      basketCodec.registry.schema? 1 = some basketSchema ∧
      ¬ basketPlan.Carries 0 ∧ ¬ basketPlan.Skips "nodes" ∧
      basketPlan.Carries 1 ∧ basketPlan.Skips "items" ∧
      basketCodec.decode 1 [10, 2, 8, 5, 18, 2, 8, 7] =
        ⟨⟨basketRecord (some (basketNode 7)), 8⟩, [.fieldSkipped 1 "items" .missingField],
          [.decoded 1 8 8]⟩ := by
  have hreg : Registry.ofLists basketLayouts basketSchemas basketDescriptors =
      .ok basketCodec.registry := by cbv
  have hp : basketCodec.registry.plan? 1 = some basketPlan := rfl
  have hs : basketCodec.registry.schema? 1 = some basketSchema := rfl
  have hz : basketCodec.registry.record? 1 = some (basketRecord none) := rfl
  have hread : Message.decode basketCodec.registry.schemas basketSchema
      [10, 2, 8, 5, 18, 2, 8, 7] = (.mk basketSchema
        [some (.list [.mk ⟨"Node", [⟨"value", 1, .int32⟩]⟩ [some (.int32 5)]]),
          some (.list [.mk ⟨"Node", [⟨"value", 1, .int32⟩]⟩ [some (.int32 7)]])], none) := by cbv
  exact ⟨hreg, hp, hs, by decide, by decide, by decide, by decide,
    decode_eq hs hp hz hread rfl⟩

end Codec

end RecordBridge

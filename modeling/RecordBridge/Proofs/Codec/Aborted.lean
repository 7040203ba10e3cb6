import RecordBridge.Proofs.Codec.Levels
import RecordBridge.Proofs.Codec.Shortens
import RecordBridge.Proofs.Codec.Skipped
import RecordBridge.Proofs.Message.Again
/-!
# Decodes cut short

A decode is cut short by a step of its plan that goes further in than allowed
(`Walk.exists_of_fillItems_error`). The steps before it are those of a decode that was
allowed to go on, so what they wrote and reported is the same, and nothing of that step
or of later ones is in the record (`Codec.decode_whole_or_cut`). Payloads nest only so
deep, and layouts too, so there is always a depth at which no decode is cut short
(`Codec.not_aborted_of_le`).
-/
namespace RecordBridge

variable {registry : Registry} {limits : CodecLimits} {opcode : UInt16} {layout : Layout}
  {schema : Schema} {plan : Plan}

namespace Walk

/-! ## Where a filling ends -/

section
variable {τ : Type} {carry : Plan.Entry → τ → Walk τ}

/-- Items that were all gone through were so one part after the other. -/
theorem exists_of_fillItems_append : ∀ {front back : List Plan.Item} {output made : τ}
    {reports : List Diagnostic},
    fillItems carry opcode (front ++ back) output = ⟨made, reports, none⟩ →
    ∃ first middle others, fillItems carry opcode front output = ⟨middle, first, none⟩ ∧
      fillItems carry opcode back middle = ⟨made, others, none⟩ ∧ first ++ others = reports
  | [], _, output, made, reports, h => ⟨[], output, reports, rfl, h, rfl⟩
  | .skip field reason :: front, _, output, made, reports, h => by
    obtain ⟨others, hrest, rfl⟩ := fillItems_skip_eq_iff.1 h
    obtain ⟨first, middle, rest, hfront, hback, rfl⟩ := exists_of_fillItems_append hrest
    exact ⟨_, middle, rest, fillItems_skip_eq_iff.2 ⟨first, hfront, rfl⟩, hback, rfl⟩
  | .bind entry :: front, _, output, made, reports, h => by
    obtain ⟨start, next, others, hstep, hrest, rfl⟩ := fillItems_bind_eq_iff.1 h
    obtain ⟨first, middle, rest, hfront, hback, rfl⟩ := exists_of_fillItems_append hrest
    exact ⟨start ++ first, middle, rest,
      fillItems_bind_eq_iff.2 ⟨start, next, first, hstep, hfront, rfl⟩, hback,
      List.append_assoc start first rest⟩

/-- An error ends a filling at one of the steps, and leaves what was filled before it. -/
theorem exists_of_fillItems_error : ∀ {items : List Plan.Item} {output made : τ}
    {reports : List Diagnostic} {error : CodecError},
    fillItems carry opcode items output = ⟨made, reports, some error⟩ →
    ∃ before entry after first last, items = before ++ .bind entry :: after ∧
      fillItems carry opcode before output = ⟨made, first, none⟩ ∧
      carry entry made = ⟨last, .error error⟩ ∧ first ++ last = reports
  | [], output, made, reports, error, h => by cases h
  | .skip field reason :: rest, output, made, reports, error, h => by
    rw [fillItems] at h
    generalize hrest : fillItems carry opcode rest output = filled at h
    obtain ⟨out, others, fault⟩ := filled
    cases h
    obtain ⟨before, entry, after, first, last, rfl, hbefore, hstep, rfl⟩ :=
      exists_of_fillItems_error hrest
    exact ⟨.skip field reason :: before, entry, after, .fieldSkipped opcode field reason :: first,
      last, rfl, fillItems_skip_eq_iff.2 ⟨first, hbefore, rfl⟩, hstep, rfl⟩
  | .bind entry :: rest, output, made, reports, error, h => by
    rw [fillItems] at h
    generalize hstep : carry entry output = step at h
    obtain ⟨start, result⟩ := step
    cases result with
    | error cause =>
      cases h
      exact ⟨[], entry, rest, [], start, rfl, rfl, hstep, rfl⟩
    | ok next =>
      dsimp only at h
      generalize hrest : fillItems carry opcode rest next = filled at h
      obtain ⟨out, others, fault⟩ := filled
      cases h
      obtain ⟨before, other, after, first, last, rfl, hbefore, herror, rfl⟩ :=
        exists_of_fillItems_error hrest
      exact ⟨.bind entry :: before, other, after, start ++ first, last, rfl,
        fillItems_bind_eq_iff.2 ⟨start, next, first, hstep, hbefore, rfl⟩, herror,
        List.append_assoc start first last⟩

/-- Where an error ended a filling, one that goes as far as it can went on from the same
output, after the same reports. -/
theorem exists_of_shortened {further : Plan.Entry → τ → Walk τ}
    (hsteps : ∀ entry output, (carry entry output).Shortens (further entry output))
    {items : List Plan.Item} {output made whole : τ} {reports all : List Diagnostic}
    {error : CodecError} (hcut : fillItems carry opcode items output = ⟨made, reports, some error⟩)
    (hwhole : fillItems further opcode items output = ⟨whole, all, none⟩) :
    ∃ before entry after last others, items = before ++ .bind entry :: after ∧
      carry entry made = ⟨last, .error error⟩ ∧
      (∃ first, fillItems carry opcode before output = ⟨made, first, none⟩) ∧
      fillItems further opcode (.bind entry :: after) made = ⟨whole, others, none⟩ := by
  obtain ⟨before, entry, after, first, last, rfl, hbefore, hstep, -⟩ :=
    exists_of_fillItems_error hcut
  obtain ⟨first', middle, others, hbefore', hafter, -⟩ := exists_of_fillItems_append hwhole
  have hsame : (fillItems carry opcode before output).Shortens
      (fillItems further opcode before output) := fillItems_shortens hsteps before output
  rw [hbefore, hbefore'] at hsame
  cases hsame
  exact ⟨before, entry, after, last, others, rfl, hstep, ⟨first, hbefore⟩, hafter⟩

end

end Walk

namespace Codec

variable {codec : Codec} {payload : List UInt8}

/-! ## Decodes that are not cut short -/

/-- A decode is cut short unless the walk from the message that was read succeeds. -/
theorem not_aborted_iff (h : codec.registry.Sound)
    (hb : codec.registry.Binding opcode layout schema plan) :
    (∀ report ∈ (codec.decode opcode payload).reports, ¬ report.isAborted) ↔
      (Walk.run .toRecord codec.registry codec.limits (codec.limits.maxDepth + 1) opcode
        (Message.decode codec.registry.schemas schema payload).1).Succeeds := by
  constructor
  · intro hnone
    obtain ⟨reports, hrun⟩ := run_eq_ok_of_decode h hb hnone
    exact ⟨_, by rw [hrun]⟩
  · intro hsucceeds
    obtain ⟨zero, hz, -⟩ := hb.exists_record? h
    rw [Walk.succeeds_run_iff_fault hz] at hsucceeds
    have hfilled : ∀ report ∈ (Walk.fill .toRecord codec.registry codec.limits
        (codec.limits.maxDepth + 1) opcode
        (Message.decode codec.registry.schemas schema payload).1 zero).reports,
        ¬ report.isAborted :=
      Walk.reports_fill (fun _ _ _ _ => nofun) (fun _ _ => nofun) _ _ _ _
    generalize hm : Message.decode codec.registry.schemas schema payload = read at *
    obtain ⟨message, fault⟩ := read
    generalize hfill : Walk.fill .toRecord codec.registry codec.limits (codec.limits.maxDepth + 1)
      opcode message zero = filled at *
    obtain ⟨made, reports, left⟩ := filled
    cases hsucceeds
    rw [decode_eq (hb.schema?_eq h) (hb.plan?_eq h) hz hm hfill]
    intro report hreport
    rcases List.mem_append.1 hreport with hreport | hreport
    · obtain ⟨error, -, rfl⟩ := List.mem_map.1 hreport
      nofun
    · exact hfilled report (by simpa using hreport)

/-- Payloads nest no deeper than the limit, and layouts no deeper than there are: where
both fit, no decode is cut short. -/
theorem not_aborted_of_le (h : codec.registry.Sound)
    (hb : codec.registry.Binding opcode layout schema plan)
    (hdepth : nestingLimit + codec.registry.layouts.layouts.length ≤ codec.limits.maxDepth) :
    ∀ report ∈ (codec.decode opcode payload).reports, ¬ report.isAborted := by
  have hnesting := Message.nesting_decode_le h.schemas hb.schema_mem payload
  exact (not_aborted_iff h hb).2 (Walk.succeeds_run_message h _ hb (by omega))

end Codec

/-! ## Decodes that are -/

/-- A record that was filled up to an item of a plan, next to one that was filled whole:
the fields that the items before it carry are filled alike, and no other field is. -/
structure Plan.CutAt (plan : Plan) (zero : Record) (index : Nat) (cut whole : Record) : Prop where
  /-- The item goes further in: it carries a record, an array or a list. -/
  inside : ∃ entry, plan.items[index]? = some (.bind entry) ∧ entry.action.inner?.isSome
  layout : cut.layout = zero.layout
  carried : ∀ entry, .bind entry ∈ plan.items.take index →
    cut.slot? entry.recordIndex = whole.slot? entry.recordIndex
  others : ∀ field, (∀ entry, .bind entry ∈ plan.items.take index → entry.recordIndex ≠ field) →
    cut.slot? field = zero.slot? field

namespace Walk

variable {message : Message}

/-- A step that an error ends goes further in: scalars are always carried. -/
theorem isSome_inner?_of_carry (h : registry.Sound)
    (hb : registry.Binding opcode layout schema plan) {back : UInt16 → Message → Walk Record}
    {entry : Plan.Entry} (he : entry ∈ plan.bound) {output : Record}
    (ho : output.Of registry opcode) {reports : List Diagnostic} {error : CodecError}
    (hstep : carry .toRecord registry limits back opcode message entry output =
      ⟨reports, .error error⟩) : entry.action.inner?.isSome := by
  cases ha : entry.action with
  | scalar coercion =>
    obtain ⟨next, hnext, -⟩ := (Direction.writes_toRecord h).scalar hb he ha ho message
    rw [carry_scalar ha, hnext] at hstep
    cases hstep
  | _ => rfl

/-- Items of a plan that were all gone through left an output of the opcode. -/
theorem of_fillItems (h : registry.Sound) (hb : registry.Binding opcode layout schema plan)
    {levels : Nat} {items : List Plan.Item}
    (hitems : ∀ entry, .bind entry ∈ items → entry ∈ plan.bound) {output made : Record}
    (ho : output.Of registry opcode) {reports : List Diagnostic}
    (hfill : fillItems (carry .toRecord registry limits (run .toRecord registry limits levels)
      opcode message) opcode items output = ⟨made, reports, none⟩) : made.Of registry opcode := by
  have hw := Direction.writes_toRecord h
  have hof : (fillItems (carry .toRecord registry limits (run .toRecord registry limits levels)
      opcode message) opcode items output).output.Of registry opcode := by
    refine (fillItems_ends (E := CodecError.IsLimit false) (fun entry hm output ho => ?_) ho).1
    exact carry_ends h hw hb (fun hinner source => run_ends h hw levels hinner source) message
      (hitems entry hm) ho
  rwa [hfill] at hof

section
variable {wider : CodecLimits} {levels more : Nat} {zero made whole : Record}
  {reports all : List Diagnostic} {error : CodecError}

/-- A filling that is cut short had no more levels than one that is not. -/
theorem levels_le_of_fill
    (hcut : fill .toRecord registry limits levels opcode message zero =
      ⟨made, reports, some error⟩)
    (hwhole : fill .toRecord registry wider more opcode message zero = ⟨whole, all, none⟩) :
    levels ≤ more := by
  by_contra hlt
  have hback : (fill .toRecord registry wider more opcode message zero).Shortens
      (fill .toRecord registry limits levels opcode message zero) :=
    fill_shortens (fun h => by cases h) (Nat.le_of_not_le hlt) opcode message zero
  rw [hcut, hwhole] at hback
  cases hback

/-- What a filling that is cut short reported is what one that is not reported first. -/
theorem reports_prefix_of_fill
    (hcut : fill .toRecord registry limits levels opcode message zero =
      ⟨made, reports, some error⟩)
    (hwhole : fill .toRecord registry wider more opcode message zero = ⟨whole, all, none⟩) :
    reports <+: all := by
  have hfirst : (fill .toRecord registry limits levels opcode message zero).Shortens
      (fill .toRecord registry wider more opcode message zero) :=
    fill_shortens (fun h => by cases h) (levels_le_of_fill hcut hwhole) opcode message zero
  rw [hcut, hwhole] at hfirst
  cases hfirst with
  | early first => exact first

/-- A filling that is cut short is so at an item that goes further in. -/
theorem exists_cutAt (h : registry.Sound) (hb : registry.Binding opcode layout schema plan)
    (ho : zero.Of registry opcode)
    (hcut : fill .toRecord registry limits (levels + 1) opcode message zero =
      ⟨made, reports, some error⟩)
    (hwhole : fill .toRecord registry wider (more + 1) opcode message zero = ⟨whole, all, none⟩) :
    ∃ index, plan.CutAt zero index made whole := by
  have hle : levels ≤ more := Nat.le_of_succ_le_succ (levels_le_of_fill hcut hwhole)
  rw [fill_succ levels message zero (hb.plan?_eq h)] at hcut
  rw [fill_succ more message zero (hb.plan?_eq h)] at hwhole
  obtain ⟨before, entry, after, last, others, hitems, hstep, ⟨first, hbefore⟩, hafter⟩ :=
    exists_of_shortened (fun entry output => carry_shortens (fun h => by cases h)
      (run_shortens (fun h => by cases h) hle) message entry output) hcut hwhole
  have hof := of_fillItems h hb
    (fun other hm => Plan.mem_bound.2 (hitems ▸ List.mem_append_left _ hm)) ho hbefore
  have hentry : entry ∈ plan.bound := Plan.mem_bound.2 (hitems ▸ by simp)
  have htake : plan.items.take before.length = before := by rw [hitems, List.take_left]
  -- no two entries are bound to one record field
  have hnodup := Plan.nodup_recordIndex hb.compiled (h.schemas.fields schema hb.schema_mem).names
  have hbound := Plan.bound_append before (.bind entry :: after)
  rw [← hitems] at hbound
  rw [show plan.bound = _ from hbound, List.map_append, List.nodup_append] at hnodup
  refine ⟨before.length, ⟨entry, by simp [hitems], isSome_inner?_of_carry h hb hentry hof hstep⟩,
    ((hb.record_of_iff h).1 hof).1.trans ((hb.record_of_iff h).1 ho).1.symm, ?_, ?_⟩
  · intro bound hm
    rw [htake] at hm
    refine (slot?_fillItems_of_ne hafter fun other hother hsame => ?_).symm
    exact hnodup.2.2 _ (List.mem_map_of_mem (Plan.mem_bound.2 hm)) _ (List.mem_map_of_mem hother)
      hsame.symm
  · intro field hfree
    rw [htake] at hfree
    exact slot?_fillItems_of_ne hbefore fun bound hm => hfree bound (Plan.mem_bound.1 hm)

end

end Walk

namespace Codec

variable {codec : Codec} {payload : List UInt8}

/-- A decode under some limits is the one that is not cut short, or it is cut short at an
item that goes further in: the items before it carried their fields to the record as in
the other one, no other field was carried, and what was reported before the error is
what the other one reports first. However the other limits are set, decodes at the
depth to which payloads and layouts nest are not cut short. -/
theorem decode_whole_or_cut {layouts : List Layout} {schemas : List Schema}
    {descriptors : List Descriptor}
    (hreg : Registry.ofLists layouts schemas descriptors = .ok codec.registry)
    (hp : codec.registry.plan? opcode = some plan) (payload : List UInt8) :
    (∀ whole : Codec, whole.registry = codec.registry →
      nestingLimit + codec.registry.layouts.layouts.length ≤ whole.limits.maxDepth →
      ∀ report ∈ (whole.decode opcode payload).reports, ¬ report.isAborted) ∧
    ∃ zero, codec.registry.record? opcode = some zero ∧
      ∀ whole : Codec, whole.registry = codec.registry →
        (∀ report ∈ (whole.decode opcode payload).reports, ¬ report.isAborted) →
        codec.decode opcode payload = whole.decode opcode payload ∨
          (∃ before error, (codec.decode opcode payload).reports =
              before ++ [.aborted opcode error] ∧
            before <+: (whole.decode opcode payload).reports) ∧
          ∃ index, plan.CutAt zero index (codec.decode opcode payload).result.record
            (whole.decode opcode payload).result.record := by
  have h := Registry.sound_of_ofLists hreg
  obtain ⟨row, hrow, rfl⟩ := Option.map_eq_some_iff.1 hp
  obtain ⟨layout, schema, hb⟩ := h.binding_of_row? hrow
  obtain ⟨zero, hz, ho⟩ := (Direction.writes_toRecord h).fresh hb
  refine ⟨fun whole hsame hdepth => ?_, zero, hz, fun whole hsame hwhole => ?_⟩
  · rw [← hsame] at h hb hdepth
    exact not_aborted_of_le h hb hdepth
  · obtain ⟨all, hrun⟩ := run_eq_ok_of_decode (hsame ▸ h) (hsame ▸ hb) hwhole
    obtain ⟨_, hfresh, hall⟩ := Walk.run_eq_ok_iff.1 hrun
    rw [hsame] at hfresh hall
    cases hz.symm.trans hfresh
    generalize (whole.decode opcode payload).result.record = record at hall
    generalize hm : Message.decode codec.registry.schemas schema payload = read at hall
    obtain ⟨message, fault⟩ := read
    generalize hfill : Walk.fill .toRecord codec.registry codec.limits (codec.limits.maxDepth + 1)
      opcode message zero = filled
    obtain ⟨made, reports, left⟩ := filled
    have hdecode : whole.decode opcode payload = _ :=
      decode_eq (hsame ▸ hb.schema?_eq h) (hsame ▸ hb.plan?_eq h) (hsame ▸ hz) (hsame ▸ hm)
        (hsame ▸ hall)
    rw [hdecode, decode_eq (hb.schema?_eq h) (hb.plan?_eq h) hz hm hfill]
    cases left with
    | none =>
      obtain ⟨rfl, rfl⟩ := Walk.run_eq_of_ok (Walk.run_eq_ok_iff.2 ⟨zero, hz, hfill⟩)
        (Walk.run_eq_ok_iff.2 ⟨zero, hz, hall⟩)
      exact .inl rfl
    | some error =>
      have hfirst := Walk.reports_prefix_of_fill hfill hall
      refine .inr ⟨⟨_, error, (List.append_assoc _ reports _).symm, ?_⟩,
        Walk.exists_cutAt h hb ho hfill hall⟩
      exact (List.prefix_append_right_inj _).2 (hfirst.trans (List.prefix_append all _))

end Codec

/-! ### Drawers with a cell -/

def drawerLayout : Layout :=
  ⟨"drawer", [⟨"mark", .int 4 true⟩, ⟨"cell", .nested "cell"⟩, ⟨"tail", .int 4 true⟩]⟩

def drawerLayouts : List Layout := [⟨"cell", [⟨"value", .int 4 true⟩]⟩, drawerLayout]

def drawerSchema : Schema :=
  ⟨"Drawer", [⟨"mark", 1, .int32⟩, ⟨"cell", 2, .message "Cell"⟩, ⟨"tail", 3, .int32⟩]⟩

def drawerSchemas : List Schema := [⟨"Cell", [⟨"value", 1, .int32⟩]⟩, drawerSchema]

def drawerDescriptors : List Descriptor :=
  [⟨1, "drawer", "Drawer", none⟩, ⟨2, "cell", "Cell", none⟩]

def drawerPlan : Plan :=
  ⟨[.bind ⟨0, 0, .scalar (.int 4 true), 4⟩, .bind ⟨1, 1, .nested 2, 4⟩,
    .bind ⟨2, 2, .scalar (.int 4 true), 4⟩]⟩

/-- Opcode 1 carries drawers with a cell between two numbers, and opcode 2 the cells. -/
def drawerCodec (maxDepth : Nat) : Codec where
  registry.layouts := ⟨drawerLayouts, drawerLayouts.reverse, [("drawer", 12), ("cell", 4)],
    by decide⟩
  registry.schemas := ⟨drawerSchemas⟩
  registry.rows := [⟨⟨1, "drawer", "Drawer", none⟩, drawerPlan⟩,
    ⟨⟨2, "cell", "Cell", none⟩, ⟨[.bind ⟨0, 0, .scalar (.int 4 true), 4⟩]⟩⟩]
  limits := ⟨1024, maxDepth⟩

def drawerRecord (mark value tail : Int64) : Record :=
  .mk drawerLayout [.int mark, .record (.mk ⟨"cell", [⟨"value", .int 4 true⟩]⟩ [.int value]),
    .int tail]

/-- A drawer of mark 7 and tail 9, with a cell of value 5. -/
def drawerPayload : List UInt8 := [8, 7, 18, 2, 8, 5, 24, 9]

theorem read_drawer (maxDepth : Nat) :
    Message.decode (drawerCodec maxDepth).registry.schemas drawerSchema drawerPayload =
      (.mk drawerSchema [some (.int32 7),
        some (.message (.mk ⟨"Cell", [⟨"value", 1, .int32⟩]⟩ [some (.int32 5)])),
        some (.int32 9)], none) := by cbv

theorem decode_drawer_cut : (drawerCodec 0).decode 1 drawerPayload =
    ⟨⟨drawerRecord 7 0 0, 12⟩, [.aborted 1 (.depthExceeded 2 0)], [.decoded 1 8 12]⟩ := by
  have hs : (drawerCodec 0).registry.schema? 1 = some drawerSchema := rfl
  have hp : (drawerCodec 0).registry.plan? 1 = some drawerPlan := rfl
  have hz : (drawerCodec 0).registry.record? 1 = some (drawerRecord 0 0 0) := rfl
  exact Codec.decode_eq hs hp hz (read_drawer 0) rfl

theorem decode_drawer_whole : (drawerCodec 1).decode 1 drawerPayload =
    ⟨⟨drawerRecord 7 5 9, 12⟩, [], [.decoded 1 8 12]⟩ := by
  have hs : (drawerCodec 1).registry.schema? 1 = some drawerSchema := rfl
  have hp : (drawerCodec 1).registry.plan? 1 = some drawerPlan := rfl
  have hz : (drawerCodec 1).registry.record? 1 = some (drawerRecord 0 0 0) := rfl
  exact Codec.decode_eq hs hp hz (read_drawer 1) rfl

/-- With no level below it allowed, a drawer is decoded up to its cell. -/
theorem Codec.drawer_cut :
    Registry.ofLists drawerLayouts drawerSchemas drawerDescriptors =
        .ok (drawerCodec 0).registry ∧
      (drawerCodec 0).registry.plan? 1 = some drawerPlan ∧
      (∀ report ∈ ((drawerCodec 1).decode 1 drawerPayload).reports, ¬ report.isAborted) ∧
      ((drawerCodec 0).decode 1 drawerPayload).reports = [.aborted 1 (.depthExceeded 2 0)] ∧
      ∃ index, drawerPlan.CutAt (drawerRecord 0 0 0) index
        ((drawerCodec 0).decode 1 drawerPayload).result.record
        ((drawerCodec 1).decode 1 drawerPayload).result.record := by
  have hreg : Registry.ofLists drawerLayouts drawerSchemas drawerDescriptors =
      .ok (drawerCodec 0).registry := by cbv
  have hp : (drawerCodec 0).registry.plan? 1 = some drawerPlan := rfl
  have hwhole : ∀ report ∈ ((drawerCodec 1).decode 1 drawerPayload).reports,
      ¬ report.isAborted := by
    rw [decode_drawer_whole]
    exact fun _ hm => absurd hm List.not_mem_nil
  have hne : (drawerCodec 0).decode 1 drawerPayload ≠ (drawerCodec 1).decode 1 drawerPayload := by
    rw [decode_drawer_cut, decode_drawer_whole]
    simp
  obtain ⟨-, zero, hz, hcut⟩ := decode_whole_or_cut hreg hp drawerPayload
  cases (show some (drawerRecord 0 0 0) = some zero from hz)
  obtain ⟨-, hrecord⟩ := (hcut (drawerCodec 1) rfl hwhole).resolve_left hne
  exact ⟨hreg, hp, hwhole, by rw [decode_drawer_cut], hrecord⟩

end RecordBridge

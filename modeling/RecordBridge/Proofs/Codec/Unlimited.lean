import RecordBridge.Proofs.Codec.Levels
import RecordBridge.Proofs.Codec.Shortens
/-!
# Walks without a limit on levels

One level of a walk goes on from what is inside the source, and from blank sources in
place of embedded ones (`Walk.calls`). These calls come to an end: what is inside is
smaller, and what a blank source stands for is embedded by value, where no layout
contains itself (`Walk.Terminates`). So the levels that are left only matter as long as
there are too few: there is one walk that goes through a level by going through its
calls, and all that have levels enough are that one (`Walk.exists_whole`).
-/
namespace RecordBridge

namespace Walk

variable {σ τ : Type} {direction : Direction σ τ} {registry : Registry}
  {limits wider : CodecLimits} {opcode inner : UInt16} {source part : σ} {entry : Plan.Entry}

/-- What the walk of a source calls for, one level further in. -/
def calls (direction : Direction σ τ) (registry : Registry) (caller : UInt16 × σ) :
    List (UInt16 × σ) :=
  (registry.plan? caller.1).elim [] fun plan => plan.bound.flatMap fun entry =>
    entry.action.inner?.elim [] fun inner =>
      (entry.inside direction registry caller.2).map fun part => (inner, part)

theorem mem_calls : (inner, part) ∈ calls direction registry (opcode, source) ↔
    ∃ plan, registry.plan? opcode = some plan ∧ ∃ entry ∈ plan.bound,
      entry.action.inner? = some inner ∧ part ∈ entry.inside direction registry source := by
  unfold calls
  cases registry.plan? opcode with
  | none => simp
  | some plan =>
    simp only [Option.elim_some, List.mem_flatMap, Option.some.injEq, exists_eq_left']
    refine exists_congr fun entry => and_congr_right fun _ => ?_
    cases entry.action.inner? with
    | none => simp
    | some carried => simp [and_comm, eq_comm]

/-- One level of a walk; what is inside is converted by `convert`. -/
def level (direction : Direction σ τ) (registry : Registry) (limits : CodecLimits)
    (convert : UInt16 → σ → Walk τ) (opcode : UInt16) (source : σ) : Walk τ := do
  let output ← require opcode (direction.fresh registry opcode)
  match registry.plan? opcode with
  | none => fail (.missingPlan opcode)
  | some plan =>
    (fillItems (carry direction registry limits convert opcode source) opcode plan.items
      output).toWalk

theorem run_succ (levels : Nat) (opcode : UInt16) (source : σ) :
    run direction registry limits (levels + 1) opcode source =
      level direction registry limits (run direction registry limits levels) opcode source := by
  rw [run, level]
  congr 1
  funext output
  cases hp : registry.plan? opcode with
  | none =>
    rw [fill, hp]
    rfl
  | some plan => rw [fill_succ levels source output hp]

/-! ## A level looks at its calls only -/

/-- A step looks at what it goes on from, and of the limits at the one on lists. -/
theorem carry_congr {first second : UInt16 → σ → Walk τ}
    (hlists : limits.maxListNodes = wider.maxListNodes)
    (h : ∀ inner, entry.action.inner? = some inner →
      ∀ part ∈ entry.inside direction registry source, first inner part = second inner part)
    (output : τ) :
    carry direction registry limits first opcode source entry output =
      carry direction registry wider second opcode source entry output := by
  unfold Plan.Entry.inside at h
  cases ha : entry.action with
  | scalar coercion => rw [carry_scalar ha, carry_scalar ha]
  | nested inner =>
    rw [ha] at h
    rw [carry_nested ha, carry_nested ha]
    cases hc : direction.child? entry source with
    | some found =>
      have hsame := h inner rfl found (by simp [hc])
      simp only [child, hc, pure_bind_eq, hsame]
    | none =>
      cases hb : direction.blank registry inner with
      | none =>
        simp only [child, hc, hb]
        rfl
      | some blank =>
        have hsame := h inner rfl blank (by simp [hc, hb])
        simp only [child, hc, hb, require, pure_bind_eq, hsame]
  | array inner count target =>
    rw [ha] at h
    rw [carry_array ha, carry_array ha, each_congr (List.forall₂_same.2 (h inner rfl))]
  | list inner target =>
    rw [ha] at h
    rw [carry_list ha, carry_list ha, hlists, each_congr (List.forall₂_same.2 (h inner rfl))]

theorem level_congr {first second : UInt16 → σ → Walk τ}
    (hlists : limits.maxListNodes = wider.maxListNodes)
    (h : ∀ called ∈ calls direction registry (opcode, source),
      first called.1 called.2 = second called.1 called.2) :
    level direction registry limits first opcode source =
      level direction registry wider second opcode source := by
  unfold level
  congr 1
  funext output
  cases hp : registry.plan? opcode with
  | none => rfl
  | some plan =>
    refine congrArg Filled.toWalk (fillItems_congr (fun entry he output => ?_) output)
    refine carry_congr hlists (fun inner ha part hpart => ?_) output
    exact h (inner, part) (mem_calls.2 ⟨plan, hp, entry, Plan.mem_bound.2 he, ha, hpart⟩)

/-! ## Calls that end -/

/-- Calls end when each is for something inside the source, or for a blank source that
ends itself. -/
theorem wellFounded_calls {parts : σ → List σ}
    (hparts : WellFounded fun part source => part ∈ parts source)
    (hcalls : ∀ {opcode inner source part},
      (inner, part) ∈ calls direction registry (opcode, source) →
      Relation.TransGen (fun part source => part ∈ parts source) part source ∨
        direction.blank registry inner = some part)
    (hblank : ∀ {opcode source}, direction.blank registry opcode = some source →
      Acc (fun called caller => called ∈ calls direction registry caller) (opcode, source)) :
    WellFounded fun called caller => called ∈ calls direction registry caller := by
  refine ⟨fun (opcode, source) => ?_⟩
  induction source using hparts.transGen.induction generalizing opcode with
  | _ source ih =>
    refine .intro _ fun (inner, part) hcall => ?_
    rcases hcalls hcall with hsmaller | hpart
    · exact ih part hsmaller inner
    · exact hblank hpart

/-! ## Levels enough -/

/-- With levels enough, the walk of a source is always the same one, however many more
levels there are. -/
def ComesTo (direction : Direction σ τ) (registry : Registry) (limits : CodecLimits)
    (opcode : UInt16) (source : σ) (walk : Walk τ) : Prop :=
  ∃ depth, ∀ levels, depth ≤ levels → ∀ wider : CodecLimits,
    wider.maxListNodes = limits.maxListNodes →
    run direction registry wider levels opcode source = walk

theorem ComesTo.unique {walk other : Walk τ}
    (h : ComesTo direction registry limits opcode source walk)
    (h' : ComesTo direction registry limits opcode source other) : walk = other := by
  obtain ⟨depth, hwalk⟩ := h
  obtain ⟨more, hother⟩ := h'
  rw [← hwalk (max depth more) (Nat.le_max_left _ _) limits rfl,
    hother (max depth more) (Nat.le_max_right _ _) limits rfl]

/-- What is enough for all calls is enough for the caller, with a level more. -/
theorem ComesTo.level {convert : UInt16 → σ → Walk τ}
    (h : ∀ called ∈ calls direction registry (opcode, source),
      ComesTo direction registry limits called.1 called.2 (convert called.1 called.2)) :
    ComesTo direction registry limits opcode source
      (level direction registry limits convert opcode source) := by
  have hall : ∃ depth, ∀ levels ≥ depth, ∀ called ∈ calls direction registry (opcode, source),
      ∀ wider : CodecLimits, wider.maxListNodes = limits.maxListNodes →
        run direction registry wider levels called.1 called.2 = convert called.1 called.2 := by
    rw [← Filter.eventually_atTop]
    exact (Filter.eventually_all_finite (List.finite_toSet _)).2 fun called hc =>
      Filter.eventually_atTop.2 (h called hc)
  obtain ⟨depth, hdepth⟩ := hall
  refine ⟨depth + 1, fun levels hlevels wider hw => ?_⟩
  obtain ⟨more, rfl⟩ := Nat.exists_eq_add_of_le' (Nat.lt_of_lt_of_le depth.succ_pos hlevels)
  rw [run_succ]
  exact level_congr hw fun called hc =>
    hdepth more (Nat.le_of_succ_le_succ hlevels) called hc wider hw

/-- With calls that end, some levels are enough. -/
theorem exists_comesTo
    (hcalls : WellFounded fun called caller => called ∈ calls direction registry caller)
    (limits : CodecLimits) (caller : UInt16 × σ) :
    ∃ walk, ComesTo direction registry limits caller.1 caller.2 walk := by
  induction caller using hcalls.induction with
  | _ caller ih =>
    have : Nonempty (Walk τ) := ⟨fail (.missingPlan caller.1)⟩
    choose! walk hwalk using ih
    let convert (opcode : UInt16) (source : σ) : Walk τ := walk (opcode, source)
    exact ⟨level direction registry limits convert caller.1 caller.2, .level hwalk⟩

/-- With calls that end there is one walk that goes through each level by going through its
calls, and it is what enough levels come to. -/
theorem exists_whole
    (hcalls : WellFounded fun called caller => called ∈ calls direction registry caller)
    (limits : CodecLimits) : ∃ walk : UInt16 → σ → Walk τ,
      (∀ other, other = level direction registry limits other ↔ other = walk) ∧
      ∀ opcode source, ComesTo direction registry limits opcode source (walk opcode source) := by
  choose made hmade using exists_comesTo hcalls limits
  let walk (opcode : UInt16) (source : σ) : Walk τ := made (opcode, source)
  have hlevel : walk = level direction registry limits walk := by
    funext opcode source
    exact (hmade (opcode, source)).unique (.level fun called _ => hmade called)
  refine ⟨walk, fun other => ⟨fun hother => ?_, fun hother => hother ▸ hlevel⟩,
    fun opcode source => hmade (opcode, source)⟩
  have hsame : ∀ caller : UInt16 × σ, other caller.1 caller.2 = walk caller.1 caller.2 := by
    intro caller
    induction caller using hcalls.induction with
    | _ caller ih =>
      rw [hother, hlevel]
      exact level_congr rfl ih
  exact funext fun opcode => funext fun source => hsame (opcode, source)

end Walk

/-! ## Both directions -/

/-- A layout of one opcode contains that of another one by value. -/
def Registry.Embeds (registry : Registry) (outer inner : UInt16) : Prop :=
  ∃ layout embedded, registry.layout? outer = some layout ∧
    registry.layout? inner = some embedded ∧
    Layout.Contains registry.layouts.layouts layout.id embedded.id

/-- What a walk goes on from is inside the source, at some depth, or a blank source in
place of an embedded one. -/
inductive Walk.Descends (direction : Direction σ τ) (registry : Registry) (parts : σ → List σ)
    (opcode : UInt16) (source : σ) (entry : Plan.Entry) (inner : UInt16) (part : σ) : Prop where
  | inside (smaller : Relation.TransGen (fun part source => part ∈ parts source) part source)
  | blank (nested : entry.action = .nested inner) (unset : direction.child? entry source = none)
      (made : direction.blank registry inner = some part) (embeds : registry.Embeds opcode inner)

/-- Walks in a direction end by themselves. Every call descends, inside the source or among
the embedded layouts, and neither goes on without end. So the calls end, and there is one
walk without a limit on levels, which all are that have levels enough. -/
structure Walk.Terminates (direction : Direction σ τ) (registry : Registry)
    (parts : σ → List σ) : Prop where
  parts_end : WellFounded fun part source => part ∈ parts source
  embeds_end : WellFounded fun inner outer => registry.Embeds outer inner
  descends : ∀ {opcode plan entry inner source part}, registry.plan? opcode = some plan →
    entry ∈ plan.bound → entry.action.inner? = some inner →
    part ∈ entry.inside direction registry source →
    Descends direction registry parts opcode source entry inner part
  calls_end : WellFounded fun called caller => called ∈ calls direction registry caller
  whole : ∀ limits : CodecLimits, ∃ walk : UInt16 → σ → Walk τ,
    (∀ other, other = level direction registry limits other ↔ other = walk) ∧
    ∀ opcode source, ComesTo direction registry limits opcode source (walk opcode source)

namespace Registry.Sound

variable {registry : Registry} {opcode inner : UInt16} {layout : Layout} {schema : Schema}
  {plan : Plan}

theorem wellFounded_embeds (h : registry.Sound) :
    WellFounded fun inner outer => registry.Embeds outer inner := by
  let name (opcode : UInt16) : LayoutId := ((registry.layout? opcode).map (·.id)).getD ""
  refine Subrelation.wf (fun {inner outer} hembeds => ?_)
    (InvImage.wf name h.layouts.wellFounded_contains)
  obtain ⟨layout, embedded, hl, he, hc⟩ := hembeds
  simpa [InvImage, name, hl, he] using hc

theorem embeds_of_nested (h : registry.Sound) (hb : registry.Binding opcode layout schema plan)
    {entry : Plan.Entry} (he : entry ∈ plan.bound) (ha : entry.action = .nested inner) :
    registry.Embeds opcode inner := by
  obtain ⟨inside, _, _, hinner, hcontains⟩ := hb.exists_embedded h he ha
  exact ⟨layout, inside, hb.layout?_eq h, hinner.layout?_eq h, hcontains⟩

theorem binding_of_plan? (h : registry.Sound) (hp : registry.plan? opcode = some plan) :
    ∃ layout schema, registry.Binding opcode layout schema plan := by
  obtain ⟨row, hrow, rfl⟩ := Option.map_eq_some_iff.1 hp
  exact h.binding_of_row? hrow

end Registry.Sound

namespace Walk

variable {registry : Registry} {opcode : UInt16} {entry : Plan.Entry}

/-- Calls that descend come to an end, when those of blank sources do. -/
theorem Terminates.of_descends {direction : Direction σ τ} {parts : σ → List σ}
    (h : registry.Sound) (hparts : WellFounded fun part source => part ∈ parts source)
    (hdescends : ∀ {opcode layout schema plan entry inner source part},
      registry.Binding opcode layout schema plan → entry ∈ plan.bound →
      entry.action.inner? = some inner → part ∈ entry.inside direction registry source →
      Descends direction registry parts opcode source entry inner part)
    (hblank : ∀ {opcode source}, direction.blank registry opcode = some source →
      Acc (fun called caller => called ∈ calls direction registry caller) (opcode, source)) :
    Terminates direction registry parts := by
  have hall : ∀ {opcode plan entry inner source part}, registry.plan? opcode = some plan →
      entry ∈ plan.bound → entry.action.inner? = some inner →
      part ∈ entry.inside direction registry source →
      Descends direction registry parts opcode source entry inner part := by
    intro opcode plan entry inner source part hp he ha hpart
    obtain ⟨layout, schema, hb⟩ := h.binding_of_plan? hp
    exact hdescends hb he ha hpart
  have hcalls : WellFounded fun called caller => called ∈ calls direction registry caller := by
    refine wellFounded_calls hparts (fun hcall => ?_) hblank
    obtain ⟨plan, hp, entry, he, ha, hpart⟩ := mem_calls.1 hcall
    cases hall hp he ha hpart with
    | inside smaller => exact .inl smaller
    | blank _ _ made _ => exact .inr made
  exact ⟨hparts, h.wellFounded_embeds, hall, hcalls, exists_whole hcalls⟩

/-- Blank messages call for blank ones only, in place of embedded records. -/
theorem acc_calls_blank (h : registry.Sound) {blank : Message}
    (hblank : registry.message? opcode = some blank) :
    Acc (fun called caller => called ∈ calls .toRecord registry caller) (opcode, blank) := by
  induction opcode using h.wellFounded_embeds.induction generalizing blank with
  | _ opcode ih =>
    refine .intro _ fun (inner, part) hcall => ?_
    obtain ⟨plan, hp, entry, he, ha, hpart⟩ := mem_calls.1 hcall
    obtain ⟨layout, schema, hb⟩ := h.binding_of_plan? hp
    cases (hb.message?_eq h).symm.trans hblank
    rcases Plan.Entry.mem_inside_toRecord hpart with hin | ⟨_, hact, -, hmade⟩
    · rw [Message.inner_blank] at hin
      cases hin
    · rw [hact] at ha
      cases ha
      exact ih inner (h.embeds_of_nested hb he hact) hmade

/-- What a record goes on from is a part of the slot, or blank in place of a record that
the slot does not hold. -/
theorem mem_inside_toMessage {record part : Record}
    (hpart : part ∈ entry.inside .toMessage registry record) :
    (∃ slot, record.slot? entry.recordIndex = some slot ∧ part ∈ slot.parts) ∨
      ∃ inner, entry.action = .nested inner ∧
        Direction.toMessage.child? entry record = none ∧ registry.record? inner = some part := by
  let Held (part : Record) : Prop :=
    ∃ slot, record.slot? entry.recordIndex = some slot ∧ part ∈ slot.parts
  have hchild : ∀ child, Direction.toMessage.child? entry record = some child → Held child := by
    intro child hc
    simp only [Direction.toMessage] at hc
    split at hc
    · next found hs =>
      cases hc
      exact ⟨_, hs, List.mem_singleton.2 rfl⟩
    · cases hc
  have helements : ∀ target, ∀ element ∈ Direction.toMessage.elements entry target record,
      Held element := by
    intro target element he
    simp only [Direction.toMessage] at he
    split at he
    · next elements hs => exact ⟨_, hs, he⟩
    · cases he
  have hnodes : ∀ target, ∀ node ∈ Direction.toMessage.nodes entry target record, Held node := by
    intro target node hn
    simp only [Direction.toMessage, Record.list?] at hn
    split at hn
    · next head hs => exact ⟨_, hs, hn⟩
    · cases hn
  exact Plan.Entry.mem_inside hpart hchild helements hnodes

/-- Records of their opcode call for such records only, inside them. -/
theorem acc_calls_of (h : registry.Sound) {record : Record} (hrecord : record.Of registry opcode) :
    Acc (fun called caller => called ∈ calls .toMessage registry caller) (opcode, record) := by
  induction record using Record.wellFounded_inner.transGen.induction generalizing opcode with
  | _ record ih =>
    obtain ⟨schema, plan, hb⟩ := hrecord.binding h
    refine .intro _ fun (inner, part) hcall => ?_
    obtain ⟨_, hp, entry, he, ha, hpart⟩ := mem_calls.1 hcall
    cases (hb.plan?_eq h).symm.trans hp
    rcases mem_inside_toMessage hpart with ⟨slot, hs, hin⟩ | ⟨_, hact, hunset, -⟩
    · exact ih part (Record.transGen_of_mem_parts hs hin)
        (of_mem_parts h hb hrecord.2 he hs ha part hin)
    · -- the slot of an embedded record holds one
      obtain ⟨field, found, hentry⟩ := hb.entry_sound he
      obtain ⟨id, carrier, hk, -⟩ := hentry.nested hact
      obtain ⟨slot, hs, hsuits⟩ := hrecord.2.exists_slot hentry.record
      obtain ⟨child, rfl, -⟩ := Slot.fits_nested_iff.1 (hk ▸ hsuits.fits)
      simp [Direction.toMessage, hs] at hunset

theorem terminates_toRecord (h : registry.Sound) :
    Terminates .toRecord registry Message.inner := by
  refine .of_descends h ?_ (fun hb he ha hpart => ?_) (acc_calls_blank h)
  · exact Subrelation.wf (fun {inner outer} hin => Message.nesting_lt_of_mem_inner hin)
      (measure Message.nesting).wf
  · rcases Plan.Entry.mem_inside_toRecord hpart with hin | ⟨_, hact, hunset, hmade⟩
    · exact .inside (.single hin)
    · cases hact ▸ ha
      exact .blank hact hunset hmade (h.embeds_of_nested hb he hact)

theorem terminates_toMessage (h : registry.Sound) :
    Terminates .toMessage registry Record.inner := by
  refine .of_descends h Record.wellFounded_inner (fun hb he ha hpart => ?_) fun hblank => ?_
  · rcases mem_inside_toMessage hpart with ⟨slot, hs, hin⟩ | ⟨_, hact, hunset, hmade⟩
    · exact .inside (Record.transGen_of_mem_parts hs hin)
    · cases hact ▸ ha
      exact .blank hact hunset hmade (h.embeds_of_nested hb he hact)
  · obtain ⟨descriptor, hd, -⟩ := Option.bind_eq_some_iff.1 hblank
    obtain ⟨row, hrow, -⟩ := Option.map_eq_some_iff.1 hd
    obtain ⟨layout, schema, hb⟩ := h.binding_of_row? hrow
    obtain ⟨zero, hzero, hof⟩ := (Direction.writes_toRecord h).fresh hb
    cases hzero.symm.trans hblank
    exact acc_calls_of h hof

end Walk

namespace Codec

/-- Walks end without a limit on levels, in both directions. With as many levels as a message
nests and layouts together, and with any more, it is converted to one and the same record. -/
theorem converts_unlimited {layouts : List Layout} {schemas : List Schema}
    {descriptors : List Descriptor} {registry : Registry}
    (hreg : Registry.ofLists layouts schemas descriptors = .ok registry) :
    Walk.Terminates .toRecord registry Message.inner ∧
    Walk.Terminates .toMessage registry Record.inner ∧
    ∀ opcode, (registry.descriptor? opcode).isSome → ∀ message : Message,
      ∃ decoded reports, ∀ codec : Codec, codec.registry = registry →
        message.nesting + registry.layouts.layouts.length ≤ codec.limits.maxDepth →
        codec.fromMessage opcode message = ⟨.ok (some decoded), reports, []⟩ := by
  have h := Registry.sound_of_ofLists hreg
  refine ⟨Walk.terminates_toRecord h, Walk.terminates_toMessage h, fun opcode hd message => ?_⟩
  obtain ⟨descriptor, hd⟩ := Option.isSome_iff_exists.1 hd
  obtain ⟨row, hrow, -⟩ := Option.map_eq_some_iff.1 hd
  obtain ⟨layout, schema, hb⟩ := h.binding_of_row? hrow
  have hrun : ∀ (limits : CodecLimits) (levels : Nat),
      message.nesting + registry.layouts.layouts.length < levels → ∃ reports made,
        Walk.run .toRecord registry limits levels opcode message = ⟨reports, .ok made⟩ := by
    intro limits levels hlevels
    have hsucceeds : (Walk.run .toRecord registry limits levels opcode message).Succeeds :=
      Walk.succeeds_run_message h levels hb hlevels
    obtain ⟨made, hmade⟩ := hsucceeds
    exact ⟨_, made, by rw [← hmade]⟩
  obtain ⟨reports, made, hmade⟩ := hrun .default _ (Nat.lt_succ_self _)
  refine ⟨⟨made, row.plan.occupied⟩, reports, ?_⟩
  rintro codec rfl hdepth
  obtain ⟨others, other, hother⟩ := hrun codec.limits _ (Nat.lt_succ_of_le hdepth)
  obtain ⟨rfl, rfl⟩ := Walk.run_eq_of_ok hmade hother
  rw [fromMessage_eq (hb.plan?_eq h), hother]
  rfl

end Codec

/-! ### Menus -/

/-- A menu has a list of items, and an item embeds a menu: layouts that recur through a list. -/
def menuLayouts : List Layout :=
  [⟨"menu", [⟨"width", .int 2 false⟩, ⟨"items", .list "item"⟩]⟩,
    ⟨"item", [⟨"submenu", .nested "menu"⟩, ⟨"next", .list "item"⟩]⟩]

def menuSchemas : List Schema :=
  [⟨"Menu", [⟨"width", 1, .int32⟩, ⟨"items", 2, .repeated "Item"⟩]⟩,
    ⟨"Item", [⟨"submenu", 1, .message "Menu"⟩]⟩]

def menuDescriptors : List Descriptor := [⟨2, "item", "Item", none⟩, ⟨1, "menu", "Menu", none⟩]

def menuRegistry : Registry where
  layouts := ⟨menuLayouts, menuLayouts.reverse, [("item", 18), ("menu", 10)], by decide⟩
  schemas := ⟨menuSchemas⟩
  rows :=
    [⟨⟨1, "menu", "Menu", none⟩, ⟨[.bind ⟨0, 0, .scalar (.int 2 false), 2⟩,
        .bind ⟨1, 1, .list 2 1, 8⟩]⟩⟩,
      ⟨⟨2, "item", "Item", none⟩, ⟨[.bind ⟨0, 0, .nested 1, 10⟩]⟩⟩]

/-- A menu of two items; of these the first has no submenu, and the second has one. -/
def menuMessage : Message :=
  let menu (width : Int32) (items : List Message) : Message :=
    .mk ⟨"Menu", [⟨"width", 1, .int32⟩, ⟨"items", 2, .repeated "Item"⟩]⟩
      [some (.int32 width), some (.list items)]
  let item (submenu : Option Message) : Message :=
    .mk ⟨"Item", [⟨"submenu", 1, .message "Menu"⟩]⟩ [submenu.map .message]
  menu 80 [item none, item (some (menu 40 [item none]))]

/-- Blank menus are walked below the items without one, in a menu on four levels. -/
theorem Codec.converts_unlimited_menu :
    Registry.ofLists menuLayouts menuSchemas menuDescriptors = .ok menuRegistry ∧
      Walk.Terminates .toRecord menuRegistry Message.inner ∧
      Walk.Terminates .toMessage menuRegistry Record.inner ∧
      ∃ decoded reports,
        (⟨menuRegistry, ⟨0, 5⟩, 0⟩ : Codec).fromMessage 1 menuMessage =
          ⟨.ok (some decoded), reports, []⟩ ∧
        (⟨menuRegistry, .none, 0⟩ : Codec).fromMessage 1 menuMessage =
          ⟨.ok (some decoded), reports, []⟩ ∧
        (⟨menuRegistry, ⟨0, 3⟩, 0⟩ : Codec).fromMessage 1 menuMessage =
          ⟨.error (.depthExceeded 1 3), [], []⟩ := by
  have hreg : Registry.ofLists menuLayouts menuSchemas menuDescriptors = .ok menuRegistry := by cbv
  obtain ⟨hrecord, hmessage, hconverts⟩ := Codec.converts_unlimited hreg
  obtain ⟨decoded, reports, hall⟩ := hconverts 1 rfl menuMessage
  have hneeded : menuMessage.nesting + menuRegistry.layouts.layouts.length = 5 := by decide
  refine ⟨hreg, hrecord, hmessage, decoded, reports, hall _ rfl hneeded.le, hall _ rfl ?_, rfl⟩
  rw [hneeded]
  cbv

end RecordBridge

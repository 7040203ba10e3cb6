import RecordBridge.Proofs.Codec.Padding
import RecordBridge.Proofs.Layout.Containment
/-!
# Enough levels

A message is converted to a record whenever there are more levels than it nests and
layouts together (`Walk.succeeds_run_message`). One level further in, a walk goes on
from a message that nests less deep, or from a blank one in place of a record that is
embedded by value; and no layout contains itself by value, so blank messages go on for
no more levels than there are layouts (`Walk.succeeds_run_blank`).
-/
namespace RecordBridge

/-- The sources that an entry goes on from: the one inside the field or a blank one in its
place, the elements that there is room for, or the nodes. -/
def Plan.Entry.inside (direction : Direction σ τ) (registry : Registry) (entry : Plan.Entry)
    (source : σ) : List σ :=
  match entry.action with
  | .scalar _ => []
  | .nested inner => ((direction.child? entry source).or (direction.blank registry inner)).toList
  | .array _ count target => (direction.elements entry target source).take count
  | .list _ target => direction.nodes entry target source

section
variable {σ τ : Type} {direction : Direction σ τ} {registry : Registry} {entry : Plan.Entry}
  {source part : σ}

/-- What an entry goes on from is held by the source, or blank where a record is embedded
and nothing is held. -/
theorem Plan.Entry.mem_inside {Held : σ → Prop} (h : part ∈ entry.inside direction registry source)
    (hchild : ∀ child, direction.child? entry source = some child → Held child)
    (helements : ∀ target, ∀ element ∈ direction.elements entry target source, Held element)
    (hnodes : ∀ target, ∀ node ∈ direction.nodes entry target source, Held node) :
    Held part ∨ ∃ inner, entry.action = .nested inner ∧
      direction.child? entry source = none ∧ direction.blank registry inner = some part := by
  unfold inside at h
  cases ha : entry.action with
  | scalar coercion =>
    rw [ha] at h
    cases h
  | nested inner =>
    rw [ha] at h
    dsimp only at h
    cases hc : direction.child? entry source with
    | some child =>
      rw [hc] at h
      cases List.mem_singleton.1 h
      exact .inl (hchild _ hc)
    | none =>
      rw [hc] at h
      exact .inr ⟨inner, rfl, rfl, Option.mem_toList.1 h⟩
  | array inner count target =>
    rw [ha] at h
    exact .inl (helements target part (List.mem_of_mem_take h))
  | list inner target =>
    rw [ha] at h
    exact .inl (hnodes target part h)

end

/-- What a message goes on from is inside it, or blank in place of an embedded one. -/
theorem Plan.Entry.mem_inside_toRecord {registry : Registry} {entry : Plan.Entry}
    {message source : Message} (h : source ∈ entry.inside .toRecord registry message) :
    source ∈ message.inner ∨ ∃ inner, entry.action = .nested inner ∧
      message.messageAt? entry.messageIndex = none ∧ registry.message? inner = some source := by
  refine mem_inside h (fun child hc => ?_) (fun _ _ => Message.mem_inner_of_mem_elementsAt)
    fun _ _ => Message.mem_inner_of_mem_elementsAt
  have hheld := Message.value?_eq_some.1 (Message.messageAt?_eq_some.1 hc)
  exact Message.mem_inner.2 ⟨_, List.mem_of_getElem? hheld, List.mem_singleton.2 rfl⟩

theorem Plan.Entry.sources_eq_inside (registry : Registry) (entry : Plan.Entry)
    (message : Message) :
    entry.sources registry message = entry.inside .toRecord registry message := by
  unfold sources inside
  cases entry.action <;> rfl

/-- A record that is embedded in a field of an opcode has a layout that the layout of the
opcode contains. -/
theorem Registry.Binding.exists_embedded {registry : Registry} {opcode inner : UInt16}
    {layout : Layout} {schema : Schema} {plan : Plan} {entry : Plan.Entry}
    (hb : registry.Binding opcode layout schema plan) (h : registry.Sound)
    (he : entry ∈ plan.bound) (ha : entry.action = .nested inner) :
    ∃ inside schema plan, registry.Binding inner inside schema plan ∧
      Layout.Contains registry.layouts.layouts layout.id inside.id := by
  obtain ⟨field, found, hentry⟩ := hb.entry_sound he
  obtain ⟨id, carrier, hk, hc, rfl, -⟩ := hentry.nested ha
  obtain ⟨inside, schema, plan, hinner, rfl, -⟩ := h.binding_of_carrier? hc
  exact ⟨inside, schema, plan, hinner, layout, hb.layout_mem, rfl, found,
    List.mem_of_getElem? hentry.record, .inl hk⟩

namespace Walk

variable {registry : Registry} {limits : CodecLimits} {opcode inner : UInt16} {layout : Layout}
  {schema : Schema} {plan : Plan} {entry : Plan.Entry} {message : Message}

/-! ## One level -/

/-- One entry: the step succeeds if what it goes on from is converted. -/
theorem succeeds_carry_of_sources (h : registry.Sound)
    (hb : registry.Binding opcode layout schema plan) {levels : Nat} (he : entry ∈ plan.bound)
    (hsources : ∀ inner, entry.action.inner? = some inner →
      ∀ source ∈ entry.sources registry message,
        (run .toRecord registry limits levels inner source).Succeeds)
    {output : Record} (ho : output.Of registry opcode) :
    (carry .toRecord registry limits (run .toRecord registry limits levels) opcode message entry
      output).Succeeds := by
  have hw := Direction.writes_toRecord h
  cases ha : entry.action with
  | scalar coercion =>
    rw [carry_scalar ha]
    exact succeeds_ofExcept (hw.scalar hb he ha ho message)
  | nested inner =>
    have hi : entry.action.inner? = some inner := by rw [ha]; rfl
    obtain ⟨_, _, _, hinner⟩ := hb.inner_binding h he hi
    obtain ⟨child, hchild⟩ : ∃ child, Walk.child .toRecord registry inner entry message =
        pure child := by
      unfold Walk.child
      cases Direction.toRecord.child? entry message with
      | some child => exact ⟨child, rfl⟩
      | none => exact ⟨_, by rw [show Direction.toRecord.blank registry inner = _ from
          hinner.message?_eq h]; rfl⟩
    have hmade := hsources inner hi child (by rw [sources_of_child ha hchild]; simp)
    rw [carry_nested ha, hchild, pure_bind_eq]
    exact (succeeds_bind_iff (run_ends h hw levels hinner child) fun made hm =>
      succeeds_ofExcept (hw.putChild hb he ha hm ho)).2 hmade
  | array inner count target =>
    have hi : entry.action.inner? = some inner := by rw [ha]; rfl
    obtain ⟨_, _, _, hinner⟩ := hb.inner_binding h he hi
    obtain ⟨zero, hzero, hof⟩ := hw.fresh hinner
    have hmade := hsources inner hi
    rw [Plan.Entry.sources, ha] at hmade
    have hlength := List.length_take_le count (message.elementsAt target)
    have hrest : (each (run .toRecord registry limits levels inner)
        ((message.elementsAt target).take count) >>= fun made =>
          padding .toRecord registry inner (count - made.length) >>= fun more =>
            ofExcept (Direction.toRecord.putElements entry target (made ++ more)
              output)).Succeeds := by
      refine (succeeds_bind_iff (ends_each fun item _ => run_ends h hw levels hinner item)
        fun made hm => ?_).2 (succeeds_each_iff.2 hmade)
      rw [padding_eq hzero, pure_bind_eq]
      refine succeeds_ofExcept (hw.putElements hb he ha ?_ (fun element helement => ?_) ho)
      · rw [List.length_append, List.length_replicate]
        omega
      · rcases List.mem_append.1 helement with helement | helement
        · exact hm.2 element helement
        · exact (List.mem_replicate.1 helement).2 ▸ hof
    rw [carry_array ha]
    refine (succeeds_bind_iff (P := fun _ => True) (E := fun _ => True) ?_ fun _ _ => hrest).2 ?_
    · split <;> trivial
    · split <;> exact ⟨(), rfl⟩
  | list inner target =>
    have hi : entry.action.inner? = some inner := by rw [ha]; rfl
    obtain ⟨_, _, _, hinner⟩ := hb.inner_binding h he hi
    have hmade := hsources inner hi
    rw [Plan.Entry.sources, ha] at hmade
    rw [carry_list ha, if_neg (by simp [Direction.toRecord])]
    exact (succeeds_bind_iff (ends_each fun item _ => run_ends h hw levels hinner item)
      fun made hm => succeeds_ofExcept (hw.putNodes hb he ha hm.2 ho)).2 (succeeds_each_iff.2 hmade)

/-! ## Every level -/

/-- With a level left, a message is converted if everything is that its walk goes on from. -/
theorem succeeds_run_of_sources (h : registry.Sound)
    (hb : registry.Binding opcode layout schema plan) {levels : Nat}
    (hsources : ∀ entry ∈ plan.bound, ∀ inner, entry.action.inner? = some inner →
      ∀ source ∈ entry.sources registry message,
        (run .toRecord registry limits levels inner source).Succeeds) :
    (run .toRecord registry limits (levels + 1) opcode message).Succeeds := by
  have hw := Direction.writes_toRecord h
  obtain ⟨output, hfresh, ho⟩ := hw.fresh hb
  rw [succeeds_run_iff_fault hfresh, fill_succ levels message output (hb.plan?_eq h)]
  refine (fillItems_fault_iff (E := CodecError.IsLimit false) (Q := fun _ => True)
    (fun entry hm output ho => ?_) ho).2 fun _ _ => trivial
  have he := Plan.mem_bound.2 hm
  refine ⟨?_, iff_of_true (succeeds_carry_of_sources h hb he (hsources entry he) ho) trivial⟩
  exact carry_ends h hw hb (fun hinner source => run_ends h hw levels hinner source) message he ho

/-- Blank messages go on for as many levels as layouts are left: what is embedded by value
in a layout is not that layout again. -/
theorem succeeds_run_blank (h : registry.Sound) : ∀ (levels : Nat) (left : List Layout)
    {opcode : UInt16} {layout : Layout} {schema : Schema} {plan : Plan},
    registry.Binding opcode layout schema plan →
    (∀ other ∈ registry.layouts.layouts,
      Relation.ReflTransGen (Layout.Contains registry.layouts.layouts) layout.id other.id →
      other ∈ left) → left.length ≤ levels →
    (run .toRecord registry limits levels opcode (.blank schema)).Succeeds
  | 0, left, opcode, layout, schema, plan, hb, hleft, hlevels => by
    have := List.length_pos_of_mem (hleft layout hb.layout_mem .refl)
    omega
  | levels + 1, left, opcode, layout, schema, plan, hb, hleft, hlevels => by
    refine succeeds_run_of_sources h hb fun entry he inner hi source hs => ?_
    rw [Plan.Entry.sources_eq_inside] at hs
    rcases Plan.Entry.mem_inside_toRecord hs with hin | ⟨_, ha, -, hblank⟩
    · rw [Message.inner_blank] at hin
      cases hin
    · rw [ha] at hi
      cases hi
      obtain ⟨inside, _, _, hinner, hcontains⟩ := hb.exists_embedded h he ha
      cases (hinner.message?_eq h).symm.trans hblank
      refine succeeds_run_blank h levels (left.erase layout) hinner ?_ ?_
      · intro other ho hdeeper
        refine (List.mem_erase_of_ne ?_).2 (hleft other ho (.head hcontains hdeeper))
        rintro rfl
        exact h.layouts.not_contains_self _ (.head' hcontains hdeeper)
      · rw [List.length_erase_of_mem (hleft layout hb.layout_mem .refl)]
        omega

/-- A message is converted when there are more levels than it nests and layouts together. -/
theorem succeeds_run_message (h : registry.Sound) : ∀ (levels : Nat) {opcode : UInt16}
    {layout : Layout} {schema : Schema} {plan : Plan} {message : Message},
    registry.Binding opcode layout schema plan →
    message.nesting + registry.layouts.layouts.length < levels →
    (run .toRecord registry limits levels opcode message).Succeeds
  | levels + 1, opcode, layout, schema, plan, message, hb, hlevels => by
    refine succeeds_run_of_sources h hb fun entry he inner hi source hs => ?_
    obtain ⟨_, _, _, hinner⟩ := hb.inner_binding h he hi
    rw [Plan.Entry.sources_eq_inside] at hs
    rcases Plan.Entry.mem_inside_toRecord hs with hin | ⟨_, ha, -, hblank⟩
    · have := Message.nesting_lt_of_mem_inner hin
      exact succeeds_run_message h levels hinner (by omega)
    · rw [ha] at hi
      cases hi
      cases (hinner.message?_eq h).symm.trans hblank
      exact succeeds_run_blank h levels registry.layouts.layouts hinner (fun other ho _ => ho)
        (by omega)

end Walk

end RecordBridge

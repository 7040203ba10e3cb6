import RecordBridge.Proofs.Record.Lists
/-!
# What holds of every slot

`Record.AllSlots P` says that `P` holds of every slot of a record, and of those
of the records inside it. Zero records have it when zero slots do
(`allSlots_zero`), and putting a slot keeps it (`AllSlots.put`). The nodes of a
list have it when the head does (`AllSlots.mem_nodes`).

A layout has one zero record (`zero_eq`), so the slots of the zero records of a
set are zero slots, with zero records of the set inside (`slot?_allocate`).
-/
namespace RecordBridge.Record

theorem slot?_put_of_ne {record : Record} {index other : Nat} (h : index ≠ other) (slot : Slot) :
    (record.put index slot).slot? other = record.slot? other :=
  List.getElem?_set_ne h

theorem eq_of_slot?_put {record : Record} {index : Nat} {slot held : Slot}
    (h : (record.put index slot).slot? index = some held) : slot = held := by
  have hheld : (record.slots.set index slot)[index]? = some held := h
  rw [List.getElem?_set, if_pos rfl] at hheld
  split at hheld
  · exact Option.some.inj hheld
  · cases hheld

/-- A property of the slots of a record, down to the innermost. -/
inductive AllSlots (P : Slot → Prop) : Record → Prop where
  | intro {record : Record} (here : ∀ slot ∈ record.slots, P slot)
      (inside : ∀ inner ∈ record.inner, AllSlots P inner) : AllSlots P record

variable {P : Slot → Prop} {record : Record}

namespace AllSlots

theorem here (h : record.AllSlots P) : ∀ slot ∈ record.slots, P slot := by
  cases h; assumption

theorem inside (h : record.AllSlots P) : ∀ inner ∈ record.inner, inner.AllSlots P := by
  cases h; assumption

theorem of_slot? (h : record.AllSlots P) {index : Nat} {slot : Slot}
    (hs : record.slot? index = some slot) : P slot :=
  h.here slot (List.mem_of_getElem? hs)

theorem slot?_inside (h : record.AllSlots P) {index : Nat} {slot : Slot}
    (hs : record.slot? index = some slot) : ∀ inner ∈ slot.inner, inner.AllSlots P :=
  fun _ hi => h.inside _ (mem_inner.2 ⟨slot, List.mem_of_getElem? hs, hi⟩)

theorem put (h : record.AllSlots P) {index : Nat} {slot : Slot} (hslot : P slot)
    (hin : ∀ inner ∈ slot.inner, inner.AllSlots P) : (record.put index slot).AllSlots P := by
  refine .intro (fun other ho => ?_) fun inner hi => ?_
  · rcases List.mem_or_eq_of_mem_set ho with ho | rfl
    · exact h.here other ho
    · exact hslot
  · obtain ⟨other, ho, hmem⟩ := mem_inner.1 hi
    rcases List.mem_or_eq_of_mem_set ho with ho | rfl
    · exact h.inside inner (mem_inner.2 ⟨other, ho, hmem⟩)
    · exact hin inner hmem

theorem mem_nodes (h : record.AllSlots P) : ∀ node ∈ record.nodes, node.AllSlots P := by
  induction h with
  | @intro record here inside ih =>
    rw [nodes_eq]
    refine List.forall_mem_cons.2 ⟨.intro here inside, fun node hn => ?_⟩
    cases hnext : record.next? with
    | none => simp [hnext] at hn
    | some head =>
      rw [hnext] at hn
      have hin : head ∈ record.inner :=
        mem_inner.2 ⟨_, link_mem_slots hnext, by simp [Slot.inner]⟩
      exact ih head hin node hn

theorem linkUp (hlink : ∀ head, P (.link head)) : ∀ {nodes : List Record},
    (∀ node ∈ nodes, node.AllSlots P) → ∀ {head : Record}, linkUp nodes = some head →
    head.AllSlots P
  | node :: rest, h, head, hhead => by
    obtain ⟨hnode, hrest⟩ := List.forall_mem_cons.1 h
    cases hhead
    refine hnode.put (hlink _) fun inner hi => ?_
    rw [Slot.inner, Option.mem_toList] at hi
    exact linkUp hlink hrest hi

end AllSlots

/-! ## Zero records -/

/-- Zero slots and what is in them have what all zero slots have. -/
theorem allSlots_zero_slot {zero : LayoutId → Except LayoutError Record}
    (hzero : ∀ id inner, zero id = .ok inner → inner.AllSlots P) {kind : FieldKind} {slot : Slot}
    (h : Slot.zero zero kind = .ok slot) : ∀ inner ∈ slot.inner, inner.AllSlots P := by
  cases kind with
  | nested id =>
    obtain ⟨inner, hi, h⟩ := bind_eq_ok.1 h
    cases h
    exact List.forall_mem_singleton.2 (hzero id inner hi)
  | array id count =>
    obtain ⟨inner, hi, h⟩ := bind_eq_ok.1 h
    cases h
    intro element he
    rw [(List.mem_replicate.1 he).2]
    exact hzero id inner hi
  | textRows count length =>
    obtain ⟨size, -, h⟩ := bind_eq_ok.1 h
    cases h
    exact nofun
  | _ => cases h; exact nofun

/-- A property of all zero slots is one of zero records, down to the innermost. -/
theorem allSlots_zero (hslot : ∀ zero kind slot, Slot.zero zero kind = .ok slot → P slot) :
    ∀ (ranked : List Layout) (id : LayoutId) (record : Record), zero ranked id = .ok record →
      record.AllSlots P
  | [], id, record, h => by cases h
  | layout :: rest, id, record, h => by
    rw [zero] at h
    split at h
    · obtain ⟨slots, hs, h⟩ := bind_eq_ok.1 h
      cases h
      obtain ⟨hlen, hall⟩ := mapM_eq_ok.1 hs
      have hmade : ∀ slot ∈ slots, ∃ kind, Slot.zero (zero rest) kind = .ok slot := by
        intro slot hm
        obtain ⟨index, hi⟩ := List.mem_iff_getElem?.1 hm
        have hlt : index < layout.fields.length := hlen ▸ (List.getElem?_eq_some_iff.1 hi).1
        obtain ⟨slot', hi', hz⟩ := hall index _ (List.getElem?_eq_getElem hlt)
        rw [hi] at hi'
        cases hi'
        exact ⟨_, hz⟩
      refine .intro (fun slot hm => ?_) fun inner hi => ?_
      · obtain ⟨kind, hz⟩ := hmade slot hm
        exact hslot _ kind slot hz
      · obtain ⟨slot, hm, hi⟩ := mem_inner.1 hi
        obtain ⟨kind, hz⟩ := hmade slot hm
        exact allSlots_zero_slot (allSlots_zero hslot rest) hz inner hi
    · exact allSlots_zero hslot rest id record h

/-- The zero record of a layout is made at its rank. -/
theorem exists_of_zero : ∀ {ranked : List Layout} {id : LayoutId} {record : Record},
    zero ranked id = .ok record → ∃ layout rest slots, layout :: rest <:+ ranked ∧
      layout.id = id ∧ record = mk layout slots ∧
      layout.fields.mapM (fun field => Slot.zero (zero rest) field.kind) = .ok slots
  | layout :: rest, id, record, h => by
    rw [zero] at h
    split at h
    · next hid =>
      obtain ⟨slots, hslots, h⟩ := bind_eq_ok.1 h
      cases h
      exact ⟨layout, rest, slots, List.suffix_refl _, hid, rfl, hslots⟩
    · obtain ⟨found, more, slots, hsuffix, hfound⟩ := exists_of_zero h
      exact ⟨found, more, slots, hsuffix.trans (List.suffix_cons _ _), hfound⟩

theorem zero_slot_eq {first second : LayoutId → Except LayoutError Record}
    (hsame : ∀ id one other, first id = .ok one → second id = .ok other → one = other)
    {kind : FieldKind} {one other : Slot} (hone : Slot.zero first kind = .ok one)
    (hother : Slot.zero second kind = .ok other) : one = other := by
  cases kind with
  | nested id | array id count =>
    obtain ⟨inner, hi, hone⟩ := bind_eq_ok.1 hone
    obtain ⟨held, hh, hother⟩ := bind_eq_ok.1 hother
    cases hone
    cases hother
    rw [hsame id inner held hi hh]
  | _ => exact Except.ok.inj (hone.symm.trans hother)

/-- A layout of a set has one zero record, however far its ranks go. -/
theorem zero_eq {set : LayoutSet} (hset : set.Sound) : ∀ {ranked others : List Layout},
    (∀ layout ∈ ranked, layout ∈ set.layouts) → (∀ layout ∈ others, layout ∈ set.layouts) →
    ∀ {id : LayoutId} {one other : Record}, zero ranked id = .ok one →
    zero others id = .ok other → one = other
  | layout :: rest, others, hranked, hothers, id, one, other, hone, hother => by
    obtain ⟨hlayout, hrest⟩ := List.forall_mem_cons.1 hranked
    rw [zero] at hone
    split at hone
    · next hid =>
      obtain ⟨slots, hslots, hone⟩ := bind_eq_ok.1 hone
      cases hone
      obtain ⟨found, more, held, hsuffix, hfound, rfl, hheld⟩ := exists_of_zero hother
      have hall : ∀ layout ∈ found :: more, layout ∈ set.layouts :=
        fun layout hm => hothers layout (hsuffix.mem hm)
      obtain rfl := hset.eq_of_id_eq hlayout (hall found List.mem_cons_self) (hid.trans hfound.symm)
      obtain ⟨hlen, hat⟩ := mapM_eq_ok.1 hslots
      obtain ⟨hlen', hat'⟩ := mapM_eq_ok.1 hheld
      refine congrArg (mk layout) (List.ext_getElem? fun index => ?_)
      cases hf : layout.fields[index]? with
      | none =>
        rw [List.getElem?_eq_none_iff] at hf
        rw [List.getElem?_eq_none (by omega), List.getElem?_eq_none (by omega)]
      | some field =>
        obtain ⟨slot, hs, hz⟩ := hat index field hf
        obtain ⟨slot', hs', hz'⟩ := hat' index field hf
        rw [hs, hs', zero_slot_eq (fun id one other hone hother => zero_eq hset hrest
          (fun layout hm => hall layout (List.mem_cons_of_mem _ hm)) hone hother) hz hz']
    · exact zero_eq hset hrest hothers hone hother

/-- The slots of a zero record of a set are zero slots, with zero records of the
set inside. -/
theorem slot?_allocate {set : LayoutSet} (hset : set.Sound) {id : LayoutId} {record : Record}
    (h : set.allocate id = .ok record) {index : Nat} {field : Layout.Field}
    (hf : record.layout.fields[index]? = some field) :
    ∃ slot, record.slot? index = some slot ∧ Slot.zero set.allocate field.kind = .ok slot := by
  have hknown := (allocate_sound hset h).known
  obtain ⟨layout, rest, slots, hsuffix, rfl, rfl, hslots⟩ := exists_of_zero h
  have hrest : ∀ layout ∈ rest, layout ∈ set.layouts := fun other hm =>
    hset.mem_of_ranked other (hsuffix.mem (List.mem_cons_of_mem _ hm))
  have hkind := (hset.fields layout hknown).kinds field (List.mem_of_getElem? hf)
  have hinner : ∀ id, field.kind.embedded? = some id →
      ∃ record, set.allocate id = .ok record ∧ record.Sound set ∧ record.layoutId = id := by
    intro id he
    have hfound : (Layout.find? set.layouts id).isSome := by
      cases hk : field.kind with
      | nested inner => rw [hk] at he hkind; cases he; exact hkind
      | array inner count => rw [hk] at he hkind; cases he; exact hkind.1
      | _ => rw [hk] at he; cases he
    obtain ⟨inner, hmem, rfl⟩ := Layout.isSome_find?_iff.1 hfound
    obtain ⟨record, hr, hsound, hlayout⟩ := exists_allocate hset hmem
    exact ⟨record, hr, hsound, congrArg Layout.id hlayout⟩
  obtain ⟨zeroed, hzero, -⟩ := exists_zero_slot hkind
    (hset.rows layout hknown field (List.mem_of_getElem? hf)) hinner
  obtain ⟨slot, hs, hz⟩ := (mapM_eq_ok.1 hslots).2 index field hf
  obtain rfl := zero_slot_eq (fun id one other hone hother =>
    zero_eq hset hrest hset.mem_of_ranked hone hother) hz hzero
  exact ⟨slot, hs, hzero⟩

end RecordBridge.Record

import RecordBridge.Proofs.Record.Lists
/-!
# The records that a slot brings

The parts of a slot are the record, the elements or the nodes in it. Nodes of a list
are no parts of one another's slots, but all of them are smaller than the record that
holds the list (`sizeOf_lt_of_slot?`), and inside it at some depth
(`transGen_of_mem_parts`).
-/
namespace RecordBridge

/-- The records that a slot brings: one inside it, its elements or its nodes. -/
def Slot.parts : Slot → List Record
  | .record child => [child]
  | .array elements => elements
  | .link head => Record.nodesOf (.link head)
  | _ => []

/-- What the nodes of a list have when its head does, parts have when what is inside does. -/
theorem Slot.forall_parts {P : Record → Prop} {slot : Slot} (hinside : ∀ inner ∈ slot.inner, P inner)
    (hnodes : ∀ record, P record → ∀ node ∈ record.nodes, P node) : ∀ part ∈ slot.parts, P part := by
  cases slot with
  | record child => exact hinside
  | array elements => exact hinside
  | link head =>
    intro part hp
    cases head with
    | none => cases hp
    | some head => exact hnodes head (hinside head (List.mem_singleton.2 rfl)) part hp
  | _ => exact nofun

namespace Record

theorem Sound.mem_parts {set : LayoutSet} {record : Record} (h : record.Sound set) {index : Nat}
    {slot : Slot} (hs : record.slot? index = some slot) : ∀ part ∈ slot.parts, part.Sound set :=
  slot.forall_parts (h.slot?_inside hs) fun _ hrecord node hn => (hrecord.mem_nodes node hn).1

theorem sizeOf_lt_of_mem_slots {record : Record} {slot : Slot} (h : slot ∈ record.slots) :
    sizeOf slot < sizeOf record := by
  obtain ⟨layout, slots⟩ := record
  have := List.sizeOf_lt_of_mem h
  simp only [mk.sizeOf_spec, slots_mk] at this ⊢
  omega

/-- Every node of a list is part of the head. -/
theorem sizeOf_le_of_mem_nodes {record node : Record} (h : node ∈ record.nodes) :
    sizeOf node ≤ sizeOf record := by
  rw [nodes_eq] at h
  rcases List.mem_cons.1 h with rfl | h
  · exact Nat.le_refl _
  cases hn : record.next? with
  | none => simp [hn] at h
  | some head =>
    have hlt : sizeOf head < sizeOf record := by
      have := sizeOf_lt_of_mem_slots (link_mem_slots hn)
      simp only [Slot.link.sizeOf_spec, Option.some.sizeOf_spec] at this
      omega
    rw [hn] at h
    have := sizeOf_le_of_mem_nodes h
    omega
termination_by sizeOf record

theorem sizeOf_lt_of_mem_parts {part : Record} {slot : Slot} (h : part ∈ slot.parts) :
    sizeOf part < sizeOf slot := by
  cases slot with
  | record child =>
    rw [List.mem_singleton.1 h, Slot.record.sizeOf_spec]
    omega
  | array elements =>
    have hlt : sizeOf part < sizeOf elements := List.sizeOf_lt_of_mem h
    rw [Slot.array.sizeOf_spec]
    omega
  | link head =>
    cases head with
    | none => cases h
    | some head =>
      have := sizeOf_le_of_mem_nodes h
      simp only [Slot.link.sizeOf_spec, Option.some.sizeOf_spec]
      omega
  | _ => cases h

/-- The parts of a slot are smaller than the record. -/
theorem sizeOf_lt_of_slot? {record part : Record} {index : Nat} {slot : Slot}
    (hs : record.slot? index = some slot) (hp : part ∈ slot.parts) :
    sizeOf part < sizeOf record :=
  Nat.lt_trans (sizeOf_lt_of_mem_parts hp) (sizeOf_lt_of_mem_slots (List.mem_of_getElem? hs))

/-! ## Inside one another -/

theorem mem_parts_of_mem_inner {slot : Slot} {inner : Record} (h : inner ∈ slot.inner) :
    inner ∈ slot.parts := by
  cases slot with
  | link head =>
    cases head with
    | none => cases h
    | some head =>
      cases List.mem_singleton.1 h
      change inner ∈ inner.nodes
      rw [nodes_eq]
      exact List.mem_cons_self
  | _ => exact h

/-- Records are not inside one another without end. -/
theorem wellFounded_inner : WellFounded fun inner outer : Record => inner ∈ outer.inner := by
  refine Subrelation.wf (fun {inner outer} h => ?_) (measure (sizeOf : Record → Nat)).wf
  obtain ⟨slot, hs, hi⟩ := mem_inner.1 h
  have hlt : sizeOf inner < sizeOf slot := sizeOf_lt_of_mem_parts (mem_parts_of_mem_inner hi)
  exact Nat.lt_trans hlt (sizeOf_lt_of_mem_slots hs)

/-- A node is the head of its list, or inside it at some depth. -/
theorem reflTransGen_of_mem_nodes {record node : Record} (h : node ∈ record.nodes) :
    Relation.ReflTransGen (fun inner outer => inner ∈ outer.inner) node record := by
  induction record using wellFounded_inner.induction with
  | _ record ih =>
    rw [nodes_eq] at h
    rcases List.mem_cons.1 h with rfl | h
    · exact .refl
    cases hn : record.next? with
    | none => simp [hn] at h
    | some head =>
      rw [hn] at h
      have hin : head ∈ record.inner :=
        mem_inner.2 ⟨_, link_mem_slots hn, List.mem_singleton.2 rfl⟩
      exact (ih head hin h).tail hin

/-- The parts of a slot are inside the record, at some depth. -/
theorem transGen_of_mem_parts {record part : Record} {index : Nat} {slot : Slot}
    (hs : record.slot? index = some slot) (hp : part ∈ slot.parts) :
    Relation.TransGen (fun inner outer => inner ∈ outer.inner) part record := by
  have hinside : ∀ inner ∈ slot.inner,
      Relation.TransGen (fun inner outer => inner ∈ outer.inner) inner record := fun inner hi =>
    .single (mem_inner.2 ⟨slot, List.mem_of_getElem? hs, hi⟩)
  exact slot.forall_parts hinside
    (fun _ hhead _ hn => .trans_right (reflTransGen_of_mem_nodes hn) hhead) part hp

end Record

end RecordBridge

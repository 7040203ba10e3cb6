import RecordBridge.Proofs.Registry.Plan
import RecordBridge.Registry.Basic
/-!
# Which opcode carries a layout

Several descriptors may carry records of one layout. Inside other records the one
that names a repeated field goes first, and then the one of the lowest opcode
(`Descriptor.Chosen`). That choice does not depend on the order the descriptors are
given in, and it is the one a registry makes (`carrier?_sort_iff`).
-/
namespace RecordBridge

/-- The first entry found in an ordered list comes before the others of its kind. -/
theorem le_of_find? {R : α → α → Prop} {p : α → Bool} {l : List α} {found : α}
    (hsorted : l.Pairwise R) (h : l.find? p = some found) :
    ∀ other ∈ l, p other → other = found ∨ R found other := by
  obtain ⟨-, front, rest, rfl, hfront⟩ := List.find?_eq_some_iff_append.1 h
  intro other ho hp
  rcases List.mem_append.1 ho with ho | ho
  · exact absurd hp (by simpa using hfront other ho)
  · rcases List.mem_cons.1 ho with rfl | ho
    · exact .inl rfl
    · have hrest := (List.pairwise_append.1 hsorted).2.1
      exact .inr ((List.pairwise_cons.1 hrest).1 other ho)

namespace Descriptor

/-- A descriptor is the one that carries records of a layout inside others: no other
one of the layout names a repeated field if it does not, and of those that agree with
it in this, it has the lowest opcode. -/
structure Chosen (descriptors : List Descriptor) (layout : LayoutId) (found : Descriptor) :
    Prop where
  mem : found ∈ descriptors
  layout_eq : found.layout = layout
  named : ∀ other ∈ descriptors, other.layout = layout → other.repeatedField.isSome →
    found.repeatedField.isSome
  least : ∀ other ∈ descriptors, other.layout = layout →
    (other.repeatedField.isSome ↔ found.repeatedField.isSome) → found.opcode ≤ other.opcode

variable {descriptors : List Descriptor} {layout : LayoutId} {found : Descriptor}

theorem mem_sort {descriptor : Descriptor} :
    descriptor ∈ sort descriptors ↔ descriptor ∈ descriptors :=
  List.mem_mergeSort

theorem sort_pairwise (descriptors : List Descriptor) :
    (sort descriptors).Pairwise fun one other => one.opcode ≤ other.opcode := by
  have hsorted : (sort descriptors).Pairwise fun one other => decide (one.opcode ≤ other.opcode) :=
    List.pairwise_mergeSort (fun one other third => by simpa using UInt16.le_trans)
      (fun one other => by simpa using UInt16.le_total one.opcode other.opcode) descriptors
  simpa [sort] using hsorted

theorem nodup_sort_iff : ((sort descriptors).map (·.opcode)).Nodup ↔
    (descriptors.map (·.opcode)).Nodup :=
  ((List.mergeSort_perm descriptors _).map _).nodup_iff

/-- The choice is among descriptors in any order. -/
theorem Chosen.of_mem_iff {others : List Descriptor} (h : Chosen descriptors layout found)
    (hsame : ∀ descriptor, descriptor ∈ descriptors ↔ descriptor ∈ others) :
    Chosen others layout found where
  mem := (hsame found).1 h.mem
  layout_eq := h.layout_eq
  named other ho := h.named other ((hsame other).2 ho)
  least other ho := h.least other ((hsame other).2 ho)

/-- In opcode order the carrier is chosen. -/
theorem chosen_of_carrier? (hsorted : descriptors.Pairwise fun one other => one.opcode ≤ other.opcode)
    (h : carrier? descriptors layout = some found) : Chosen descriptors layout found := by
  obtain ⟨hmem, hlayout⟩ := mem_of_carrier? h
  have hfilter := hsorted.filter (·.layout == layout)
  simp only [carrier?_eq, Option.or_eq_some_iff] at h
  rcases h with h | ⟨hnone, h⟩
  · have hnamed : found.repeatedField.isSome := by simpa using List.find?_some h
    refine ⟨hmem, hlayout, fun _ _ _ _ => hnamed, fun other ho hl hsame => ?_⟩
    have hle := le_of_find? hfilter h other (by simp [ho, hl]) (by simpa using hsame.2 hnamed)
    rcases hle with rfl | hle
    · exact UInt16.le_refl _
    · exact hle
  · have hunnamed : ∀ other ∈ descriptors, other.layout = layout → ¬ other.repeatedField.isSome := by
      intro other ho hl
      simpa using List.find?_eq_none.1 hnone other (by simp [ho, hl])
    refine ⟨hmem, hlayout, fun other ho hl hsome => absurd hsome (hunnamed other ho hl),
      fun other ho hl _ => ?_⟩
    obtain ⟨rest, hrest⟩ := List.head?_eq_some_iff.1 h
    have hother : other ∈ found :: rest := hrest ▸ by simp [ho, hl]
    rw [hrest] at hfilter
    rcases List.mem_cons.1 hother with rfl | hother
    · exact UInt16.le_refl _
    · exact (List.pairwise_cons.1 hfilter).1 other hother

/-- Of descriptors with distinct opcodes one is chosen at most. -/
theorem Chosen.unique (hopcodes : (descriptors.map (·.opcode)).Nodup) {other : Descriptor}
    (h : Chosen descriptors layout found) (h' : Chosen descriptors layout other) :
    found = other := by
  have hsame : other.repeatedField.isSome ↔ found.repeatedField.isSome :=
    ⟨h.named other h'.mem h'.layout_eq, h'.named found h.mem h.layout_eq⟩
  have hle := h.least other h'.mem h'.layout_eq hsame
  have hge := h'.least found h.mem h.layout_eq hsame.symm
  exact List.inj_on_of_nodup_map hopcodes h.mem h'.mem (UInt16.le_antisymm hle hge)

theorem exists_carrier? {descriptor : Descriptor} (h : descriptor ∈ descriptors) :
    ∃ found, carrier? descriptors descriptor.layout = some found := by
  have hmem : descriptor ∈ descriptors.filter (·.layout == descriptor.layout) := by simp [h]
  rw [← Option.isSome_iff_exists, carrier?_eq, Option.isSome_or, Bool.or_eq_true]
  exact .inr (by simpa using List.ne_nil_of_mem hmem)

/-- A registry carries the records of a layout by the descriptor chosen for it. -/
theorem carrier?_sort_iff (hopcodes : (descriptors.map (·.opcode)).Nodup) :
    carrier? (sort descriptors) layout = some found ↔ Chosen descriptors layout found := by
  have hchosen : ∀ {found}, carrier? (sort descriptors) layout = some found →
      Chosen descriptors layout found := fun h =>
    (chosen_of_carrier? (sort_pairwise descriptors) h).of_mem_iff fun _ => mem_sort
  refine ⟨hchosen, fun h => ?_⟩
  obtain ⟨carrier, hc⟩ := exists_carrier? (mem_sort.2 h.mem)
  rw [h.layout_eq] at hc
  rw [hc, h.unique hopcodes (hchosen hc)]

end Descriptor

end RecordBridge

import RecordBridge.Proofs.Registry.Carrier
import RecordBridge.Proofs.Registry.Occupied
/-!
# Descriptors in any order

A table is put into opcode order first, and where opcodes are distinct there is one such
order (`Descriptor.sort_eq_of_perm`). So the order that descriptors are given in makes no
difference. The opcode of a layout is found in one pass over the sorted table; over the
descriptors as they were given it is the lowest opcode of the layout, among those that
name a repeated field if there are any (`Registry.build_perm`).
-/
namespace RecordBridge

namespace Descriptor

variable {descriptors others : List Descriptor} {layout : LayoutId}

/-- Descriptors with distinct opcodes are sorted in one way. -/
theorem sort_eq_of_perm (hopcodes : (descriptors.map (·.opcode)).Nodup)
    (h : descriptors.Perm others) : sort descriptors = sort others := by
  have hperm : (sort descriptors).Perm (sort others) :=
    (List.mergeSort_perm _ _).trans (h.trans (List.mergeSort_perm _ _).symm)
  refine hperm.eq_of_pairwise (fun one other hone hother hle hge => ?_)
    (sort_pairwise descriptors) (sort_pairwise others)
  exact List.inj_on_of_nodup_map hopcodes (mem_sort.1 hone)
    (h.mem_iff.2 (mem_sort.1 hother)) (UInt16.le_antisymm hle hge)

/-- Sorted descriptors with distinct opcodes ascend. -/
theorem sort_ascends (hopcodes : (descriptors.map (·.opcode)).Nodup) :
    (sort descriptors).Pairwise fun one other => one.opcode < other.opcode := by
  have hapart : (sort descriptors).Pairwise fun one other => one.opcode ≠ other.opcode :=
    List.pairwise_map.1 (nodup_sort_iff.2 hopcodes)
  refine ((sort_pairwise descriptors).and hapart).imp fun {one other} h => ?_
  exact UInt16.lt_of_le_of_ne h.1 h.2

/-- The descriptors that may carry records of a layout inside others: those of the layout
that name a repeated field, or all of the layout if none does. -/
def candidates (descriptors : List Descriptor) (layout : LayoutId) : List Descriptor :=
  let ofLayout := descriptors.filter (·.layout == layout)
  let named := ofLayout.filter (·.repeatedField.isSome)
  if named.isEmpty then ofLayout else named

theorem mem_candidates {descriptor : Descriptor} : descriptor ∈ candidates descriptors layout ↔
    (descriptor ∈ descriptors ∧ descriptor.layout = layout) ∧
      ∀ other ∈ descriptors, other.layout = layout → other.repeatedField.isSome →
        descriptor.repeatedField.isSome := by
  simp only [candidates]
  by_cases hnone : (descriptors.filter (·.layout == layout)).filter (·.repeatedField.isSome) = []
  · have hunnamed : ∀ other ∈ descriptors, other.layout = layout →
        ¬ other.repeatedField.isSome := by
      intro other ho hl hsome
      have hmem : other ∈ (descriptors.filter (·.layout == layout)).filter
          (·.repeatedField.isSome) := by simp [ho, hl, hsome]
      rw [hnone] at hmem
      cases hmem
    rw [hnone, List.isEmpty_nil, if_pos rfl]
    simp only [List.mem_filter, beq_iff_eq]
    exact (and_iff_left fun other ho hl hsome => absurd hsome (hunnamed other ho hl)).symm
  · obtain ⟨named, hnamed⟩ := List.exists_mem_of_ne_nil _ hnone
    rw [List.isEmpty_eq_false_iff.2 hnone, if_neg Bool.false_ne_true]
    simp only [List.mem_filter, beq_iff_eq] at hnamed ⊢
    exact and_congr_right fun _ =>
      ⟨fun h _ _ _ _ => h, fun h => h named hnamed.1.1 hnamed.1.2 hnamed.2⟩

/-- What is chosen for a layout has the lowest opcode of its candidates. -/
theorem Chosen.min?_candidates {found : Descriptor} (h : Chosen descriptors layout found) :
    ((candidates descriptors layout).map (·.opcode)).min? = some found.opcode := by
  rw [List.min?_eq_some_iff]
  refine ⟨List.mem_map_of_mem (mem_candidates.2 ⟨⟨h.mem, h.layout_eq⟩, h.named⟩), ?_⟩
  intro opcode ho
  obtain ⟨other, hother, rfl⟩ := List.mem_map.1 ho
  obtain ⟨⟨hm, hlayout⟩, hnamed⟩ := mem_candidates.1 hother
  exact h.least other hm hlayout ⟨h.named other hm hlayout, hnamed found h.mem h.layout_eq⟩

end Descriptor

namespace Registry

/-- The order of descriptors with distinct opcodes is of no account: the table is refused
with the same error, or makes the same registry, down to the bytes that are hashed. There
the descriptors stand in opcode order, and the opcode of a layout is the lowest one of its
candidates. -/
theorem build_perm (layouts : LayoutSet) (schemas : SchemaSet)
    {descriptors others : List Descriptor} (hopcodes : (descriptors.map (·.opcode)).Nodup)
    (hperm : descriptors.Perm others) :
    build layouts schemas descriptors = build layouts schemas others ∧
    ∀ registry, build layouts schemas descriptors = .ok registry →
      registry.descriptors.Perm descriptors ∧
      (registry.descriptors.Pairwise fun one other => one.opcode < other.opcode) ∧
      ∀ layout, registry.opcodeOf? layout =
        ((Descriptor.candidates descriptors layout).map (·.opcode)).min? := by
  refine ⟨by rw [build, build, Descriptor.sort_eq_of_perm hopcodes hperm], fun registry h => ?_⟩
  obtain ⟨-, -, hsorted, -⟩ := build_eq_ok h
  rw [hsorted]
  refine ⟨List.mergeSort_perm _ _, Descriptor.sort_ascends hopcodes, fun layout => ?_⟩
  rw [opcodeOf?, hsorted]
  cases hc : Descriptor.carrier? (Descriptor.sort descriptors) layout with
  | some found =>
    exact ((Descriptor.carrier?_sort_iff hopcodes).1 hc).min?_candidates.symm
  | none =>
    have hnone : Descriptor.candidates descriptors layout = [] := by
      refine List.eq_nil_iff_forall_not_mem.2 fun descriptor hd => ?_
      obtain ⟨⟨hm, rfl⟩, -⟩ := Descriptor.mem_candidates.1 hd
      obtain ⟨found, hfound⟩ := Descriptor.exists_carrier? (Descriptor.mem_sort.2 hm)
      simp [hc] at hfound
    rw [hnone]
    rfl

/-- Three opcodes carry crates, and two of them name a repeated field. -/
def yardDescriptors : List Descriptor :=
  [⟨9, "crate", "Crate", some "load"⟩, ⟨4, "crate", "Crate", none⟩, ⟨5, "wagon", "Wagon", none⟩,
    ⟨6, "crate", "Crate", some "waiting"⟩]

/-- Crates in wagons have the lower of these two, in whatever order the table comes. -/
theorem build_perm_yard :
    (yardDescriptors.map (·.opcode)).Nodup ∧ yardDescriptors.Perm yardDescriptors.reverse ∧
    ∃ registry, build wagonRegistry.layouts wagonRegistry.schemas yardDescriptors = .ok registry ∧
      build wagonRegistry.layouts wagonRegistry.schemas yardDescriptors.reverse = .ok registry ∧
      registry.opcodeOf? "crate" = some 6 ∧ registry.opcodeOf? "wagon" = some 5 ∧
      registry.opcodeOf? "train" = none := by
  have hopcodes : (yardDescriptors.map (·.opcode)).Nodup := by decide
  have hperm : yardDescriptors.Perm yardDescriptors.reverse := (List.reverse_perm _).symm
  obtain ⟨hsame, hregistry⟩ :=
    build_perm wagonRegistry.layouts wagonRegistry.schemas hopcodes hperm
  have hbuilt : (build wagonRegistry.layouts wagonRegistry.schemas yardDescriptors).isOk := by cbv
  cases hmade : build wagonRegistry.layouts wagonRegistry.schemas yardDescriptors with
  | error error =>
    rw [hmade] at hbuilt
    cases hbuilt
  | ok registry =>
    obtain ⟨-, -, hopcode⟩ := hregistry registry hmade
    refine ⟨hopcodes, hperm, registry, rfl, hsame ▸ hmade, ?_, ?_, ?_⟩ <;> rw [hopcode] <;> decide

end Registry

end RecordBridge

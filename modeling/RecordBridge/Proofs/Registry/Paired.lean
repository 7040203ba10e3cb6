import RecordBridge.Proofs.Registry.Plan
/-!
# The bytes of paired fields

A plan pairs each record field once at most, so the fields of a layout are those that it
pairs and the others, and the bytes of both come to the size of the layout
(`Plan.Made.occupied_add_unpaired`).
-/
namespace RecordBridge

/-- The packed size of the field at a position. -/
def Layout.sizeAt (sizeOf : LayoutId → Nat) (layout : Layout) (index : Nat) : Nat :=
  layout.fields[index]?.elim 0 fun field => field.kind.packedSize sizeOf

theorem Layout.packedSize_eq_sum_sizeAt (sizeOf : LayoutId → Nat) (layout : Layout) :
    layout.packedSize sizeOf =
      ((List.range layout.fields.length).map (layout.sizeAt sizeOf)).sum := by
  refine congrArg List.sum (List.ext_getElem (by simp) fun index hi _ => ?_)
  rw [List.length_map] at hi
  simp [sizeAt, hi]

namespace Plan

variable {layouts : LayoutSet} {descriptors : List Descriptor} {opcode : UInt16} {layout : Layout}
  {schema : Schema} {plan : Plan}

/-- The record fields that no item pairs, by position. -/
def unpaired (plan : Plan) (layout : Layout) : List Nat :=
  (List.range layout.fields.length).filter (· ∉ plan.bound.map (·.recordIndex))

/-- A plan that pairs record fields once sorts them in two: the paired ones and the others. -/
theorem perm_range (hnodup : (plan.bound.map (·.recordIndex)).Nodup)
    (hmem : ∀ entry ∈ plan.bound, entry.recordIndex < layout.fields.length) :
    (plan.bound.map (·.recordIndex) ++ plan.unpaired layout).Perm
      (List.range layout.fields.length) := by
  have hpaired : (plan.bound.map (·.recordIndex)).Perm
      ((List.range layout.fields.length).filter (· ∈ plan.bound.map (·.recordIndex))) := by
    refine (List.perm_ext_iff_of_nodup hnodup (List.nodup_range.filter _)).2 fun index => ?_
    rw [List.mem_filter, List.mem_range, decide_eq_true_eq, iff_and_self]
    intro hindex
    obtain ⟨entry, he, rfl⟩ := List.mem_map.1 hindex
    exact hmem entry he
  have hsplit := List.filter_append_perm (· ∈ plan.bound.map (·.recordIndex))
    (List.range layout.fields.length)
  simp only [← decide_not] at hsplit
  exact (hpaired.append_right _).trans hsplit

/-- The bytes of the paired fields and those of the others come to the layout's. -/
theorem Made.occupied_add_unpaired (h : plan.Made layouts descriptors opcode layout schema)
    (hnames : (schema.fields.map (·.name)).Nodup) :
    plan.occupied + ((plan.unpaired layout).map (layout.sizeAt layouts.sizeOf)).sum =
      layout.packedSize layouts.sizeOf := by
  have hoccupied : plan.occupied =
      ((plan.bound.map (·.recordIndex)).map (layout.sizeAt layouts.sizeOf)).sum := by
    rw [occupied, List.map_map, List.sum, List.foldr_map]
    refine List.foldr_ext _ _ _ fun entry he size => ?_
    obtain ⟨found, hfound, hsize⟩ := h.size he
    simp only [Function.comp_apply, Layout.sizeAt, hfound, Option.elim_some, hsize]
  have hmem : ∀ entry ∈ plan.bound, entry.recordIndex < layout.fields.length := by
    intro entry he
    obtain ⟨found, hfound, -⟩ := h.size he
    exact (List.getElem?_eq_some_iff.1 hfound).1
  rw [hoccupied, ← List.sum_append, ← List.map_append, Layout.packedSize_eq_sum_sizeAt]
  exact ((perm_range (h.nodup_recordIndex hnames) hmem).map _).sum_eq

theorem Made.occupied_le (h : plan.Made layouts descriptors opcode layout schema)
    (hnames : (schema.fields.map (·.name)).Nodup) :
    plan.occupied ≤ layout.packedSize layouts.sizeOf :=
  h.occupied_add_unpaired hnames ▸ Nat.le_add_right _ _

end Plan

end RecordBridge

import RecordBridge.Layout.Set
import RecordBridge.Proofs.Lookup
/-!
# Sizes within 64 bits

A checked size is the exact one, and is there if that fits in 64 bits
(`Layout.byteSize_eq_ok_iff`). In a table of sizes each layout has the sum over its
fields, the layouts inside it being looked up in what the table has of the layouts
after it (`Layout.sizeTable_cons_eq_ok_iff`).
-/
namespace RecordBridge

namespace Size

theorem fit_eq_ok_iff {exact size : Nat} :
    fit exact = .ok size ↔ exact = size ∧ size < UInt64.size := by
  unfold fit
  split
  · next h => simpa using fun he : exact = size => he ▸ h
  · next h => simpa using fun he : exact = size => Nat.not_lt.1 (he ▸ h)

theorem add_eq_ok_iff {one other size : Nat} :
    add one other = .ok size ↔ one + other = size ∧ size < UInt64.size :=
  fit_eq_ok_iff

theorem mul_eq_ok_iff {count one size : Nat} :
    mul count one = .ok size ↔ count * one = size ∧ size < UInt64.size :=
  fit_eq_ok_iff

end Size

namespace FieldKind

/-- The bytes of a field, however many they are, given those of the layouts inside it:
the width of an integer, one byte for a flag, the length of a buffer, a pointer for a text
behind one and for a list, and all the bytes of the records that the field embeds. -/
def packedSize (sizeOf : LayoutId → Nat) : FieldKind → Nat
  | .int width _ => width.toNat
  | .bool => 1
  | .fixedText length => length.toNat
  | .ownedText => pointerSize
  | .textRows count length => count.toNat * length.toNat
  | .nested layout => sizeOf layout
  | .array layout count => count.toNat * sizeOf layout
  | .list _ => pointerSize

/-- The bytes of all rows of a text are within 64 bits. -/
def RowsFit : FieldKind → Prop
  | .textRows count length => count.toNat * length.toNat < UInt64.size
  | _ => True

variable {kind : FieldKind} {sizeOf : LayoutId → Nat} {size : Nat}

theorem packedSize_of_byteSize (h : kind.byteSize sizeOf = .ok size) :
    kind.packedSize sizeOf = size := by
  cases kind with
  | textRows | array => exact (Size.mul_eq_ok_iff.1 h).1
  | _ => exact Except.ok.inj h

theorem byteSize_of_packedSize_lt (h : kind.packedSize sizeOf < UInt64.size) :
    kind.byteSize sizeOf = .ok (kind.packedSize sizeOf) := by
  cases kind with
  | textRows | array => exact Size.mul_eq_ok_iff.2 ⟨rfl, h⟩
  | _ => rfl

theorem rowsFit_of_packedSize_lt (h : kind.packedSize sizeOf < UInt64.size) : kind.RowsFit := by
  cases kind with
  | textRows => exact h
  | _ => exact trivial

/-- Rows within 64 bits have as their length the bytes of all of them. -/
theorem RowsFit.textLength? {count length : UInt64} (h : (textRows count length).RowsFit) :
    (textRows count length).textLength? = some (count.toNat * length.toNat) :=
  congrArg some (Nat.min_eq_left (Nat.le_pred_of_lt h))

theorem rowsFit_of_mul {count length : UInt64} {size : Nat}
    (h : Size.mul count.toNat length.toNat = .ok size) :
    (textRows count length).RowsFit ∧ count.toNat * length.toNat = size := by
  obtain ⟨rfl, hsize⟩ := Size.mul_eq_ok_iff.1 h
  exact ⟨hsize, rfl⟩

theorem RowsFit.mul_eq {count length : UInt64} (h : (textRows count length).RowsFit) :
    Size.mul count.toNat length.toNat = .ok (count.toNat * length.toNat) :=
  Size.mul_eq_ok_iff.2 ⟨rfl, h⟩

end FieldKind

namespace Layout

variable {layout : Layout} {rest : List Layout} {sizeOf : LayoutId → Nat}

/-- The bytes of a layout, however many they are, given those of the layouts inside it. -/
def packedSize (sizeOf : LayoutId → Nat) (layout : Layout) : Nat :=
  (layout.fields.map fun field => field.kind.packedSize sizeOf).sum

theorem packedSize_field_le {field : Field} (hf : field ∈ layout.fields) :
    field.kind.packedSize sizeOf ≤ layout.packedSize sizeOf :=
  List.single_le_sum (fun _ _ => Nat.zero_le _) _
    (List.mem_map_of_mem (f := fun field : Field => field.kind.packedSize sizeOf) hf)

/-- Fields are added up as far as 64 bits hold the sum. -/
theorem foldlM_byteSize_eq_ok_iff : ∀ {fields : List Field} {start size : Nat},
    start < UInt64.size →
    (fields.foldlM (fun size (field : Field) => do Size.add size (← field.kind.byteSize sizeOf))
        start = .ok size ↔
      start + (fields.map fun field => field.kind.packedSize sizeOf).sum = size ∧
        size < UInt64.size)
  | [], start, size, hstart => by
    simp only [List.foldlM_nil, pure_eq_ok, List.map_nil, List.sum_nil, Nat.add_zero,
      iff_self_and]
    rintro rfl
    exact hstart
  | field :: fields, start, size, hstart => by
    simp only [List.foldlM_cons, bind_eq_ok, List.map_cons, List.sum_cons]
    constructor
    · rintro ⟨middle, ⟨one, hone, hadd⟩, hrest⟩
      obtain ⟨rfl, hmiddle⟩ := Size.add_eq_ok_iff.1 hadd
      rw [FieldKind.packedSize_of_byteSize hone, ← Nat.add_assoc]
      exact (foldlM_byteSize_eq_ok_iff hmiddle).1 hrest
    · rintro ⟨rfl, hsize⟩
      have hone : field.kind.byteSize sizeOf = .ok (field.kind.packedSize sizeOf) :=
        FieldKind.byteSize_of_packedSize_lt (by omega)
      have hmiddle : start + field.kind.packedSize sizeOf < UInt64.size := by omega
      exact ⟨_, ⟨_, hone, Size.add_eq_ok_iff.2 ⟨rfl, hmiddle⟩⟩,
        (foldlM_byteSize_eq_ok_iff hmiddle).2 ⟨Nat.add_assoc _ _ _, hsize⟩⟩

/-- A layout has a size if 64 bits hold the sum over its fields, and that is it. -/
theorem byteSize_eq_ok_iff {size : Nat} :
    layout.byteSize sizeOf = .ok size ↔ layout.packedSize sizeOf = size ∧ size < UInt64.size := by
  rw [byteSize, foldlM_byteSize_eq_ok_iff (by decide), Nat.zero_add, packedSize]

theorem sizeTable_cons_eq_ok_iff {table : List (LayoutId × Nat)} :
    sizeTable (layout :: rest) = .ok table ↔ ∃ inside, sizeTable rest = .ok inside ∧
      layout.packedSize (sizeIn inside) < UInt64.size ∧
      table = (layout.id, layout.packedSize (sizeIn inside)) :: inside := by
  simp only [sizeTable, bind_eq_ok, pure_eq_ok, byteSize_eq_ok_iff]
  constructor
  · rintro ⟨inside, hrest, size, ⟨rfl, hsize⟩, rfl⟩
    exact ⟨inside, hrest, hsize, rfl⟩
  · rintro ⟨inside, hrest, hsize, rfl⟩
    exact ⟨inside, hrest, _, ⟨rfl, hsize⟩, rfl⟩

/-- The rows of a text in a layout with a size are within 64 bits. -/
theorem rowsFit_of_sizeTable : ∀ {ranked : List Layout} {table : List (LayoutId × Nat)},
    sizeTable ranked = .ok table →
      ∀ layout ∈ ranked, ∀ field ∈ layout.fields, field.kind.RowsFit
  | [], _, _ => fun _ hl => absurd hl List.not_mem_nil
  | head :: rest, table, h => by
    obtain ⟨inside, hrest, hsize, -⟩ := sizeTable_cons_eq_ok_iff.1 h
    refine List.forall_mem_cons.2 ⟨fun field hf => ?_, rowsFit_of_sizeTable hrest⟩
    exact FieldKind.rowsFit_of_packedSize_lt ((packedSize_field_le hf).trans_lt hsize)

end Layout

end RecordBridge

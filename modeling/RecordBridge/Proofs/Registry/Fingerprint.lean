import RecordBridge.Proofs.Registry.Sound
import RecordBridge.Proofs.Schema.Fingerprint
/-!
# What a fingerprint tells apart

The bytes of a registry are those of its layouts, its schemas and its descriptors, and
each of these tables has a prefix-free code (`Code.PrefixFree`). Tables whose names and
lists fit the four bytes of a length are therefore hashed as the same bytes only if they
have the same layouts, the same schemas and descriptors that are written alike
(`Registry.code_eq_iff`).

Descriptors that are written alike may still differ: no repeated field and one with
the empty name are written as the same bytes, but carry records differently
(`Registry.code_eq_of_empty_name`).
-/
namespace RecordBridge

namespace Code

/-! ## Layouts -/

/-- The layout that a kind names, if any, has a short name. -/
def ShortKind (kind : FieldKind) : Prop := ∀ id ∈ kind.layout?, Short id

instance (kind : FieldKind) : Decidable (ShortKind kind) :=
  inferInstanceAs (Decidable (∀ id ∈ kind.layout?, Short id))

/-- The names in a layout are short, and so is the list of its fields. -/
def ShortLayout (layout : Layout) : Prop :=
  Short layout.id ∧
    ShortList (fun field => Short field.name ∧ ShortKind field.kind) layout.fields

instance (layout : Layout) : Decidable (ShortLayout layout) :=
  inferInstanceAs (Decidable (_ ∧ _))

theorem prefixFree_length :
    PrefixFree (fun _ => True) (fun length : UInt64 => littleEndian 8 length.toNat) := by
  intro a b _ _ rest more h
  obtain ⟨hn, hrest⟩ := prefixFree_littleEndian 8 _ _ a.toNat_lt b.toNat_lt _ _ h
  exact ⟨UInt64.toNat_inj.1 hn, hrest⟩

/-- The tag says what kind it is and so what follows. -/
theorem prefixFree_kind : PrefixFree ShortKind kind := by
  intro a b ha hb rest more h
  cases a with
  | int width signed =>
    cases b with
    | int width' signed' =>
      simp only [kind, List.cons_append, List.nil_append, List.cons.injEq, true_and] at h
      obtain ⟨rfl, hsigned, hrest⟩ := h
      cases signed <;> cases signed' <;> simp_all
    | _ => simp [kind] at h
  | bool =>
    cases b with
    | bool => exact ⟨rfl, by simpa [kind] using h⟩
    | _ => simp [kind] at h
  | ownedText =>
    cases b with
    | ownedText => exact ⟨rfl, by simpa [kind] using h⟩
    | _ => simp [kind] at h
  | fixedText length =>
    cases b with
    | fixedText length' =>
      simp only [kind, List.cons_append, List.cons.injEq, true_and] at h
      obtain ⟨rfl, hrest⟩ := prefixFree_length _ _ trivial trivial _ _ h
      exact ⟨rfl, hrest⟩
    | _ => simp [kind] at h
  | textRows count length =>
    cases b with
    | textRows count' length' =>
      simp only [kind, List.cons_append, List.append_assoc, List.cons.injEq, true_and] at h
      obtain ⟨hcount, h⟩ := prefixFree_length _ _ trivial trivial _ _ h
      obtain ⟨hlength, hrest⟩ := prefixFree_length _ _ trivial trivial _ _ h
      exact ⟨congrArg₂ FieldKind.textRows hcount hlength, hrest⟩
    | _ => simp [kind] at h
  | nested id =>
    cases b with
    | nested id' =>
      simp only [kind, List.cons_append, List.cons.injEq, true_and] at h
      obtain ⟨rfl, hrest⟩ := prefixFree_text _ _ (ha id rfl) (hb id' rfl) _ _ h
      exact ⟨rfl, hrest⟩
    | _ => simp [kind] at h
  | array id count =>
    cases b with
    | array id' count' =>
      simp only [kind, List.cons_append, List.append_assoc, List.cons.injEq, true_and] at h
      obtain ⟨hid, h⟩ := prefixFree_text _ _ (ha id rfl) (hb id' rfl) _ _ h
      obtain ⟨hcount, hrest⟩ := prefixFree_length count count' trivial trivial _ _ h
      exact ⟨congrArg₂ FieldKind.array hid hcount, hrest⟩
    | _ => simp [kind] at h
  | list id =>
    cases b with
    | list id' =>
      simp only [kind, List.cons_append, List.cons.injEq, true_and] at h
      obtain ⟨rfl, hrest⟩ := prefixFree_text _ _ (ha id rfl) (hb id' rfl) _ _ h
      exact ⟨rfl, hrest⟩
    | _ => simp [kind] at h

theorem prefixFree_layoutField :
    PrefixFree (fun field => Short field.name ∧ ShortKind field.kind)
      (fun field : Layout.Field => text field.name ++ kind field.kind) := by
  intro field other hfield hother rest more h
  simp only [List.append_assoc] at h
  obtain ⟨hname, h⟩ := prefixFree_text _ _ hfield.1 hother.1 _ _ h
  obtain ⟨hkind, hrest⟩ := prefixFree_kind _ _ hfield.2 hother.2 _ _ h
  cases field
  cases other
  exact ⟨congrArg₂ Layout.Field.mk hname hkind, hrest⟩

theorem prefixFree_layout : PrefixFree ShortLayout layout := by
  intro a b ha hb rest more h
  simp only [layout, List.append_assoc] at h
  obtain ⟨hid, h⟩ := prefixFree_text _ _ ha.1 hb.1 _ _ h
  obtain ⟨hfields, hrest⟩ := prefixFree_layoutField.list _ _ ha.2 hb.2 _ _ h
  cases a
  cases b
  exact ⟨congrArg₂ Layout.mk hid hfields, hrest⟩

/-! ## Descriptors -/

/-- The names in a descriptor are short. -/
def ShortDescriptor (descriptor : Descriptor) : Prop :=
  Short descriptor.layout ∧ Short descriptor.schema ∧ Short (descriptor.repeatedField.getD "")

instance (descriptor : Descriptor) : Decidable (ShortDescriptor descriptor) :=
  inferInstanceAs (Decidable (_ ∧ _))

end Code

/-- A descriptor as it is written: an absent repeated field is the empty name. -/
def Descriptor.written (descriptor : Descriptor) : Descriptor :=
  { descriptor with repeatedField := some (descriptor.repeatedField.getD "") }

namespace Code

/-- A descriptor that is written as it is can be read back. -/
theorem prefixFree_descriptor :
    PrefixFree (fun d => ShortDescriptor d ∧ d.written = d) descriptor := by
  intro a b ha hb rest more h
  obtain ⟨⟨hal, has, har⟩, hawritten⟩ := ha
  obtain ⟨⟨hbl, hbs, hbr⟩, hbwritten⟩ := hb
  simp only [descriptor, List.append_assoc] at h
  obtain ⟨hopcode, h⟩ :=
    prefixFree_littleEndian 2 _ _ a.opcode.toNat_lt b.opcode.toNat_lt _ _ h
  obtain ⟨hlayout, h⟩ := prefixFree_text _ _ hal hbl _ _ h
  obtain ⟨hschema, h⟩ := prefixFree_text _ _ has hbs _ _ h
  obtain ⟨hrepeated, hrest⟩ := prefixFree_text _ _ har hbr _ _ h
  rw [← hawritten, ← hbwritten]
  simp only [Descriptor.written, Descriptor.mk.injEq, Option.some.injEq]
  exact ⟨⟨UInt16.toNat_inj.1 hopcode, hlayout, hschema, hrepeated⟩, hrest⟩

theorem list_descriptor_written (descriptors : List Descriptor) :
    list descriptor (descriptors.map Descriptor.written) = list descriptor descriptors := by
  simp only [list, List.length_map, List.flatMap_map]
  rfl

end Code

/-! ## Tables -/

/-- Tables whose names and lists have lengths of four bytes. -/
structure ShortTables (layouts : List Layout) (schemas : List Schema)
    (descriptors : List Descriptor) : Prop where
  layouts : Code.ShortList Code.ShortLayout layouts
  schemas : Code.ShortList Code.ShortSchema schemas
  descriptors : Code.ShortList Code.ShortDescriptor descriptors

instance (layouts : List Layout) (schemas : List Schema) (descriptors : List Descriptor) :
    Decidable (ShortTables layouts schemas descriptors) :=
  decidable_of_iff (Code.ShortList Code.ShortLayout layouts ∧
    Code.ShortList Code.ShortSchema schemas ∧ Code.ShortList Code.ShortDescriptor descriptors)
    ⟨fun h => ⟨h.1, h.2.1, h.2.2⟩, fun h => ⟨h.layouts, h.schemas, h.descriptors⟩⟩

namespace Registry

open Code

/-- An accepted registry holds the tables it was built from, in opcode order. -/
theorem tables_of_ofLists {layouts : List Layout} {schemas : List Schema}
    {descriptors : List Descriptor} {registry : Registry}
    (h : ofLists layouts schemas descriptors = .ok registry) :
    registry.layouts.layouts = layouts ∧ registry.schemas.schemas = schemas ∧
      registry.descriptors = Descriptor.sort descriptors := by
  simp only [ofLists, bind_eq_ok, mapError_eq_ok] at h
  obtain ⟨layoutSet, hl, schemaSet, hs, h⟩ := h
  obtain ⟨rfl, rfl, hsorted, -⟩ := build_eq_ok h
  exact ⟨(LayoutSet.sound_of_ofList hl).1, (SchemaSet.ofList_eq_ok_iff.1 hs).1, hsorted⟩

theorem shortList_written {descriptors : List Descriptor}
    (h : ShortList ShortDescriptor descriptors) :
    ShortList (fun d => ShortDescriptor d ∧ d.written = d)
      ((Descriptor.sort descriptors).map Descriptor.written) := by
  have hperm : (Descriptor.sort descriptors).Perm descriptors := List.mergeSort_perm _ _
  refine ⟨?_, fun d hd => ?_⟩
  · rw [List.length_map, hperm.length_eq]
    exact h.1
  · obtain ⟨found, hfound, rfl⟩ := List.mem_map.1 hd
    exact ⟨h.2 found (hperm.mem_iff.1 hfound), rfl⟩

variable {layouts layouts' : List Layout} {schemas schemas' : List Schema}
  {descriptors descriptors' : List Descriptor} {registry other : Registry}

/-- Two accepted registries are hashed as the same bytes exactly when they have the same
layouts, the same schemas and, in opcode order, descriptors that are written alike. -/
theorem code_eq_iff (h : ofLists layouts schemas descriptors = .ok registry)
    (h' : ofLists layouts' schemas' descriptors' = .ok other)
    (hshort : ShortTables layouts schemas descriptors)
    (hshort' : ShortTables layouts' schemas' descriptors') :
    registry.code = other.code ↔ layouts = layouts' ∧ schemas = schemas' ∧
      (Descriptor.sort descriptors).map Descriptor.written =
        (Descriptor.sort descriptors').map Descriptor.written := by
  obtain ⟨hl, hs, hd⟩ := tables_of_ofLists h
  obtain ⟨hl', hs', hd'⟩ := tables_of_ofLists h'
  simp only [Registry.code, SchemaSet.code, hl, hs, hd, hl', hs', hd', List.append_assoc]
  rw [← list_descriptor_written (Descriptor.sort descriptors),
    ← list_descriptor_written (Descriptor.sort descriptors')]
  constructor
  · intro heq
    obtain ⟨hlayouts, heq⟩ := prefixFree_layout.list _ _ hshort.layouts hshort'.layouts _ _ heq
    obtain ⟨hschemas, heq⟩ := prefixFree_schema.list _ _ hshort.schemas hshort'.schemas _ _ heq
    obtain ⟨hwritten, -⟩ := prefixFree_descriptor.list _ _ (shortList_written hshort.descriptors)
      (shortList_written hshort'.descriptors) [] [] (by simpa using heq)
    exact ⟨hlayouts, hschemas, hwritten⟩
  · rintro ⟨rfl, rfl, hwritten⟩
    rw [hwritten]

/-! ### Boxes of cells -/

def boxLayouts : List Layout :=
  [⟨"cell", [⟨"value", .int 4 true⟩]⟩, ⟨"box", [⟨"cell", .nested "cell"⟩]⟩]

def boxSchemas : List Schema :=
  [⟨"Cell", [⟨"value", 1, .int32⟩]⟩, ⟨"Mark", [⟨"on", 1, .bool⟩]⟩,
    ⟨"Box", [⟨"cell", 1, .message "Cell"⟩]⟩]

/-- Cells are carried as cells or as marks, the latter with a repeated field. -/
def boxDescriptors (repeatedField : Option String) : List Descriptor :=
  [⟨1, "cell", "Cell", none⟩, ⟨2, "cell", "Mark", repeatedField⟩, ⟨3, "box", "Box", none⟩]

/-- Boxes with what is done with the cells in them. -/
def boxRegistry (repeatedField : Option String) (inside : Plan.Item) : Registry where
  layouts := ⟨boxLayouts, boxLayouts.reverse, [("box", 4), ("cell", 4)], by decide⟩
  schemas := ⟨boxSchemas⟩
  rows := [⟨⟨1, "cell", "Cell", none⟩, ⟨[.bind ⟨0, 0, .scalar (.int 4 true), 4⟩]⟩⟩,
    ⟨⟨2, "cell", "Mark", repeatedField⟩, ⟨[.skip "on" .missingField]⟩⟩,
    ⟨⟨3, "box", "Box", none⟩, ⟨[inside]⟩⟩]

theorem sort_boxDescriptors (repeatedField : Option String) :
    Descriptor.sort (boxDescriptors repeatedField) = boxDescriptors repeatedField :=
  List.mergeSort_of_pairwise (by simp [boxDescriptors])

/-- Tables that differ in the name of a repeated field are hashed as different bytes. -/
theorem code_ne_of_name :
    ofLists boxLayouts boxSchemas (boxDescriptors (some "cells")) =
        .ok (boxRegistry (some "cells") (.skip "cell" .typeMismatch)) ∧
      ofLists boxLayouts boxSchemas (boxDescriptors (some "parts")) =
        .ok (boxRegistry (some "parts") (.skip "cell" .typeMismatch)) ∧
      ShortTables boxLayouts boxSchemas (boxDescriptors (some "cells")) ∧
      ShortTables boxLayouts boxSchemas (boxDescriptors (some "parts")) ∧
      (boxRegistry (some "cells") (.skip "cell" .typeMismatch)).code ≠
        (boxRegistry (some "parts") (.skip "cell" .typeMismatch)).code := by
  have h : ofLists boxLayouts boxSchemas (boxDescriptors (some "cells")) =
      .ok (boxRegistry (some "cells") (.skip "cell" .typeMismatch)) := by cbv
  have h' : ofLists boxLayouts boxSchemas (boxDescriptors (some "parts")) =
      .ok (boxRegistry (some "parts") (.skip "cell" .typeMismatch)) := by cbv
  have hshort : ShortTables boxLayouts boxSchemas (boxDescriptors (some "cells")) := by decide
  have hshort' : ShortTables boxLayouts boxSchemas (boxDescriptors (some "parts")) := by decide
  have hne : (Descriptor.sort (boxDescriptors (some "cells"))).map Descriptor.written ≠
      (Descriptor.sort (boxDescriptors (some "parts"))).map Descriptor.written := by
    rw [sort_boxDescriptors, sort_boxDescriptors]
    decide
  refine ⟨h, h', hshort, hshort', fun heq => ?_⟩
  exact hne ((code_eq_iff h h' hshort hshort').1 heq).2.2

/-- Marks with an empty name for their repeated field are hashed as marks without one,
but it is they that carry the cells in boxes then. -/
theorem code_eq_of_empty_name :
    ofLists boxLayouts boxSchemas (boxDescriptors none) =
        .ok (boxRegistry none (.bind ⟨0, 0, .nested 1, 4⟩)) ∧
      ofLists boxLayouts boxSchemas (boxDescriptors (some "")) =
        .ok (boxRegistry (some "") (.skip "cell" .typeMismatch)) ∧
      ShortTables boxLayouts boxSchemas (boxDescriptors none) ∧
      ShortTables boxLayouts boxSchemas (boxDescriptors (some "")) ∧
      (boxRegistry none (.bind ⟨0, 0, .nested 1, 4⟩)).code =
        (boxRegistry (some "") (.skip "cell" .typeMismatch)).code ∧
      Descriptor.sort (boxDescriptors none) ≠ Descriptor.sort (boxDescriptors (some "")) ∧
      (boxRegistry none (.bind ⟨0, 0, .nested 1, 4⟩)).opcodeOf? "cell" = some 1 ∧
      (boxRegistry (some "") (.skip "cell" .typeMismatch)).opcodeOf? "cell" = some 2 := by
  have hne : Descriptor.sort (boxDescriptors none) ≠
      Descriptor.sort (boxDescriptors (some "")) := by
    rw [sort_boxDescriptors, sort_boxDescriptors]
    decide
  exact ⟨by cbv, by cbv, by decide, by decide, rfl, hne, rfl, rfl⟩

end Registry

end RecordBridge

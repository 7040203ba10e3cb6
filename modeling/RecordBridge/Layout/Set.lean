import RecordBridge.Layout.Basic
import RecordBridge.Layout.Error
/-!
# Layout sets

`LayoutSet.ofList` accepts a list of layouts whose names are unique, whose
fields are sound, in which no layout contains itself by value, and whose sizes
fit in 64 bits. Besides the layouts in definition order a set keeps them
*ranked*: the layouts a record contains by value come after its own. Sizes
(`sizeTable`) and zero records are recursions on that order.

| here | operation |
| --- | --- |
| `Layout.checkFields`, `Layout.checkKind`, `Layout.check` | `validate_layout` and `ensure_known` |
| `Layout.rank` | the visits of `size_of_layout`, which find a layout inside itself |
| `FieldKind.byteSize`, `Layout.byteSize` | the sum of `size_of_layout` |
| `Layout.sizeTable` | `compute_sizes` |
| `LayoutSet.ofList` | `LayoutSet::new` |
| `LayoutSet.get?`, `contains`, `byteSize?` | `LayoutSet::get`, `contains`, `byte_size` |
-/
namespace RecordBridge

/-- The packed size of a field, given the sizes of the layouts inside it. -/
def FieldKind.byteSize (sizeOf : LayoutId → Nat) : FieldKind → Except LayoutError Nat
  | .int width _ => .ok width.toNat
  | .bool => .ok 1
  | .fixedText length => .ok length.toNat
  | .ownedText => .ok pointerSize
  | .textRows count length => Size.mul count.toNat length.toNat
  | .nested layout => .ok (sizeOf layout)
  | .array layout count => Size.mul count.toNat (sizeOf layout)
  | .list _ => .ok pointerSize

namespace Layout

/-- Layout names are present and distinct from those in `seen`. -/
def checkIds (seen : List LayoutId) : List Layout → Except LayoutError Unit
  | [] => .ok ()
  | layout :: rest =>
    if layout.id = "" then .error .emptyId
    else if layout.id ∈ seen then .error (.duplicateLayout layout.id)
    else checkIds (layout.id :: seen) rest

/-- The layout of a name. -/
def find? (layouts : List Layout) (id : LayoutId) : Option Layout :=
  layouts.find? (·.id == id)

/-- One field is sound: its sizes are not zero and its layouts exist. -/
def checkKind (layouts : List Layout) (layout : LayoutId) (field : Field) :
    Except LayoutError Unit :=
  match field.kind with
  | .int width _ =>
    if width = 0 ∨ 8 < width then .error (.intWidth layout field.name width) else .ok ()
  | .fixedText _ | .textRows _ _ =>
    if field.kind.textLength? = some 0 then .error (.emptyText layout field.name) else .ok ()
  | .nested nested =>
    match find? layouts nested with
    | none => .error (.unknownLayout nested)
    | some _ => .ok ()
  | .array nested count =>
    match find? layouts nested with
    | none => .error (.unknownLayout nested)
    | some _ => if count = 0 then .error (.emptyArray layout field.name) else .ok ()
  | .list node =>
    match find? layouts node with
    | none => .error (.unknownLayout node)
    | some found =>
      if found.linkIndex?.isNone then .error (.missingLink node field.name) else .ok ()
  | .bool | .ownedText => .ok ()

/-- Fields are sound and named apart from each other and from `seen`. -/
def checkFields (layouts : List Layout) (layout : LayoutId) (seen : List String) :
    List Field → Except LayoutError Unit
  | [] => .ok ()
  | field :: rest => do
    if field.name ∈ seen then throw (.duplicateField layout field.name)
    checkKind layouts layout field
    checkFields layouts layout (field.name :: seen) rest

/-- A layout is sound among `layouts`. -/
def check (layouts : List Layout) (layout : Layout) : Except LayoutError Unit := do
  checkFields layouts layout.id [] layout.fields
  if 1 < layout.fields.countP layout.isLink then throw (.severalLinks layout.id)

/-- Ranks a layout after what it contains by value: `ranked` holds the layouts
done so far, `waiting` those not yet entered on the way here. A layout in
neither is being entered from inside itself. -/
def rank (waiting ranked : List Layout) (id : LayoutId) : Except LayoutError (List Layout) :=
  if (find? ranked id).isSome then .ok ranked
  else match _h : find? waiting id with
    | none => .error (.recursive id)
    | some layout => do
      let inner := waiting.eraseP (·.id == id)
      let ranked ← layout.fields.foldlM (fun ranked field =>
        match field.kind.embedded? with
        | none => .ok ranked
        | some nested => rank inner ranked nested) ranked
      return layout :: ranked
termination_by waiting.length
decreasing_by
  have hmem := List.mem_of_find?_eq_some _h
  have hp := List.find?_some _h
  have := List.length_eraseP_of_mem (p := (·.id == id)) hmem hp
  have := List.length_pos_of_mem hmem
  omega

/-- The packed size of a layout, given the sizes of the layouts inside it: its fields
are added up in order. -/
def byteSize (sizeOf : LayoutId → Nat) (layout : Layout) : Except LayoutError Nat :=
  layout.fields.foldlM (fun size field => do Size.add size (← field.kind.byteSize sizeOf)) 0

/-- The size that a table has for a layout. -/
def sizeIn (table : List (LayoutId × Nat)) (id : LayoutId) : Nat := (table.lookup id).getD 0

/-- Packed sizes, from ranked layouts. -/
def sizeTable : List Layout → Except LayoutError (List (LayoutId × Nat))
  | [] => .ok []
  | layout :: rest => do
    let table ← sizeTable rest
    return (layout.id, ← layout.byteSize (sizeIn table)) :: table

end Layout

/-- Layouts that belong together: names are unique, fields are sound, each layout's
by-value contents come after it in `ranked`, and `sizes` are the packed sizes. -/
structure LayoutSet where
  layouts : List Layout
  ranked : List Layout
  sizes : List (LayoutId × Nat)
  sizes_eq : Layout.sizeTable ranked = .ok sizes
deriving DecidableEq

namespace LayoutSet

/-- A set of layouts, or the first defect. Names are checked first, then each
layout in order, then that no layout lies inside itself, then the sizes. -/
def ofList (layouts : List Layout) : Except LayoutError LayoutSet := do
  Layout.checkIds [] layouts
  layouts.forM (Layout.check layouts)
  let ranked ← layouts.foldlM (fun ranked layout => Layout.rank layouts ranked layout.id) []
  match h : Layout.sizeTable ranked with
  | .error overflow => throw overflow
  | .ok sizes => return { layouts, ranked, sizes, sizes_eq := h }

/-- A layout by name. -/
def get? (set : LayoutSet) (id : LayoutId) : Option Layout :=
  Layout.find? set.layouts id

/-- Whether a layout is in the set. -/
def contains (set : LayoutSet) (id : LayoutId) : Bool :=
  (set.get? id).isSome

/-- The packed size of a layout. -/
def byteSize? (set : LayoutSet) (id : LayoutId) : Option Nat :=
  set.sizes.lookup id

end LayoutSet

end RecordBridge

import RecordBridge.Layout.Kind
/-!
# Layout and record errors

Why a list of layouts is no layout set, and why a record operation was refused.

| here | operation |
| --- | --- |
| `LayoutError.message` | the `Display` of a `LayoutError` |
| `Size.add` and `Size.mul` | the `+=` and `*` on sizes, which are refused beyond 64 bits |
-/
namespace RecordBridge

/-- A defect in a list of layouts, or a refused record operation. -/
inductive LayoutError where
  /-- A layout has no name. -/
  | emptyId
  /-- Two layouts have one name. -/
  | duplicateLayout (layout : LayoutId)
  /-- Two fields of a layout have one name. -/
  | duplicateField (layout : LayoutId) (field : String)
  /-- A layout is named that does not exist. -/
  | unknownLayout (layout : LayoutId)
  /-- An integer field is not 1 to 8 bytes wide. -/
  | intWidth (layout : LayoutId) (field : String) (width : UInt8)
  /-- A character buffer has no bytes. -/
  | emptyText (layout : LayoutId) (field : String)
  /-- An array has no elements. -/
  | emptyArray (layout : LayoutId) (field : String)
  /-- A layout lies inside itself. -/
  | recursive (layout : LayoutId)
  /-- A layout has more than one link. -/
  | severalLinks (layout : LayoutId)
  /-- A list field's node layout has no link. -/
  | missingLink (layout : LayoutId) (field : String)
  /-- A record has no such field. -/
  | unknownField (layout : LayoutId) (field : String)
  /-- A slot does not hold what was asked of it. -/
  | slotKind (layout : LayoutId) (field : String) (expected : String)
  /-- A list node has another layout than its list. -/
  | layoutMismatch (expected found : LayoutId)
  /-- A size does not fit in 64 bits, where the program stops. -/
  | sizeOverflow
deriving DecidableEq, Repr

/-- The wording of an error. -/
def LayoutError.message : LayoutError → String
  | .emptyId => "layout name must not be empty"
  | .duplicateLayout layout => s!"duplicate layout {layout}"
  | .duplicateField layout field => s!"duplicate field {field} in layout {layout}"
  | .unknownLayout layout => s!"unknown layout {layout}"
  | .intWidth layout field width => s!"invalid integer width {width} for {layout}.{field}"
  | .emptyText layout field => s!"fixed string {layout}.{field} must have a non-zero length"
  | .emptyArray layout field => s!"fixed array {layout}.{field} must have a non-zero count"
  | .recursive layout => s!"layout {layout} contains itself by value"
  | .severalLinks layout => s!"layout {layout} declares more than one list link"
  | .missingLink layout field =>
    s!"list field {field} points at {layout}, which has no link field"
  | .unknownField layout field => s!"no field {field} in layout {layout}"
  | .slotKind layout field expected => s!"{layout}.{field} is not a {expected} slot"
  | .layoutMismatch expected found => s!"expected a {expected} record, got {found}"
  | .sizeOverflow => "size overflows 64 bits"

/-! ## Sizes

Sizes are 64-bit numbers, and the arithmetic on them is checked. -/

namespace Size

/-- A size, if 64 bits hold it. -/
def fit (size : Nat) : Except LayoutError Nat :=
  if size < UInt64.size then .ok size else .error .sizeOverflow

/-- The sum of two sizes. -/
def add (one other : Nat) : Except LayoutError Nat := fit (one + other)

/-- The product of two sizes. -/
def mul (count size : Nat) : Except LayoutError Nat := fit (count * size)

end Size

end RecordBridge

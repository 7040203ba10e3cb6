import RecordBridge.Layout.Kind
/-!
# Record layouts

A layout names a record and lists its fields in storage order. A layout whose
records form linked lists has a *link*: a list field of its own layout, which
holds the rest of the list.

| here | operation |
| --- | --- |
| `Layout.fieldIndex?` | `RecordLayout::field_index` |
| `Layout.field?` | `RecordLayout::field_by_name` |
| `Layout.linkIndex?` | `RecordLayout::link_field` |
-/
namespace RecordBridge

/-- A named field of a record. -/
structure Layout.Field where
  name : String
  kind : FieldKind
deriving DecidableEq, Repr

/-- The fields of a record, in storage order. -/
structure Layout where
  id : LayoutId
  fields : List Layout.Field
deriving DecidableEq, Repr

namespace Layout

/-- The position of a field. -/
def fieldIndex? (layout : Layout) (name : String) : Option Nat :=
  layout.fields.findIdx? (·.name == name)

/-- A field by name. -/
def field? (layout : Layout) (name : String) : Option Field :=
  layout.fields.find? (·.name == name)

/-- Whether a field is a list of the layout's own records. -/
def isLink (layout : Layout) (field : Field) : Bool :=
  field.kind == .list layout.id

/-- The position of the link. -/
def linkIndex? (layout : Layout) : Option Nat :=
  layout.fields.findIdx? layout.isLink

end Layout

end RecordBridge

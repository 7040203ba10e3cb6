/-!
# Kinds of record fields

A record field is an integer, a flag, text stored inline or behind a pointer,
or other records: one embedded, a fixed array of them, or a linked list.
`wrapInt` is what storing an integer in a field of a given width keeps of it.

| here | operation |
| --- | --- |
| `FieldKind.layout?` | `FieldKind::nested_layout` |
| `FieldKind.isScalar` | `FieldKind::is_scalar` |
| `FieldKind.textLength?` | `FieldKind::text_len`, whose product stops at the largest 64-bit number |
| `FieldKind.describe` | the `Display` of a `FieldKind` |
| `wrapInt` | `normalize_int` |
-/
namespace RecordBridge

/-- The name of a record layout. -/
abbrev LayoutId := String

/-- Bytes of a pointer-sized slot: an owned text or a list link. -/
def pointerSize : Nat := 8

/-- What a record field holds. -/
inductive FieldKind where
  /-- An integer of `width` bytes. -/
  | int (width : UInt8) (signed : Bool)
  /-- A one-byte flag. -/
  | bool
  /-- An inline character buffer of `length` bytes. -/
  | fixedText (length : UInt64)
  /-- A pointer to a text. -/
  | ownedText
  /-- Inline character rows, carried as the one text that starts the first row. -/
  | textRows (count length : UInt64)
  /-- An embedded record. -/
  | nested (layout : LayoutId)
  /-- An embedded array of `count` records. -/
  | array (layout : LayoutId) (count : UInt64)
  /-- A pointer to the head of a linked list of records. -/
  | list (layout : LayoutId)
deriving DecidableEq, Repr

namespace FieldKind

/-- The layout of the records a field holds. -/
def layout? : FieldKind → Option LayoutId
  | .nested layout | .array layout _ | .list layout => some layout
  | _ => none

/-- The layout of the records stored inside the field itself. -/
def embedded? : FieldKind → Option LayoutId
  | .nested layout | .array layout _ => some layout
  | _ => none

/-- Whether the field holds no records. -/
def isScalar (kind : FieldKind) : Bool := kind.layout?.isNone

/-- The length of an inline character buffer. That of rows stays at the largest 64-bit
number where their product lies beyond it. -/
def textLength? : FieldKind → Option Nat
  | .fixedText length => some length.toNat
  | .textRows count length => some (min (count.toNat * length.toNat) (UInt64.size - 1))
  | _ => none

/-- The kind as a declaration in a record. -/
def describe : FieldKind → String
  | .int width signed => (if signed then "int" else "uint") ++ toString (width.toNat * 8)
  | .bool => "bool"
  | .fixedText length => s!"char[{length}]"
  | .ownedText => "char*"
  | .textRows count length => s!"char[{count}][{length}]"
  | .nested layout => s!"struct {layout}"
  | .array layout count => s!"struct {layout}[{count}]"
  | .list layout => s!"struct {layout}*"

end FieldKind

/-- How many integers a field of a width tells apart, for the widths that wrap. -/
def wrapSize? (width : UInt8) : Option Nat :=
  if width = 1 then some UInt8.size
  else if width = 2 then some UInt16.size
  else if width = 4 then some UInt32.size
  else none

/-- Wraps an integer to the range of a `width`-byte field. Widths other than
1, 2 and 4 keep the value. -/
def wrapInt (width : UInt8) (signed : Bool) (value : Int64) : Int64 :=
  match wrapSize? width with
  | some size => .ofInt (if signed then value.toInt.bmod size else value.toInt % size)
  | none => value

end RecordBridge

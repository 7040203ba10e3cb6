import RecordBridge.Layout.Set
import RecordBridge.Text.FixedBuffer
/-!
# Records

A record has one slot per field of its layout. Embedded records are owned by
their slot. A linked list is the way its nodes are linked: a list slot holds
the head node, whose link slot holds the next one; `Record.nodes` is the list
that a walk along the links meets.

| here | operation |
| --- | --- |
| `Record.empty`, `isEmpty` | `RecordBuffer::empty`, `is_empty` |
| `Record.slot?`, `next?` | `RecordBuffer::slot`, `next_node` |
| `Record.list?` | `RecordBuffer::list_at` and the steps of `ListIter` |
| `Slot.fits` | `Slot::matches` |
| `Slot.stored` | the wrapping in `RecordBuffer::set_slot` |
| `FieldKind.slotName` | `expected_name` |
| `Slot.kindName` | `Slot::kind_name` |
-/
namespace RecordBridge

mutual

/-- The content of a record field. -/
inductive Slot where
  /-- An integer, wrapped to the width of its field. -/
  | int (value : Int64)
  | bool (value : Bool)
  /-- An inline character buffer. -/
  | bytes (buffer : List UInt8)
  /-- A text behind a pointer; `none` is the null pointer. -/
  | text (value : Option String)
  /-- An embedded record. -/
  | record (value : Record)
  /-- An embedded array. -/
  | array (elements : List Record)
  /-- The head of a linked list; `none` ends it. -/
  | link (head : Option Record)

/-- A layout and one slot per field of it. -/
inductive Record where
  | mk (layout : Layout) (slots : List Slot)

end

namespace Record

/-- The layout of a record. -/
def layout : Record → Layout
  | mk layout _ => layout

/-- The slots of a record, in field order. -/
def slots : Record → List Slot
  | mk _ slots => slots

/-- The name of a record's layout. -/
def layoutId (record : Record) : LayoutId := record.layout.id

/-- The record without layout and fields, which stands for unknown traffic. -/
def empty : Record := mk ⟨"", []⟩ []

/-- Whether a record is the one without layout and fields. -/
def isEmpty (record : Record) : Bool :=
  record.layoutId == "" && record.slots.isEmpty

/-- The slot at a position. -/
def slot? (record : Record) (index : Nat) : Option Slot := record.slots[index]?

/-- The node after a list node: the head held by its link. -/
def next? (record : Record) : Option Record := do
  let index ← record.layout.linkIndex?
  match ← record.slot? index with
  | .link head => head
  | _ => none

mutual

/-- A list node and the nodes linked after it. -/
def nodes : Record → List Record
  | mk layout slots => mk layout slots :: nodesAt (layout.linkIndex?.getD slots.length) slots

/-- The nodes of the list at a position among slots. -/
def nodesAt : Nat → List Slot → List Record
  | _, [] => []
  | 0, slot :: _ => nodesOf slot
  | index + 1, _ :: rest => nodesAt index rest

/-- The nodes of a list slot. -/
def nodesOf : Slot → List Record
  | .link (some head) => head.nodes
  | _ => []

end

/-- The nodes of the list at a position, if there is one. -/
def list? (record : Record) (index : Nat) : Option (List Record) :=
  match record.slot? index with
  | some (.link head) => some (nodesOf (.link head))
  | _ => none

end Record

/-- Whether a slot may stand in a field. -/
def Slot.fits : Slot → FieldKind → Bool
  | .int _, .int .. => true
  | .bool _, .bool => true
  | .text _, .ownedText => true
  | .bytes buffer, kind => kind.textLength? == some buffer.length
  | .record value, .nested layout => value.layoutId == layout
  | .array elements, .array layout count =>
    elements.length == count.toNat && elements.all (·.layoutId == layout)
  | .link head, .list layout => head.all (·.layoutId == layout)
  | _, _ => false

/-- What storing a slot in a field keeps of it: integers wrap to the width. -/
def Slot.stored : Slot → FieldKind → Slot
  | .int value, .int width signed => .int (wrapInt width signed value)
  | slot, _ => slot

/-- What kind of slot a field has, in the words of error messages. -/
def FieldKind.slotName : FieldKind → String
  | .int .. => "integer"
  | .bool => "bool"
  | .fixedText _ | .textRows .. => "fixed string"
  | .ownedText => "owned string"
  | .nested _ => "record"
  | .array .. => "array"
  | .list _ => "list"

/-- The kind of a slot, in the words of error messages. -/
def Slot.kindName : Slot → String
  | .int _ => "integer"
  | .bool _ => "bool"
  | .bytes _ => "fixed string"
  | .text _ => "owned string"
  | .record _ => "record"
  | .array _ => "array"
  | .link _ => "list"

end RecordBridge

import RecordBridge.Record.Basic
/-!
# Zero records

Every layout of a set has a zero record: numbers 0, flags false, buffers of
zero bytes, null pointers, and zero records inside. Ranked layouts make this a
structural recursion: what a record embeds comes later in the list.

| here | operation |
| --- | --- |
| `Slot.zero` | the slot of one field in `RecordBuffer::zeroed` |
| `Record.zero` | `RecordBuffer::zeroed` |
| `LayoutSet.allocate` | `LayoutSet::allocate` |
-/
namespace RecordBridge

namespace Slot

/-- The zero slot of a field, given the zero records of the layouts inside it. -/
def zero (zeroRecord : LayoutId → Except LayoutError Record) :
    FieldKind → Except LayoutError Slot
  | .int .. => .ok (.int 0)
  | .bool => .ok (.bool false)
  | .fixedText length => .ok (.bytes (.replicate length.toNat 0))
  | .textRows count length => return .bytes (.replicate (← Size.mul count.toNat length.toNat) 0)
  | .ownedText => .ok (.text none)
  | .nested layout => return .record (← zeroRecord layout)
  | .array layout count => return .array (.replicate count.toNat (← zeroRecord layout))
  | .list _ => .ok (.link none)

end Slot

/-- The zero record of a layout, from ranked layouts. -/
def Record.zero : List Layout → LayoutId → Except LayoutError Record
  | [], id => .error (.unknownLayout id)
  | layout :: rest, id =>
    if layout.id = id then
      return .mk layout (← layout.fields.mapM fun field => Slot.zero (Record.zero rest) field.kind)
    else Record.zero rest id

/-- A zero record of a layout of the set. -/
def LayoutSet.allocate (set : LayoutSet) (id : LayoutId) : Except LayoutError Record :=
  Record.zero set.ranked id

end RecordBridge

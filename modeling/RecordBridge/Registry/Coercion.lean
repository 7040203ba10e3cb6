import RecordBridge.Record.Basic
import RecordBridge.Message.Basic
/-!
# Coercions

How a scalar record field is carried by a message field. Integers of 1, 2 and 4
bytes travel as `int32`, the unsigned 4-byte ones with their bits reinterpreted;
flags as `bool`; texts, inline or behind a pointer, as `string`, up to their
first NUL. A null pointer travels as the empty text, and an unset message field
stands for its default value.

| here | operation |
| --- | --- |
| `SkipReason.message` | the `Display` of a `SkipReason` |
| `Coercion.ofKind?`, `carrier`, `select` | `Coercion::select`, `message_type_matches` |
| `Coercion.byteSize` | `Coercion::size` |
| `Coercion.toValue?` | `Coercion::to_value` |
| `Coercion.toSlot?` | `Coercion::to_slot` |
-/
namespace RecordBridge

/-- Why a message field is not carried. -/
inductive SkipReason where
  /-- The record has no field of its name. -/
  | missingField
  /-- No message field can carry the record field. -/
  | unhandledKind
  /-- The message field has another type than carries the record field. -/
  | typeMismatch
  /-- The record field links list nodes. -/
  | ownLink
deriving DecidableEq, Repr

/-- The wording of a reason. -/
def SkipReason.message : SkipReason → String
  | .missingField => "no record field with this name"
  | .unhandledKind => "record field type is not handled"
  | .typeMismatch => "record and message field types differ"
  | .ownLink => "field is the list link"

/-- How a scalar field converts. -/
inductive Coercion where
  | int (width : UInt8) (signed : Bool)
  | bool
  | fixedText (length : Nat)
  | ownedText
deriving DecidableEq, Repr

namespace Coercion

/-- The coercion that a kind of record field needs, if there is one for it. -/
def ofKind? : FieldKind → Except LayoutError (Option Coercion)
  | .int width signed =>
    .ok (if (wrapSize? width).isSome then some (.int width signed) else none)
  | .bool => .ok (some .bool)
  | .fixedText length => .ok (some (.fixedText length.toNat))
  | .textRows count length => return some (.fixedText (← Size.mul count.toNat length.toNat))
  | .ownedText => .ok (some .ownedText)
  | .nested _ | .array .. | .list _ => .ok none

/-- The type of message field that carries a coercion. -/
def carrier : Coercion → FieldType
  | .int .. => .int32
  | .bool => .bool
  | .fixedText _ | .ownedText => .string

/-- The coercion between a kind of record field and a type of message field, or why there
is none. -/
def select (kind : FieldKind) (type : FieldType) :
    Except LayoutError (Except SkipReason Coercion) := do
  match ← ofKind? kind with
  | none => return .error .unhandledKind
  | some coercion =>
    return if coercion.carrier = type then .ok coercion else .error .typeMismatch

/-- The bytes the record field takes. -/
def byteSize : Coercion → Nat
  | .int width _ => width.toNat
  | .bool => 1
  | .fixedText length => length
  | .ownedText => pointerSize

/-- The message value of a slot. Slots of another kind have none. -/
def toValue? : Coercion → Slot → Option Value
  | .int width signed, .int value =>
    some (.int32 (Int32.ofInt (wrapInt width signed value).toInt))
  | .bool, .bool value => some (.bool value)
  | .fixedText _, .bytes buffer => some (.string (readText buffer))
  | .ownedText, .text value => some (.string (value.elim "" untilNul))
  | _, _ => none

/-- The slot of a message value, or of an unset field. Values of another type
have none. -/
def toSlot? : Coercion → Option Value → Option Slot
  | .int width signed, some (.int32 value) =>
    some (.int (wrapInt width signed (Int64.ofInt value.toInt)))
  | .int .., none => some (.int 0)
  | .bool, some (.bool value) => some (.bool value)
  | .bool, none => some (.bool false)
  | .fixedText length, some (.string text) => some (.bytes (packText text length))
  | .fixedText length, none => some (.bytes (.replicate length 0))
  | .ownedText, some (.string text) => some (.text (some (untilNul text)))
  | .ownedText, none => some (.text (some ""))
  | _, _ => none

end Coercion

end RecordBridge

import RecordBridge.Wire.Key
/-!
# Message schemas

A schema names a message and lists its fields. Field names serve the program,
field numbers the wire; the type of a field fixes its wire type.

| here | operation |
| --- | --- |
| `FieldType.schema?`, `isScalar` | `FieldType::message_schema`, `is_scalar` |
| `FieldType.wireType` | `wire_type_of` |
| `FieldType.describe` | the `Display` of a `FieldType` |
| `Schema.fieldIndex?`, `numberIndex?` | `MessageSchema::field_index`, `field_by_number` |
-/
namespace RecordBridge

/-- The name of a message schema. -/
abbrev SchemaId := String

/-- What a message field holds. -/
inductive FieldType where
  | int32
  | bool
  | string
  /-- An embedded message. -/
  | message (schema : SchemaId)
  /-- A list of embedded messages. -/
  | repeated (schema : SchemaId)
deriving DecidableEq, Repr

namespace FieldType

/-- The schema of the messages a field holds. -/
def schema? : FieldType → Option SchemaId
  | .message schema | .repeated schema => some schema
  | _ => none

/-- Whether the field holds no messages. -/
def isScalar (type : FieldType) : Bool := type.schema?.isNone

/-- The wire type the field is encoded with. -/
def wireType : FieldType → WireType
  | .int32 | .bool => .varint
  | .string | .message _ | .repeated _ => .lengthDelimited

/-- The type as a declaration in a message. -/
def describe : FieldType → String
  | .int32 => "int32"
  | .bool => "bool"
  | .string => "string"
  | .message schema => schema
  | .repeated schema => s!"repeated {schema}"

end FieldType

/-- A named and numbered field of a message. -/
structure Schema.Field where
  name : String
  number : UInt32
  type : FieldType
deriving DecidableEq, Repr

/-- The fields of a message, in the order they are written. -/
structure Schema where
  id : SchemaId
  fields : List Schema.Field
deriving DecidableEq, Repr

namespace Schema

/-- The position of a field by name. -/
def fieldIndex? (schema : Schema) (name : String) : Option Nat :=
  schema.fields.findIdx? (·.name == name)

/-- The position of a field by number. -/
def numberIndex? (schema : Schema) (number : UInt32) : Option Nat :=
  schema.fields.findIdx? (·.number == number)

end Schema

end RecordBridge

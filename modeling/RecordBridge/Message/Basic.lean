import RecordBridge.Schema.Set
/-!
# Messages

A message has an optional value per field of its schema. Values are checked
against the field when they are stored, so a set field always holds a value of
its type; a refused change returns the error and no message.

| here | operation |
| --- | --- |
| `MessageError.message` | the `Display` of a `MessageError` |
| `Value.fits`, `isDefault` | `Value::matches`, `is_default` |
| `Message.blank` | `Message::new` |
| `Message.value?`, `get?`, `has` | `get_index`, `get`, `has` |
| `Message.messageAt?`, `elementsAt`, `elements` | `message`, `list` |
| `Message.index`, `check` | `index_of`, `check` |
| `Message.setAt`, `set`, `clear` | `set_index`, `set`, `clear` |
| `Message.pushAt`, `push` | `push_index`, `push` |
| `SchemaSet.message` | `SchemaSet::message` |
-/
namespace RecordBridge

/-- Why a message was not built or not read. -/
inductive MessageError where
  /-- The bytes are no sequence of fields. -/
  | wire (fault : WireFault)
  /-- A known field has the wrong wire type. -/
  | wireType (field : String) (expected found : WireType)
  /-- A string field is no UTF-8. -/
  | invalidUtf8 (field : String)
  /-- A field reaches past the end. -/
  | truncated (field : String)
  /-- Messages nest too deep. -/
  | depth (limit : Nat)
  /-- A message has no such field. -/
  | unknownField (schema : SchemaId) (field : String)
  /-- A value has another type than its field. -/
  | valueType (schema : SchemaId) (field : String) (expected : String)
deriving DecidableEq, Repr

/-- The wording of an error. -/
def MessageError.message : MessageError → String
  | .wire fault => "invalid protobuf: " ++ fault.message
  | .wireType field expected found =>
    let (expected, found) := (expected.describe, found.describe)
    s!"field {field} expected wire type {expected}, got {found}"
  | .invalidUtf8 field => s!"field {field} is not valid UTF-8"
  | .truncated field => s!"field {field} is truncated"
  | .depth limit => s!"message nesting exceeds recursion limit {limit}"
  | .unknownField schema field => s!"no field {field} in schema {schema}"
  | .valueType schema field expected => s!"{schema}.{field} expects a {expected} value"

/-- The wordings of the errors that caused an error, from the nearest on. -/
def MessageError.causes : MessageError → List String
  | .wire fault => [fault.message]
  | _ => []

mutual

/-- The content of a set message field. -/
inductive Value where
  | int32 (value : Int32)
  | bool (value : Bool)
  | string (value : String)
  /-- An embedded message. -/
  | message (value : Message)
  /-- The elements of a repeated field. -/
  | list (elements : List Message)

/-- A schema and an optional value per field of it. -/
inductive Message where
  | mk (schema : Schema) (values : List (Option Value))

end

namespace Message

/-- The schema of a message. -/
def schema : Message → Schema
  | mk schema _ => schema

/-- The values of a message, in field order. -/
def values : Message → List (Option Value)
  | mk _ values => values

/-- The name of a message's schema. -/
def schemaId (message : Message) : SchemaId := message.schema.id

/-- The message with no field set. -/
def blank (schema : Schema) : Message :=
  mk schema (.replicate schema.fields.length none)

/-- The value at a position, if it is set. -/
def value? (message : Message) (index : Nat) : Option Value :=
  message.values[index]?.join

/-- The embedded message at a position, if it is set. -/
def messageAt? (message : Message) (index : Nat) : Option Message :=
  match message.value? index with
  | some (.message value) => some value
  | _ => none

/-- The elements at a position; none when the field is unset. -/
def elementsAt (message : Message) (index : Nat) : List Message :=
  match message.value? index with
  | some (.list elements) => elements
  | _ => []

/-- The value of a field, if it is set. -/
def get? (message : Message) (name : String) : Option Value := do
  message.value? (← message.schema.fieldIndex? name)

/-- Whether a field is set. -/
def has (message : Message) (name : String) : Bool :=
  (message.get? name).isSome

/-- The elements of a field; none when it is unset. -/
def elements (message : Message) (name : String) : List Message :=
  match message.get? name with
  | some (.list elements) => elements
  | _ => []

end Message

namespace Value

/-- Whether a value may stand in a field. -/
def fits : Value → FieldType → Bool
  | .int32 _, .int32 => true
  | .bool _, .bool => true
  | .string _, .string => true
  | .message value, .message schema => value.schemaId == schema
  | .list elements, .repeated schema => elements.all (·.schemaId == schema)
  | _, _ => false

/-- Whether writing a message leaves the value out. -/
def isDefault : Value → Bool
  | .int32 value => value == 0
  | .bool value => !value
  | .string value => value.isEmpty
  | .message _ => false
  | .list elements => elements.isEmpty

end Value

namespace Message

/-- Puts a value at a position, unchecked. -/
def put (message : Message) (index : Nat) (value : Option Value) : Message :=
  mk message.schema (message.values.set index value)

/-- The position of a field, or the error that there is none. -/
def index (message : Message) (name : String) : Except MessageError Nat :=
  match message.schema.fieldIndex? name with
  | some index => .ok index
  | none => .error (.unknownField message.schemaId name)

/-- A value may stand at a position. -/
def check (message : Message) (index : Nat) (value : Value) : Except MessageError Unit :=
  match message.schema.fields[index]? with
  | none => .error (.unknownField message.schemaId s!"#{index}")
  | some field =>
    if value.fits field.type then .ok ()
    else .error (.valueType message.schemaId field.name field.type.describe)

/-- Sets the field at a position. -/
def setAt (message : Message) (index : Nat) (value : Value) : Except MessageError Message := do
  message.check index value
  return message.put index (some value)

/-- Sets a field. -/
def set (message : Message) (name : String) (value : Value) : Except MessageError Message := do
  message.setAt (← message.index name) value

/-- Unsets a field. -/
def clear (message : Message) (name : String) : Except MessageError Message := do
  return message.put (← message.index name) none

/-- Appends elements at a position. Without elements nothing is done. -/
def appendAt (message : Message) (index : Nat) (elements : List Message) :
    Except MessageError Message := do
  if elements.isEmpty then return message
  message.check index (.list elements)
  return message.put index (some (.list (message.elementsAt index ++ elements)))

/-- Appends an element at a position. -/
def pushAt (message : Message) (index : Nat) (element : Message) :
    Except MessageError Message :=
  message.appendAt index [element]

/-- Appends an element to a field. -/
def push (message : Message) (name : String) (element : Message) :
    Except MessageError Message := do
  message.pushAt (← message.index name) element

end Message

/-- A message of a schema of the set, with no field set. -/
def SchemaSet.message (set : SchemaSet) (id : SchemaId) : Except SchemaError Message :=
  match set.get? id with
  | some schema => .ok (.blank schema)
  | none => .error (.unknownSchema id)

end RecordBridge

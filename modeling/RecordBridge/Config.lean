import RecordBridge.Json.Printer
import RecordBridge.Json.Reader
import RecordBridge.Registry.Basic
/-!
# Registry configurations

A configuration holds the layouts, schemas and descriptors of a registry, as
they are stored in JSON. Writing one and reading it back gives the same
configuration.

Structures are objects, or arrays of their fields in order; unknown keys are
ignored, known ones may not repeat. A kind or type without parameters is its
name; one with parameters is an object from its name to them.

| here | operation |
| --- | --- |
| `Config.read?` | `RegistryConfig::from_json` |
| `Config.write` | `RegistryConfig::to_json` |
| `Config.build` | `RegistryConfig::build` |
-/
namespace RecordBridge

/-- The tables of a registry. -/
structure Config where
  layouts : List Layout
  schemas : List Schema
  descriptors : List Descriptor
deriving DecidableEq

namespace Config

/-! ## Reading -/

/-- The fields of a structure, by name or by position. -/
def fields? (names : List String) : Json → Option (List (Option Json))
  | .object entries =>
    names.mapM fun name =>
      match entries.filter (·.1 == name) with
      | [] => some none
      | [(_, value)] => some (some value)
      | _ => none
  | .array items =>
    if items.length ≤ names.length then
      some ((items.map some).rightpad names.length none)
    else none
  | _ => none

/-- A natural number below a bound. -/
def nat? (bound : Nat) : Option Json → Option Nat
  | some (.integer n) => if 0 ≤ n ∧ n < bound then some n.toNat else none
  | _ => none

/-- A text. -/
def text? : Option Json → Option String
  | some (.string value) => some value
  | _ => none

/-- A truth value. -/
def bool? : Option Json → Option Bool
  | some (.bool value) => some value
  | _ => none

/-- A list. -/
def list? (item? : Json → Option α) : Option Json → Option (List α)
  | some (.array items) => items.mapM item?
  | _ => none

/-- A list that may be left out. -/
def listOrEmpty? (item? : Json → Option α) : Option Json → Option (List α)
  | none => some []
  | found => list? item? found

/-- A choice among alternatives: its name, and its parameters if it has any. -/
def choice? : Json → Option (String × Json)
  | .string name => some (name, .null)
  | .object [(name, value)] => some (name, value)
  | _ => none

/-- A size of 64 bits. -/
def size? (found : Option Json) : Option UInt64 :=
  (nat? UInt64.size found).map UInt64.ofNat

/-- A record field kind. -/
def kind? (json : Json) : Option FieldKind := do
  match ← choice? json with
  | ("scalar_int", value) =>
    match ← fields? ["width", "signed"] value with
    | [width, signed] => return .int (UInt8.ofNat (← nat? UInt8.size width)) (← bool? signed)
    | _ => none
  | ("scalar_bool", .null) => return .bool
  | ("fixed_string", value) =>
    match ← fields? ["length"] value with
    | [length] => return .fixedText (← size? length)
    | _ => none
  | ("owned_string", .null) => return .ownedText
  | ("fixed_string_array", value) =>
    match ← fields? ["count", "length"] value with
    | [count, length] => return .textRows (← size? count) (← size? length)
    | _ => none
  | ("nested_single", value) =>
    match ← fields? ["layout"] value with
    | [layout] => return .nested (← text? layout)
    | _ => none
  | ("nested_fixed_array", value) =>
    match ← fields? ["layout", "count"] value with
    | [layout, count] => return .array (← text? layout) (← size? count)
    | _ => none
  | ("nested_flexible_list", value) =>
    match ← fields? ["layout"] value with
    | [layout] => return .list (← text? layout)
    | _ => none
  | _ => none

/-- A record field. -/
def layoutField? (json : Json) : Option Layout.Field := do
  match ← fields? ["name", "kind"] json with
  | [name, some kind] => return ⟨← text? name, ← kind? kind⟩
  | _ => none

/-- A layout. -/
def layout? (json : Json) : Option Layout := do
  match ← fields? ["id", "fields"] json with
  | [id, fields] => return ⟨← text? id, ← list? layoutField? fields⟩
  | _ => none

/-- A message field type. -/
def type? (json : Json) : Option FieldType := do
  match ← choice? json with
  | ("int32", .null) => return .int32
  | ("bool", .null) => return .bool
  | ("string", .null) => return .string
  | ("message", .string schema) => return .message schema
  | ("repeated", .string schema) => return .repeated schema
  | _ => none

/-- A message field. -/
def schemaField? (json : Json) : Option Schema.Field := do
  match ← fields? ["name", "number", "type"] json with
  | [name, number, some type] =>
    return ⟨← text? name, UInt32.ofNat (← nat? UInt32.size number), ← type? type⟩
  | _ => none

/-- A schema. -/
def schema? (json : Json) : Option Schema := do
  match ← fields? ["id", "fields"] json with
  | [id, fields] => return ⟨← text? id, ← list? schemaField? fields⟩
  | _ => none

/-- A text that may be null or left out. -/
def optionalText? : Option Json → Option (Option String)
  | none | some .null => some none
  | found => (text? found).map some

/-- A descriptor. -/
def descriptor? (json : Json) : Option Descriptor := do
  match ← fields? ["opcode", "record_layout", "message_schema", "repeated_field_name"] json with
  | [opcode, layout, schema, repeatedField] =>
    return ⟨UInt16.ofNat (← nat? UInt16.size opcode), ← text? layout, ← text? schema,
      ← optionalText? repeatedField⟩
  | _ => none

/-- A configuration. -/
def ofJson? (json : Json) : Option Config := do
  match ← fields? ["layouts", "schemas", "opcodes"] json with
  | [layouts, schemas, opcodes] =>
    return ⟨← listOrEmpty? layout? layouts, ← listOrEmpty? schema? schemas,
      ← listOrEmpty? descriptor? opcodes⟩
  | _ => none

/-- Reads a configuration. -/
def read? (text : String) : Option Config :=
  (Json.parse? text).bind ofJson?

/-! ## Writing -/

/-- A natural number. -/
def natJson (n : Nat) : Json := .integer n

/-- A record field kind. -/
def kindJson : FieldKind → Json
  | .int width signed =>
    .object [("scalar_int", .object [("width", natJson width.toNat), ("signed", .bool signed)])]
  | .bool => .string "scalar_bool"
  | .fixedText length => .object [("fixed_string", .object [("length", natJson length.toNat)])]
  | .ownedText => .string "owned_string"
  | .textRows count length =>
    .object [("fixed_string_array",
      .object [("count", natJson count.toNat), ("length", natJson length.toNat)])]
  | .nested layout => .object [("nested_single", .object [("layout", .string layout)])]
  | .array layout count =>
    .object [("nested_fixed_array",
      .object [("layout", .string layout), ("count", natJson count.toNat)])]
  | .list layout => .object [("nested_flexible_list", .object [("layout", .string layout)])]

/-- A layout. -/
def layoutJson (layout : Layout) : Json :=
  .object [("id", .string layout.id), ("fields", .array (layout.fields.map fun field =>
    .object [("name", .string field.name), ("kind", kindJson field.kind)]))]

/-- A message field type. -/
def typeJson : FieldType → Json
  | .int32 => .string "int32"
  | .bool => .string "bool"
  | .string => .string "string"
  | .message schema => .object [("message", .string schema)]
  | .repeated schema => .object [("repeated", .string schema)]

/-- A schema. -/
def schemaJson (schema : Schema) : Json :=
  .object [("id", .string schema.id), ("fields", .array (schema.fields.map fun field =>
    .object [("name", .string field.name), ("number", natJson field.number.toNat),
      ("type", typeJson field.type)]))]

/-- A descriptor. An absent repeated field is left out. -/
def descriptorJson (descriptor : Descriptor) : Json :=
  .object ([("opcode", natJson descriptor.opcode.toNat),
    ("record_layout", .string descriptor.layout), ("message_schema", .string descriptor.schema)]
    ++ descriptor.repeatedField.toList.map fun name => ("repeated_field_name", .string name))

/-- A configuration. -/
def toJson (config : Config) : Json :=
  .object [("layouts", .array (config.layouts.map layoutJson)),
    ("schemas", .array (config.schemas.map schemaJson)),
    ("opcodes", .array (config.descriptors.map descriptorJson))]

/-- Writes a configuration. -/
def write (config : Config) : String := config.toJson.pretty

/-- Builds the registry of a configuration. -/
def build (config : Config) : Except RegistryError Registry :=
  Registry.ofLists config.layouts config.schemas config.descriptors

end Config

end RecordBridge

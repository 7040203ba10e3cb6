import RecordBridge.Schema.Basic
/-!
# Schema sets

`SchemaSet.ofList` accepts a list of schemas whose names are unique and whose
fields have unique names, unique numbers that may be used on the wire, and
types that refer to schemas of the list.

| here | operation |
| --- | --- |
| `SchemaError.message` | the `Display` of a `SchemaError` |
| `Schema.checkIds`, `checkFields`, `check` | `SchemaSet::new`, `validate_schema` |
| `SchemaSet.ofList` | `SchemaSet::new` |
| `SchemaSet.get?`, `contains` | `SchemaSet::get`, `contains` |
-/
namespace RecordBridge

/-- A defect in a list of schemas. -/
inductive SchemaError where
  /-- A schema has no name. -/
  | emptyId
  /-- Two schemas have one name. -/
  | duplicateSchema (schema : SchemaId)
  /-- Two fields of a schema have one name. -/
  | duplicateName (schema : SchemaId) (field : String)
  /-- Two fields of a schema have one number. -/
  | duplicateNumber (schema : SchemaId) (number : UInt32)
  /-- A field number is zero, too large or reserved. -/
  | fieldNumber (schema : SchemaId) (field : String) (number : UInt32)
  /-- A schema is named that does not exist. -/
  | unknownSchema (schema : SchemaId)
deriving DecidableEq, Repr

/-- The wording of an error. -/
def SchemaError.message : SchemaError → String
  | .emptyId => "schema name must not be empty"
  | .duplicateSchema schema => s!"duplicate schema {schema}"
  | .duplicateName schema field => s!"duplicate field {field} in schema {schema}"
  | .duplicateNumber schema number => s!"duplicate field number {number} in schema {schema}"
  | .fieldNumber schema field number => s!"invalid field number {number} for {schema}.{field}"
  | .unknownSchema schema => s!"unknown schema {schema}"

namespace Schema

/-- The largest field number. -/
def maxNumber : UInt32 := 536870911

/-- Whether a field may have a number: from 1 to `maxNumber`, but not 19000 to
19999, which are reserved. -/
def isNumber (number : UInt32) : Bool :=
  number ≠ 0 ∧ number ≤ maxNumber ∧ ¬ (19000 ≤ number ∧ number ≤ 19999)

/-- Schema names are present and distinct from those in `seen`. -/
def checkIds (seen : List SchemaId) : List Schema → Except SchemaError Unit
  | [] => .ok ()
  | schema :: rest =>
    if schema.id = "" then .error .emptyId
    else if schema.id ∈ seen then .error (.duplicateSchema schema.id)
    else checkIds (schema.id :: seen) rest

/-- The schema of a name. -/
def find? (schemas : List Schema) (id : SchemaId) : Option Schema :=
  schemas.find? (·.id == id)

/-- Fields are sound, and distinct from each other and from the names and
numbers seen. -/
def checkFields (schemas : List Schema) (schema : SchemaId) (names : List String)
    (numbers : List UInt32) : List Field → Except SchemaError Unit
  | [] => .ok ()
  | field :: rest => do
    if field.name ∈ names then throw (.duplicateName schema field.name)
    if !isNumber field.number then throw (.fieldNumber schema field.name field.number)
    if field.number ∈ numbers then throw (.duplicateNumber schema field.number)
    match field.type.schema? with
    | some nested => if (find? schemas nested).isNone then throw (.unknownSchema nested)
    | none => pure ()
    checkFields schemas schema (field.name :: names) (field.number :: numbers) rest

/-- A schema is sound among `schemas`. -/
def check (schemas : List Schema) (schema : Schema) : Except SchemaError Unit :=
  checkFields schemas schema.id [] [] schema.fields

end Schema

/-- Schemas that belong together. -/
structure SchemaSet where
  schemas : List Schema
deriving DecidableEq

namespace SchemaSet

/-- A set of schemas, or the first defect. Names are checked first, then each
schema in order. -/
def ofList (schemas : List Schema) : Except SchemaError SchemaSet := do
  Schema.checkIds [] schemas
  schemas.forM (Schema.check schemas)
  return { schemas }

/-- A schema by name. -/
def get? (set : SchemaSet) (id : SchemaId) : Option Schema :=
  Schema.find? set.schemas id

/-- Whether a schema is in the set. -/
def contains (set : SchemaSet) (id : SchemaId) : Bool :=
  (set.get? id).isSome

end SchemaSet

end RecordBridge

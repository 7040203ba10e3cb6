import RecordBridge.Opcode
import RecordBridge.Registry.Coercion
/-!
# Binding plans

A descriptor says that an opcode carries records of a layout as messages of a
schema. Its plan goes through the message fields in order and pairs each with
the record field of its name, or says why it is skipped. Records inside records
are carried by the opcode of their layout. The elements of an array or a list
go to the repeated field that their opcode's descriptor names, or else to the
field itself.

| here | operation |
| --- | --- |
| `RegistryError.message`, `causes` | the `Display` and the source of a `RegistryError` |
| `Plan.bound`, `skipped`, `occupied` | `BindingPlan::bound`, `skipped`, `occupied_size` |
| `Descriptor.carriers`, `carrier?` | `reverse_map`, looked up |
| `Descriptor.inner` | `resolve_nested` |
| `Descriptor.target` | `resolve_target` |
| `Plan.action`, `item` | one field in `BindingPlan::compile` |
| `Plan.compile` | `BindingPlan::compile` |
-/
namespace RecordBridge

/-- An opcode with the record layout and the message schema it carries. -/
structure Descriptor where
  opcode : UInt16
  layout : LayoutId
  schema : SchemaId
  /-- The repeated field that takes records of this opcode inside a parent. -/
  repeatedField : Option String
deriving DecidableEq, Repr

/-- Why descriptors are no registry. -/
inductive RegistryError where
  /-- Two descriptors have one opcode. -/
  | duplicateOpcode (opcode : UInt16)
  /-- A descriptor names a layout that does not exist. -/
  | missingLayout (opcode : UInt16) (layout : LayoutId)
  /-- A descriptor names a schema that does not exist. -/
  | missingSchema (opcode : UInt16) (schema : SchemaId)
  /-- The records inside a field have no opcode. -/
  | missingNestedOpcode (opcode : UInt16) (field : String) (layout : LayoutId)
  /-- The repeated field for the records inside a field does not exist. -/
  | missingRepeatedField (opcode : UInt16) (field target : String)
  /-- The layouts are no layout set. -/
  | layout (error : LayoutError)
  /-- The schemas are no schema set. -/
  | schema (error : SchemaError)
deriving DecidableEq, Repr

/-- The wording of an error. -/
def RegistryError.message : RegistryError → String
  | .duplicateOpcode opcode => "duplicate opcode " ++ showOpcode opcode
  | .missingLayout opcode id =>
    let opcode := showOpcode opcode
    s!"opcode {opcode} references unknown layout {id}"
  | .missingSchema opcode id =>
    let opcode := showOpcode opcode
    s!"opcode {opcode} references unknown schema {id}"
  | .missingNestedOpcode opcode field id =>
    let opcode := showOpcode opcode
    s!"field {field} of opcode {opcode} nests layout {id}, which has no opcode"
  | .missingRepeatedField opcode field target =>
    let opcode := showOpcode opcode
    s!"field {field} of opcode {opcode} targets missing repeated field {target}"
  | .layout error => "layout error: " ++ error.message
  | .schema error => "schema error: " ++ error.message

/-- The wordings of the errors that caused an error, from the nearest on. -/
def RegistryError.causes : RegistryError → List String
  | .layout error => [error.message]
  | .schema error => [error.message]
  | _ => []

namespace Plan

/-- How a record field is carried. -/
inductive Action where
  /-- A scalar, by its coercion. -/
  | scalar (coercion : Coercion)
  /-- An embedded record, by the plan of `opcode`. -/
  | nested (opcode : UInt16)
  /-- The `count` elements of an array, in the repeated field at `target`. -/
  | array (opcode : UInt16) (count target : Nat)
  /-- The nodes of a list, in the repeated field at `target`. -/
  | list (opcode : UInt16) (target : Nat)
deriving DecidableEq, Repr

/-- A message field and the record field it is paired with. -/
structure Entry where
  messageIndex : Nat
  recordIndex : Nat
  action : Action
  /-- Bytes the record field takes. -/
  size : Nat
deriving DecidableEq, Repr

/-- What a plan does with one message field. -/
inductive Item where
  | bind (entry : Entry)
  | skip (field : String) (reason : SkipReason)
deriving DecidableEq, Repr

end Plan

/-- What is done with each message field, in schema order. -/
structure Plan where
  items : List Plan.Item
deriving DecidableEq, Repr

namespace Plan

/-- The paired fields. -/
def bound (plan : Plan) : List Entry :=
  plan.items.filterMap fun | .bind entry => some entry | .skip .. => none

/-- The skipped fields with the reasons. -/
def skipped (plan : Plan) : List (String × SkipReason) :=
  plan.items.filterMap fun | .skip field reason => some (field, reason) | .bind _ => none

/-- Bytes of the paired record fields. -/
def occupied (plan : Plan) : Nat :=
  plan.bound.foldr (fun entry size => entry.size + size) 0

end Plan

namespace Descriptor

/-- The descriptor of an opcode. -/
def find? (descriptors : List Descriptor) (opcode : UInt16) : Option Descriptor :=
  descriptors.find? (·.opcode == opcode)

/-- Enters a descriptor under its layout. One that is there already stays, unless the new
one names a repeated field and it does not. -/
def enter (descriptor : Descriptor) : List (LayoutId × Descriptor) → List (LayoutId × Descriptor)
  | [] => [(descriptor.layout, descriptor)]
  | (layout, held) :: rest =>
    if layout = descriptor.layout then
      if descriptor.repeatedField.isSome ∧ ¬ held.repeatedField.isSome then
        (layout, descriptor) :: rest
      else (layout, held) :: rest
    else (layout, held) :: enter descriptor rest

/-- The descriptors that carry records of each layout inside others, gathered in one pass. -/
def carriers (descriptors : List Descriptor) : List (LayoutId × Descriptor) :=
  descriptors.foldl (fun entered descriptor => enter descriptor entered) []

/-- The descriptor that carries records of a layout inside others. -/
def carrier? (descriptors : List Descriptor) (layout : LayoutId) : Option Descriptor :=
  (carriers descriptors).lookup layout

/-- The descriptor for the records inside a field, which must exist. -/
def inner (descriptors : List Descriptor) (opcode : UInt16) (field : String)
    (layout : LayoutId) : Except RegistryError Descriptor :=
  match carrier? descriptors layout with
  | some found => .ok found
  | none => .error (.missingNestedOpcode opcode field layout)

/-- The position of the repeated field for the elements of a field. It must
exist, and the field is skipped unless it repeats the elements' messages. -/
def target (opcode : UInt16) (schema : Schema) (field : String) (element : Descriptor) :
    Except RegistryError (Except SkipReason Nat) :=
  let name := element.repeatedField.getD field
  match schema.fieldIndex? name with
  | none => .error (.missingRepeatedField opcode field name)
  | some index =>
    if schema.fields[index]?.map (·.type) = some (.repeated element.schema) then .ok (.ok index)
    else .ok (.error .typeMismatch)

end Descriptor

namespace Plan

/-- How a message field carries the record field of its name, and the bytes of
that; or the reason why it does not. -/
def action (layouts : LayoutSet) (descriptors : List Descriptor) (opcode : UInt16)
    (layout : Layout) (schema : Schema) (field : Schema.Field) (kind : FieldKind) :
    Except RegistryError (Except SkipReason (Action × Nat)) :=
  let sizeOf (id : LayoutId) : Nat := (layouts.byteSize? id).getD 0
  match kind with
  | .nested inner => do
    let found ← Descriptor.inner descriptors opcode field.name inner
    if field.type = .message found.schema then
      return .ok (.nested found.opcode, sizeOf inner)
    else return .error .typeMismatch
  | .array element count => do
    let found ← Descriptor.inner descriptors opcode field.name element
    match ← Descriptor.target opcode schema field.name found with
    | .error reason => return .error reason
    | .ok target =>
      let size ← (Size.mul count.toNat (sizeOf element)).mapError .layout
      return .ok (.array found.opcode count.toNat target, size)
  | .list node =>
    if node = layout.id then .ok (.error .ownLink)
    else do
      let found ← Descriptor.inner descriptors opcode field.name node
      return (← Descriptor.target opcode schema field.name found).map fun target =>
        (.list found.opcode target, pointerSize)
  | kind => do
    let selected ← (Coercion.select kind field.type).mapError .layout
    return selected.map fun coercion => (.scalar coercion, coercion.byteSize)

/-- The item of the message field at a position. -/
def item (layouts : LayoutSet) (descriptors : List Descriptor) (opcode : UInt16)
    (layout : Layout) (schema : Schema) (field : Schema.Field) (messageIndex : Nat) :
    Except RegistryError Item :=
  match layout.fieldIndex? field.name, layout.field? field.name with
  | some recordIndex, some found => do
    match ← action layouts descriptors opcode layout schema field found.kind with
    | .ok (action, size) => return .bind { messageIndex, recordIndex, action, size }
    | .error reason => return .skip field.name reason
  | _, _ => .ok (.skip field.name .missingField)

/-- The plan of an opcode, among all descriptors in opcode order. The sizes of its paired
fields must add up. -/
def compile (layouts : LayoutSet) (descriptors : List Descriptor) (opcode : UInt16)
    (layout : Layout) (schema : Schema) : Except RegistryError Plan := do
  let items ← schema.fields.zipIdx.mapM fun (field, messageIndex) =>
    item layouts descriptors opcode layout schema field messageIndex
  let plan : Plan := { items }
  let _ ← (Size.fit plan.occupied).mapError .layout
  return plan

end Plan

end RecordBridge

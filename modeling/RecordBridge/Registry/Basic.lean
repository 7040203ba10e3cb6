import RecordBridge.Registry.Plan
import RecordBridge.Record.Zero
/-!
# The registry

A registry holds layouts, schemas and the descriptors of all opcodes in opcode
order, each with its plan. It is built once, and building it finds everything
that could go wrong later: a plan that `Registry.build` compiled refers to
opcodes, layouts and fields that exist.

| here | operation |
| --- | --- |
| `Descriptor.sort`, `check`, `row`, `Registry.build` | `OpcodeRegistry::new` |
| `Registry.descriptor?`, `plan?`, `layout?`, `schema?` | `lookup`, `plan`, `layout`, `schema` |
| `Registry.opcodeOf?` | `opcode_for_layout` |
| `Registry.record?`, `message?` | `allocate`, `message` |
-/
namespace RecordBridge

/-- A descriptor and its plan. -/
structure Registry.Row where
  descriptor : Descriptor
  plan : Plan
deriving DecidableEq

/-- Layouts, schemas and the opcodes that carry one as the other. -/
structure Registry where
  layouts : LayoutSet
  schemas : SchemaSet
  /-- One row per opcode, in opcode order. -/
  rows : List Registry.Row
deriving DecidableEq

namespace Descriptor

/-- Descriptors in opcode order; equal opcodes stay in the given order. -/
def sort (descriptors : List Descriptor) : List Descriptor :=
  descriptors.mergeSort fun a b => decide (a.opcode ≤ b.opcode)

/-- Descriptors name layouts and schemas that exist, and opcodes distinct from
each other and from those seen. -/
def check (layouts : LayoutSet) (schemas : SchemaSet) (seen : List UInt16) :
    List Descriptor → Except RegistryError Unit
  | [] => .ok ()
  | descriptor :: rest => do
    let opcode := descriptor.opcode
    if opcode ∈ seen then throw (.duplicateOpcode opcode)
    if !layouts.contains descriptor.layout then throw (.missingLayout opcode descriptor.layout)
    if !schemas.contains descriptor.schema then throw (.missingSchema opcode descriptor.schema)
    check layouts schemas (opcode :: seen) rest

/-- The row of a descriptor, among all descriptors in opcode order. -/
def row (layouts : LayoutSet) (schemas : SchemaSet) (descriptors : List Descriptor)
    (descriptor : Descriptor) : Except RegistryError Registry.Row := do
  let opcode := descriptor.opcode
  match layouts.get? descriptor.layout, schemas.get? descriptor.schema with
  | some layout, some schema =>
    return { descriptor, plan := ← Plan.compile layouts descriptors opcode layout schema }
  | none, _ => throw (.missingLayout opcode descriptor.layout)
  | _, none => throw (.missingSchema opcode descriptor.schema)

end Descriptor

namespace Registry

/-- Builds a registry, or finds the first error: descriptors are checked in
opcode order, then their plans are compiled in that order. -/
def build (layouts : LayoutSet) (schemas : SchemaSet) (descriptors : List Descriptor) :
    Except RegistryError Registry := do
  let descriptors := Descriptor.sort descriptors
  Descriptor.check layouts schemas [] descriptors
  let rows ← descriptors.mapM (Descriptor.row layouts schemas descriptors)
  return { layouts, schemas, rows }

/-- Builds the sets and the registry over them. -/
def ofLists (layouts : List Layout) (schemas : List Schema) (descriptors : List Descriptor) :
    Except RegistryError Registry := do
  let layouts ← (LayoutSet.ofList layouts).mapError .layout
  let schemas ← (SchemaSet.ofList schemas).mapError .schema
  build layouts schemas descriptors

/-- The descriptors, in opcode order. -/
def descriptors (registry : Registry) : List Descriptor :=
  registry.rows.map (·.descriptor)

/-- The row of an opcode. -/
def row? (registry : Registry) (opcode : UInt16) : Option Row :=
  registry.rows.find? (·.descriptor.opcode == opcode)

/-- The descriptor of an opcode. -/
def descriptor? (registry : Registry) (opcode : UInt16) : Option Descriptor :=
  (registry.row? opcode).map (·.descriptor)

/-- The plan of an opcode. -/
def plan? (registry : Registry) (opcode : UInt16) : Option Plan :=
  (registry.row? opcode).map (·.plan)

/-- The layout an opcode carries. -/
def layout? (registry : Registry) (opcode : UInt16) : Option Layout := do
  registry.layouts.get? (← registry.descriptor? opcode).layout

/-- The schema an opcode carries. -/
def schema? (registry : Registry) (opcode : UInt16) : Option Schema := do
  registry.schemas.get? (← registry.descriptor? opcode).schema

/-- The opcode that carries records of a layout inside others. -/
def opcodeOf? (registry : Registry) (layout : LayoutId) : Option UInt16 :=
  (Descriptor.carrier? registry.descriptors layout).map (·.opcode)

/-- A zero record for an opcode. -/
def record? (registry : Registry) (opcode : UInt16) : Option Record := do
  (registry.layouts.allocate (← registry.descriptor? opcode).layout).toOption

/-- An empty message for an opcode. -/
def message? (registry : Registry) (opcode : UInt16) : Option Message := do
  (registry.schemas.message (← registry.descriptor? opcode).schema).toOption

end Registry

end RecordBridge

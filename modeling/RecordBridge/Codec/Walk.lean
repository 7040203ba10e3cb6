import RecordBridge.Codec.Diagnostic
import RecordBridge.Record.Access
/-!
# The walk along a plan

Both directions of a conversion go through the plan of an opcode in the same
way: they fill an output from a source item by item, and convert what lies
inside by the plan of its opcode, one level deeper. `Walk.fill` is that walk. A
`Direction` says how a source is read and an output written: `toRecord` turns
messages into records, `toMessage` records into messages.

The walk recurses on the levels still allowed, so it ends whatever the limits.
An error ends it too, and leaves the output filled so far.

| here | operation |
| --- | --- |
| `CodecLimits.default`, `testing`, `none` | `CodecLimits::default`, `for_testing`, `unlimited` |
| `Direction.toRecord`, `Direction.toMessage` | `ToRecord`, `ToMessage` |
| `Walk.fieldName` | `field_name` |
| `Walk.carry` | what `Walk::fill` does with a bound entry |
| `Walk.fillItems` | the loop of `Walk::fill` |
| `Walk.fill` | `Walk::fill` |
| `Walk.run` | `Walk::run` |
-/
namespace RecordBridge

/-- What a conversion allows. -/
structure CodecLimits where
  /-- Nodes of one list in a record. -/
  maxListNodes : Nat
  /-- Levels of records inside records. -/
  maxDepth : Nat
deriving DecidableEq, Repr

namespace CodecLimits

/-- What is allowed unless other limits are set. -/
def default : CodecLimits := ⟨1024, 32⟩

/-- What is allowed in tests. -/
def testing : CodecLimits := ⟨16, 8⟩

/-- Everything. -/
def none : CodecLimits := ⟨unlimited, unlimited⟩

end CodecLimits

/-- What was reported on the way to a result, or to the error that took its place. -/
structure Walk (α : Type) where
  reports : List Diagnostic
  result : Except CodecError α

namespace Walk

instance : Monad Walk where
  pure value := ⟨[], .ok value⟩
  bind walk next :=
    match walk.result with
    | .error error => ⟨walk.reports, .error error⟩
    | .ok value =>
      let rest := next value
      ⟨walk.reports ++ rest.reports, rest.result⟩

/-- Ends with an error. -/
def fail (error : CodecError) : Walk α := ⟨[], .error error⟩

/-- Reports a diagnostic. -/
def report (diagnostic : Diagnostic) : Walk Unit := ⟨[diagnostic], .ok ()⟩

/-- A result without reports. -/
def ofExcept (result : Except CodecError α) : Walk α := ⟨[], result⟩

/-- A result that needs a plan of the opcode. -/
def require (opcode : UInt16) : Option α → Walk α
  | some value => pure value
  | none => fail (.missingPlan opcode)

/-- Converts each of a list. -/
def each (convert : α → Walk β) : List α → Walk (List β)
  | [] => pure []
  | item :: rest => do
    let head ← convert item
    return head :: (← each convert rest)

end Walk

/-- An output with what was reported while filling it, and the error that ended
that early. -/
structure Filled (τ : Type) where
  output : τ
  reports : List Diagnostic
  fault : Option CodecError

/-- The output as a result, if no error ended the filling. -/
def Filled.toWalk (filled : Filled τ) : Walk τ :=
  ⟨filled.reports, match filled.fault with
    | some error => .error error
    | none => .ok filled.output⟩

/-- How one side of a conversion is read and the other one written. -/
structure Direction (σ τ : Type) where
  /-- Whether the lists of a source are held to the node limit. -/
  boundedLists : Bool
  /-- An output with nothing filled in. -/
  fresh : Registry → UInt16 → Option τ
  /-- A source with nothing set, in place of one that is missing. -/
  blank : Registry → UInt16 → Option σ
  /-- Carries a scalar over. -/
  scalar : Plan.Entry → Coercion → σ → τ → Except CodecError τ
  /-- The source inside a field. -/
  child? : Plan.Entry → σ → Option σ
  /-- The sources of the elements of an array. -/
  elements : Plan.Entry → (target : Nat) → σ → List σ
  /-- The sources of the nodes of a list. -/
  nodes : Plan.Entry → (target : Nat) → σ → List σ
  /-- Stores what came from the source inside a field. -/
  putChild : Plan.Entry → τ → τ → Except CodecError τ
  /-- Stores what came from the elements of an array. -/
  putElements : Plan.Entry → (target : Nat) → List τ → τ → Except CodecError τ
  /-- Stores what came from the nodes of a list. -/
  putNodes : Plan.Entry → (target : Nat) → List τ → τ → Except CodecError τ

namespace Direction

/-- Messages to records. -/
def toRecord : Direction Message Record where
  boundedLists := false
  fresh := Registry.record?
  blank := Registry.message?
  scalar entry coercion source output :=
    match coercion.toSlot? (source.value? entry.messageIndex) with
    | some slot => (output.setSlot entry.recordIndex slot).mapError .layout
    | none => .ok output
  child? entry source := source.messageAt? entry.messageIndex
  elements _ target source := source.elementsAt target
  nodes _ target source := source.elementsAt target
  putChild entry child output :=
    (output.setSlot entry.recordIndex (.record child)).mapError .layout
  putElements entry _ elements output :=
    (output.setSlot entry.recordIndex (.array elements)).mapError .layout
  putNodes entry _ nodes output := (output.setListAt entry.recordIndex nodes).mapError .layout

/-- Records to messages. -/
def toMessage : Direction Record Message where
  boundedLists := true
  fresh := Registry.message?
  blank := Registry.record?
  scalar entry coercion source output :=
    match (source.slot? entry.recordIndex).bind coercion.toValue? with
    | some value => (output.setAt entry.messageIndex value).mapError .message
    | none => .ok output
  child? entry source :=
    match source.slot? entry.recordIndex with
    | some (.record child) => some child
    | _ => none
  elements entry _ source :=
    match source.slot? entry.recordIndex with
    | some (.array elements) => elements
    | _ => []
  nodes entry _ source := (source.list? entry.recordIndex).getD []
  putChild entry child output :=
    (output.setAt entry.messageIndex (.message child)).mapError .message
  putElements _ target elements output := (output.appendAt target elements).mapError .message
  putNodes _ target nodes output := (output.appendAt target nodes).mapError .message

end Direction

namespace Walk

/-- The name of a record field, for reports. -/
def fieldName (registry : Registry) (opcode : UInt16) (index : Nat) : String :=
  (((registry.layout? opcode).bind (·.fields[index]?)).map (·.name)).getD s!"#{index}"

/-- Carries one pair of fields from a source to an output; `convert` carries
what lies inside. -/
def carry (direction : Direction σ τ) (registry : Registry) (limits : CodecLimits)
    (convert : UInt16 → σ → Walk τ) (opcode : UInt16) (source : σ) (entry : Plan.Entry)
    (output : τ) : Walk τ := do
  let name := fieldName registry opcode entry.recordIndex
  match entry.action with
  | .scalar coercion => ofExcept (direction.scalar entry coercion source output)
  | .nested inner =>
    let child ← match direction.child? entry source with
      | some child => pure child
      | none => require inner (direction.blank registry inner)
    ofExcept (direction.putChild entry (← convert inner child) output)
  | .array inner count target =>
    let elements := direction.elements entry target source
    if count < elements.length then
      report (.arrayOverflow opcode name count elements.length)
    let converted ← each (convert inner) (elements.take count)
    let missing := count - converted.length
    let padding ← if missing = 0 then pure []
      else List.replicate missing <$> require inner (direction.fresh registry inner)
    ofExcept (direction.putElements entry target (converted ++ padding) output)
  | .list inner target =>
    let nodes := direction.nodes entry target source
    if direction.boundedLists ∧ limits.maxListNodes < nodes.length then
      fail (.malformedList opcode name limits.maxListNodes)
    ofExcept (direction.putNodes entry target (← each (convert inner) nodes) output)

/-- Goes through the items of a plan. -/
def fillItems (carry : Plan.Entry → τ → Walk τ) (opcode : UInt16) :
    List Plan.Item → τ → Filled τ
  | [], output => ⟨output, [], none⟩
  | .skip field reason :: rest, output =>
    let filled := fillItems carry opcode rest output
    { filled with reports := .fieldSkipped opcode field reason :: filled.reports }
  | .bind entry :: rest, output =>
    let step := carry entry output
    match step.result with
    | .error error => ⟨output, step.reports, some error⟩
    | .ok next =>
      let filled := fillItems carry opcode rest next
      { filled with reports := step.reports ++ filled.reports }

/-- Fills an output from a source by the plan of an opcode, with `levels` levels
left. -/
def fill (direction : Direction σ τ) (registry : Registry) (limits : CodecLimits) :
    (levels : Nat) → UInt16 → σ → τ → Filled τ
  | 0, opcode, _, output => ⟨output, [], some (.depthExceeded opcode limits.maxDepth)⟩
  | levels + 1, opcode, source, output =>
    match registry.plan? opcode with
    | none => ⟨output, [], some (.missingPlan opcode)⟩
    | some plan =>
      let convert (inner : UInt16) (source : σ) : Walk τ := do
        let output ← require inner (direction.fresh registry inner)
        (fill direction registry limits levels inner source output).toWalk
      fillItems (carry direction registry limits convert opcode source) opcode plan.items output

/-- Converts a source by the plan of an opcode, with `levels` levels left. -/
def run (direction : Direction σ τ) (registry : Registry) (limits : CodecLimits)
    (levels : Nat) (opcode : UInt16) (source : σ) : Walk τ := do
  let output ← require opcode (direction.fresh registry opcode)
  (fill direction registry limits levels opcode source output).toWalk

end Walk

end RecordBridge

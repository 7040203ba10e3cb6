import RecordBridge.Codec.Diagnostic
import RecordBridge.Registry.Fingerprint
/-!
# Log events

What the bridge writes to its log: a line for a registry that was built, for a
record that was decoded and a frame that was encoded, and a warning for each
diagnostic that is sent there.

| here | operation |
| --- | --- |
| `Event.registryBuilt` | the line of `OpcodeRegistry::new` |
| `Event.decoded`, `Event.encoded` | the lines of `Codec::decode` and `Codec::encode` |
| `Event.warning` | `TracingSink::report` |
-/
namespace RecordBridge

/-- How much an event matters. -/
inductive Level where
  | debug
  | info
  | warn
deriving DecidableEq, Repr

/-- The name of a level. -/
def Level.describe : Level → String
  | .debug => "DEBUG"
  | .info => "INFO"
  | .warn => "WARN"

/-- A value attached to an event. -/
inductive Event.Detail where
  | number (value : Nat)
  | text (value : String)
deriving DecidableEq, Repr

/-- A line of the log. -/
structure Event where
  level : Level
  message : String
  details : List (String × Event.Detail)
deriving DecidableEq, Repr

namespace Event

/-- A registry was built. -/
def registryBuilt (registry : Registry) : Event :=
  ⟨.info, "opcode registry built",
    [("opcodes", .number registry.rows.length),
      ("layouts", .number registry.layouts.layouts.length),
      ("schemas", .number registry.schemas.schemas.length),
      ("fingerprint", .text (showFingerprint registry.fingerprint))]⟩

/-- A payload was decoded into a record. -/
def decoded (opcode : UInt16) (payload size : Nat) : Event :=
  ⟨.debug, "decoded record",
    [("opcode", .number opcode.toNat), ("payload", .number payload), ("size", .number size)]⟩

/-- A frame was encoded. -/
def encoded (opcode : UInt16) (bytes : Nat) : Event :=
  ⟨.debug, "encoded frame", [("opcode", .number opcode.toNat), ("bytes", .number bytes)]⟩

/-- A diagnostic as a warning. -/
def warning (diagnostic : Diagnostic) : Event :=
  let more := match diagnostic with
    | .fieldSkipped _ field _ | .arrayOverflow _ field _ _ => [("field", Detail.text field)]
    | .layoutMismatch _ _ found => [("layout", .text found)]
    | _ => []
  ⟨.warn, diagnostic.text, ("opcode", .number diagnostic.opcode.toNat) :: more⟩

end Event

end RecordBridge

import RecordBridge.Registry.Basic
import RecordBridge.Frame
/-!
# Errors and diagnostics of a conversion

An error ends a conversion. A diagnostic reports something a conversion got
over: a skipped field, a surplus element, or, in a decode, an error that cut it
short but left a record.

| here | operation |
| --- | --- |
| `Flow.describe` | the `Display` of a `Flow` |
| `CodecError.text`, `causes` | the `Display` and the source of a `CodecError` |
| `Diagnostic.opcode`, `text` | `Diagnostic::opcode` and its `Display` |
-/
namespace RecordBridge

/-- Which way a conversion goes. -/
inductive Flow where
  /-- Message bytes to record. -/
  | decode
  /-- Record to message bytes. -/
  | encode
deriving DecidableEq, Repr

/-- The name of a flow. -/
def Flow.describe : Flow → String
  | .decode => "decode"
  | .encode => "encode"

/-- Why a conversion ends without a result. -/
inductive CodecError where
  /-- A list is longer than allowed. -/
  | malformedList (opcode : UInt16) (field : String) (limit : Nat)
  /-- Records nest deeper than allowed. -/
  | depthExceeded (opcode : UInt16) (limit : Nat)
  /-- An opcode has no plan. -/
  | missingPlan (opcode : UInt16)
  /-- A record refused a slot. -/
  | layout (error : LayoutError)
  /-- A message refused a value. -/
  | message (error : MessageError)
  /-- A frame was not written. -/
  | frame (error : FrameTooLarge)
deriving DecidableEq, Repr

/-- The wording of an error. -/
def CodecError.text : CodecError → String
  | .malformedList opcode field limit =>
    let opcode := showOpcode opcode
    s!"malformed list {field} in opcode {opcode}: more than {limit} nodes"
  | .depthExceeded opcode limit =>
    let opcode := showOpcode opcode
    s!"opcode {opcode} nests deeper than {limit} levels"
  | .missingPlan opcode => "no binding plan for opcode " ++ showOpcode opcode
  | .layout error => "record error: " ++ error.message
  | .message error => "message error: " ++ error.message
  | .frame error => "frame error: " ++ error.message

/-- The wordings of the errors that caused an error, from the nearest on. -/
def CodecError.causes : CodecError → List String
  | .layout error => [error.message]
  | .message error => error.message :: error.causes
  | .frame error => [error.message]
  | _ => []

/-- Something a conversion got over. -/
inductive Diagnostic where
  /-- An opcode is not registered. -/
  | unknownOpcode (opcode : UInt16) (flow : Flow)
  /-- A payload is no message; what was read of it is kept. -/
  | malformedPayload (opcode : UInt16) (error : MessageError)
  /-- A message field is not carried. -/
  | fieldSkipped (opcode : UInt16) (field : String) (reason : SkipReason)
  /-- A repeated field has more elements than the array has room for. -/
  | arrayOverflow (opcode : UInt16) (field : String) (capacity received : Nat)
  /-- A record has another layout than its opcode carries. -/
  | layoutMismatch (opcode : UInt16) (expected found : LayoutId)
  /-- An error cut a decode short; the record filled so far is kept. -/
  | aborted (opcode : UInt16) (error : CodecError)
deriving DecidableEq, Repr

namespace Diagnostic

/-- The opcode a diagnostic is about. -/
def opcode : Diagnostic → UInt16
  | .unknownOpcode opcode _ | .malformedPayload opcode _ | .fieldSkipped opcode _ _
  | .arrayOverflow opcode _ _ _ | .layoutMismatch opcode _ _ | .aborted opcode _ => opcode

/-- The wording of a diagnostic. -/
def text : Diagnostic → String
  | .unknownOpcode opcode flow =>
    let (flow, opcode) := (flow.describe, showOpcode opcode)
    s!"{flow}: unknown opcode {opcode}"
  | .malformedPayload opcode error =>
    let (opcode, error) := (showOpcode opcode, error.message)
    s!"decode: malformed payload for opcode {opcode}: {error}"
  | .fieldSkipped opcode field reason =>
    let (opcode, reason) := (showOpcode opcode, reason.message)
    s!"opcode {opcode}: skipped field {field}: {reason}"
  | .arrayOverflow opcode field capacity received =>
    let (opcode, dropped) := (showOpcode opcode, received - capacity)
    s!"decode: opcode {opcode} field {field} holds {capacity} elements, "
      ++ s!"dropped {dropped} of {received}"
  | .layoutMismatch opcode expected found =>
    let opcode := showOpcode opcode
    s!"encode: opcode {opcode} expects a {expected} record, got {found}"
  | .aborted opcode error =>
    let (opcode, error) := (showOpcode opcode, error.text)
    s!"decode: opcode {opcode} aborted: {error}"

end Diagnostic

end RecordBridge

import RecordBridge.Codec.Event
import RecordBridge.Codec.Walk
import RecordBridge.Message.Decode
import RecordBridge.Message.Encode
/-!
# The codec

A codec decodes frames into records and encodes records into frames. Decoding
never fails: traffic that is not understood becomes an empty record, a payload
is read up to its first fault, and what went wrong is reported. Encoding and
the conversions without bytes return errors.

| here | operation |
| --- | --- |
| `Codec.bind` | `bind_message` |
| `Codec.decode` | `Codec::decode` |
| `Codec.decodeFrame` | `Codec::decode_frame` |
| `Codec.toMessage`, `fromMessage` | `Codec::to_message`, `from_message` |
| `Codec.encode` | `Codec::encode` |
-/
namespace RecordBridge

/-- A registry with the limits to convert by. -/
structure Codec where
  registry : Registry
  limits : CodecLimits := .default
  frameLimit : Nat := defaultFrameLimit

/-- A result with what was reported about it, and the log lines that follow. -/
structure Answer (α : Type) where
  result : α
  reports : List Diagnostic
  log : List Event

/-- The log of a call whose diagnostics are sent there. -/
def Answer.events (answer : Answer α) : List Event :=
  answer.reports.map Event.warning ++ answer.log

/-- A record, and the packed size of the fields that were carried. -/
structure Decoded where
  record : Record
  size : Nat

/-- What traffic that is not understood decodes to. -/
def Decoded.empty : Decoded := ⟨.empty, 0⟩

namespace Codec

/-- Fills a zero record from a message. An error is reported, and the record
filled so far is kept. -/
def bind (codec : Codec) (opcode : UInt16) (plan : Plan) (record : Record) (message : Message) :
    Decoded × List Diagnostic :=
  let filled := Walk.fill .toRecord codec.registry codec.limits (codec.limits.maxDepth + 1) opcode
    message record
  let aborted := filled.fault.toList.map (Diagnostic.aborted opcode)
  (⟨filled.output, plan.occupied⟩, filled.reports ++ aborted)

/-- Decodes a payload. -/
def decode (codec : Codec) (opcode : UInt16) (payload : List UInt8) : Answer Decoded :=
  let registry := codec.registry
  match registry.schema? opcode, registry.plan? opcode, registry.record? opcode with
  | some schema, some plan, some record =>
    let (message, fault) := Message.decode registry.schemas schema payload
    let malformed := fault.toList.map (Diagnostic.malformedPayload opcode)
    let (decoded, reports) := codec.bind opcode plan record message
    ⟨decoded, malformed ++ reports, [.decoded opcode payload.length decoded.size]⟩
  | _, _, _ => ⟨.empty, [.unknownOpcode opcode .decode], []⟩

/-- Splits a frame and decodes its payload. -/
def decodeFrame (codec : Codec) (bytes : List UInt8) : Except FrameError (Answer Decoded) := do
  let frame ← Frame.decode codec.frameLimit bytes
  return codec.decode frame.opcode frame.payload

/-- Converts a record into a message. There is none for an unknown opcode and
for a record of another layout; both are reported. -/
def toMessage (codec : Codec) (opcode : UInt16) (record : Record) :
    Answer (Except CodecError (Option Message)) :=
  match codec.registry.descriptor? opcode with
  | none => ⟨.ok none, [.unknownOpcode opcode .encode], []⟩
  | some descriptor =>
    if record.layoutId = descriptor.layout then
      let walk := Walk.run .toMessage codec.registry codec.limits (codec.limits.maxDepth + 1) opcode
        record
      ⟨walk.result.map some, walk.reports, []⟩
    else ⟨.ok none, [.layoutMismatch opcode descriptor.layout record.layoutId], []⟩

/-- Converts a message into a record. There is none for an unknown opcode, which
is reported. -/
def fromMessage (codec : Codec) (opcode : UInt16) (message : Message) :
    Answer (Except CodecError (Option Decoded)) :=
  match codec.registry.plan? opcode with
  | none => ⟨.ok none, [.unknownOpcode opcode .decode], []⟩
  | some plan =>
    let walk := Walk.run .toRecord codec.registry codec.limits (codec.limits.maxDepth + 1) opcode
      message
    ⟨walk.result.map fun record => some ⟨record, plan.occupied⟩, walk.reports, []⟩

/-- Encodes a record into a frame. There is none where there is no message. -/
def encode (codec : Codec) (opcode : UInt16) (record : Record) :
    Answer (Except CodecError (Option (List UInt8))) :=
  let ⟨result, reports, _⟩ := codec.toMessage opcode record
  match result with
  | .error error => ⟨.error error, reports, []⟩
  | .ok none => ⟨.ok none, reports, []⟩
  | .ok (some message) =>
    match Frame.encode codec.frameLimit ⟨opcode, message.encode⟩ [] with
    | .error error => ⟨.error (.frame error), reports, []⟩
    | .ok frame => ⟨.ok (some frame), reports, [.encoded opcode frame.length]⟩

end Codec

end RecordBridge

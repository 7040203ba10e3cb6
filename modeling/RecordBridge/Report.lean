import RecordBridge.Codec.Basic
import RecordBridge.Legacy.Basic
import RecordBridge.Record.Json
/-!
# Reports on frames

What is shown of a frame. An *inspection* splits it and looks its opcode up; a
*decoding* also decodes the payload and shows the record. Opcodes are named as
in the legacy table, whatever the registry.

| here | operation |
| --- | --- |
| `Registry.inspect` | `inspect_frame` |
| `Inspection.text` | `print_inspect_report` |
| `Codec.review`, `Decoding.toJson` | `decode_frame_json` |
| `Decoding.text` | `format_decode_pretty` |
-/
namespace RecordBridge

/-- The name of an opcode in texts. -/
def nameOpcode (opcode : UInt16) : String :=
  (Legacy.opcodeName? opcode).getD "unnamed"

/-- What is known of a frame before its payload is decoded. -/
structure Inspection where
  opcode : UInt16
  /-- What the opcode carries, if it is registered. -/
  descriptor : Option Descriptor
  payloadLength : Nat
  /-- The packed size of the fields that are carried. -/
  recordSize : Option Nat
deriving DecidableEq, Repr

/-- Inspects a frame of at most `limit` bytes. -/
def Registry.inspect (registry : Registry) (limit : Nat) (bytes : List UInt8) :
    Except FrameError Inspection := do
  let frame ← Frame.decode limit bytes
  let opcode := frame.opcode
  let recordSize := (registry.plan? opcode).map (·.occupied)
  return ⟨opcode, registry.descriptor? opcode, frame.payload.length, recordSize⟩

/-- An inspection as lines of text. -/
def Inspection.text (inspection : Inspection) : String :=
  let (opcode, name) := (showOpcode inspection.opcode, nameOpcode inspection.opcode)
  let carried := match inspection.descriptor with
    | some { layout, schema, .. } => s!"layout: {layout} schema: {schema}\n"
    | none => "layout: unregistered\n"
  let length := inspection.payloadLength
  let size := match inspection.recordSize with
    | some size => s!"record size: {size} bytes\n"
    | none => ""
  s!"opcode: {opcode} ({name})\n" ++ carried ++ s!"payload_len: {length} bytes\n" ++ size

/-- A decoded frame. -/
structure Decoding where
  opcode : UInt16
  decoded : Decoded
  reports : List Diagnostic

/-- Decodes a frame. -/
def Codec.review (codec : Codec) (bytes : List UInt8) : Except FrameError Decoding := do
  let answer ← codec.decodeFrame bytes
  return ⟨(Frame.opcode? bytes).getD 0, answer.result, answer.reports⟩

namespace Decoding

/-- A decoding as JSON. -/
def toJson (decoding : Decoding) : Json :=
  .object [
    ("opcode", .integer decoding.opcode.toNat),
    ("name", (Legacy.opcodeName? decoding.opcode).elim .null .string),
    ("size", .integer decoding.decoded.size),
    ("record", decoding.decoded.record.toJson),
    ("diagnostics", .array (decoding.reports.map (.string ·.text)))]

/-- A decoding as lines of text: the opcode, a line per field of the record, and
a line per diagnostic. -/
def text (decoding : Decoding) : String :=
  let (opcode, name) := (showOpcode decoding.opcode, nameOpcode decoding.opcode)
  let size := decoding.decoded.size
  let fields := match decoding.decoded.record.toJson with
    | .object entries => entries.map fun (field, value) =>
        let value := value.compact
        s!"  {field}: {value}\n"
    | _ => []
  let warnings := decoding.reports.map fun report =>
    let report := report.text
    s!"warning: {report}\n"
  String.join (s!"opcode: {opcode} ({name})\nsize: {size} bytes\n" :: fields ++ warnings)

end Decoding

end RecordBridge

import RecordBridge.Wire.Varint
/-!
# Field keys

Every field of an encoded message starts with a key: the field number and the
wire type, which says how far the field reaches. Reading one checks in this
order that the key is a number, that it fits 32 bits, that its wire type exists
and that the field number is not 0.

| here | operation |
| --- | --- |
| `WireFault.message` | the `Display` of a `DecodeError` |
| `WireType.ofCode?` | `WireType::try_from` |
| `Wire.encodeKey` | `encode_key` |
| `Wire.key` | `decode_key` |
-/
namespace RecordBridge

/-- How the content of a field is delimited. -/
inductive WireType where
  | varint
  | fixed64
  | lengthDelimited
  | startGroup
  | endGroup
  | fixed32
deriving DecidableEq, Repr

namespace WireType

/-- The three low bits of a key. -/
def code : WireType → Nat
  | .varint => 0
  | .fixed64 => 1
  | .lengthDelimited => 2
  | .startGroup => 3
  | .endGroup => 4
  | .fixed32 => 5

/-- The wire type of three bits. -/
def ofCode? : Nat → Option WireType
  | 0 => some .varint
  | 1 => some .fixed64
  | 2 => some .lengthDelimited
  | 3 => some .startGroup
  | 4 => some .endGroup
  | 5 => some .fixed32
  | _ => none

/-- The name of a wire type in error messages. -/
def describe : WireType → String
  | .varint => "varint"
  | .fixed64 => "64-bit"
  | .lengthDelimited => "length-delimited"
  | .startGroup => "start-group"
  | .endGroup => "end-group"
  | .fixed32 => "32-bit"

end WireType

/-- Why bytes are no sequence of fields. -/
inductive WireFault where
  /-- A varint does not end, or is not below 2^64. -/
  | varint
  /-- A key does not fit 32 bits. -/
  | key (value : Nat)
  /-- A key names no wire type. -/
  | wireType (code : Nat)
  /-- A key has field number 0. -/
  | zeroNumber
  /-- A field reaches past the end. -/
  | underflow
  /-- A group ends that did not start. -/
  | endGroup
  /-- Groups nest too deep. -/
  | groupDepth
deriving DecidableEq, Repr

/-- The wording of a fault. -/
def WireFault.message (fault : WireFault) : String :=
  "failed to decode Protobuf message: " ++ match fault with
    | .varint => "invalid varint"
    | .key value => s!"invalid key value: {value}"
    | .wireType code => s!"invalid wire type value: {code}"
    | .zeroNumber => "invalid tag value: 0"
    | .underflow => "buffer underflow"
    | .endGroup => "unexpected end group tag"
    | .groupDepth => "recursion limit reached"

namespace Wire

/-- Reads a varint. -/
def varint (bytes : List UInt8) : Except WireFault (Nat × List UInt8) :=
  match Varint.decode? bytes with
  | some read => .ok read
  | none => .error .varint

/-- The value of a key. -/
def keyValue (number : UInt32) (wire : WireType) : Nat :=
  number.toNat * 8 + wire.code

/-- The bytes of a key. -/
def encodeKey (number : UInt32) (wire : WireType) : List UInt8 :=
  Varint.encode (keyValue number wire)

/-- The field number and wire type of a key. -/
def splitKey (value : Nat) : Except WireFault (UInt32 × WireType) :=
  if UInt32.size ≤ value then .error (.key value)
  else match WireType.ofCode? (value % 8) with
    | none => .error (.wireType (value % 8))
    | some wire =>
      if value / 8 = 0 then .error .zeroNumber
      else .ok (UInt32.ofNat (value / 8), wire)

/-- Reads a key. -/
def key (bytes : List UInt8) : Except WireFault ((UInt32 × WireType) × List UInt8) := do
  let (value, rest) ← varint bytes
  return (← splitKey value, rest)

theorem length_lt_of_varint {bytes : List UInt8} {read : Nat × List UInt8}
    (h : varint bytes = .ok read) : read.2.length < bytes.length := by
  unfold varint at h
  split at h
  · next found => cases h; exact Varint.length_lt_of_decode? found
  · cases h

theorem length_lt_of_key {bytes : List UInt8} {read : (UInt32 × WireType) × List UInt8}
    (h : key bytes = .ok read) : read.2.length < bytes.length := by
  unfold key at h
  cases hv : varint bytes with
  | error e => simp [hv, bind, Except.bind] at h
  | ok v =>
    have := length_lt_of_varint hv
    cases hs : splitKey v.1 with
    | error e => simp [hv, hs, bind, Except.bind] at h
    | ok k =>
      simp only [hv, hs, bind, Except.bind, pure, Except.pure] at h
      cases h; exact this

end Wire

end RecordBridge

/-!
# Frames

A frame is an opcode, in two bytes with the low one first, and a payload that
reaches to the end. Both reading and writing hold the whole frame to a limit.

| here | operation |
| --- | --- |
| `Frame.opcode?` | `frame_opcode` |
| `Frame.encodedLength` | `Frame::encoded_len` |
| `Frame.toBytes` | `Frame::to_vec`, `put_frame` |
| `Frame.decode` | `decode_frame` |
| `Frame.encode` | `encode_frame` |
-/
namespace RecordBridge

/-- Bytes of an opcode. -/
def opcodeSize : Nat := 2

/-- The largest frame that is allowed unless another limit is set. -/
def defaultFrameLimit : Nat := 64 * 1024

/-- The largest frame that is allowed in tests. -/
def testingFrameLimit : Nat := 4096

/-- The largest size there is: no limit at all. -/
def unlimited : Nat := UInt64.size - 1

/-- An opcode and its payload. -/
structure Frame where
  opcode : UInt16
  payload : List UInt8
deriving DecidableEq, Repr

/-- Why bytes are no frame. -/
inductive FrameError where
  /-- There is no room for an opcode. -/
  | tooShort (actual : Nat)
  /-- The frame is longer than allowed. -/
  | limitExceeded (actual limit : Nat)
deriving DecidableEq, Repr

/-- The wording of an error. -/
def FrameError.message : FrameError → String
  | .tooShort actual => s!"frame too short: {actual} bytes, need at least {opcodeSize}"
  | .limitExceeded actual limit => s!"frame bytes limit exceeded: {actual} > {limit}"

/-- Why a frame is not written: it would be longer than allowed. -/
structure FrameTooLarge where
  length : Nat
  limit : Nat
deriving DecidableEq, Repr

/-- The wording of an error. -/
def FrameTooLarge.message (error : FrameTooLarge) : String :=
  let (length, limit) := (error.length, error.limit)
  s!"frame too large: {length} bytes, limit {limit}"

namespace Frame

/-- The opcode that starts a byte string. -/
def opcode? : List UInt8 → Option UInt16
  | low :: high :: _ => some (low.toUInt16 + high.toUInt16 * 256)
  | _ => none

/-- The length of a frame. -/
def encodedLength (frame : Frame) : Nat := opcodeSize + frame.payload.length

/-- The bytes of a frame. -/
def toBytes (frame : Frame) : List UInt8 :=
  frame.opcode.toUInt8 :: (frame.opcode / 256).toUInt8 :: frame.payload

/-- Splits a frame of at most `limit` bytes. -/
def decode (limit : Nat) (bytes : List UInt8) : Except FrameError Frame :=
  if limit < bytes.length then .error (.limitExceeded bytes.length limit)
  else match opcode? bytes with
    | some opcode => .ok ⟨opcode, bytes.drop opcodeSize⟩
    | none => .error (.tooShort bytes.length)

/-- Writes a frame of at most `limit` bytes after `out`. -/
def encode (limit : Nat) (frame : Frame) (out : List UInt8) :
    Except FrameTooLarge (List UInt8) :=
  if limit < frame.encodedLength then .error ⟨frame.encodedLength, limit⟩
  else .ok (out ++ frame.toBytes)

end Frame

end RecordBridge

import RecordBridge.Proofs.Codec.RoundTrip
import RecordBridge.Proofs.InPlace
/-!
# Frames there and back

A frame is written after whatever bytes are there, or, where it is longer than allowed, not
at all (`Frame.write_inPlace`). Writing and reading hold it to the limit alike: what was
written is read as the frame it was (`Frame.decode_toBytes`), and what was read is written
as the bytes it was (`Frame.toBytes_of_decode`). So a codec takes back the frames that it
sends (`Codec.decodeFrame_encode`).
-/
namespace RecordBridge

namespace Frame

variable {limit : Nat} {frame : Frame} {bytes out : List UInt8}

/-- Writes a frame of at most `limit` bytes after what is there, the opcode first. -/
def write (limit : Nat) (frame : Frame) : ExceptT FrameTooLarge (StateM (List UInt8)) Unit := do
  let length := frame.encodedLength
  if limit < length then throw ⟨length, limit⟩
  modify (· ++ [frame.opcode.toUInt8, (frame.opcode / 256).toUInt8])
  modify (· ++ frame.payload)

theorem write_inPlace (limit : Nat) (frame : Frame) :
    InPlace (frame.write limit) (frame.encode limit) := by
  intro out
  by_cases h : limit < frame.encodedLength
  · simp only [write, encode, h, if_true, outcome_bind, outcome_throw]
  · simp only [write, encode, h, if_false, outcome_bind, outcome_modify, toBytes,
      List.append_assoc, List.cons_append, List.nil_append]

theorem length_toBytes (frame : Frame) : frame.toBytes.length = frame.payload.length + 2 := rfl

/-! ## Opcodes in two bytes -/

/-- The bytes of an opcode are read as the opcode. -/
theorem opcode?_toBytes (frame : Frame) : opcode? frame.toBytes = some frame.opcode := by
  have hlt := frame.opcode.toNat_lt
  have hopcode : frame.opcode.toUInt8.toUInt16 + (frame.opcode / 256).toUInt8.toUInt16 * 256 =
      frame.opcode := by
    rw [← UInt16.toNat_inj]
    simp only [UInt16.toNat_add, UInt16.toNat_mul, UInt8.toNat_toUInt16, UInt16.toNat_toUInt8,
      UInt16.toNat_div, UInt16.reduceToNat]
    omega
  rw [toBytes, opcode?, hopcode]

/-- Two bytes are those of the opcode that is read of them. -/
theorem toUInt8_of_opcode (low high : UInt8) :
    (low.toUInt16 + high.toUInt16 * 256).toUInt8 = low ∧
      ((low.toUInt16 + high.toUInt16 * 256) / 256).toUInt8 = high := by
  have hlow := low.toNat_lt
  have hhigh := high.toNat_lt
  constructor
  · rw [← UInt8.toNat_inj]
    simp only [UInt16.toNat_toUInt8, UInt16.toNat_add, UInt16.toNat_mul, UInt8.toNat_toUInt16,
      UInt16.reduceToNat]
    omega
  · rw [← UInt8.toNat_inj]
    simp only [UInt16.toNat_toUInt8, UInt16.toNat_div, UInt16.toNat_add, UInt16.toNat_mul,
      UInt8.toNat_toUInt16, UInt16.reduceToNat]
    omega

/-! ## Whole frames -/

/-- What is written of a frame is read as the frame. -/
theorem decode_toBytes (h : frame.encodedLength ≤ limit) :
    decode limit frame.toBytes = .ok frame := by
  rw [encodedLength, opcodeSize] at h
  rw [decode, if_neg (by rw [length_toBytes]; omega), opcode?_toBytes]
  rfl

/-- Bytes that are read as a frame are what is written of it, and no more than allowed. -/
theorem toBytes_of_decode (h : decode limit bytes = .ok frame) :
    frame.toBytes = bytes ∧ frame.encodedLength ≤ limit := by
  unfold decode at h
  by_cases hlong : limit < bytes.length
  · simp [hlong] at h
  rw [if_neg hlong] at h
  match bytes, hlong, h with
  | [], _, h => cases h
  | [_], _, h => cases h
  | low :: high :: payload, hlong, h =>
    cases h
    obtain ⟨hlow, hhigh⟩ := toUInt8_of_opcode low high
    constructor
    · simp only [toBytes, hlow, hhigh, opcodeSize, List.drop_succ_cons, List.drop_zero]
    · simp only [List.length_cons] at hlong
      simp only [encodedLength, opcodeSize, List.drop_succ_cons, List.drop_zero]
      omega

end Frame

namespace Codec

variable {codec : Codec} {opcode : UInt16} {record : Record} {bytes : List UInt8}

/-- A codec takes back the frames that it sends, as what comes after their opcode. -/
theorem decodeFrame_encode (h : (codec.encode opcode record).result = .ok (some bytes)) :
    codec.decodeFrame bytes = .ok (codec.decode opcode (bytes.drop 2)) := by
  obtain ⟨message, -, -, hframe⟩ := exists_message_of_encode h
  obtain ⟨hsize, rfl⟩ := Frame.encode_eq_ok_iff.1 hframe
  rw [List.nil_append, decodeFrame, Frame.decode_toBytes hsize]
  rfl

/-- Writing and reading hold frames to a limit alike. A frame is refused, and nothing
written, exactly when its payload and two bytes are more than the limit; otherwise so many
bytes are written after those that are there, and they are read as the frame. Bytes that
are read as a frame are what is written of it. And what a codec encodes of a record, it takes
as a frame, decoded as what comes after the opcode. -/
theorem frames_agree (limit : Nat) :
    (∀ (frame : Frame) (out : List UInt8),
      if limit < frame.payload.length + 2 then
        ∃ error, frame.encode limit out = .error error ∧
          outcome (frame.write limit) out = (.error error, out)
      else ∃ bytes, frame.encode limit out = .ok (out ++ bytes) ∧
        outcome (frame.write limit) out = (.ok (), out ++ bytes) ∧
        bytes.length = frame.payload.length + 2 ∧ Frame.decode limit bytes = .ok frame) ∧
    (∀ (bytes : List UInt8) (frame : Frame), Frame.decode limit bytes = .ok frame →
      frame.toBytes = bytes ∧ ∀ out, frame.encode limit out = .ok (out ++ bytes)) ∧
    ∀ (codec : Codec) (opcode : UInt16) (record : Record) (bytes : List UInt8),
      (codec.encode opcode record).result = .ok (some bytes) →
      codec.decodeFrame bytes = .ok (codec.decode opcode (bytes.drop 2)) := by
  have hlength : ∀ frame : Frame, frame.encodedLength = frame.payload.length + 2 :=
    fun frame => Nat.add_comm _ _
  refine ⟨fun frame out => ?_, fun bytes frame h => ?_, fun codec opcode record bytes h => ?_⟩
  · have hwrite := frame.write_inPlace limit out
    split_ifs with hlong
    · have hrefused : frame.encode limit out = .error ⟨frame.encodedLength, limit⟩ := by
        rw [Frame.encode, if_pos (by rw [hlength]; exact hlong)]
      rw [hrefused] at hwrite
      exact ⟨_, hrefused, hwrite⟩
    · have hfits : frame.encodedLength ≤ limit := by
        rw [hlength]
        exact Nat.le_of_not_lt hlong
      have hwritten := Frame.encode_eq_ok_iff.2 ⟨hfits, @rfl _ (out ++ frame.toBytes)⟩
      rw [hwritten] at hwrite
      exact ⟨frame.toBytes, hwritten, hwrite, frame.length_toBytes, Frame.decode_toBytes hfits⟩
  · obtain ⟨rfl, hfits⟩ := Frame.toBytes_of_decode h
    exact ⟨rfl, fun out => Frame.encode_eq_ok_iff.2 ⟨hfits, rfl⟩⟩
  · exact decodeFrame_encode h

end Codec

end RecordBridge

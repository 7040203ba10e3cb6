import RecordBridge.Message.Encode
import RecordBridge.Proofs.Message.Sound
import RecordBridge.Proofs.Text.Utf8
import RecordBridge.Proofs.Wire.RoundTrip
/-!
# What encoding keeps of a message

Encoding leaves out scalars that hold their default and empty lists, at every
level; `Message.canon` is the message without them. Embedded messages and
elements stay, also empty ones. `encodedLength` is the length of what is
written (`length_encode`).
-/
namespace RecordBridge

mutual

/-- A value with the defaults inside it unset. -/
def Value.canon : Value → Value
  | .message value => .message value.canon
  | .list elements => .list (Message.canonEach elements)
  | value => value

/-- A message with its defaults unset. -/
def Message.canon : Message → Message
  | .mk schema values => .mk schema (Message.canonFields values)

/-- Values with their defaults unset. -/
def Message.canonFields : List (Option Value) → List (Option Value)
  | [] => []
  | none :: values => none :: Message.canonFields values
  | some value :: values =>
    (if value.isDefault then none else some value.canon) :: Message.canonFields values

/-- Elements with their defaults unset. -/
def Message.canonEach : List Message → List Message
  | [] => []
  | element :: rest => element.canon :: Message.canonEach rest

end

namespace Message

theorem canonEach_eq_map : ∀ elements : List Message, canonEach elements = elements.map canon
  | [] => rfl
  | element :: rest => by rw [canonEach, canonEach_eq_map rest, List.map_cons]

theorem canonFields_eq_map : ∀ values : List (Option Value), canonFields values =
    values.map fun value => (value.filter fun held => !held.isDefault).map Value.canon
  | [] => rfl
  | none :: values => by rw [canonFields, canonFields_eq_map values]; rfl
  | some value :: values => by
    rw [canonFields, canonFields_eq_map values, List.map_cons]
    cases h : value.isDefault <;> simp [Option.filter, h]

theorem values_canon (message : Message) : message.canon.values = canonFields message.values := by
  cases message
  rfl

/-- A field of the canonical message holds what the field held, unless that was
a default. -/
theorem value?_canon (message : Message) (index : Nat) : message.canon.value? index =
    ((message.value? index).filter fun held => !held.isDefault).map Value.canon := by
  unfold value?
  rw [values_canon, canonFields_eq_map, List.getElem?_map]
  cases message.values[index]? <;> rfl

/-- Embedded messages stay, in canonical form. -/
theorem messageAt?_canon (message : Message) (index : Nat) :
    message.canon.messageAt? index = (message.messageAt? index).map canon := by
  rw [messageAt?, messageAt?, value?_canon]
  cases message.value? index with
  | none => rfl
  | some value =>
    cases value with
    | message value => rfl
    | int32 | bool | string | list =>
      rw [Option.filter]
      split_ifs <;> rfl

/-- Elements stay, in canonical form. -/
theorem elementsAt_canon (message : Message) (index : Nat) :
    message.canon.elementsAt index = (message.elementsAt index).map canon := by
  rw [elementsAt, elementsAt, value?_canon]
  cases message.value? index with
  | none => rfl
  | some value =>
    cases value with
    | list elements =>
      cases elements with
      | nil => rfl
      | cons element rest =>
        simp [Option.filter, Value.isDefault, Value.canon, canonEach_eq_map]
    | int32 | bool | string | message =>
      rw [Option.filter]
      split_ifs <;> rfl

end Message

/-! ## Lengths -/

/-- The wire type takes the three lowest bits of a key, and these no further byte. -/
theorem Wire.size_keyValue (number : UInt32) (wire : WireType) :
    Varint.size (keyValue number wire) = keyLength number := by
  have hcode := code_lt wire
  unfold keyValue keyLength
  by_cases h : number.toNat < 16
  · rw [Varint.size_of_lt (by omega), Varint.size_of_lt (by omega)]
  · rw [Varint.size_of_ge (by omega), @Varint.size_of_ge (number.toNat * 8) (by omega),
      show (number.toNat * 8 + wire.code) / 128 = number.toNat * 8 / 128 by omega]

theorem Wire.length_encodeKey (number : UInt32) (wire : WireType) :
    (encodeKey number wire).length = keyLength number := by
  rw [encodeKey, Varint.length_encode, size_keyValue]

theorem Wire.length_blockHead (number : UInt32) (length : Nat) :
    (blockHead number length).length + length = blockLength number length := by
  simp [blockHead, blockLength, length_encodeKey, Varint.length_encode]

mutual

theorem Value.length_encode (number : UInt32) :
    ∀ value : Value, (value.encode number).length = value.encodedLength number
  | .int32 value => by
    rw [Value.encode, Value.encodedLength]
    split
    · rfl
    · rw [List.length_append, Wire.length_encodeKey, Varint.length_encode]
  | .bool value => by
    cases value
    · rfl
    · simp [Value.encode, Value.encodedLength, Wire.length_encodeKey, Varint.encode_of_lt]
  | .string value => by
    have hlen := Utf8.length_encode value
    simp only [Value.encode, Value.encodedLength, ← hlen]
    by_cases h : Utf8.encode value = []
    · simp [h]
    · have hpos : (Utf8.encode value).length ≠ 0 := by simpa using h
      rw [if_neg (by simpa using h), if_neg hpos, List.length_append, Wire.length_blockHead]
  | .message value => by
    rw [Value.encode, Value.encodedLength, List.length_append, Message.length_encode value,
      Wire.length_blockHead]
  | .list elements => by
    rw [Value.encode, Value.encodedLength, Message.length_encodeEach number elements]

/-- The length found without writing a message is that of what is written. -/
theorem Message.length_encode : ∀ message : Message, message.encode.length = message.encodedLength
  | .mk schema values => by
    rw [Message.encode, Message.encodedLength, Message.length_encodeFields schema.fields values]

theorem Message.length_encodeFields : ∀ (fields : List Schema.Field) (values : List (Option Value)),
    (Message.encodeFields fields values).length = Message.fieldsLength fields values
  | field :: fields, some value :: values => by
    rw [Message.encodeFields, Message.fieldsLength, List.length_append,
      Value.length_encode field.number value, Message.length_encodeFields fields values]
  | _ :: fields, none :: values => by
    rw [Message.encodeFields, Message.fieldsLength, Message.length_encodeFields fields values]
  | [], _ => by simp [Message.encodeFields, Message.fieldsLength]
  | _ :: _, [] => rfl

theorem Message.length_encodeEach (number : UInt32) : ∀ elements : List Message,
    (Message.encodeEach number elements).length = Message.encodedLengths number elements
  | [] => rfl
  | element :: rest => by
    rw [Message.encodeEach, Message.encodedLengths, List.length_append, List.length_append,
      Message.length_encode element, Message.length_encodeEach number rest,
      Wire.length_blockHead]

end

theorem Message.length_encode_le_encodeEach (number : UInt32) {element : Message} :
    ∀ {elements : List Message}, element ∈ elements →
    element.encode.length ≤ (Message.encodeEach number elements).length
  | first :: rest, h => by
    simp only [Message.encodeEach, List.length_append]
    rcases List.mem_cons.1 h with rfl | h
    · omega
    · have := Message.length_encode_le_encodeEach number h
      omega

/-- An embedded message is written within the field that holds it. -/
theorem Value.length_encode_le_of_mem_inner {inner : Message} (number : UInt32) {value : Value}
    (h : inner ∈ value.inner) : inner.encode.length ≤ (value.encode number).length := by
  cases value with
  | message value =>
    rw [List.mem_singleton.1 h, Value.encode, List.length_append]
    omega
  | list elements => exact Message.length_encode_le_encodeEach number h
  | int32 | bool | string => cases h

theorem Message.length_encode_le_of_mem_values {inner : Message} {value : Value}
    (hi : inner ∈ value.inner) :
    ∀ {fields : List Schema.Field} {values : List (Option Value)}, values.length = fields.length →
    some value ∈ values → inner.encode.length ≤ (Message.encodeFields fields values).length
  | [], _ :: _, hlen, _ => by simp at hlen
  | field :: fields, none :: values, hlen, hm => by
    rw [Message.encodeFields]
    exact length_encode_le_of_mem_values hi (by simpa using hlen) (by simpa using hm)
  | field :: fields, some first :: values, hlen, hm => by
    rw [Message.encodeFields, List.length_append]
    rcases List.mem_cons.1 hm with hm | hm
    · cases hm
      have := Value.length_encode_le_of_mem_inner field.number hi
      omega
    · have hlen : values.length = fields.length := by simpa using hlen
      have := length_encode_le_of_mem_values hi hlen hm
      omega

/-- An embedded message is written within the message it is in. -/
theorem Message.length_encode_le_of_mem_inner {message inner : Message}
    (hfits : Message.Fits message.schema.fields message.values) (h : inner ∈ message.inner) :
    inner.encode.length ≤ message.encode.length := by
  obtain ⟨value, hm, hi⟩ := Message.mem_inner.1 h
  cases message
  exact Message.length_encode_le_of_mem_values hi hfits.length hm

end RecordBridge

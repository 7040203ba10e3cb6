import RecordBridge.Proofs.Message.Canon
import RecordBridge.Proofs.Wire.Size
/-!
# Lengths and what is written

The length that is found without writing is the length of what is written, so the length in
front of an embedded message is that of the body after it (`encode_message_eq`,
`encodeEach_eq`). A field is written by itself, between what is written of the fields before
and after it (`exists_encode_put_none`), and of the values that are set only the defaults
leave no bytes (`Value.encode_eq_nil_iff`).
-/
namespace RecordBridge

/-- A length-delimited field: its key, the number of bytes in the body, and these. -/
def Wire.block (number : UInt32) (body : List UInt8) : List UInt8 :=
  Wire.encodeKey number .lengthDelimited ++ Varint.encode body.length ++ body

/-! ## Embedded messages -/

theorem Wire.blockHead_append (number : UInt32) (message : Message) :
    blockHead number message.encodedLength ++ message.encode = block number message.encode := by
  rw [blockHead, block, message.length_encode]

theorem Value.encode_message_eq (number : UInt32) (inner : Message) :
    (Value.message inner).encode number = Wire.block number inner.encode := by
  rw [encode, Wire.blockHead_append]

theorem Message.encodeEach_eq (number : UInt32) (elements : List Message) :
    Message.encodeEach number elements =
      elements.flatMap fun element => Wire.block number element.encode := by
  induction elements with
  | nil => rfl
  | cons element rest ih => rw [encodeEach, List.flatMap_cons, ih, Wire.blockHead_append]

/-! ## Fields that leave no bytes -/

theorem Wire.encodeKey_ne_nil (number : UInt32) (wire : WireType) : encodeKey number wire ≠ [] := by
  have hpos := Varint.size_pos (number.toNat * 8)
  have hlength := length_encodeKey number wire
  unfold keyLength at hlength
  intro hnil
  simp only [hnil, List.length_nil] at hlength
  omega

theorem Wire.block_ne_nil (number : UInt32) (body : List UInt8) : block number body ≠ [] := by
  simp [block, encodeKey_ne_nil]

/-- Of the values that are set, the defaults leave no bytes, and no others. -/
theorem Value.encode_eq_nil_iff (number : UInt32) (value : Value) :
    value.encode number = [] ↔ value.isDefault := by
  cases value with
  | int32 value => by_cases h : value = 0 <;> simp [encode, isDefault, h, Wire.encodeKey_ne_nil]
  | bool value => cases value <;> simp [encode, isDefault, Wire.encodeKey_ne_nil]
  | string value =>
    have hempty := @Utf8.encode_eq_nil_iff value
    by_cases h : Utf8.encode value = []
    · simp [encode, isDefault, h, hempty.1 h]
    · simp [encode, isDefault, h, Wire.blockHead, Wire.encodeKey_ne_nil, ← hempty]
  | message inner => simp [encode_message_eq, isDefault, Wire.block_ne_nil]
  | list elements =>
    rw [encode, Message.encodeEach_eq]
    cases elements <;> simp [isDefault, Wire.block_ne_nil]

namespace Message

/-! ## One field among the others -/

theorem exists_encodeFields_set_none {field : Schema.Field} {value : Value} :
    ∀ {fields : List Schema.Field} {values : List (Option Value)} {index : Nat},
    fields[index]? = some field → values[index]? = some (some value) → ∃ front back,
      encodeFields fields values = front ++ value.encode field.number ++ back ∧
      encodeFields fields (values.set index none) = front ++ back
  | first :: fields, held :: values, 0, hf, hv => by
    cases hf
    cases hv
    refine ⟨[], encodeFields fields values, ?_, ?_⟩
    · rw [encodeFields, List.nil_append]
    · rw [List.set_cons_zero, encodeFields, List.nil_append]
  | first :: fields, held :: values, index + 1, hf, hv => by
    simp only [List.getElem?_cons_succ] at hf hv
    obtain ⟨front, back, hwhole, hwithout⟩ := exists_encodeFields_set_none hf hv
    rw [List.set_cons_succ]
    cases held with
    | none =>
      refine ⟨front, back, ?_, ?_⟩
      · rw [encodeFields, hwhole]
      · rw [encodeFields, hwithout]
    | some earlier =>
      refine ⟨earlier.encode first.number ++ front, back, ?_, ?_⟩
      · rw [encodeFields, hwhole]
        simp only [List.append_assoc]
      · rw [encodeFields, hwithout, List.append_assoc]

/-- A set field is written between the fields before and after it, and these are written the
same without it. -/
theorem exists_encode_put_none {message : Message} {index : Nat} {field : Schema.Field}
    {value : Value} (hf : message.schema.fields[index]? = some field)
    (hv : message.value? index = some value) : ∃ front back,
      message.encode = front ++ value.encode field.number ++ back ∧
      (message.put index none).encode = front ++ back := by
  obtain ⟨schema, values⟩ := message
  exact exists_encodeFields_set_none hf (value?_eq_some.1 hv)

/-- The length found for a message is the number of bytes it is written in, and each set
field adds its own bytes to them. In front of every embedded message, alone or in a list, is
the number of bytes of its body. A set field adds no bytes exactly when it is a default. -/
theorem encode_counts (message : Message) :
    message.encodedLength = message.encode.length ∧
    ∀ (index : Nat) (field : Schema.Field) (value : Value),
      message.schema.fields[index]? = some field → message.value? index = some value →
      (∃ front back, message.encode = front ++ value.encode field.number ++ back ∧
        (message.put index none).encode = front ++ back) ∧
      (∀ inner, value = .message inner →
        value.encode field.number = Wire.block field.number inner.encode) ∧
      (∀ elements, value = .list elements → value.encode field.number =
        elements.flatMap fun element => Wire.block field.number element.encode) ∧
      (value.encode field.number = [] ↔ value.isDefault) := by
  refine ⟨message.length_encode.symm, fun index field value hf hv => ?_⟩
  refine ⟨exists_encode_put_none hf hv, ?_, ?_, value.encode_eq_nil_iff field.number⟩
  · rintro inner rfl
    exact Value.encode_message_eq field.number inner
  · rintro elements rfl
    rw [Value.encode, encodeEach_eq]

end Message

end RecordBridge

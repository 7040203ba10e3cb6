import RecordBridge.Message.Basic
import RecordBridge.Text.Utf8
/-!
# Encoding messages

Fields are written in schema order. Numbers 0, flags `false` and empty strings
are left out; a set embedded message is written even when it is empty, and so
is every element of a list. An embedded message is preceded by the length of
its body, which `encodedLength` finds without writing it.

| here | operation |
| --- | --- |
| `Value.encodedLength`, `Wire.blockLength` | `value_len`, `nested_len` |
| `Message.encodedLength` | `encoded_len` |
| `Value.encode` | `encode_value`, `encode_nested` |
| `Message.encode` | `encode`, `to_vec` |
-/
namespace RecordBridge

/-- The number a 32-bit integer is written as: extended to 64 bits with its sign. -/
def int32Bits (value : Int32) : Nat := (value.toInt % UInt64.size).toNat

/-- What precedes the body of a length-delimited field. -/
def Wire.blockHead (number : UInt32) (length : Nat) : List UInt8 :=
  Wire.encodeKey number .lengthDelimited ++ Varint.encode length

/-- The length of a key, which is the same for every wire type. -/
def Wire.keyLength (number : UInt32) : Nat := Varint.size (number.toNat * 8)

/-- The length of a length-delimited field with a body of `length` bytes. -/
def Wire.blockLength (number : UInt32) (length : Nat) : Nat :=
  Wire.keyLength number + Varint.size length + length

mutual

/-- The length of a field on the wire. -/
def Value.encodedLength (number : UInt32) : Value → Nat
  | .int32 value =>
    if value = 0 then 0 else Wire.keyLength number + Varint.size (int32Bits value)
  | .bool value => if value then Wire.keyLength number + 1 else 0
  | .string value =>
    let length := value.utf8ByteSize
    if length = 0 then 0 else Wire.blockLength number length
  | .message value => Wire.blockLength number value.encodedLength
  | .list elements => Message.encodedLengths number elements

/-- The length of a message body. -/
def Message.encodedLength : Message → Nat
  | .mk schema values => Message.fieldsLength schema.fields values

/-- The length of fields with their values. -/
def Message.fieldsLength : List Schema.Field → List (Option Value) → Nat
  | field :: fields, some value :: values =>
    value.encodedLength field.number + Message.fieldsLength fields values
  | _ :: fields, none :: values => Message.fieldsLength fields values
  | _, _ => 0

/-- The length of the elements of a list field. -/
def Message.encodedLengths (number : UInt32) : List Message → Nat
  | [] => 0
  | element :: rest =>
    Wire.blockLength number element.encodedLength + Message.encodedLengths number rest

end

mutual

/-- A field on the wire. -/
def Value.encode (number : UInt32) : Value → List UInt8
  | .int32 value =>
    if value = 0 then []
    else Wire.encodeKey number .varint ++ Varint.encode (int32Bits value)
  | .bool value => if value then Wire.encodeKey number .varint ++ Varint.encode 1 else []
  | .string value =>
    let bytes := Utf8.encode value
    if bytes.isEmpty then [] else Wire.blockHead number bytes.length ++ bytes
  | .message value => Wire.blockHead number value.encodedLength ++ value.encode
  | .list elements => Message.encodeEach number elements

/-- A message body. -/
def Message.encode : Message → List UInt8
  | .mk schema values => Message.encodeFields schema.fields values

/-- Fields with their values on the wire. -/
def Message.encodeFields : List Schema.Field → List (Option Value) → List UInt8
  | field :: fields, some value :: values =>
    value.encode field.number ++ Message.encodeFields fields values
  | _ :: fields, none :: values => Message.encodeFields fields values
  | _, _ => []

/-- The elements of a list field on the wire. -/
def Message.encodeEach (number : UInt32) : List Message → List UInt8
  | [] => []
  | element :: rest =>
    Wire.blockHead number element.encodedLength ++ element.encode
      ++ Message.encodeEach number rest

end

end RecordBridge

import RecordBridge.Registry.Basic
import RecordBridge.Hash.Blake3
/-!
# Fingerprints

Two sides of a bridge agree on their tables when the fingerprints are equal. A
fingerprint hashes the tables written as bytes, in definition order. Every list
is preceded by its length and every text by its number of bytes, so that none
runs into what follows it.

| here | operation |
| --- | --- |
| `Code.text` | `write_str` |
| `Code.kind` | `write_kind` |
| `Code.type` | `write_type` |
| `Code.schema` | `write_schema` |
| `SchemaSet.code`, `fingerprint` | `write_schemas`, `schema_fingerprint` |
| `Registry.code`, `fingerprint` | `fingerprint` |
| `showFingerprint` | the `Display` of a `RegistryFingerprint` |
-/
namespace RecordBridge

namespace Code

/-- The lowest `count` bytes of a number, the lowest first. -/
def littleEndian : (count : Nat) → Nat → List UInt8
  | 0, _ => []
  | count + 1, n => n.toUInt8 :: littleEndian count (n / 256)

/-- A text, preceded by its length. -/
def text (value : String) : List UInt8 :=
  littleEndian 4 value.utf8ByteSize ++ Utf8.encode value

/-- A list, preceded by its length. -/
def list (code : α → List UInt8) (items : List α) : List UInt8 :=
  littleEndian 4 items.length ++ items.flatMap code

/-- A record field kind: a tag, then its parameters. -/
def kind : FieldKind → List UInt8
  | .int width signed => [0, width, if signed then 1 else 0]
  | .bool => [1]
  | .fixedText length => 2 :: littleEndian 8 length.toNat
  | .ownedText => [3]
  | .nested layout => 4 :: text layout
  | .array layout count => 5 :: (text layout ++ littleEndian 8 count.toNat)
  | .list layout => 6 :: text layout
  | .textRows count length => 7 :: (littleEndian 8 count.toNat ++ littleEndian 8 length.toNat)

/-- A layout. -/
def layout (value : Layout) : List UInt8 :=
  text value.id ++ list (fun field => text field.name ++ kind field.kind) value.fields

/-- A message field type: a tag, then the schema it refers to. -/
def type : FieldType → List UInt8
  | .int32 => [0]
  | .bool => [1]
  | .string => [2]
  | .message schema => 3 :: text schema
  | .repeated schema => 4 :: text schema

/-- A schema. -/
def schema (value : Schema) : List UInt8 :=
  text value.id ++ list (fun field =>
    text field.name ++ littleEndian 4 field.number.toNat ++ type field.type) value.fields

/-- A descriptor. An absent repeated field is written as the empty name. -/
def descriptor (value : Descriptor) : List UInt8 :=
  littleEndian 2 value.opcode.toNat ++ text value.layout ++ text value.schema
    ++ text (value.repeatedField.getD "")

end Code

/-- The bytes that stand for a schema set. -/
def SchemaSet.code (set : SchemaSet) : List UInt8 := Code.list Code.schema set.schemas

/-- The fingerprint of a schema set. -/
def SchemaSet.fingerprint (set : SchemaSet) : UInt64 := Blake3.digest64 set.code

/-- The bytes that stand for a registry. -/
def Registry.code (registry : Registry) : List UInt8 :=
  Code.list Code.layout registry.layouts.layouts ++ registry.schemas.code
    ++ Code.list Code.descriptor registry.descriptors

/-- The fingerprint of a registry. -/
def Registry.fingerprint (registry : Registry) : UInt64 := Blake3.digest64 registry.code

/-- A fingerprint as sixteen hexadecimal digits. -/
def showFingerprint (fingerprint : UInt64) : String :=
  String.ofList ((Nat.toDigits 16 fingerprint.toNat).leftpad 16 '0')

end RecordBridge

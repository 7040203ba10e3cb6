import RecordBridge.Message.Basic
import RecordBridge.Text.Utf8
import RecordBridge.Wire.Skip
/-!
# Decoding messages

One message is changed in place while its bytes are read. A scalar replaces what
its field holds. A singular embedded message is taken out, its body is read into
it, and it is put back; the body of a list element is read into a new message,
which is then the last one of the list. Unknown fields are skipped.

Reading is best effort: the first fault ends it, and what was read before it is
kept, also inside an embedded message, which is put back before the fault goes
on. While a message is being read its lists stand last element first, so that an
element is added at the front; `finish` turns them round.

| here | operation |
| --- | --- |
| `MessageError.ofWire` | the error of the wire as one of a message |
| `readBlock` | `decode_length_delimited` |
| `Schema.Field.readContent`, `Schema.readPart` | what `merge` reads of one field |
| `Message.give` | the push to a list, or the message put back, in `merge` |
| `Message.takePart` | what `merge` does with one field |
| `Message.mergeParts` | the loop of `merge` |
| `Message.mergeFrom` | `merge` |
| `Message.decode` | `decode_message` |
-/
namespace RecordBridge

/-- How deep messages may nest. -/
def nestingLimit : Nat := 100

/-- The first field of some bytes, as one level of a message sees it. -/
inductive Part where
  /-- A field of unknown number. -/
  | unknown
  /-- A scalar, for the field at `index`. -/
  | scalar (index : Nat) (value : Value)
  /-- The body of an embedded message, for the field at `index`. -/
  | body (index : Nat) (schema : SchemaId) (repeated : Bool) (bytes : List UInt8)

namespace Schema

/-- A field by number, with its position. -/
def numbered? (schema : Schema) (number : UInt32) : Option (Nat × Field) := do
  let index ← schema.numberIndex? number
  return (index, ← schema.fields[index]?)

end Schema

/-- Reads from bytes, with faults as message errors. -/
def MessageError.ofWire : Except WireFault α → Except MessageError α
  | .ok value => .ok value
  | .error fault => .error (.wire fault)

/-- Reads the body of a length-delimited field. -/
def readBlock (field : String) (bytes : List UInt8) :
    Except MessageError (List UInt8 × List UInt8) := do
  let (length, rest) ← MessageError.ofWire (Wire.varint bytes)
  match Wire.splitExactly? length rest with
  | some block => return block
  | none => throw (.truncated field)

/-- Reads the content of a field after its key. -/
def Schema.Field.readContent (field : Field) (index : Nat) (bytes : List UInt8) :
    Except MessageError (Part × List UInt8) := do
  match field.type with
  | .int32 =>
    let (bits, rest) ← MessageError.ofWire (Wire.varint bytes)
    return (.scalar index (.int32 (Int32.ofNat bits)), rest)
  | .bool =>
    let (bits, rest) ← MessageError.ofWire (Wire.varint bytes)
    return (.scalar index (.bool (bits != 0)), rest)
  | .string =>
    let (body, rest) ← readBlock field.name bytes
    match Utf8.decode? body with
    | some text => return (.scalar index (.string text), rest)
    | none => throw (.invalidUtf8 field.name)
  | .message schema =>
    let (body, rest) ← readBlock field.name bytes
    return (.body index schema false body, rest)
  | .repeated schema =>
    let (body, rest) ← readBlock field.name bytes
    return (.body index schema true body, rest)

/-- Splits off the first field. -/
def Schema.readPart (schema : Schema) (bytes : List UInt8) :
    Except MessageError (Part × List UInt8) := do
  let ((number, wire), rest) ← MessageError.ofWire (Wire.key bytes)
  match schema.numbered? number with
  | none => return (.unknown, ← MessageError.ofWire (Wire.skip number wire rest))
  | some (index, field) =>
    if wire ≠ field.type.wireType then
      throw (.wireType field.name field.type.wireType wire)
    field.readContent index rest

theorem MessageError.ofWire_eq_ok {read : Except WireFault α} {value : α} :
    MessageError.ofWire read = .ok value ↔ read = .ok value := by
  cases read <;> simp [MessageError.ofWire]

theorem length_lt_of_readBlock {field : String} {bytes body rest : List UInt8}
    (h : readBlock field bytes = .ok (body, rest)) : rest.length < bytes.length := by
  unfold readBlock at h
  cases hv : MessageError.ofWire (Wire.varint bytes) with
  | error e => simp [hv, bind, Except.bind] at h
  | ok v =>
    have hlt := Wire.length_lt_of_varint (MessageError.ofWire_eq_ok.1 hv)
    simp only [hv, bind, Except.bind, pure, Except.pure] at h
    split at h
    · next hs => cases h; exact Nat.lt_of_le_of_lt (Wire.length_le_of_splitExactly? hs) hlt
    · cases h

theorem length_lt_of_readContent {field : Schema.Field} {index : Nat} {bytes rest : List UInt8}
    {part : Part} (h : field.readContent index bytes = .ok (part, rest)) :
    rest.length < bytes.length := by
  unfold Schema.Field.readContent at h
  cases ht : field.type with
  | int32 | bool =>
    cases hv : MessageError.ofWire (Wire.varint bytes) with
    | error e => simp [ht, hv, bind, Except.bind] at h
    | ok v =>
      simp only [ht, hv, bind, Except.bind, pure, Except.pure] at h
      cases h
      exact Wire.length_lt_of_varint (MessageError.ofWire_eq_ok.1 hv)
  | string =>
    cases hb : readBlock field.name bytes with
    | error e => simp [ht, hb, bind, Except.bind] at h
    | ok v =>
      simp only [ht, hb, bind, Except.bind, pure, Except.pure] at h
      split at h
      · cases h; exact length_lt_of_readBlock hb
      · cases h
  | message schema | repeated schema =>
    cases hb : readBlock field.name bytes with
    | error e => simp [ht, hb, bind, Except.bind] at h
    | ok v =>
      simp only [ht, hb, bind, Except.bind, pure, Except.pure] at h
      cases h
      exact length_lt_of_readBlock hb

/-- Reading a field consumes bytes. -/
theorem length_lt_of_readPart {schema : Schema} {bytes rest : List UInt8} {part : Part}
    (h : schema.readPart bytes = .ok (part, rest)) : rest.length < bytes.length := by
  unfold Schema.readPart at h
  cases hk : MessageError.ofWire (Wire.key bytes) with
  | error e => simp [hk, bind, Except.bind] at h
  | ok k =>
    obtain ⟨⟨number, wire⟩, tail⟩ := k
    have hlt := Wire.length_lt_of_key (MessageError.ofWire_eq_ok.1 hk)
    simp only [hk, bind, Except.bind] at h
    split at h
    · cases hs : MessageError.ofWire (Wire.skip number wire tail) with
      | error e => simp [hs] at h
      | ok r =>
        simp only [hs, pure, Except.pure] at h
        cases h
        exact Nat.lt_of_le_of_lt (Wire.length_le_of_skip (MessageError.ofWire_eq_ok.1 hs)) hlt
    · split at h
      · cases h
      · exact Nat.lt_trans (length_lt_of_readContent h) hlt

mutual

/-- Turns round the lists of a value that was read. -/
def Value.finish : Value → Value
  | .message value => .message value.finish
  | .list elements => .list elements.reverse
  | value => value

/-- Turns round the lists of a message that was read. -/
def Message.finish : Message → Message
  | .mk schema values => .mk schema (Message.finishValues values)

/-- Turns round the lists among the values of a message that was read. -/
def Message.finishValues : List (Option Value) → List (Option Value)
  | [] => []
  | none :: values => none :: Message.finishValues values
  | some value :: values => some value.finish :: Message.finishValues values

end

namespace Message

/-- Puts an embedded message that was read into its field: as the last element of a list,
or in the place of what the field holds. -/
def give (message : Message) (index : Nat) (repeated : Bool) (item : Message) : Message :=
  if repeated then
    match message.value? index with
    | some (.list elements) => message.put index (some (.list (item.finish :: elements)))
    | _ => message.put index (some (.list [item.finish]))
  else message.put index (some (.message item))

/-- Takes a part into the message that is being read. `mergeBody` reads a body into an
embedded message, if messages may nest that deep. A schema that `set` lacks gives no
message. -/
def takePart (set : SchemaSet)
    (mergeBody : Option (Message → List UInt8 → Message × Option MessageError))
    (message : Message) : Part → Message × Option MessageError
  | .unknown => (message, none)
  | .scalar index value => (message.put index (some value), none)
  | .body index id repeated bytes =>
    match mergeBody with
    | none => (message, some (.depth nestingLimit))
    | some mergeBody =>
      match set.get? id with
      | none => (message, none)
      | some schema =>
        let held := if repeated then none else message.messageAt? index
        let (item, fault) := mergeBody (held.getD (.blank schema)) bytes
        (message.give index repeated item, fault)

/-- Reads bytes into a message, part after part, up to the first fault. -/
def mergeParts (takePart : Message → Part → Message × Option MessageError) (message : Message)
    (bytes : List UInt8) : Message × Option MessageError :=
  if bytes.isEmpty then (message, none)
  else match _h : message.schema.readPart bytes with
    | .error error => (message, some error)
    | .ok (part, rest) =>
      match takePart message part with
      | (message, some fault) => (message, some fault)
      | (message, none) => mergeParts takePart message rest
termination_by bytes.length
decreasing_by exact length_lt_of_readPart _h

/-- Reads bytes into a message, in which others may nest `levels` deep. -/
def mergeFrom (set : SchemaSet) : (levels : Nat) → Message → List UInt8 →
    Message × Option MessageError
  | 0 => mergeParts (takePart set none)
  | levels + 1 => mergeParts (takePart set (some (mergeFrom set levels)))

/-- Decodes a message of a schema: the fields before the first fault, and the
fault. -/
def decode (set : SchemaSet) (schema : Schema) (bytes : List UInt8) :
    Message × Option MessageError :=
  let (message, fault) := mergeFrom set nestingLimit (.blank schema) bytes
  (message.finish, fault)

end Message

end RecordBridge

import RecordBridge.Json.Basic
import RecordBridge.Record.Access
import RecordBridge.Registry.Basic
/-!
# Records as JSON

A record is shown as an object with its field names as keys, in key order.
Texts are strings, a null pointer is `null`, embedded records are objects,
arrays and lists are arrays. The link of a record is left out: the list that
holds the record already says what follows it.

Reading goes the other way: fields that are missing stay zero, others are
refused, as are values of the wrong kind.

| here | operation |
| --- | --- |
| `Record.toJson` | `record_to_json` |
| `Record.fillJson`, `fillEntries`, `fillField` | `fill_record` |
| `Record.JsonError.messages` | the chain of an error of `fill_record` |
| `Registry.recordOfJson` | `record_from_json` |
-/
namespace RecordBridge

namespace Record

mutual

/-- The fields of a record from a position on, without the link. -/
def entries (link : Option Nat) (index : Nat) :
    List Layout.Field → List Slot → List (String × Json)
  | field :: fields, slot :: slots =>
    let rest := entries link (index + 1) fields slots
    if link = some index then rest else (field.name, slotJson slot) :: rest
  | _, _ => []

/-- A slot. -/
def slotJson : Slot → Json
  | .int value => .integer value.toInt
  | .bool value => .bool value
  | .bytes buffer => .string (readText buffer)
  | .text value => value.elim .null .string
  | .record value => value.toJson
  | .array elements => .array (allJson elements)
  | .link head => .array (nodesJson (.link head))

/-- A record. -/
def toJson : Record → Json
  | .mk layout slots =>
    .object (Json.sortEntries (entries layout.linkIndex? 0 layout.fields slots))

/-- The elements of an array. -/
def allJson : List Record → List Json
  | [] => []
  | element :: rest => element.toJson :: allJson rest

/-- The nodes of a list slot. -/
def nodesJson : Slot → List Json
  | .link (some (.mk layout slots)) =>
    .object (Json.sortEntries (entries layout.linkIndex? 0 layout.fields slots))
      :: nodesJsonAt (layout.linkIndex?.getD slots.length) slots
  | _ => []

/-- The nodes of the list at a position among slots. -/
def nodesJsonAt : Nat → List Slot → List Json
  | _, [] => []
  | 0, slot :: _ => nodesJson slot
  | index + 1, _ :: rest => nodesJsonAt index rest

end

/-- Why JSON is no record. -/
inductive JsonError where
  /-- An opcode is not registered. -/
  | unknownOpcode (opcode : UInt16)
  /-- A record is not an object. -/
  | notObject (layout : LayoutId)
  /-- A record has no such field. -/
  | unknownField (layout : LayoutId) (field : String)
  /-- A field has the wrong kind of value. -/
  | wrongKind (layout : LayoutId) (field : String) (expected : String)
  /-- An array has too many elements. -/
  | tooMany (layout : LayoutId) (field : String) (elements slots : Nat)
  /-- A record refused a value. -/
  | refused (layout : LayoutId) (field : String) (error : LayoutError)
deriving DecidableEq, Repr

/-- The wordings of an error and of what caused it, from the outermost on. -/
def JsonError.messages : JsonError → List String
  | .unknownOpcode opcode => ["unknown opcode " ++ showOpcode opcode]
  | .notObject layout => [s!"expected an object for {layout}"]
  | .unknownField layout field => [s!"no field {field} in {layout}"]
  | .wrongKind layout field expected => [s!"field {layout}.{field}", s!"expected {expected}"]
  | .tooMany layout field elements slots =>
    [s!"field {layout}.{field}: {elements} elements for {slots} slots"]
  | .refused layout field error => [s!"field {layout}.{field}", error.message]

/-- The result of a record operation on a field. -/
def accepted (layout : LayoutId) (field : String) :
    Except LayoutError α → Except JsonError α :=
  Except.mapError (.refused layout field)

mutual

/-- Fills a record from JSON. -/
def fillJson (layouts : LayoutSet) : Json → Record → Except JsonError Record
  | .object entries, record => fillEntries layouts entries record
  | _, record => .error (.notObject record.layoutId)

/-- Fills the fields that entries name. -/
def fillEntries (layouts : LayoutSet) :
    List (String × Json) → Record → Except JsonError Record
  | [], record => .ok record
  | (name, value) :: rest, record => do
    match record.layout.field? name with
    | none => throw (.unknownField record.layoutId name)
    | some field => fillEntries layouts rest (← fillField layouts value field record)

/-- Fills one field. -/
def fillField (layouts : LayoutSet) (value : Json) (field : Layout.Field) (record : Record) :
    Except JsonError Record := do
  let (id, name) := (record.layoutId, field.name)
  match field.kind, value with
  | .int .., .integer n => accepted id name (record.setInt name (Int64.ofInt n))
  | .int .., _ => throw (.wrongKind id name "an integer")
  | .bool, .bool flag => accepted id name (record.setBool name flag)
  | .bool, _ => throw (.wrongKind id name "a bool")
  | .fixedText _, .string text | .textRows .., .string text =>
    accepted id name (record.setFixedText name text)
  | .ownedText, .null => accepted id name (record.setOwnedText name none)
  | .ownedText, .string text => accepted id name (record.setOwnedText name (some text))
  | .fixedText _, _ | .textRows .., _ | .ownedText, _ => throw (.wrongKind id name "a string")
  | .nested _, .object entries => do
    let index ← accepted id name (record.index name)
    let inner ← accepted id name (record.nested name)
    return record.put index (.record (← fillEntries layouts entries inner))
  | .nested layout, _ => throw (.notObject layout)
  | .array _ count, .array items => do
    if count.toNat < items.length then throw (.tooMany id name items.length count.toNat)
    let index ← accepted id name (record.index name)
    let elements ← accepted id name (record.array name)
    return record.put index (.array (← fillElements layouts items elements))
  | .list node, .array items => do
    accepted id name (record.setList name (← fillNodes layouts id name node items))
  | .array .., _ | .list _, _ => throw (.wrongKind id name "an array")

/-- Fills the elements of an array as far as there are items. -/
def fillElements (layouts : LayoutSet) :
    List Json → List Record → Except JsonError (List Record)
  | item :: items, element :: elements => do
    return (← fillJson layouts item element) :: (← fillElements layouts items elements)
  | _, elements => .ok elements

/-- Makes the nodes of a list. -/
def fillNodes (layouts : LayoutSet) (layout : LayoutId) (field : String) (node : LayoutId) :
    List Json → Except JsonError (List Record)
  | [] => .ok []
  | item :: items => do
    let fresh ← accepted layout field (layouts.allocate node)
    return (← fillJson layouts item fresh) :: (← fillNodes layouts layout field node items)

end

end Record

/-- Reads a record of an opcode from JSON. -/
def Registry.recordOfJson (registry : Registry) (opcode : UInt16) (value : Json) :
    Except Record.JsonError Record :=
  match registry.record? opcode with
  | some record => record.fillJson registry.layouts value
  | none => .error (.unknownOpcode opcode)

end RecordBridge

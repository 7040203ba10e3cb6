import RecordBridge.Record.Basic
/-!
# Reading and writing records

Slots are read and written by position or by field name. A write is checked
against the field: the slot must fit it, and an integer is wrapped to its
width, so a record stays one of its layout. A refused write returns the error
and no record.

| here | operation |
| --- | --- |
| `Record.slotError` | `kind_mismatch`, `mismatch` |
| `Record.index`, `read` | `index_of`, `named` |
| `Record.int`, `bool`, `fixedBytes`, `fixedText`, `ownedText` | `int`, `bool`, `fixed_bytes`, `fixed_str`, `owned_str` |
| `Record.nested`, `array`, `head`, `list` | `nested`, `array`, `link`, `list` |
| `Record.setSlot` | `set_slot` |
| `Record.setInt`, `setBool`, `setFixedText`, `setOwnedText` | `set_int`, `set_bool`, `set_fixed_str`, `set_owned_str` |
| `Record.chain`, `setListAt`, `setList` | `set_list_at`, `set_list` |
| `Record.modifyNested`, `modifyElement`, `modifyAt` | what is done through `nested_mut`, `array_mut` and their forms by position |
-/
namespace RecordBridge

namespace Record

/-- The error of a slot that does not hold what was asked. -/
def slotError (record : Record) (index : Nat) (expected : String) : LayoutError :=
  .slotKind record.layoutId
    ((record.layout.fields[index]?.map (·.name)).getD s!"#{index}") expected

/-- The position of a field, or the error that there is none. -/
def index (record : Record) (name : String) : Except LayoutError Nat :=
  match record.layout.fieldIndex? name with
  | some index => .ok index
  | none => .error (.unknownField record.layoutId name)

/-- Reads a field through `pick`, which takes the slots it is meant for. -/
def read (record : Record) (name expected : String) (pick : Slot → Option α) :
    Except LayoutError α := do
  let index ← record.index name
  match (record.slot? index).bind pick with
  | some value => .ok value
  | none => .error (record.slotError index expected)

/-- Reads an integer field. -/
def int (record : Record) (name : String) : Except LayoutError Int64 :=
  record.read name "integer" fun | .int value => some value | _ => none

/-- Reads a flag. -/
def bool (record : Record) (name : String) : Except LayoutError Bool :=
  record.read name "bool" fun | .bool value => some value | _ => none

/-- Reads the bytes of a character buffer. -/
def fixedBytes (record : Record) (name : String) : Except LayoutError (List UInt8) :=
  record.read name "fixed string" fun | .bytes buffer => some buffer | _ => none

/-- Reads the text in a character buffer. -/
def fixedText (record : Record) (name : String) : Except LayoutError String :=
  readText <$> record.fixedBytes name

/-- Reads a text behind a pointer; `none` is the null pointer. -/
def ownedText (record : Record) (name : String) : Except LayoutError (Option String) :=
  record.read name "owned string" fun | .text value => some value | _ => none

/-- Reads an embedded record. -/
def nested (record : Record) (name : String) : Except LayoutError Record :=
  record.read name "record" fun | .record value => some value | _ => none

/-- Reads the elements of an embedded array. -/
def array (record : Record) (name : String) : Except LayoutError (List Record) :=
  record.read name "array" fun | .array elements => some elements | _ => none

/-- Reads the head of a linked list. -/
def head (record : Record) (name : String) : Except LayoutError (Option Record) :=
  record.read name "list" fun | .link head => some head | _ => none

/-- Reads the nodes of a linked list. -/
def list (record : Record) (name : String) : Except LayoutError (List Record) := do
  return (← record.head name).elim [] nodes

/-- Puts a slot at a position, unchecked. -/
def put (record : Record) (index : Nat) (slot : Slot) : Record :=
  mk record.layout (record.slots.set index slot)

/-- Replaces the slot at a position by one that fits its field. -/
def setSlot (record : Record) (index : Nat) (slot : Slot) : Except LayoutError Record :=
  match record.layout.fields[index]? with
  | none => .error (.unknownField record.layoutId s!"#{index}")
  | some field =>
    if slot.fits field.kind then .ok (record.put index (slot.stored field.kind))
    else .error (record.slotError index field.kind.slotName)

/-- Writes an integer field, wrapped to its width. -/
def setInt (record : Record) (name : String) (value : Int64) : Except LayoutError Record := do
  record.setSlot (← record.index name) (.int value)

/-- Writes a flag. -/
def setBool (record : Record) (name : String) (value : Bool) : Except LayoutError Record := do
  record.setSlot (← record.index name) (.bool value)

/-- Writes a text into a character buffer, cut to its length. -/
def setFixedText (record : Record) (name : String) (value : String) :
    Except LayoutError Record := do
  let index ← record.index name
  match record.layout.fields[index]?.bind (·.kind.textLength?) with
  | some length => record.setSlot index (.bytes (packText value length))
  | none => throw (record.slotError index "fixed string")

/-- Writes a text behind a pointer, or the null pointer. -/
def setOwnedText (record : Record) (name : String) (value : Option String) :
    Except LayoutError Record := do
  record.setSlot (← record.index name) (.text value)

/-- Links nodes in order and returns the head. What a node was linked to before
is dropped. Nodes are taken from the last, which so is the first to be refused. -/
def chain (layout : LayoutId) (field : String) :
    List Record → Except LayoutError (Option Record)
  | [] => .ok none
  | node :: rest => do
    let tail ← chain layout field rest
    if node.layoutId ≠ layout then throw (.layoutMismatch layout node.layoutId)
    match node.layout.linkIndex? with
    | none => throw (.missingLink layout field)
    | some link => return node.put link (.link tail)

/-- Replaces the list at a position by `nodes`, linked in order. -/
def setListAt (record : Record) (index : Nat) (nodes : List Record) :
    Except LayoutError Record :=
  match record.layout.fields[index]? with
  | none => .error (.unknownField record.layoutId s!"#{index}")
  | some field =>
    match field.kind with
    | .list layout => return record.put index (.link (← chain layout field.name nodes))
    | _ => .error (record.slotError index "list")

/-- Replaces a list by `nodes`, linked in order. -/
def setList (record : Record) (name : String) (nodes : List Record) :
    Except LayoutError Record := do
  record.setListAt (← record.index name) nodes

/-- Changes an embedded record in place. -/
def modifyNested (record : Record) (name : String) (f : Record → Except LayoutError Record) :
    Except LayoutError Record := do
  let index ← record.index name
  match record.slot? index with
  | some (.record inner) => return record.put index (.record (← f inner))
  | _ => throw (record.slotError index "record")

/-- Changes one element of an embedded array in place. -/
def modifyElement (record : Record) (name : String) (position : Nat)
    (f : Record → Except LayoutError Record) : Except LayoutError Record := do
  let index ← record.index name
  match record.slot? index with
  | some (.array elements) =>
    match elements[position]? with
    | some element => return record.put index (.array (elements.set position (← f element)))
    | none => throw (.unknownField record.layoutId s!"{name}#{position}")
  | _ => throw (record.slotError index "array")

/-- A way into a record: to an embedded record, or to an array element. -/
inductive Step where
  | nested (name : String)
  | element (name : String) (position : Nat)
deriving DecidableEq, Repr

/-- Changes the record at the end of a path in place. -/
def modifyAt (f : Record → Except LayoutError Record) :
    List Step → Record → Except LayoutError Record
  | [], record => f record
  | .nested name :: path, record => record.modifyNested name (modifyAt f path)
  | .element name position :: path, record =>
    record.modifyElement name position (modifyAt f path)

/-- The record at the end of a path. -/
def follow : List Step → Record → Except LayoutError Record
  | [], record => .ok record
  | .nested name :: path, record => do follow path (← record.nested name)
  | .element name position :: path, record => do
    match (← record.array name)[position]? with
    | some element => follow path element
    | none => throw (.unknownField record.layoutId s!"{name}#{position}")

end Record

end RecordBridge

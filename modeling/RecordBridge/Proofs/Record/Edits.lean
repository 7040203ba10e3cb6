import RecordBridge.Proofs.InPlace
import RecordBridge.Proofs.Record.Built
/-!
# Records edited in place

A writer changes a record where it lies and stops at its first error, with the record
as it is then (`Edit`). Every writer has changed nothing when it stops, and otherwise
does what the operation on records does that it is the form in place of (`InPlace`).
That goes for records reached inside others too (`InPlace.at`): what an edit left of an
embedded record is put back whether or not it failed.
-/
namespace RecordBridge

namespace Record

/-- A change to a record in place. -/
abbrev Edit (α : Type) := ExceptT LayoutError (StateM Record) α

namespace Edit

/-- The position of a field of the record. -/
def index (name : String) : Edit Nat := do
  MonadExcept.ofExcept ((← get).index name)

/-- Replaces the slot at a position by one that fits its field. -/
def setSlot (index : Nat) (slot : Slot) : Edit Unit := do
  let record ← get
  match record.layout.fields[index]? with
  | none => throw (.unknownField record.layoutId s!"#{index}")
  | some field =>
    if slot.fits field.kind then modify (·.put index (slot.stored field.kind))
    else throw (record.slotError index field.kind.slotName)

/-- Writes an integer field. -/
def setInt (name : String) (value : Int64) : Edit Unit := do
  setSlot (← index name) (.int value)

/-- Writes a flag. -/
def setBool (name : String) (value : Bool) : Edit Unit := do
  setSlot (← index name) (.bool value)

/-- Writes a text into a character buffer. -/
def setFixedText (name : String) (value : String) : Edit Unit := do
  let index ← index name
  let record ← get
  match record.layout.fields[index]?.bind (·.kind.textLength?) with
  | some length => setSlot index (.bytes (packText value length))
  | none => throw (record.slotError index "fixed string")

/-- Writes a text behind a pointer. -/
def setOwnedText (name : String) (value : Option String) : Edit Unit := do
  setSlot (← index name) (.text value)

/-- Links a node before what the nodes after it come to. -/
def linkBefore (layout : LayoutId) (field : String) (head : Option Record) (node : Record) :
    Except LayoutError (Option Record) := do
  if node.layoutId ≠ layout then throw (.layoutMismatch layout node.layoutId)
  match node.layout.linkIndex? with
  | none => throw (.missingLink layout field)
  | some link => return node.put link (.link head)

/-- Replaces the list at a position by nodes, linked from the last one on. -/
def setListAt (index : Nat) (nodes : List Record) : Edit Unit := do
  let record ← get
  match record.layout.fields[index]? with
  | none => throw (.unknownField record.layoutId s!"#{index}")
  | some field =>
    match field.kind with
    | .list layout =>
      let head ← MonadExcept.ofExcept
        (nodes.reverse.foldlM (linkBefore layout field.name) none)
      modify (·.put index (.link head))
    | _ => throw (record.slotError index "list")

/-- Replaces a list by nodes. -/
def setList (name : String) (nodes : List Record) : Edit Unit := do
  setListAt (← index name) nodes

/-- Edits an embedded record in place. -/
def nested (name : String) (edit : Edit Unit) : Edit Unit := do
  let index ← index name
  let record ← get
  match record.slot? index with
  | some (.record inner) =>
    let (result, left) := outcome edit inner
    modify (·.put index (.record left))
    MonadExcept.ofExcept result
  | _ => throw (record.slotError index "record")

/-- Edits an element of an embedded array in place. -/
def element (name : String) (position : Nat) (edit : Edit Unit) : Edit Unit := do
  let index ← index name
  let record ← get
  match record.slot? index with
  | some (.array elements) =>
    match elements[position]? with
    | some element =>
      let (result, left) := outcome edit element
      modify (·.put index (.array (elements.set position left)))
      MonadExcept.ofExcept result
    | none => throw (.unknownField record.layoutId s!"{name}#{position}")
  | _ => throw (record.slotError index "array")

/-- Edits the record at the end of a path in place. -/
def «at» (edit : Edit Unit) : List Step → Edit Unit
  | [] => edit
  | .nested name :: path => nested name (edit.at path)
  | .element name position :: path => element name position (edit.at path)

end Edit

/-- Linking from the last node on is linking the nodes after the first one first. -/
theorem foldlM_linkBefore (layout : LayoutId) (field : String) : ∀ nodes : List Record,
    nodes.reverse.foldlM (Edit.linkBefore layout field) none = chain layout field nodes
  | [] => rfl
  | node :: rest => by
    rw [List.reverse_cons, List.foldlM_append, foldlM_linkBefore layout field rest, chain]
    congr 1
    funext tail
    rw [List.foldlM_cons]
    simp only [List.foldlM_nil, bind_pure]
    rfl

end Record

namespace InPlace

open Record

theorem index_bind {edit : Nat → Edit Unit} {operation : Nat → Record → Except LayoutError Record}
    (h : ∀ index, InPlace (edit index) (operation index)) (name : String) :
    InPlace (Edit.index name >>= edit)
      (fun record => record.index name >>= fun index => operation index record) :=
  read_bind h

theorem setSlot (index : Nat) (slot : Slot) :
    InPlace (Edit.setSlot index slot) (·.setSlot index slot) := by
  intro record
  rw [Edit.setSlot, outcome_bind, outcome_get]
  dsimp only
  rw [Record.setSlot]
  cases record.layout.fields[index]? with
  | none => rfl
  | some field => by_cases h : slot.fits field.kind <;> simp [h]

theorem setInt (name : String) (value : Int64) :
    InPlace (Edit.setInt name value) (·.setInt name value) :=
  index_bind (fun index => setSlot index (.int value)) name

theorem setBool (name : String) (value : Bool) :
    InPlace (Edit.setBool name value) (·.setBool name value) :=
  index_bind (fun index => setSlot index (.bool value)) name

theorem setOwnedText (name : String) (value : Option String) :
    InPlace (Edit.setOwnedText name value) (·.setOwnedText name value) :=
  index_bind (fun index => setSlot index (.text value)) name

theorem setFixedText (name value : String) :
    InPlace (Edit.setFixedText name value) (·.setFixedText name value) := by
  refine index_bind (fun index record => ?_) name
  rw [outcome_bind, outcome_get]
  dsimp only
  cases record.layout.fields[index]?.bind (·.kind.textLength?) with
  | none => rfl
  | some length => exact setSlot index _ record

theorem setListAt (index : Nat) (nodes : List Record) :
    InPlace (Edit.setListAt index nodes) (·.setListAt index nodes) := by
  intro record
  rw [Edit.setListAt, outcome_bind, outcome_get]
  dsimp only
  rw [Record.setListAt]
  cases record.layout.fields[index]? with
  | none => rfl
  | some field =>
    cases hk : field.kind with
    | list layout =>
      simp only [hk, foldlM_linkBefore, outcome_bind, outcome_ofExcept]
      cases chain layout field.name nodes <;> rfl
    | _ =>
      simp only [hk]
      rfl

theorem setList (name : String) (nodes : List Record) :
    InPlace (Edit.setList name nodes) (·.setList name nodes) :=
  index_bind (fun index => setListAt index nodes) name

variable {edit : Edit Unit} {operation : Record → Except LayoutError Record}

theorem nested (h : InPlace edit operation) (name : String) :
    InPlace (Edit.nested name edit) (·.modifyNested name operation) := by
  refine index_bind (fun index record => ?_) name
  rw [outcome_bind, outcome_get]
  dsimp only
  cases hs : record.slot? index with
  | none => rfl
  | some slot =>
    cases slot with
    | record inner =>
      simp only [outcome_bind, outcome_modify, outcome_ofExcept, h inner]
      cases operation inner with
      | ok changed => rfl
      | error error => simp [bind, Except.bind, put_slot? hs]
    | _ => rfl

theorem element (h : InPlace edit operation) (name : String) (position : Nat) :
    InPlace (Edit.element name position edit) (·.modifyElement name position operation) := by
  refine index_bind (fun index record => ?_) name
  rw [outcome_bind, outcome_get]
  dsimp only
  cases hs : record.slot? index with
  | none => rfl
  | some slot =>
    cases slot with
    | array elements =>
      dsimp only
      cases he : elements[position]? with
      | none => rfl
      | some element =>
        simp only [outcome_bind, outcome_modify, outcome_ofExcept, h element]
        cases operation element with
        | ok changed => rfl
        | error error =>
          obtain ⟨hi, he⟩ := List.getElem?_eq_some_iff.1 he
          simp [bind, Except.bind, ← he, put_slot? hs]
    | _ => rfl

/-- What holds of an edit holds of it inside records. -/
theorem «at» (h : InPlace edit operation) : ∀ path : List Step,
    InPlace (edit.at path) (modifyAt operation path)
  | [] => h
  | .nested name :: path => (h.at path).nested name
  | .element name position :: path => (h.at path).element name position

end InPlace

end RecordBridge

import RecordBridge.Proofs.InPlace
import RecordBridge.Proofs.Message.Sound
/-!
# Messages edited in place

A change is made to a message where it lies (`Change.edit`), and is the form in place of
an operation on messages (`Change.inPlace`). Messages come about by any changes one after
another, whether or not these succeed, with messages that came about in the same way as
arguments (`Reached`). Each of them is sound, so a change that appends finds a list or
nothing in the field (`reached_fits`).
-/
namespace RecordBridge.Message

/-- A change to a message in place. -/
abbrev Edit (α : Type) := ExceptT MessageError (StateM Message) α

namespace Edit

/-- The position of a field of the message. -/
def index (name : String) : Edit Nat := do
  MonadExcept.ofExcept ((← get).index name)

/-- Sets the field at a position to a value of its type. -/
def setAt (index : Nat) (value : Value) : Edit Unit := do
  MonadExcept.ofExcept ((← get).check index value)
  modify (·.put index (some value))

/-- Sets a field. -/
def set (name : String) (value : Value) : Edit Unit := do
  setAt (← index name) value

/-- Unsets a field. -/
def clear (name : String) : Edit Unit := do
  let index ← index name
  modify (·.put index none)

/-- Appends an element at a position: to the list there, or else in place of whatever is
there. -/
def pushAt (index : Nat) (element : Message) : Edit Unit := do
  let message ← get
  MonadExcept.ofExcept (message.check index (.list [element]))
  match message.value? index with
  | some (.list elements) => modify (·.put index (some (.list (elements ++ [element]))))
  | _ => modify (·.put index (some (.list [element])))

/-- Appends an element to a field. -/
def push (name : String) (element : Message) : Edit Unit := do
  pushAt (← index name) element

end Edit

/-- A change with its arguments. -/
inductive Change where
  | set (name : String) (value : Value)
  | setAt (index : Nat) (value : Value)
  | push (name : String) (element : Message)
  | pushAt (index : Nat) (element : Message)
  | clear (name : String)

namespace Change

/-- What a change does in place. -/
def edit : Change → Edit Unit
  | .set name value => .set name value
  | .setAt index value => .setAt index value
  | .push name element => .push name element
  | .pushAt index element => .pushAt index element
  | .clear name => .clear name

/-- The message that a change makes of one. -/
def apply : Change → Message → Except MessageError Message
  | .set name value => (·.set name value)
  | .setAt index value => (·.setAt index value)
  | .push name element => (·.push name element)
  | .pushAt index element => (·.pushAt index element)
  | .clear name => (·.clear name)

/-- The messages among the arguments of a change. -/
def messages : Change → List Message
  | .set _ value | .setAt _ value => value.inner
  | .push _ element | .pushAt _ element => [element]
  | .clear _ => []

/-- The position that a change appends an element at. -/
def Appends (message : Message) (index : Nat) (element : Message) : Change → Prop
  | .push name other => message.schema.fieldIndex? name = some index ∧ other = element
  | .pushAt place other => place = index ∧ other = element
  | .set .. | .setAt .. | .clear .. => False

end Change

/-! ## One change -/

theorem index_inPlace {edit : Nat → Edit Unit}
    {operation : Nat → Message → Except MessageError Message}
    (h : ∀ index, InPlace (edit index) (operation index)) (name : String) :
    InPlace (Edit.index name >>= edit)
      (fun message => message.index name >>= fun index => operation index message) :=
  InPlace.read_bind h

theorem setAt_inPlace (index : Nat) (value : Value) :
    InPlace (Edit.setAt index value) (·.setAt index value) := by
  intro message
  rw [Edit.setAt, outcome_bind, outcome_get]
  dsimp only
  rw [outcome_bind, outcome_ofExcept, setAt]
  cases message.check index value <;> rfl

theorem pushAt_inPlace (index : Nat) (element : Message) :
    InPlace (Edit.pushAt index element) (·.pushAt index element) := by
  intro message
  rw [Edit.pushAt, outcome_bind, outcome_get]
  dsimp only
  rw [outcome_bind, outcome_ofExcept, pushAt, appendAt, if_neg (by simp), elementsAt]
  cases message.check index (.list [element]) with
  | error error => rfl
  | ok =>
    -- what is no list is replaced, which is to append to no elements
    rcases message.value? index with _ | (_ | _ | _ | _ | elements) <;> rfl

theorem Change.inPlace (change : Change) : InPlace change.edit change.apply := by
  cases change with
  | set name value => exact index_inPlace (fun index => setAt_inPlace index value) name
  | setAt index value => exact setAt_inPlace index value
  | push name element => exact index_inPlace (fun index => pushAt_inPlace index element) name
  | pushAt index element => exact pushAt_inPlace index element
  | clear name =>
    have hput : ∀ index, InPlace (modify (·.put index none) : Edit Unit)
        fun message => .ok (message.put index none) := fun _ _ => rfl
    exact index_inPlace hput name

variable {set : SchemaSet} {message changed : Message}

/-- A change to a sound message with sound arguments leaves one. -/
theorem Sound.apply (h : message.Sound set) {change : Change}
    (hinside : ∀ inner ∈ change.messages, inner.Sound set)
    (happly : change.apply message = .ok changed) : changed.Sound set := by
  cases change with
  | set name value =>
    obtain ⟨index, -, happly⟩ := bind_eq_ok.1 happly
    exact h.setAt hinside happly
  | setAt index value => exact h.setAt hinside happly
  | push name element =>
    obtain ⟨index, -, happly⟩ := bind_eq_ok.1 happly
    exact h.appendAt hinside happly
  | pushAt index element => exact h.appendAt hinside happly
  | clear name => exact h.clear happly

/-! ## Appending -/

/-- An element was put at the end of the list of a field, which was empty if unset, and
nothing else was changed. -/
structure Appended (before after : Message) (index : Nat) (element : Message) : Prop where
  schema : after.schema = before.schema
  length : after.values.length = before.values.length
  list : ∃ elements, (before.value? index).getD (.list []) = .list elements ∧
    after.value? index = some (.list (elements ++ [element]))
  others : ∀ other, other ≠ index → after.value? other = before.value? other

/-- A field that takes a list of a sound message holds one, or nothing. -/
theorem Sound.getD_value? (h : message.Sound set) {index : Nat} {elements : List Message}
    (hcheck : message.check index (.list elements) = .ok ()) :
    (message.value? index).getD (.list []) = .list (message.elementsAt index) := by
  obtain ⟨field, hf, hfit⟩ := check_eq_ok_iff.1 hcheck
  obtain ⟨id, htype, -⟩ := Value.exists_type_of_fits_list hfit
  unfold elementsAt
  cases hv : message.value? index with
  | none => rfl
  | some value =>
    have hheld : value.fits (.repeated id) :=
      htype ▸ h.fits.fits index field value hf (value?_eq_some.1 hv)
    cases value with
    | list elements => rfl
    | _ => cases hheld

theorem Sound.appended (h : message.Sound set) {index : Nat} {element : Message}
    (hpush : message.pushAt index element = .ok changed) :
    Appended message changed index element := by
  rw [pushAt, Message.appendAt, if_neg (by simp)] at hpush
  simp only [bind_eq_ok, pure_eq_ok] at hpush
  obtain ⟨_, hcheck, rfl⟩ := hpush
  obtain ⟨field, hf, -⟩ := check_eq_ok_iff.1 hcheck
  have hi : index < message.values.length :=
    h.fits.length ▸ (List.getElem?_eq_some_iff.1 hf).1
  refine ⟨rfl, by simp, ⟨_, h.getD_value? hcheck, ?_⟩, fun other hne => ?_⟩
  · rw [value?_put hi, if_pos rfl]
  · rw [value?_put hi, if_neg hne.symm]

/-- A change that appends and succeeds appends its element and does nothing else. -/
theorem Sound.appended_of_apply (h : message.Sound set) {change : Change} {index : Nat}
    {element : Message} (happends : change.Appends message index element)
    (happly : change.apply message = .ok changed) : Appended message changed index element := by
  cases change with
  | push name other =>
    obtain ⟨hindex, rfl⟩ := happends
    obtain ⟨place, hplace, happly⟩ := bind_eq_ok.1 happly
    rw [Message.index, hindex] at hplace
    cases hplace
    exact h.appended happly
  | pushAt place other =>
    obtain ⟨rfl, rfl⟩ := happends
    exact h.appended happly
  | _ => exact happends.elim

/-! ## Any changes -/

/-- A message that came about by changes in place, or was taken out of such a message.
Whether or not a change succeeds, the message goes on as it was left; arguments came
about in the same way. -/
inductive Reached (set : SchemaSet) : Message → Prop where
  | blank {id : SchemaId} {message : Message} (made : set.message id = .ok message) :
      Reached set message
  | change {message : Message} {change : Change} (reached : Reached set message)
      (inside : ∀ inner ∈ change.messages, Reached set inner) :
      Reached set (outcome change.edit message).2
  | inner {message inner : Message} (reached : Reached set message)
      (taken : inner ∈ message.inner) : Reached set inner

/-- A message, or one inside it. -/
inductive Holds : Message → Message → Prop where
  | self {message : Message} : Holds message message
  | inner {message next found : Message} (mem : next ∈ message.inner)
      (holds : Holds next found) : Holds message found

theorem Holds.sound {found : Message} (h : message.Holds found) (hm : message.Sound set) :
    found.Sound set := by
  induction h with
  | self => exact hm
  | inner mem _ ih => exact ih (hm.inside mem)

theorem Reached.sound (h : Reached set message) : message.Sound set := by
  induction h with
  | blank made => exact (Built.blank made).sound
  | @change message change _ _ ih ihinside =>
    rcases change.inPlace.changed with hsame | happly
    · rw [hsame]
      exact ih
    · exact ih.apply ihinside happly
  | inner _ taken ih => exact ih.inside taken

/-- However a message came about, it and every message inside it have one value, set or
unset, for each field of their schema, and set values are of the type of the field. A
change that fails leaves the message as it is, and one that appends an element and
succeeds puts it at the end of the list of its field and changes nothing else. -/
theorem reached_fits (h : Reached set message) :
    (∀ found, message.Holds found →
      found.schema ∈ set.schemas ∧ Fits found.schema.fields found.values) ∧
    ∀ change : Change,
      (∀ error, (outcome change.edit message).1 = .error error →
        (outcome change.edit message).2 = message) ∧
      ∀ index element, change.Appends message index element →
        (outcome change.edit message).1 = .ok () →
          Appended message (outcome change.edit message).2 index element := by
  have hsound := h.sound
  refine ⟨fun found hholds => ?_, fun change => ⟨fun error => change.inPlace.unchanged, ?_⟩⟩
  · have hfound := hholds.sound hsound
    exact ⟨hfound.known, hfound.fits⟩
  · intro index element happends hok
    rw [change.inPlace message] at hok ⊢
    cases happly : change.apply message with
    | error error => simp [happly] at hok
    | ok changed => exact hsound.appended_of_apply happends happly

/-! ### A node with a further one -/

/-- A node that was given a number of the wrong type, in vain, and then a further node. -/
def furtherNode : Message :=
  (outcome (Change.pushAt 2 (.blank nodeSchema)).edit
    (outcome (Change.set "value" (.bool true)).edit (.blank nodeSchema)).2).2

theorem reached_fits_node :
    SchemaSet.ofList [nodeSchema] = .ok ⟨[nodeSchema]⟩ ∧ Reached ⟨[nodeSchema]⟩ furtherNode ∧
      Fits nodeSchema.fields furtherNode.values ∧
      (outcome (Change.set "next" (.list [furtherNode])).edit furtherNode).1 =
        .error (.valueType "Node" "next" "Node") ∧
      (outcome (Change.set "next" (.list [furtherNode])).edit furtherNode).2 = furtherNode ∧
      (outcome (Change.push "further" furtherNode).edit furtherNode).1 = .ok () ∧
      Appended furtherNode (outcome (Change.push "further" furtherNode).edit furtherNode).2 2
        furtherNode := by
  have hblank : Reached ⟨[nodeSchema]⟩ (.blank nodeSchema) :=
    .blank (show SchemaSet.message ⟨[nodeSchema]⟩ "Node" = .ok _ from rfl)
  have hreached : Reached ⟨[nodeSchema]⟩ furtherNode :=
    .change (.change hblank nofun) (List.forall_mem_singleton.2 hblank)
  have herror : (outcome (Change.set "next" (.list [furtherNode])).edit furtherNode).1 =
      .error (.valueType "Node" "next" "Node") := by cbv
  have hok : (outcome (Change.push "further" furtherNode).edit furtherNode).1 = .ok () := by cbv
  obtain ⟨hfits, hchange⟩ := reached_fits hreached
  exact ⟨by cbv, hreached, (hfits _ .self).2, herror, (hchange _).1 _ herror, hok,
    (hchange (.push "further" furtherNode)).2 2 _ ⟨by cbv, rfl⟩ hok⟩

end RecordBridge.Message

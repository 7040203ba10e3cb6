import RecordBridge.Proofs.Schema.Sound
/-!
# Sound messages

A message is sound in a set when its schema is of the set, it has one value per
field, each fit for its field, and the messages inside it are sound. Whatever
is built in the set by storing, appending and unsetting is sound
(`Built.sound`). `Message.nesting` counts the levels of messages inside one.
-/
namespace RecordBridge

/-! ## What a message holds -/

/-- The messages a value holds. -/
def Value.inner : Value → List Message
  | .message value => [value]
  | .list elements => elements
  | _ => []

/-- The messages that the fields of a message hold. -/
def Message.inner (message : Message) : List Message :=
  message.values.flatMap fun value => value.elim [] Value.inner

mutual

/-- How many levels of messages a value adds. -/
def Value.nesting : Value → Nat
  | .message value => value.nesting + 1
  | .list elements => Message.nestingEach elements
  | _ => 0

/-- How deep messages nest inside one; 0 without embedded messages. -/
def Message.nesting : Message → Nat
  | .mk _ values => Message.nestingFields values

/-- The deepest of some fields. -/
def Message.nestingFields : List (Option Value) → Nat
  | [] => 0
  | none :: values => Message.nestingFields values
  | some value :: values => max value.nesting (Message.nestingFields values)

/-- The deepest of the elements of a list. -/
def Message.nestingEach : List Message → Nat
  | [] => 0
  | element :: rest => max (element.nesting + 1) (Message.nestingEach rest)

end

/-- Every set value fits the field at its place, and there is a place for each. -/
structure Message.Fits (fields : List Schema.Field) (values : List (Option Value)) : Prop where
  length : values.length = fields.length
  fits : ∀ (index : Nat) field value, fields[index]? = some field →
    values[index]? = some (some value) → value.fits field.type

/-- A message of a schema of the set, with fitting values, down to the innermost. -/
inductive Message.Sound (set : SchemaSet) : Message → Prop where
  | intro {message : Message} (known : message.schema ∈ set.schemas)
      (fits : Message.Fits message.schema.fields message.values)
      (inside : ∀ inner ∈ message.inner, Message.Sound set inner) : Message.Sound set message

/-- A message that came about by changes to blank messages of the set. -/
inductive Message.Built (set : SchemaSet) : Message → Prop where
  | blank {id : SchemaId} {message : Message} (made : set.message id = .ok message) :
      Message.Built set message
  | set {message changed : Message} {name : String} {value : Value}
      (built : Message.Built set message)
      (inside : ∀ inner ∈ value.inner, Message.Built set inner)
      (made : message.set name value = .ok changed) : Message.Built set changed
  | setAt {message changed : Message} {index : Nat} {value : Value}
      (built : Message.Built set message)
      (inside : ∀ inner ∈ value.inner, Message.Built set inner)
      (made : message.setAt index value = .ok changed) : Message.Built set changed
  | push {message changed element : Message} {name : String}
      (built : Message.Built set message) (inside : Message.Built set element)
      (made : message.push name element = .ok changed) : Message.Built set changed
  | pushAt {message changed element : Message} {index : Nat}
      (built : Message.Built set message) (inside : Message.Built set element)
      (made : message.pushAt index element = .ok changed) : Message.Built set changed
  | clear {message changed : Message} {name : String}
      (built : Message.Built set message)
      (made : message.clear name = .ok changed) : Message.Built set changed

/-! ## Types of the values that hold messages -/

theorem Value.type_eq_of_fits_message {child : Message} {type : FieldType}
    (h : (Value.message child).fits type) : type = .message child.schemaId := by
  cases type with
  | message id => rw [show child.schemaId = id by simpa [Value.fits] using h]
  | _ => cases h

theorem Value.exists_type_of_fits_list {elements : List Message} {type : FieldType}
    (h : (Value.list elements).fits type) :
    ∃ id, type = .repeated id ∧ ∀ element ∈ elements, element.schemaId = id := by
  cases type with
  | repeated id => exact ⟨id, rfl, by simpa [Value.fits] using h⟩
  | _ => cases h

namespace Message

/-! ## Nesting -/

theorem nesting_le_nestingFields {value : Value} : ∀ {values : List (Option Value)},
    some value ∈ values → value.nesting ≤ nestingFields values
  | none :: values, h => by
    rw [nestingFields]
    exact nesting_le_nestingFields (by simpa using h)
  | some first :: values, h => by
    rw [nestingFields]
    rcases List.mem_cons.1 h with h | h
    · cases h
      exact Nat.le_max_left _ _
    · exact Nat.le_trans (nesting_le_nestingFields h) (Nat.le_max_right _ _)

theorem nesting_lt_nestingEach {element : Message} : ∀ {elements : List Message},
    element ∈ elements → element.nesting < nestingEach elements
  | first :: rest, h => by
    rw [nestingEach]
    rcases List.mem_cons.1 h with rfl | h
    · omega
    · have := nesting_lt_nestingEach h
      omega

theorem nesting_lt_of_mem_value {inner : Message} {value : Value} (h : inner ∈ value.inner) :
    inner.nesting < value.nesting := by
  cases value with
  | message value =>
    rw [List.mem_singleton.1 h, Value.nesting]
    exact Nat.lt_succ_self _
  | list elements =>
    rw [Value.nesting]
    exact nesting_lt_nestingEach h
  | int32 | bool | string => cases h

theorem mem_inner {message inner : Message} :
    inner ∈ message.inner ↔ ∃ value, some value ∈ message.values ∧ inner ∈ value.inner := by
  rw [Message.inner, List.mem_flatMap]
  constructor
  · rintro ⟨_ | value, hm, hi⟩
    · cases hi
    · exact ⟨value, hm, hi⟩
  · rintro ⟨value, hm, hi⟩
    exact ⟨some value, hm, hi⟩

/-- An embedded message nests less deep than what it is in. -/
theorem nesting_lt_of_mem_inner {message inner : Message} (h : inner ∈ message.inner) :
    inner.nesting < message.nesting := by
  obtain ⟨value, hm, hi⟩ := mem_inner.1 h
  cases message with
  | mk schema values =>
    rw [nesting]
    exact Nat.lt_of_lt_of_le (nesting_lt_of_mem_value hi) (nesting_le_nestingFields hm)

theorem nestingEach_le {levels : Nat} : ∀ {elements : List Message},
    (∀ element ∈ elements, element.nesting < levels) → nestingEach elements ≤ levels
  | [], _ => Nat.zero_le _
  | element :: rest, h => by
    obtain ⟨hfirst, hrest⟩ := List.forall_mem_cons.1 h
    exact Nat.max_le.2 ⟨hfirst, nestingEach_le hrest⟩

theorem nesting_value_le {levels : Nat} {value : Value}
    (h : ∀ inner ∈ value.inner, inner.nesting < levels) : value.nesting ≤ levels := by
  cases value with
  | message value => exact h value (List.mem_singleton.2 rfl)
  | list elements => exact nestingEach_le h
  | int32 | bool | string => exact Nat.zero_le _

theorem nestingFields_le {levels : Nat} : ∀ {values : List (Option Value)},
    (∀ value, some value ∈ values → value.nesting ≤ levels) → nestingFields values ≤ levels
  | [], _ => Nat.zero_le _
  | none :: values, h => by
    rw [nestingFields]
    exact nestingFields_le fun value hv => h value (List.mem_cons_of_mem _ hv)
  | some value :: values, h => Nat.max_le.2 ⟨h value List.mem_cons_self,
      nestingFields_le fun value hv => h value (List.mem_cons_of_mem _ hv)⟩

/-- A message nests one level deeper than what is in it, at most. -/
theorem nesting_le {message : Message} {levels : Nat}
    (h : ∀ inner ∈ message.inner, inner.nesting < levels) : message.nesting ≤ levels := by
  cases message with
  | mk schema values =>
    refine nestingFields_le fun value hv => nesting_value_le fun inner hi => ?_
    exact h inner (mem_inner.2 ⟨value, hv, hi⟩)

/-! ## Soundness is kept -/

theorem value?_eq_some {message : Message} {index : Nat} {value : Value} :
    message.value? index = some value ↔ message.values[index]? = some (some value) := by
  unfold value?
  cases message.values[index]? <;> simp

theorem fits_cons {field : Schema.Field} {fields : List Schema.Field} {value : Option Value}
    {values : List (Option Value)} : Fits (field :: fields) (value :: values) ↔
      (∀ set, value = some set → set.fits field.type) ∧ Fits fields values := by
  constructor
  · rintro ⟨hlen, hfits⟩
    exact ⟨fun set h => hfits 0 field set rfl (by rw [h]; rfl), by simpa using hlen,
      fun i f v hf hv => hfits (i + 1) f v hf hv⟩
  · rintro ⟨hfirst, hlen, hfits⟩
    refine ⟨by simpa using hlen, fun i f v hf hv => ?_⟩
    cases i with
    | zero =>
      cases hf
      exact hfirst v (by simpa using hv)
    | succ i => exact hfits i f v hf hv

theorem fits_replicate (fields : List Schema.Field) :
    Fits fields (.replicate fields.length none) := by
  refine ⟨by simp, fun i f v hf hv => ?_⟩
  rw [List.getElem?_replicate] at hv
  split at hv <;> cases hv

theorem Fits.set {fields : List Schema.Field} {values : List (Option Value)} {index : Nat}
    {value : Option Value} (h : Fits fields values)
    (hfit : ∀ field set, fields[index]? = some field → value = some set → set.fits field.type) :
    Fits fields (values.set index value) := by
  refine ⟨by simpa using h.length, fun i f v hf hv => ?_⟩
  rw [List.getElem?_set] at hv
  split at hv
  · next hi =>
    subst hi
    split at hv
    · exact hfit f v hf (by simpa using hv)
    · cases hv
  · exact h.fits i f v hf hv

variable {set : SchemaSet} {message changed : Message}

@[simp] theorem schema_put (index : Nat) (value : Option Value) :
    (message.put index value).schema = message.schema := rfl

@[simp] theorem values_put (index : Nat) (value : Option Value) :
    (message.put index value).values = message.values.set index value := rfl

@[simp] theorem schema_blank (schema : Schema) : (blank schema).schema = schema := rfl

@[simp] theorem values_blank (schema : Schema) :
    (blank schema).values = .replicate schema.fields.length none := rfl

@[simp] theorem value?_blank (schema : Schema) (index : Nat) :
    (blank schema).value? index = none := by
  simp only [value?, values_blank, List.getElem?_replicate]
  split <;> rfl

@[simp] theorem messageAt?_blank (schema : Schema) (index : Nat) :
    (blank schema).messageAt? index = none := by
  rw [messageAt?, value?_blank]

@[simp] theorem elementsAt_blank (schema : Schema) (index : Nat) :
    (blank schema).elementsAt index = [] := by
  rw [elementsAt, value?_blank]

theorem value?_put {message : Message} {index : Nat} (h : index < message.values.length)
    (value : Option Value) (other : Nat) : (message.put index value).value? other =
      if index = other then value else message.value? other := by
  simp only [value?, values_put, List.getElem?_set, h, if_true]
  split <;> rfl

theorem inner_blank (schema : Schema) : (blank schema).inner = [] := by
  rw [Message.inner, values_blank, List.flatMap_eq_nil_iff]
  intro value hv
  rw [(List.mem_replicate.1 hv).2]
  rfl

theorem sound_blank {schema : Schema} (h : schema ∈ set.schemas) : (blank schema).Sound set :=
  .intro h (fits_replicate _) (by rw [inner_blank]; exact fun _ hm => absurd hm List.not_mem_nil)

namespace Sound

theorem known (h : message.Sound set) : message.schema ∈ set.schemas := by cases h; assumption

theorem fits (h : message.Sound set) : Fits message.schema.fields message.values := by
  cases h; assumption

theorem inside (h : message.Sound set) {inner : Message} (hm : inner ∈ message.inner) :
    inner.Sound set := by
  cases h with
  | intro _ _ inside => exact inside inner hm

/-- Storing or unsetting a value keeps a message sound if the value is. -/
theorem put (h : message.Sound set) {index : Nat} {value : Option Value}
    (hfit : ∀ field set, message.schema.fields[index]? = some field → value = some set →
      set.fits field.type)
    (hin : ∀ held, value = some held → ∀ inner ∈ held.inner, inner.Sound set) :
    (message.put index value).Sound set := by
  refine .intro h.known (h.fits.set hfit) fun inner hm => ?_
  obtain ⟨held, hv, hi⟩ := mem_inner.1 hm
  rcases List.mem_or_eq_of_mem_set hv with hv | hv
  · exact h.inside (mem_inner.2 ⟨held, hv, hi⟩)
  · exact hin held hv.symm inner hi

end Sound

theorem check_eq_ok_iff {index : Nat} {value : Value} : message.check index value = .ok () ↔
    ∃ field, message.schema.fields[index]? = some field ∧ value.fits field.type := by
  unfold check
  cases message.schema.fields[index]? with
  | none => simp
  | some field => by_cases hf : value.fits field.type <;> simp [hf]

theorem setAt_eq_ok_iff {index : Nat} {value : Value} : message.setAt index value = .ok changed ↔
    message.check index value = .ok () ∧ message.put index (some value) = changed := by
  simp only [setAt, bind_eq_ok, pure_eq_ok]
  constructor
  · rintro ⟨_, hc, he⟩
    exact ⟨hc, he⟩
  · rintro ⟨hc, he⟩
    exact ⟨(), hc, he⟩

theorem Sound.setAt (h : message.Sound set) {index : Nat} {value : Value}
    (hin : ∀ inner ∈ value.inner, inner.Sound set)
    (hset : message.setAt index value = .ok changed) : changed.Sound set := by
  obtain ⟨hc, rfl⟩ := setAt_eq_ok_iff.1 hset
  obtain ⟨field, hf, hfit⟩ := check_eq_ok_iff.1 hc
  refine h.put (fun other held ho he => ?_) (fun held he => Option.some.inj he ▸ hin)
  rw [hf] at ho
  cases ho
  cases he
  exact hfit

theorem messageAt?_eq_some {index : Nat} {value : Message} :
    message.messageAt? index = some value ↔ message.value? index = some (.message value) := by
  unfold messageAt?
  split
  · next held => simp [held]
  · next hno => exact ⟨nofun, fun held => absurd held (hno value)⟩

/-- The elements a field holds are among the messages inside. -/
theorem mem_inner_of_mem_elementsAt {index : Nat} {element : Message}
    (h : element ∈ message.elementsAt index) : element ∈ message.inner := by
  unfold elementsAt at h
  split at h
  · next elements he =>
    exact mem_inner.2 ⟨_, List.mem_of_getElem? (value?_eq_some.1 he), h⟩
  · cases h

theorem fits_list_append {type : FieldType} {front back : List Message}
    (hf : (Value.list front).fits type) (hb : (Value.list back).fits type) :
    (Value.list (front ++ back)).fits type := by
  cases type with
  | repeated schema =>
    simp only [Value.fits, List.all_append, Bool.and_eq_true]
    exact ⟨hf, hb⟩
  | _ => cases hb

/-- An unset list has no elements, and none fit every list field. -/
theorem Sound.fits_elementsAt (h : message.Sound set) {index : Nat} {field : Schema.Field}
    {back : List Message} (hfield : message.schema.fields[index]? = some field)
    (hb : (Value.list back).fits field.type) :
    (Value.list (message.elementsAt index)).fits field.type := by
  unfold elementsAt
  split
  · next he => exact h.fits.fits index field _ hfield (value?_eq_some.1 he)
  · cases ht : field.type with
    | repeated => rfl
    | _ => rw [ht] at hb; cases hb

theorem Sound.appendAt (h : message.Sound set) {index : Nat} {elements : List Message}
    (hin : ∀ inner ∈ elements, inner.Sound set)
    (hset : message.appendAt index elements = .ok changed) : changed.Sound set := by
  unfold Message.appendAt at hset
  by_cases he : elements.isEmpty
  · rw [if_pos he] at hset
    cases hset
    exact h
  rw [if_neg he] at hset
  simp only [bind_eq_ok, pure_eq_ok] at hset
  obtain ⟨_, hc, rfl⟩ := hset
  obtain ⟨field, hf, hfit⟩ := check_eq_ok_iff.1 hc
  refine h.put (fun other held ho he => ?_) (fun held he inner hm => ?_)
  · rw [hf] at ho
    cases ho
    cases he
    exact fits_list_append (h.fits_elementsAt hf hfit) hfit
  · cases he
    rcases List.mem_append.1 hm with hm | hm
    · exact h.inside (mem_inner_of_mem_elementsAt hm)
    · exact hin inner hm

theorem Sound.clear (h : message.Sound set) {name : String}
    (hset : message.clear name = .ok changed) : changed.Sound set := by
  simp only [Message.clear, bind_eq_ok, pure_eq_ok] at hset
  obtain ⟨index, -, rfl⟩ := hset
  refine h.put (fun _ _ _ he => ?_) fun _ he => ?_
  · cases he
  · cases he

/-- Whatever is built in a set is sound there. -/
theorem Built.sound (h : Message.Built set message) : message.Sound set := by
  induction h with
  | @blank id message made =>
    unfold SchemaSet.message at made
    split at made
    · next hg => cases made; exact sound_blank (SchemaSet.mem_of_get? hg).1
    · cases made
  | set _ _ made ih ihin =>
    obtain ⟨index, -, made⟩ := bind_eq_ok.1 made
    exact ih.setAt ihin made
  | setAt _ _ made ih ihin => exact ih.setAt ihin made
  | push _ _ made ih ihin =>
    obtain ⟨index, -, made⟩ := bind_eq_ok.1 made
    exact ih.appendAt (by simpa using ihin) made
  | pushAt _ _ made ih ihin => exact ih.appendAt (by simpa using ihin) made
  | clear _ made ih => exact ih.clear made

/-- A number, a next node and further nodes. -/
def nodeSchema : Schema :=
  ⟨"Node", [⟨"value", 1, .int32⟩, ⟨"next", 2, .message "Node"⟩, ⟨"further", 3, .repeated "Node"⟩]⟩

end Message

end RecordBridge

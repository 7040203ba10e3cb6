import RecordBridge.Proofs.Message.Sound
/-!
# Merging messages

What a message and a later one of its schema come to, field by field, is the
relation `Message.Joined`: the later scalar if there is one, the elements of
both, embedded messages joined in turn. `Message.merge` computes it for sound
messages (`Sound.joined_merge`), gives a sound message again (`Sound.merge`),
and does not depend on where three messages are bracketed (`Sound.merge_assoc`).
-/
namespace RecordBridge

mutual

/-- A value and a later one of the same field. -/
def Value.merge : Value → Value → Value
  | .message value, .message later => .message (value.merge later)
  | .list elements, .list later => .list (elements ++ later)
  | _, later => later

/-- A message and what was read of it later. -/
def Message.merge : Message → Message → Message
  | .mk schema values, later => .mk schema (Message.mergeValues values later.values)

/-- The values of a message and those read later. -/
def Message.mergeValues : List (Option Value) → List (Option Value) → List (Option Value)
  | some value :: values, some after :: later =>
    some (value.merge after) :: Message.mergeValues values later
  | some value :: values, none :: later => some value :: Message.mergeValues values later
  | none :: values, after :: later => after :: Message.mergeValues values later
  | values, [] => values
  | [], later => later

end

/-- Puts a value before what a field holds. -/
def Message.putBefore (message : Message) (index : Nat) (value : Value) : Message :=
  message.put index (some ((message.value? index).elim value value.merge))

mutual

/-- What a field holds that held `first` and then was given `later`. -/
inductive Value.Joined : Option Value → Option Value → Option Value → Prop where
  | first (value : Option Value) : Value.Joined value none value
  | later (value : Option Value) : Value.Joined none value value
  | int32 (first later : Int32) :
      Value.Joined (some (.int32 first)) (some (.int32 later)) (some (.int32 later))
  | bool (first later : Bool) :
      Value.Joined (some (.bool first)) (some (.bool later)) (some (.bool later))
  | string (first later : String) :
      Value.Joined (some (.string first)) (some (.string later)) (some (.string later))
  | list (first later : List Message) :
      Value.Joined (some (.list first)) (some (.list later)) (some (.list (first ++ later)))
  | message {first later whole : Message} (joined : Message.Joined first later whole) :
      Value.Joined (some (.message first)) (some (.message later)) (some (.message whole))

/-- What two messages of one schema come to. -/
inductive Message.Joined : Message → Message → Message → Prop where
  | intro {first later whole : Message} (later_schema : later.schema = first.schema)
      (schema : whole.schema = first.schema)
      (length : whole.values.length = first.schema.fields.length)
      (fields : ∀ index, Value.Joined (first.value? index) (later.value? index)
        (whole.value? index)) :
      Message.Joined first later whole

end

/-- Values of one kind; embedded messages have one schema name. -/
inductive Value.Alike : Value → Value → Prop where
  | int32 (first later : Int32) : Value.Alike (.int32 first) (.int32 later)
  | bool (first later : Bool) : Value.Alike (.bool first) (.bool later)
  | string (first later : String) : Value.Alike (.string first) (.string later)
  | list (first later : List Message) : Value.Alike (.list first) (.list later)
  | message {first later : Message} (named : first.schemaId = later.schemaId) :
      Value.Alike (.message first) (.message later)

namespace Message

/-! ## Merging field by field -/

theorem getElem?_mergeValues : ∀ (values later : List (Option Value)) (index : Nat),
    (mergeValues values later)[index]?.join =
      Option.merge Value.merge values[index]?.join later[index]?.join
  | some value :: values, some after :: later, 0 => rfl
  | some value :: values, none :: later, 0 => rfl
  | none :: values, after :: later, 0 => by cases after <;> rfl
  | some value :: values, some after :: later, index + 1 => getElem?_mergeValues values later index
  | some value :: values, none :: later, index + 1 => getElem?_mergeValues values later index
  | none :: values, after :: later, index + 1 => getElem?_mergeValues values later index
  | [], [], index => rfl
  | value :: values, [], index => by
    cases value <;> simp [mergeValues]
  | [], after :: later, index => by simp [mergeValues]

theorem length_mergeValues : ∀ {values later : List (Option Value)},
    values.length = later.length → (mergeValues values later).length = later.length
  | some value :: values, some after :: later, h => by
    simpa [mergeValues] using length_mergeValues (by simpa using h)
  | some value :: values, none :: later, h => by
    simpa [mergeValues] using length_mergeValues (by simpa using h)
  | none :: values, after :: later, h => by
    simpa [mergeValues] using length_mergeValues (by simpa using h)
  | [], [], _ => rfl

variable {set : SchemaSet} {first later third : Message}

@[simp] theorem schema_merge : (first.merge later).schema = first.schema := by
  cases first
  rfl

theorem value?_merge (first later : Message) (index : Nat) : (first.merge later).value? index =
    Option.merge Value.merge (first.value? index) (later.value? index) := by
  cases first
  exact getElem?_mergeValues _ _ index

theorem length_values_merge (h : first.values.length = later.values.length) :
    (first.merge later).values.length = later.values.length := by
  cases first
  exact length_mergeValues h

/-- Messages of one schema that agree on every field are equal. -/
theorem ext_value? (hschema : first.schema = later.schema)
    (hlen : first.values.length = later.values.length)
    (h : ∀ index, first.value? index = later.value? index) : first = later := by
  obtain ⟨schema, values⟩ := first
  obtain ⟨schema', values'⟩ := later
  simp only [Message.schema, Message.values] at hschema hlen
  subst hschema
  congr 1
  refine List.ext_getElem hlen fun i hi hi' => ?_
  have := h i
  simpa [value?, Message.values, hi, hi'] using this

namespace Sound

theorem length (h : first.Sound set) : first.values.length = first.schema.fields.length :=
  h.fits.length

/-- Sound messages whose schemas have one name have one schema. -/
theorem schema_eq (hset : set.Sound) (hf : first.Sound set) (hl : later.Sound set)
    (h : first.schemaId = later.schemaId) : first.schema = later.schema := by
  have := hset.get?_id hf.known
  rw [show first.schema.id = later.schema.id from h, hset.get?_id hl.known] at this
  exact (Option.some.inj this).symm

/-- The value of a field has the type of the field. -/
theorem fits_value? (h : first.Sound set) {index : Nat} {value : Value}
    (hv : first.value? index = some value) :
    ∃ field, first.schema.fields[index]? = some field ∧ value.fits field.type := by
  rw [value?_eq_some] at hv
  have hi : index < first.schema.fields.length :=
    h.length ▸ (List.getElem?_eq_some_iff.1 hv).1
  have hf := List.getElem?_eq_getElem hi
  exact ⟨_, hf, h.fits.fits index _ value hf hv⟩

theorem inside_value? (h : first.Sound set) {index : Nat} {value : Value}
    (hv : first.value? index = some value) : ∀ inner ∈ value.inner, inner.Sound set :=
  fun _ hi => h.inside (mem_inner.2 ⟨value, List.mem_of_getElem? (value?_eq_some.1 hv), hi⟩)

end Sound

end Message

/-! ## Values of one type -/

namespace Value

variable {set : SchemaSet} {type : FieldType} {first later : Value}

theorem alike_of_fits (hf : first.fits type) (hl : later.fits type) : Alike first later := by
  cases type with
  | int32 | bool | string =>
    cases first <;> cases hf
    cases later <;> cases hl
    constructor
  | message id =>
    cases first with
    | message first =>
      cases later with
      | message later =>
        simp only [fits, beq_iff_eq] at hf hl
        exact .message (hf.trans hl.symm)
      | _ => cases hl
    | _ => cases hf
  | repeated id =>
    cases first with
    | list first =>
      cases later with
      | list later => exact .list first later
      | _ => cases hl
    | _ => cases hf

theorem fits_merge (hf : first.fits type) (hl : later.fits type) :
    (first.merge later).fits type := by
  cases alike_of_fits hf hl with
  | int32 | bool | string => exact hl
  | list first later => exact Message.fits_list_append hf hl
  | message =>
    cases type with
    | message id => simpa [fits, merge, Message.schemaId] using hf
    | _ => cases hf

end Value

namespace Message.Sound

variable {set : SchemaSet} {first later third : Message}

/-- Soundness field by field. -/
theorem of_value? {message : Message} (known : message.schema ∈ set.schemas)
    (length : message.values.length = message.schema.fields.length)
    (fields : ∀ index value, message.value? index = some value →
      (∃ field, message.schema.fields[index]? = some field ∧ value.fits field.type) ∧
      ∀ inner ∈ value.inner, inner.Sound set) : message.Sound set := by
  refine .intro known ⟨length, fun index field value hf hv => ?_⟩ fun inner hi => ?_
  · obtain ⟨⟨field', hf', hfit⟩, -⟩ := fields index value (value?_eq_some.2 hv)
    rw [hf] at hf'
    cases hf'
    exact hfit
  · obtain ⟨value, hm, hi⟩ := mem_inner.1 hi
    obtain ⟨index, hv⟩ := List.mem_iff_getElem?.1 hm
    exact (fields index value (value?_eq_some.2 hv)).2 inner hi

/-- What two messages of one schema hold in a field is of one kind. -/
theorem alike_value? (hf : first.Sound set) (hl : later.Sound set)
    (hs : first.schema = later.schema) {index : Nat} {value after : Value}
    (hv : first.value? index = some value) (ha : later.value? index = some after) :
    Value.Alike value after := by
  obtain ⟨field, hfield, hfit⟩ := hf.fits_value? hv
  obtain ⟨field', hfield', hfit'⟩ := hl.fits_value? ha
  rw [← hs, hfield] at hfield'
  cases hfield'
  exact Value.alike_of_fits hfit hfit'

theorem inner_merge_sound {value after : Value} (ha : Value.Alike value after)
    (hv : ∀ inner ∈ value.inner, inner.Sound set) (hl : ∀ inner ∈ after.inner, inner.Sound set)
    (ih : ∀ inner ∈ value.inner, ∀ late : Message, late.Sound set →
      inner.schemaId = late.schemaId → (inner.merge late).Sound set) :
    ∀ inner ∈ (value.merge after).inner, inner.Sound set := by
  cases ha with
  | int32 | bool | string => exact hl
  | list elements more =>
    intro inner hi
    rcases List.mem_append.1 hi with hi | hi
    · exact hv inner hi
    · exact hl inner hi
  | @message value after named =>
    intro inner hi
    rw [List.mem_singleton.1 hi]
    exact ih value List.mem_cons_self after (hl after List.mem_cons_self) named

/-- Merging keeps messages sound. -/
theorem merge (hset : set.Sound) (hf : first.Sound set) : ∀ {later : Message},
    later.Sound set → first.schema = later.schema → (first.merge later).Sound set := by
  induction hf with
  | @intro first known fits inside ih =>
    intro later hl hs
    have hf : first.Sound set := .intro known fits inside
    have hlen : first.values.length = later.values.length := by rw [fits.length, hl.length, hs]
    refine of_value? (by simpa using known) ?_ fun index whole hw => ?_
    · rw [length_values_merge hlen, hl.length, schema_merge, hs]
    rw [value?_merge] at hw
    cases hv : first.value? index with
    | none =>
      rw [hv, Option.merge_none_left] at hw
      rw [schema_merge, hs]
      exact ⟨hl.fits_value? hw, hl.inside_value? hw⟩
    | some value =>
      cases ha : later.value? index with
      | none =>
        rw [hv, ha, Option.merge_none_right] at hw
        cases hw
        exact ⟨by simpa using hf.fits_value? hv, hf.inside_value? hv⟩
      | some after =>
        rw [hv, ha] at hw
        cases hw
        obtain ⟨field, hfield, hfit⟩ := hf.fits_value? hv
        obtain ⟨field', hfield', hfit'⟩ := hl.fits_value? ha
        rw [← hs, hfield] at hfield'
        cases hfield'
        refine ⟨⟨field, by simpa using hfield, Value.fits_merge hfit hfit'⟩, ?_⟩
        refine inner_merge_sound (Value.alike_of_fits hfit hfit') (hf.inside_value? hv)
          (hl.inside_value? ha) fun inner hi late hlate hid => ?_
        have hin := mem_inner.2 ⟨value, List.mem_of_getElem? (value?_eq_some.1 hv), hi⟩
        exact ih inner hin hlate (schema_eq hset (inside inner hin) hlate hid)

/-- Three values of one kind merge to the same from either side. -/
theorem merge_assoc_value {value after last : Value} (h : Value.Alike value after)
    (h' : Value.Alike after last)
    (ih : ∀ inner ∈ value.inner, ∀ middle late : Message, after = .message middle →
      last = .message late → inner.schemaId = middle.schemaId →
      middle.schemaId = late.schemaId →
      inner.merge (middle.merge late) = (inner.merge middle).merge late) :
    value.merge (after.merge last) = (value.merge after).merge last := by
  cases h with
  | int32 | bool | string => cases h'; rfl
  | list first second =>
    cases h' with
    | list _ third => simp [Value.merge]
  | @message inner middle named =>
    cases h' with
    | @message _ late named' =>
      simp [Value.merge, ih inner List.mem_cons_self middle late rfl rfl named named']

/-- Three messages of one schema merge to the same from either side. -/
theorem merge_assoc (hset : set.Sound) (hf : first.Sound set) : ∀ {later third : Message},
    later.Sound set → third.Sound set → first.schema = later.schema →
    later.schema = third.schema →
    first.merge (later.merge third) = (first.merge later).merge third := by
  induction hf with
  | @intro first known fits inside ih =>
    intro later third hl ht hs hs'
    have hf : first.Sound set := .intro known fits inside
    have hlen : first.values.length = later.values.length := by rw [fits.length, hl.length, hs]
    have hlen' : later.values.length = third.values.length := by rw [hl.length, ht.length, hs']
    have hback := length_values_merge hlen'
    have hfront := length_values_merge hlen
    refine ext_value? (by simp) ?_ fun index => ?_
    · rw [length_values_merge (by omega), hback, length_values_merge (by omega)]
    rw [value?_merge, value?_merge, value?_merge, value?_merge]
    cases hv : first.value? index with
    | none => simp
    | some value =>
      cases ha : later.value? index with
      | none => simp
      | some after =>
        cases hl' : third.value? index with
        | none => simp
        | some last =>
          simp only [Option.merge_some_some, Option.some.injEq]
          refine merge_assoc_value (hf.alike_value? hl hs hv ha) (hl.alike_value? ht hs' ha hl')
            fun inner hi middle late hmid hlate named named' => ?_
          subst hmid hlate
          have hin := mem_inner.2 ⟨value, List.mem_of_getElem? (value?_eq_some.1 hv), hi⟩
          have hmid := hl.inside_value? ha middle List.mem_cons_self
          have hlate := ht.inside_value? hl' late List.mem_cons_self
          exact ih inner hin hmid hlate (schema_eq hset (inside inner hin) hmid named)
            (schema_eq hset hmid hlate named')

/-- Merging computes what two messages come to. -/
theorem joined_merge (hset : set.Sound) (hf : first.Sound set) : ∀ {later : Message},
    later.Sound set → first.schema = later.schema →
    Message.Joined first later (first.merge later) := by
  induction hf with
  | @intro first known fits inside ih =>
    intro later hl hs
    have hf : first.Sound set := .intro known fits inside
    have hlen : first.values.length = later.values.length := by rw [fits.length, hl.length, hs]
    refine .intro hs.symm (by simp) ?_ fun index => ?_
    · rw [length_values_merge hlen, hl.length, hs]
    rw [value?_merge]
    cases hv : first.value? index with
    | none =>
      rw [Option.merge_none_left]
      exact .later _
    | some value =>
      cases ha : later.value? index with
      | none => exact .first _
      | some after =>
        cases hf.alike_value? hl hs hv ha with
        | int32 first later => exact .int32 first later
        | bool first later => exact .bool first later
        | string first later => exact .string first later
        | list first later => exact .list first later
        | @message inner late named =>
          have hin := mem_inner.2 ⟨_, List.mem_of_getElem? (value?_eq_some.1 hv),
            List.mem_cons_self⟩
          have hlate := hl.inside_value? ha late List.mem_cons_self
          exact .message (ih inner hin hlate (schema_eq hset (inside inner hin) hlate named))

end Message.Sound

end RecordBridge

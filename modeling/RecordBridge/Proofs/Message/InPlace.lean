import RecordBridge.Proofs.Message.Assemble
/-!
# Messages read in place

Reading bytes changes one message. What that leaves is compared with what the parts of the
bytes come to by themselves: each part that is taken into a message does what its value,
read afresh, does when it is merged with the message (`Message.Simulates`), although a
body is read into the embedded message that is there. So bytes read into a message leave
it merged with what a blank one comes to (`Message.mergeFrom_eq`), and a message that is
decoded is the one assembled from its parts (`Message.decode_eq_assemble`).
-/
namespace RecordBridge

/-! ## Lists turned round -/

theorem Message.finishValues_eq_map : ∀ values : List (Option Value),
    Message.finishValues values = values.map (Option.map Value.finish)
  | [] => rfl
  | none :: values | some _ :: values => by
    simp [Message.finishValues, finishValues_eq_map values]

namespace Value

theorem finish_of_isScalar {value : Value} {type : FieldType} (hfit : value.fits type)
    (h : type.isScalar) : value.finish = value := by
  cases type with
  | message | repeated => cases h
  | _ => cases value <;> first | rfl | cases hfit

theorem merge_of_isScalar {value later : Value} {type : FieldType} (hfit : value.fits type)
    (hlater : later.fits type) (h : type.isScalar) : value.merge later = later := by
  cases alike_of_fits hfit hlater with
  | int32 | bool | string => rfl
  | list | message =>
    cases type with
    | message | repeated => cases h
    | _ => cases hfit

end Value

namespace Message

variable {set : SchemaSet} {schema : Schema} {message : Message}

@[simp] theorem schema_finish (message : Message) : message.finish.schema = message.schema := by
  cases message
  rfl

theorem values_finish (message : Message) :
    message.finish.values = message.values.map (Option.map Value.finish) := by
  cases message
  exact finishValues_eq_map _

theorem value?_finish (message : Message) (index : Nat) :
    message.finish.value? index = (message.value? index).map Value.finish := by
  rw [value?, values_finish, List.getElem?_map, value?]
  cases message.values[index]? <;> rfl

theorem finish_put (message : Message) (index : Nat) (value : Value) :
    (message.put index (some value)).finish = message.finish.put index (some value.finish) := by
  obtain ⟨schema, held⟩ := message
  change mk schema (finishValues (held.set index (some value))) =
    mk schema ((finishValues held).set index (some value.finish))
  rw [finishValues_eq_map, finishValues_eq_map, List.map_set, Option.map_some]

@[simp] theorem finish_blank (schema : Schema) : (blank schema).finish = blank schema := by
  simp [blank, finish, finishValues_eq_map]

/-- What a field holds while it is read is of the field's type once finished. -/
theorem fits_finish_of_value? (hm : message.finish.Sound set) {index : Nat}
    {field : Schema.Field} (hf : message.schema.fields[index]? = some field) {value : Value}
    (hv : message.value? index = some value) : value.finish.fits field.type := by
  have hfinished := congrArg (Option.map Value.finish) hv
  rw [← value?_finish] at hfinished
  obtain ⟨held, hheld, hfit⟩ := hm.fits_value? hfinished
  rw [schema_finish, hf] at hheld
  cases hheld
  exact hfit

/-- The embedded message of a field is sound once finished, and of the schema that the set
has for the field. -/
theorem messageAt?_finish (hset : set.Sound) (hm : message.finish.Sound set) {index : Nat}
    {field : Schema.Field} (hf : message.schema.fields[index]? = some field) {id : SchemaId}
    (htype : field.type = .message id) {inner : Message}
    (h : message.messageAt? index = some inner) :
    message.value? index = some (.message inner) ∧ inner.finish.Sound set ∧
      set.get? id = some inner.schema := by
  have hvalue : message.value? index = some (.message inner) := by
    unfold messageAt? at h
    split at h
    · next hv => rw [hv, Option.some.inj h]
    · cases h
  have hfinished : message.finish.value? index = some (.message inner.finish) := by
    rw [value?_finish, hvalue]
    rfl
  have hsound := hm.inside_value? hfinished _ (List.mem_singleton.2 rfl)
  have hfit := fits_finish_of_value? hm hf hvalue
  rw [Value.finish, htype, Value.fits, beq_iff_eq] at hfit
  have hget := hset.get?_id hsound.known
  rw [schema_finish] at hget
  refine ⟨hvalue, hsound, ?_⟩
  rw [← hfit, schemaId, schema_finish]
  exact hget

/-! ## One message of one field after another -/

theorem merge_blank_right {first : Message} (h : first.Sound set) :
    first.merge (blank first.schema) = first := by
  have hlen : first.values.length = (blank first.schema).values.length := by simp [h.length]
  refine ext_value? (by simp) ?_ fun index => ?_
  · rw [length_values_merge hlen, hlen]
  · rw [value?_merge, value?_blank, Option.merge_none_right]

/-- Merging with a message of one field is putting a value after what the field holds. -/
theorem merge_single {first : Message} (h : first.Sound set) {index : Nat}
    (hi : index < first.schema.fields.length) (value : Value) :
    first.merge (single first.schema index value) =
      first.put index (some ((first.value? index).elim value (·.merge value))) := by
  have hlen : first.values.length = (single first.schema index value).values.length := by
    simp [single, h.length]
  have hf : index < first.values.length := h.length ▸ hi
  have hb : index < (blank first.schema).values.length := by simpa using hi
  refine ext_value? (by simp) ?_ fun other => ?_
  · rw [length_values_merge hlen, ← hlen]
    simp
  rw [value?_merge, single, value?_put hb, value?_put hf]
  by_cases ho : index = other
  · subst ho
    cases first.value? index <;> simp
  · simp [ho]

/-- A field put after a message and before another one is merged with both. -/
theorem merge_elim (hset : set.Sound) {first later : Message} (hf : first.Sound set)
    (hl : later.Sound set) (hs : first.schema = later.schema) {placed : Option (Nat × Value)}
    (hplaced : ∀ index value, placed = some (index, value) →
      ∃ field, first.schema.fields[index]? = some field ∧ value.fits field.type ∧
        ∀ inner ∈ value.inner, inner.Sound set) :
    (placed.elim first fun (index, value) => first.merge (single first.schema index value)).merge
        later =
      first.merge (placed.elim later fun (index, value) => later.putBefore index value) := by
  cases placed with
  | none => rfl
  | some placed =>
    obtain ⟨index, value⟩ := placed
    obtain ⟨field, hfield, hfit, hin⟩ := hplaced index value rfl
    have hone := single_sound hf.known hfield hfit hin
    have hi := (List.getElem?_eq_some_iff.1 hfield).1
    simp only [Option.elim_some]
    rw [putBefore_eq_merge hl (hs ▸ hi), ← hs]
    exact (hf.merge_assoc hset hone hl (by simp [single]) (by simp [single, hs])).symm

/-! ## The parts taken in one after another -/

variable {take : Message → Part → Message × Option MessageError}
  {body : SchemaId → List UInt8 → Option Message × Option MessageError}
  {fault : Option MessageError} {part : Part} {parts : List Part}

/-- What reading with `levels` left does with one part. -/
def takeAt (set : SchemaSet) : (levels : Nat) → Message → Part → Message × Option MessageError
  | 0 => takePart set none
  | levels + 1 => takePart set (some (mergeFrom set levels))

/-- Takes parts into a message up to the first fault, `fault` being the one after them. -/
def takeParts (take : Message → Part → Message × Option MessageError)
    (fault : Option MessageError) (message : Message) :
    List Part → Message × Option MessageError
  | [] => (message, fault)
  | part :: parts =>
    match take message part with
    | (message, some fault) => (message, some fault)
    | (message, none) => takeParts take fault message parts

theorem schema_give (message : Message) (index : Nat) (repeated : Bool) (item : Message) :
    (message.give index repeated item).schema = message.schema := by
  unfold give
  split
  · split <;> rfl
  · rfl

theorem schema_takePart
    (mergeBody : Option (Message → List UInt8 → Message × Option MessageError))
    (message : Message) (part : Part) :
    (takePart set mergeBody message part).1.schema = message.schema := by
  cases part with
  | unknown | scalar => rfl
  | body index id repeated bytes =>
    cases mergeBody with
    | none => rfl
    | some mergeBody =>
      rw [takePart]
      split
      · rfl
      · exact schema_give _ _ _ _

theorem schema_takeAt : ∀ (levels : Nat) (message : Message) (part : Part),
    (takeAt set levels message part).1.schema = message.schema
  | 0 | _ + 1 => schema_takePart _

theorem schema_takeParts (htake : ∀ message part, (take message part).1.schema = message.schema) :
    ∀ (parts : List Part) (message : Message),
    (takeParts take fault message parts).1.schema = message.schema
  | [], _ => rfl
  | part :: parts, message => by
    have hone := htake message part
    rw [takeParts]
    split
    · next he => rwa [he] at hone
    · next he =>
      rw [he] at hone
      rw [schema_takeParts htake parts, hone]

/-- Bytes are read into a message by taking in their parts. -/
theorem mergeParts_eq_takeParts
    (htake : ∀ message part, (take message part).1.schema = message.schema)
    (message : Message) (bytes : List UInt8) : mergeParts take message bytes =
      takeParts take (message.schema.parts bytes).2 message (message.schema.parts bytes).1 := by
  fun_induction mergeParts take message bytes with
  | case1 message bytes he =>
    rw [List.isEmpty_iff.1 he, Schema.parts_nil]
    rfl
  | case2 message bytes hne error hread =>
    rw [Schema.parts_of_readPart_error (by simpa using hne) hread]
    rfl
  | case3 message bytes hne part rest hread after fault htaken =>
    rw [Schema.parts_of_readPart hread, takeParts, htaken]
  | case4 message bytes hne part rest hread after htaken ih =>
    have hschema := htake message part
    rw [htaken] at hschema
    rw [Schema.parts_of_readPart hread, takeParts, htaken, ih, hschema]

theorem mergeFrom_eq_takeParts (set : SchemaSet) (levels : Nat) (message : Message)
    (bytes : List UInt8) : mergeFrom set levels message bytes =
      takeParts (takeAt set levels) (message.schema.parts bytes).2 message
        (message.schema.parts bytes).1 := by
  cases levels <;> exact mergeParts_eq_takeParts (schema_takePart _) message bytes

/-- Parts that are taken in without a fault let those after them be taken in. -/
theorem takeParts_append {more : List Part} : ∀ {parts : List Part} {message : Message},
    (takeParts take none message parts).2 = none →
    takeParts take fault message (parts ++ more) =
      takeParts take fault (takeParts take none message parts).1 more
  | [], _, _ => rfl
  | part :: parts, message, h => by
    rw [List.cons_append, takeParts, takeParts]
    rw [takeParts] at h
    split at h
    · cases h
    · exact takeParts_append h

theorem fault_eq_none_of_takeParts : ∀ {parts : List Part} {message : Message},
    (takeParts take fault message parts).2 = none → fault = none
  | [], _, h => h
  | part :: parts, message, h => by
    rw [takeParts] at h
    split at h
    · cases h
    · exact fault_eq_none_of_takeParts h

/-! ## Reading into a message and reading afresh -/

/-- Taking a part into a message does what its value does, read afresh, when it is merged
with the message, and comes to the same fault. -/
def Simulates (set : SchemaSet) (take : Message → Part → Message × Option MessageError)
    (body : SchemaId → List UInt8 → Option Message × Option MessageError) : Prop :=
  ∀ message part, message.finish.Sound set → part.Suits message.schema →
    (take message part).1.finish = (part.read body).1.elim message.finish (fun (index, value) =>
      message.finish.merge (single message.schema index value)) ∧
    (take message part).2 = (part.read body).2

theorem merge_sound_elim (hset : set.Sound) (hbody : BodySound set body)
    (hpart : part.Suits schema) {first : Message} (hf : first.Sound set)
    (hs : first.schema = schema) : ((part.read body).1.elim first fun (index, value) =>
      first.merge (single schema index value)).Sound set := by
  subst hs
  cases hread : (part.read body).1 with
  | none => exact hf
  | some placed =>
    obtain ⟨index, value⟩ := placed
    obtain ⟨field, hfield, hfit, hin⟩ := read_suits hbody hpart hread
    exact hf.merge hset (single_sound hf.known hfield hfit hin) (by simp [single])

/-- Parts taken into a message leave it merged with what they are assembled to. -/
theorem takeParts_eq_assemble (hset : set.Sound) (hbody : BodySound set body)
    (htake : Simulates set take body)
    (hschema : ∀ message part, (take message part).1.schema = message.schema) :
    ∀ {parts : List Part} {message : Message}, message.finish.Sound set →
      (∀ part ∈ parts, part.Suits message.schema) →
      (takeParts take fault message parts).1.finish =
        message.finish.merge (assemble body message.schema fault parts).1 ∧
      (takeParts take fault message parts).2 = (assemble body message.schema fault parts).2
  | [], message, hm, _ => by
    have hright := merge_blank_right hm
    rw [schema_finish] at hright
    exact ⟨hright.symm, rfl⟩
  | part :: parts, message, hm, hparts => by
    obtain ⟨hpart, hrest⟩ := List.forall_mem_cons.1 hparts
    obtain ⟨hone, hfault⟩ := htake message part hm hpart
    have hafter := hschema message part
    have hs : message.finish.schema = message.schema := schema_finish message
    have hplaced : ∀ index value, (part.read body).1 = some (index, value) →
        ∃ field, message.finish.schema.fields[index]? = some field ∧ value.fits field.type ∧
          ∀ inner ∈ value.inner, inner.Sound set := fun _ _ h => hs ▸ read_suits hbody hpart h
    have hsound := merge_sound_elim hset hbody hpart hm hs
    rw [takeParts, assemble]
    generalize take message part = taken at hone hfault hafter
    obtain ⟨after, inner⟩ := taken
    dsimp only at hone hfault hafter ⊢
    rw [← hfault]
    cases inner with
    | some fault =>
      -- the fault ends the message: nothing comes after the part
      have hblank := sound_blank (hs ▸ hm.known)
      have hboth := merge_elim hset hm hblank hs hplaced
      rw [hs, ← hone] at hboth
      refine ⟨Eq.trans ?_ hboth, rfl⟩
      rw [← hafter, ← schema_finish after]
      exact (merge_blank_right (hone ▸ hsound)).symm
    | none =>
      rw [← hafter] at hrest
      obtain ⟨hfinish, hleft⟩ := takeParts_eq_assemble hset hbody htake hschema
        (hone ▸ hsound) hrest
      rw [hafter] at hfinish hleft
      have hlater := assemble_sound hset (hs ▸ hm.known) hbody fault (hafter ▸ hrest)
      have hboth := merge_elim hset hm hlater (by rw [hs, schema_assemble]) hplaced
      rw [hs, ← hone] at hboth
      exact ⟨hfinish.trans hboth, hleft⟩

/-- What an embedded message that is given to a field comes to: it is merged with what the
field holds, after its own body was read into the message there, or made an element. -/
theorem finish_give (hm : message.finish.Sound set) {index : Nat} {field : Schema.Field}
    {id : SchemaId} {repeated : Bool} (hf : message.schema.fields[index]? = some field)
    (htype : field.type = if repeated then .repeated id else .message id) {item inner : Message}
    (hitem : item.finish = (if repeated then none else message.messageAt? index).elim inner
      fun held => held.finish.merge inner) :
    (message.give index repeated item).finish = message.finish.merge
      (single message.schema index (if repeated then .list [inner] else .message inner)) := by
  have hs := schema_finish message
  have hi : index < message.finish.schema.fields.length :=
    hs ▸ (List.getElem?_eq_some_iff.1 hf).1
  have hmerge := merge_single hm hi (if repeated then .list [inner] else .message inner)
  rw [hs] at hmerge
  rw [hmerge, value?_finish]
  unfold give
  cases repeated with
  | false =>
    simp only [Bool.false_eq_true, if_false] at htype hitem ⊢
    rw [finish_put, Value.finish, hitem]
    unfold messageAt?
    cases hv : message.value? index with
    | none => rfl
    | some value =>
      have hfit := fits_finish_of_value? hm hf hv
      rw [htype] at hfit
      cases value with
      | message held => rfl
      | _ => cases hfit
  | true =>
    simp only [if_true, Option.elim_none] at htype hitem ⊢
    cases hv : message.value? index with
    | none =>
      dsimp only
      rw [finish_put, Value.finish, hitem]
      rfl
    | some value =>
      have hfit := fits_finish_of_value? hm hf hv
      rw [htype] at hfit
      cases value with
      | list elements =>
        dsimp only
        rw [finish_put, Value.finish, List.reverse_cons, hitem]
        rfl
      | _ => cases hfit

/-- Reading into a message leaves it merged with what its parts are assembled to, if taking
in one part does. -/
theorem mergeFrom_eq_of_simulates (hset : set.Sound) {levels : Nat}
    (htake : Simulates set (takeAt set levels) (decodeBody set levels))
    (hm : message.finish.Sound set) (bytes : List UInt8) :
    (mergeFrom set levels message bytes).1.finish =
      message.finish.merge (assemble (decodeBody set levels) message.schema
        (message.schema.parts bytes).2 (message.schema.parts bytes).1).1 ∧
    (mergeFrom set levels message bytes).2 =
      (assemble (decodeBody set levels) message.schema
        (message.schema.parts bytes).2 (message.schema.parts bytes).1).2 := by
  rw [mergeFrom_eq_takeParts]
  exact takeParts_eq_assemble hset (decodeBody_sound hset levels) htake (schema_takeAt levels) hm
    (message.schema.parts_suit bytes)

/-- Reading into a blank message leaves what the parts are assembled to. -/
theorem mergeFrom_blank_of_simulates (hset : set.Sound) {levels : Nat}
    (htake : Simulates set (takeAt set levels) (decodeBody set levels))
    (hs : schema ∈ set.schemas) (bytes : List UInt8) :
    (mergeFrom set levels (blank schema) bytes).1.finish =
      (assemble (decodeBody set levels) schema (schema.parts bytes).2 (schema.parts bytes).1).1 ∧
    (mergeFrom set levels (blank schema) bytes).2 =
      (assemble (decodeBody set levels) schema (schema.parts bytes).2
        (schema.parts bytes).1).2 := by
  have hblank : (blank schema).finish.Sound set := by
    rw [finish_blank]
    exact sound_blank hs
  obtain ⟨hread, hfault⟩ := mergeFrom_eq_of_simulates hset htake hblank bytes
  have hown := merge_blank (assemble_sound hset hs (decodeBody_sound hset levels)
    (schema.parts bytes).2 (schema.parts_suit bytes))
  rw [schema_assemble] at hown
  rw [finish_blank, schema_blank, hown] at hread
  exact ⟨hread, hfault⟩

/-- A body is read into what its field holds, or else into a blank message. -/
theorem mergeFrom_held (hset : set.Sound) {levels : Nat}
    (htake : Simulates set (takeAt set levels) (decodeBody set levels))
    (hm : message.finish.Sound set) {index : Nat} {field : Schema.Field} {id : SchemaId}
    {repeated : Bool} (hf : message.schema.fields[index]? = some field)
    (htype : field.type = if repeated then .repeated id else .message id)
    (hget : set.get? id = some schema) {held : Option Message}
    (hheld : (if repeated then none else message.messageAt? index) = held) (bytes : List UInt8) :
    (mergeFrom set levels (held.getD (blank schema)) bytes).1.finish = held.elim
      (assemble (decodeBody set levels) schema (schema.parts bytes).2 (schema.parts bytes).1).1
      (fun held => held.finish.merge (assemble (decodeBody set levels) schema
        (schema.parts bytes).2 (schema.parts bytes).1).1) ∧
    (mergeFrom set levels (held.getD (blank schema)) bytes).2 =
      (assemble (decodeBody set levels) schema (schema.parts bytes).2
        (schema.parts bytes).1).2 := by
  cases held with
  | none =>
    exact mergeFrom_blank_of_simulates hset htake (SchemaSet.mem_of_get? hget).1 bytes
  | some held =>
    cases repeated with
    | true => cases hheld
    | false =>
      obtain ⟨-, hsound, hknown⟩ := messageAt?_finish hset hm hf htype hheld
      cases hget.symm.trans hknown
      exact mergeFrom_eq_of_simulates hset htake hsound bytes

/-- A scalar replaces what its field holds, as it does when messages are merged. -/
theorem finish_takePart_scalar
    (mergeBody : Option (Message → List UInt8 → Message × Option MessageError))
    (hm : message.finish.Sound set) {index : Nat} {value : Value}
    (hpart : Part.Suits message.schema (.scalar index value)) :
    (takePart set mergeBody message (.scalar index value)).1.finish =
      message.finish.merge (single message.schema index value) := by
  obtain ⟨field, hf, hfit, hscalar⟩ := hpart
  have hs := schema_finish message
  have hmerge := merge_single hm (hs ▸ (List.getElem?_eq_some_iff.1 hf).1) value
  rw [hs] at hmerge
  rw [hmerge, takePart, finish_put, Value.finish_of_isScalar hfit hscalar]
  cases hv : message.finish.value? index with
  | none => rfl
  | some held =>
    obtain ⟨other, hother, hheld⟩ := hm.fits_value? hv
    rw [hs, hf] at hother
    cases hother
    rw [Option.elim_some, Value.merge_of_isScalar hheld hfit hscalar]

/-- Taking a part into a message and reading it afresh come to the same, by induction on
the levels left: what an embedded message goes through is a run with one level less. -/
theorem simulates_takeAt (hset : set.Sound) : ∀ levels : Nat,
    Simulates set (takeAt set levels) (decodeBody set levels) := by
  intro levels
  induction levels with
  | zero =>
    intro message part hm hpart
    cases part with
    | unknown => exact ⟨rfl, rfl⟩
    | scalar index value => exact ⟨finish_takePart_scalar none hm hpart, rfl⟩
    | body => exact ⟨rfl, rfl⟩
  | succ levels ih =>
    intro message part hm hpart
    cases part with
    | unknown => exact ⟨rfl, rfl⟩
    | scalar index value =>
      exact ⟨finish_takePart_scalar (some (mergeFrom set levels)) hm hpart, rfl⟩
    | body index id repeated bytes =>
      obtain ⟨field, hf, htype⟩ := hpart
      rw [takeAt, takePart, Part.read, decodeBody]
      cases hget : set.get? id with
      | none => exact ⟨rfl, rfl⟩
      | some schema =>
        obtain ⟨hread, hfault⟩ := mergeFrom_held hset ih hm hf htype hget rfl bytes
        exact ⟨finish_give hm hf htype hread, hfault⟩

/-- Reading into a message leaves it merged with what reading the same bytes into a blank
one leaves, and ends in the same fault. -/
theorem mergeFrom_eq (hset : set.Sound) (levels : Nat) (hm : message.finish.Sound set)
    (bytes : List UInt8) :
    (mergeFrom set levels message bytes).1.finish =
      message.finish.merge (mergeFrom set levels (blank message.schema) bytes).1.finish ∧
    (mergeFrom set levels message bytes).2 =
      (mergeFrom set levels (blank message.schema) bytes).2 := by
  have htake := simulates_takeAt hset levels
  obtain ⟨hread, hfault⟩ := mergeFrom_eq_of_simulates hset htake hm bytes
  obtain ⟨hfresh, hsame⟩ :=
    mergeFrom_blank_of_simulates hset htake (schema_finish message ▸ hm.known) bytes
  exact ⟨by rw [hread, hfresh], hfault.trans hsame.symm⟩

/-! ## Decoding -/

/-- A decoded message is the one that its parts are assembled to. -/
theorem decode_eq_assemble (hset : set.Sound) (hs : schema ∈ set.schemas) (bytes : List UInt8) :
    decode set schema bytes = assemble (decodeBody set nestingLimit) schema
      (schema.parts bytes).2 (schema.parts bytes).1 := by
  obtain ⟨hread, hfault⟩ :=
    mergeFrom_blank_of_simulates hset (simulates_takeAt hset nestingLimit) hs bytes
  exact Prod.ext hread hfault

theorem schema_decode (set : SchemaSet) (schema : Schema) (bytes : List UInt8) :
    (decode set schema bytes).1.schema = schema := by
  rw [decode, mergeFrom_eq_takeParts]
  dsimp only
  rw [schema_finish, schema_takeParts (schema_takeAt nestingLimit), schema_blank]

/-- Whatever the bytes, a sound message is read. -/
theorem decode_sound (hset : set.Sound) (hs : schema ∈ set.schemas) (bytes : List UInt8) :
    (decode set schema bytes).1.Sound set := by
  rw [decode_eq_assemble hset hs]
  exact assemble_sound hset hs (decodeBody_sound hset nestingLimit) _ (schema.parts_suit bytes)

end Message

end RecordBridge

import RecordBridge.Proofs.Codec.Direct
import RecordBridge.Proofs.Codec.Sent
/-!
# Defaults left out and spelled out

A message may leave out a default or spell it out: a scalar that is zero, false
or empty, a blank message inside a field, a blank element behind those of an
array. `Message.Explicit` relates a message to one that spells out more, at any
depth. A blank element that a list is read from is one more node, so elements are
spelled out for arrays only. What an entry reads of the two messages is related in
the same way, one level further in (`Message.Explicit.expands`).
-/
namespace RecordBridge

/-- An opcode carries what is in a place of the messages of another one. -/
def Registry.Carries (registry : Registry) (opcode : UInt16) (place : Nat) (inner : UInt16) :
    Prop :=
  ∃ plan, registry.plan? opcode = some plan ∧
    ∃ entry ∈ plan.bound, entry.place = place ∧ entry.action.inner? = some inner

/-- A list is read from a place of the messages of an opcode. -/
def Registry.ListsFrom (registry : Registry) (opcode : UInt16) (place : Nat) : Prop :=
  ∃ plan, registry.plan? opcode = some plan ∧
    ∃ entry ∈ plan.bound, ∃ inner, entry.action = .list inner place

/-- A message of an opcode, and one that spells out more of what both hold. What
is inside a field is changed as the opcodes that carry it allow. -/
inductive Message.Explicit (registry : Registry) : UInt16 → Message → Message → Prop where
  | refl (opcode : UInt16) (message : Message) : Explicit registry opcode message message
  | trans {opcode : UInt16} {first second third : Message}
      (start : Explicit registry opcode first second)
      (next : Explicit registry opcode second third) : Explicit registry opcode first third
  /-- An unset field is set to its default. -/
  | default {opcode : UInt16} {message changed : Message} {index : Nat} {value : Value}
      (unset : message.value? index = none) (zero : value.isDefault)
      (made : message.setAt index value = .ok changed) : Explicit registry opcode message changed
  /-- An unset field is set to a blank message. -/
  | blank {opcode : UInt16} {message changed child : Message} {index : Nat} {id : SchemaId}
      (unset : message.value? index = none) (empty : registry.schemas.message id = .ok child)
      (made : message.setAt index (.message child) = .ok changed) :
      Explicit registry opcode message changed
  /-- A blank element is appended that no list is read from. -/
  | append {opcode : UInt16} {message changed element : Message} {index : Nat} {id : SchemaId}
      (arrays : ¬ registry.ListsFrom opcode index)
      (empty : registry.schemas.message id = .ok element)
      (made : message.pushAt index element = .ok changed) :
      Explicit registry opcode message changed
  /-- An embedded message spells out more. -/
  | inside {opcode : UInt16} {message changed child next : Message} {index : Nat}
      (held : message.messageAt? index = some child) (sound : next.Sound registry.schemas)
      (explicit : ∀ inner, registry.Carries opcode index inner →
        Explicit registry inner child next)
      (made : message.setAt index (.message next) = .ok changed) :
      Explicit registry opcode message changed
  /-- An element spells out more. -/
  | element {opcode : UInt16} {message changed child next : Message} {index : Nat}
      {front back : List Message} (held : message.elementsAt index = front ++ child :: back)
      (sound : next.Sound registry.schemas)
      (explicit : ∀ inner, registry.Carries opcode index inner →
        Explicit registry inner child next)
      (made : message.setAt index (.list (front ++ next :: back)) = .ok changed) :
      Explicit registry opcode message changed

variable {registry : Registry} {opcode inner : UInt16} {layout : Layout} {schema : Schema}
  {plan : Plan} {entry : Plan.Entry}

/-! ## Places and their types -/

namespace Plan.Entry.Sound

variable {descriptors : List Descriptor} {field : Schema.Field} {found : Layout.Field}

/-- What fills the field of an embedded message is nested. -/
theorem exists_nested (h : entry.Sound descriptors layout schema field found) {id : SchemaId}
    (ht : schema.fields[entry.place]?.map (·.type) = some (.message id)) :
    ∃ inner, entry.action = .nested inner ∧ entry.messageIndex = entry.place := by
  have hnone : entry.action.target? = none := by
    refine Option.not_isSome_iff_eq_none.1 fun hsome => ?_
    obtain ⟨_, hrepeated⟩ := h.repeated_place_iff.2 hsome
    rw [ht] at hrepeated
    cases hrepeated
  have hplace : entry.messageIndex = entry.place := by rw [place, hnone, Option.getD_none]
  rw [← hplace, h.message, Option.map_some, Option.some.injEq] at ht
  cases ha : entry.action with
  | scalar coercion =>
    obtain ⟨-, hcarrier⟩ := Coercion.select_eq_ok_iff.1 (h.scalar ha)
    rw [ht] at hcarrier
    cases coercion <;> cases hcarrier
  | nested inner => exact ⟨inner, rfl, hplace⟩
  | array | list => rw [ha] at hnone; cases hnone

/-- What fills a repeated field is an array or a list. -/
theorem exists_repeated (h : entry.Sound descriptors layout schema field found) {id : SchemaId}
    (ht : schema.fields[entry.place]?.map (·.type) = some (.repeated id)) :
    (∃ inner count, entry.action = .array inner count entry.place) ∨
      ∃ inner, entry.action = .list inner entry.place := by
  have hsome := h.repeated_place_iff.1 ⟨id, ht⟩
  unfold place
  cases ha : entry.action with
  | array inner count target => exact .inl ⟨inner, count, rfl⟩
  | list inner target => exact .inr ⟨inner, rfl⟩
  | scalar | nested => rw [ha] at hsome; cases hsome

end Plan.Entry.Sound

namespace Message

variable {message changed : Message} {index : Nat}

namespace Of

theorem setAt (hm : message.Of registry opcode) {value : Value}
    (hin : ∀ inner ∈ value.inner, inner.Sound registry.schemas)
    (hset : message.setAt index value = .ok changed) : changed.Of registry opcode :=
  ⟨(gains_setAt hm.2.fits.length hset).schema ▸ hm.1, hm.2.setAt hin hset⟩

theorem setMessageAt (hm : message.Of registry opcode) {child : Message}
    (hin : child.Sound registry.schemas)
    (hset : message.setAt index (.message child) = .ok changed) : changed.Of registry opcode := by
  refine hm.setAt ?_ hset
  exact List.forall_mem_singleton.2 hin

theorem pushAt (hm : message.Of registry opcode) {element : Message}
    (hin : element.Sound registry.schemas)
    (hset : message.pushAt index element = .ok changed) : changed.Of registry opcode :=
  ⟨(gains_elements hm.2.fits.length (List.cons_ne_nil element []) hset).schema ▸ hm.1,
    hm.2.appendAt (by simpa using hin) hset⟩

theorem exists_field (hm : message.Of registry opcode) {value : Value}
    (hv : message.value? index = some value) :
    ∃ field, message.schema.fields[index]? = some field ∧ value.fits field.type := by
  have hheld := value?_eq_some.1 hv
  have hi : index < message.schema.fields.length :=
    hm.2.fits.length ▸ (List.getElem?_eq_some_iff.1 hheld).1
  have hf := List.getElem?_eq_getElem hi
  exact ⟨_, hf, hm.2.fits.fits index _ value hf hheld⟩

/-- The plan of the opcode of a message binds its schema. -/
theorem exists_binding (hm : message.Of registry opcode) (h : registry.Sound)
    (hp : registry.plan? opcode = some plan) :
    ∃ layout, registry.Binding opcode layout message.schema plan := by
  obtain ⟨layout, found, hb⟩ := h.binding_of_schema? hm.1
  cases (hb.plan?_eq h).symm.trans hp
  exact ⟨layout, hb⟩

/-- An embedded message is of the opcode that carries it. -/
theorem messageAt?_of_carries (hm : message.Of registry opcode) (h : registry.Sound)
    (hc : registry.Carries opcode index inner) {child : Message}
    (hchild : message.messageAt? index = some child) : child.Of registry inner := by
  obtain ⟨plan, hp, entry, he, rfl, hi⟩ := hc
  obtain ⟨layout, hb⟩ := hm.exists_binding h hp
  obtain ⟨field, hf, hfit⟩ := hm.exists_field (messageAt?_eq_some.1 hchild)
  obtain ⟨_, _, hentry⟩ := hb.entry_sound he
  obtain ⟨_, ha, hat⟩ := hentry.exists_nested
    (by rw [hf, Option.map_some, Value.type_eq_of_fits_message hfit])
  rw [ha] at hi
  cases hi
  exact hm.messageAt? h hb he ha (hat.symm ▸ hchild)

/-- The elements of a repeated field are of each opcode that carries them. -/
theorem elementsAt_of_carries (hm : message.Of registry opcode) (h : registry.Sound)
    (hc : registry.Carries opcode index inner) :
    ∀ element ∈ message.elementsAt index, element.Of registry inner := by
  intro element hmem
  obtain ⟨plan, hp, entry, he, rfl, hi⟩ := hc
  obtain ⟨layout, hb⟩ := hm.exists_binding h hp
  obtain ⟨elements, hv⟩ : ∃ elements, message.value? entry.place = some (.list elements) := by
    unfold Message.elementsAt at hmem
    split at hmem
    · exact ⟨_, ‹_›⟩
    · cases hmem
  obtain ⟨field, hf, hfit⟩ := hm.exists_field hv
  obtain ⟨id, htype, -⟩ := Value.exists_type_of_fits_list hfit
  obtain ⟨_, _, hentry⟩ := hb.entry_sound he
  rcases hentry.exists_repeated (by rw [hf, Option.map_some, htype]) with ⟨_, _, ha⟩ | ⟨_, ha⟩
  · rw [ha] at hi
    cases hi
    obtain ⟨_, _, carrier, -, -, hcarrier, rfl, ht⟩ := hentry.array ha
    exact hm.elementsAt h hb hcarrier ht element hmem
  · rw [ha] at hi
    cases hi
    obtain ⟨_, carrier, -, -, hcarrier, rfl, ht⟩ := hentry.list ha
    exact hm.elementsAt h hb hcarrier ht element hmem

end Of

theorem sound_of_message {id : SchemaId} {made : Message}
    (h : registry.schemas.message id = .ok made) : made.Sound registry.schemas :=
  (Built.blank h).sound

theorem eq_blank_of_message {id : SchemaId} {made : Message}
    (h : registry.schemas.message id = .ok made) : .blank made.schema = made := by
  unfold SchemaSet.message at h
  split at h
  · cases h
    rfl
  · cases h

/-- A message that is blank by its schema is the blank one of its opcode. -/
theorem Of.message?_eq {id : SchemaId} {made : Message} (hm : made.Of registry inner)
    (h : registry.Sound) (hmade : registry.schemas.message id = .ok made) :
    registry.message? inner = some made := by
  obtain ⟨layout, plan, hb⟩ := h.binding_of_schema? hm.1
  rw [hb.message?_eq h, eq_blank_of_message hmade]

theorem inner_of_isDefault {value : Value} (h : value.isDefault) : value.inner = [] := by
  cases value with
  | list elements => exact List.isEmpty_iff.1 h
  | message => cases h
  | int32 | bool | string => rfl

namespace Explicit

/-- What spells out more of a message of an opcode is one, too. -/
theorem of (hex : message.Explicit registry opcode changed) :
    message.Of registry opcode → changed.Of registry opcode := by
  induction hex with
  | refl => exact id
  | trans _ _ ih ih' => exact fun hm => ih' (ih hm)
  | default _ zero made =>
    exact fun hm => hm.setAt (by rw [inner_of_isDefault zero]; exact nofun) made
  | blank _ empty made => exact fun hm => hm.setMessageAt (sound_of_message empty) made
  | append _ empty made => exact fun hm => hm.pushAt (sound_of_message empty) made
  | inside _ sound _ made => exact fun hm => hm.setMessageAt sound made
  | @element _ message _ child next index front back held sound _ made =>
    intro hm
    have hinside : ∀ element ∈ front ++ child :: back, element.Sound registry.schemas :=
      fun element he => hm.2.inside (mem_inner_of_mem_elementsAt (held ▸ he))
    refine hm.setAt (fun element he => ?_) made
    rcases List.mem_append.1 he with he | he
    · exact hinside element (List.mem_append_left _ he)
    rcases List.mem_cons.1 he with rfl | he
    · exact sound
    · exact hinside element (List.mem_append_right _ (List.mem_cons_of_mem _ he))

end Explicit

end Message

/-! ## One level further in -/

/-- What an entry reads of a message and of one that spells out more: the same scalar, one
message inside the field that spells out more of the other, elements that do, with more of
them for an array, which spell out blank ones. -/
def Plan.Entry.Expands (registry : Registry) (entry : Plan.Entry) (first second : Message) :
    Prop :=
  match entry.action with
  | .scalar coercion =>
    coercion.toSlot? (first.value? entry.messageIndex) =
      coercion.toSlot? (second.value? entry.messageIndex)
  | .nested inner =>
    ∃ child next, (first.messageAt? entry.messageIndex).or (registry.message? inner) = some child ∧
      (second.messageAt? entry.messageIndex).or (registry.message? inner) = some next ∧
      child.Explicit registry inner next
  | .array inner _ target =>
    ∃ blank added, registry.message? inner = some blank ∧
      List.Forall₂ (Message.Explicit registry inner)
        (first.elementsAt target ++ .replicate added blank) (second.elementsAt target)
  | .list inner target =>
    List.Forall₂ (Message.Explicit registry inner) (first.elementsAt target)
      (second.elementsAt target)

section
variable {first second third : Message}

theorem forall₂_explicit_refl (elements : List Message) :
    List.Forall₂ (Message.Explicit registry inner) elements elements :=
  List.forall₂_same.2 fun element _ => .refl inner element

namespace Plan.Entry.Expands

/-- What is read in the same way is the same. -/
theorem of_reads (h : registry.Sound) (hb : registry.Binding opcode layout schema plan)
    (he : entry ∈ plan.bound)
    (hscalar : ∀ coercion, entry.action = .scalar coercion →
      coercion.toSlot? (first.value? entry.place) = coercion.toSlot? (second.value? entry.place))
    (hchild : first.messageAt? entry.place = second.messageAt? entry.place)
    (helements : first.elementsAt entry.place = second.elementsAt entry.place) :
    entry.Expands registry first second := by
  have hblank : ∀ inner, entry.action.inner? = some inner →
      ∃ blank, registry.message? inner = some blank := by
    intro inner ha
    obtain ⟨_, _, _, hinner⟩ := hb.inner_binding h he ha
    exact ⟨_, hinner.message?_eq h⟩
  unfold Plan.Entry.place at hscalar hchild helements
  unfold Expands
  cases ha : entry.action with
  | scalar coercion =>
    simp only [ha, Action.target?, Option.getD_none] at hscalar
    exact hscalar coercion rfl
  | nested inner =>
    simp only [ha, Action.target?, Option.getD_none] at hchild
    obtain ⟨blank, hblank⟩ := hblank inner (by rw [ha]; rfl)
    dsimp only
    rw [hchild, hblank]
    cases second.messageAt? entry.messageIndex with
    | none => exact ⟨blank, blank, rfl, rfl, .refl inner blank⟩
    | some child => exact ⟨child, child, rfl, rfl, .refl inner child⟩
  | array inner count target =>
    simp only [ha, Action.target?, Option.getD_some] at helements
    obtain ⟨blank, hblank⟩ := hblank inner (by rw [ha]; rfl)
    refine ⟨blank, 0, hblank, ?_⟩
    rw [List.replicate_zero, List.append_nil, helements]
    exact forall₂_explicit_refl _
  | list inner target =>
    simp only [ha, Action.target?, Option.getD_some] at helements
    dsimp only
    rw [helements]
    exact forall₂_explicit_refl _

theorem of_value? (h : registry.Sound) (hb : registry.Binding opcode layout schema plan)
    (he : entry ∈ plan.bound) (hsame : first.value? entry.place = second.value? entry.place) :
    entry.Expands registry first second := by
  refine of_reads h hb he (fun _ _ => by rw [hsame]) ?_ ?_
  · rw [Message.messageAt?, Message.messageAt?, hsame]
  · rw [Message.elementsAt, Message.elementsAt, hsame]

theorem forall₂_trans {xs ys zs : List Message}
    (h : List.Forall₂ (Message.Explicit registry inner) xs ys)
    (h' : List.Forall₂ (Message.Explicit registry inner) ys zs) :
    List.Forall₂ (Message.Explicit registry inner) xs zs := by
  induction h generalizing zs with
  | nil => exact h'
  | cons hhead _ ih =>
    cases h' with
    | cons hnext hrest => exact .cons (.trans hhead hnext) (ih hrest)

theorem trans (h : entry.Expands registry first second)
    (h' : entry.Expands registry second third) : entry.Expands registry first third := by
  unfold Expands at h h' ⊢
  cases ha : entry.action with
  | scalar coercion =>
    rw [ha] at h h'
    exact Eq.trans h h'
  | nested inner =>
    rw [ha] at h h'
    obtain ⟨child, middle, hchild, hmiddle, hex⟩ := h
    obtain ⟨same, next, hsame, hnext, hex'⟩ := h'
    cases hmiddle.symm.trans hsame
    exact ⟨child, next, hchild, hnext, .trans hex hex'⟩
  | array inner count target =>
    rw [ha] at h h'
    obtain ⟨blank, added, hblank, hall⟩ := h
    obtain ⟨same, more, hsame, hall'⟩ := h'
    cases hblank.symm.trans hsame
    refine ⟨blank, added + more, hblank, ?_⟩
    rw [List.replicate_add, ← List.append_assoc]
    exact forall₂_trans (List.rel_append hall (forall₂_explicit_refl _)) hall'
  | list inner target =>
    rw [ha] at h h'
    exact forall₂_trans h h'

end Plan.Entry.Expands

end

namespace Message

variable {message changed : Message} {index : Nat}

/-- A default is read as an unset field is. -/
theorem expands_default (h : registry.Sound) (hp : registry.plan? opcode = some plan)
    (he : entry ∈ plan.bound) (hchanged : changed.Of registry opcode)
    (hunset : message.value? entry.place = none) {value : Value} (hd : value.isDefault)
    (hset : changed.value? entry.place = some value) : entry.Expands registry message changed := by
  obtain ⟨layout, hb⟩ := hchanged.exists_binding h hp
  refine .of_reads h hb he (fun coercion ha => ?_) ?_ ?_
  · obtain ⟨field, found, hentry⟩ := hb.entry_sound he
    obtain ⟨-, htype⟩ := Coercion.select_eq_ok_iff.1 (hentry.scalar ha)
    have hplace : entry.place = entry.messageIndex := by
      rw [Plan.Entry.place, ha]
      rfl
    have hfit := hchanged.2.fits.fits _ field value hentry.message
      (value?_eq_some.1 (hplace ▸ hset))
    rw [hunset, hset]
    exact Coercion.toSlot?_default (htype ▸ hfit) hd
  · rw [messageAt?, messageAt?, hunset, hset]
    cases value with
    | message => cases hd
    | int32 | bool | string | list => rfl
  · rw [elementsAt_eq, elementsAt_eq, hunset, hset]
    cases value with
    | list elements => exact (List.isEmpty_iff.1 hd).symm
    | int32 | bool | string | message => rfl

/-- A message that takes the place of one that it spells out more of, or of a blank one. -/
theorem expands_child (h : registry.Sound) (hp : registry.plan? opcode = some plan)
    (he : entry ∈ plan.bound) (hchanged : changed.Of registry opcode) {next : Message}
    (hset : changed.value? entry.place = some (.message next))
    (hinner : ∀ inner, registry.Carries opcode entry.place inner → ∃ child,
      (message.messageAt? entry.place).or (registry.message? inner) = some child ∧
        child.Explicit registry inner next) : entry.Expands registry message changed := by
  obtain ⟨layout, hb⟩ := hchanged.exists_binding h hp
  obtain ⟨field, hf, hfit⟩ := hchanged.exists_field hset
  obtain ⟨_, found, hentry⟩ := hb.entry_sound he
  obtain ⟨inner, ha, hat⟩ := hentry.exists_nested
    (by rw [hf, Option.map_some, Value.type_eq_of_fits_message hfit])
  obtain ⟨child, hchild, hex⟩ := hinner inner ⟨plan, hp, entry, he, rfl, by rw [ha]; rfl⟩
  rw [Plan.Entry.Expands, ha]
  dsimp only
  rw [hat, messageAt?_eq_some.2 hset]
  exact ⟨child, next, hchild, rfl, hex⟩

/-- Elements that take the place of others that they spell out more of, and for an array of
blank ones, too. -/
theorem expands_elements (h : registry.Sound) (hp : registry.plan? opcode = some plan)
    (he : entry ∈ plan.bound) (hchanged : changed.Of registry opcode) {elements : List Message}
    (hset : changed.value? entry.place = some (.list elements)) (added : Nat)
    (hlist : registry.ListsFrom opcode entry.place → added = 0)
    (hinner : ∀ inner, registry.Carries opcode entry.place inner → ∀ blank,
      registry.message? inner = some blank → List.Forall₂ (Explicit registry inner)
        (message.elementsAt entry.place ++ .replicate added blank) elements) :
    entry.Expands registry message changed := by
  obtain ⟨layout, hb⟩ := hchanged.exists_binding h hp
  obtain ⟨field, hf, hfit⟩ := hchanged.exists_field hset
  obtain ⟨type, htype, -⟩ := Value.exists_type_of_fits_list hfit
  obtain ⟨_, found, hentry⟩ := hb.entry_sound he
  have hheld : changed.elementsAt entry.place = elements := by rw [elementsAt_eq, hset]; rfl
  have hall : ∀ inner, entry.action.inner? = some inner → ∃ blank,
      registry.message? inner = some blank ∧ List.Forall₂ (Explicit registry inner)
        (message.elementsAt entry.place ++ .replicate added blank) elements := by
    intro inner ha
    obtain ⟨_, _, _, hinside⟩ := hb.inner_binding h he ha
    have hblank := hinside.message?_eq h
    exact ⟨_, hblank, hinner inner ⟨plan, hp, entry, he, rfl, ha⟩ _ hblank⟩
  rcases hentry.exists_repeated (by rw [hf, Option.map_some, htype]) with
    ⟨inner, count, ha⟩ | ⟨inner, ha⟩
  · obtain ⟨blank, hblank, hall⟩ := hall inner (by rw [ha]; rfl)
    rw [Plan.Entry.Expands, ha]
    dsimp only
    rw [hheld]
    exact ⟨blank, added, hblank, hall⟩
  · obtain ⟨blank, -, hall⟩ := hall inner (by rw [ha]; rfl)
    rw [hlist ⟨plan, hp, entry, he, inner, ha⟩, List.replicate_zero, List.append_nil] at hall
    rw [Plan.Entry.Expands, ha]
    dsimp only
    rwa [hheld]

/-! ### One way after the other -/

/-- What changed in one place is read by the entries of that place alone. -/
theorem expands_of_gains (h : registry.Sound) (hm : message.Of registry opcode)
    (hp : registry.plan? opcode = some plan) {content : Option Value}
    (hgains : message.Gains index content changed)
    (hat : ∀ entry ∈ plan.bound, entry.place = index → changed.value? entry.place = content →
      entry.Expands registry message changed) :
    ∀ entry ∈ plan.bound, entry.Expands registry message changed := by
  intro entry he
  obtain ⟨layout, hb⟩ := hm.exists_binding h hp
  by_cases hplace : entry.place = index
  · exact hat entry he hplace ((hgains.value? _).trans (if_pos hplace.symm))
  · exact .of_value? h hb he (by rw [hgains.value?, if_neg (Ne.symm hplace)])

theorem expands_setAt_default (h : registry.Sound) (hm : message.Of registry opcode)
    (hp : registry.plan? opcode = some plan) {value : Value} (hunset : message.value? index = none)
    (hd : value.isDefault) (hmade : message.setAt index value = .ok changed) :
    ∀ entry ∈ plan.bound, entry.Expands registry message changed := by
  have hof : changed.Of registry opcode :=
    hm.setAt (by rw [inner_of_isDefault hd]; exact nofun) hmade
  refine expands_of_gains h hm hp (gains_setAt hm.2.fits.length hmade)
    fun entry he hplace hset => ?_
  exact expands_default h hp he hof (hplace ▸ hunset) hd hset

/-- A blank message is what is taken for one that is missing. -/
theorem expands_setAt_blank (h : registry.Sound) (hm : message.Of registry opcode)
    (hp : registry.plan? opcode = some plan) {part : Message} {id : SchemaId}
    (hunset : message.value? index = none) (hpart : registry.schemas.message id = .ok part)
    (hmade : message.setAt index (.message part) = .ok changed) :
    ∀ entry ∈ plan.bound, entry.Expands registry message changed := by
  have hof := hm.setMessageAt (sound_of_message hpart) hmade
  refine expands_of_gains h hm hp (gains_setAt hm.2.fits.length hmade)
    fun entry he hplace hset => ?_
  refine expands_child h hp he hof hset fun inner hc => ⟨part, ?_, .refl inner part⟩
  have hblank := (hof.messageAt?_of_carries h hc (messageAt?_eq_some.2 hset)).message?_eq h hpart
  rw [messageAt?, hplace, hunset, Option.none_or, hblank]

theorem expands_pushAt_blank (h : registry.Sound) (hm : message.Of registry opcode)
    (hp : registry.plan? opcode = some plan) {element : Message} {id : SchemaId}
    (harrays : ¬ registry.ListsFrom opcode index)
    (helement : registry.schemas.message id = .ok element)
    (hmade : message.pushAt index element = .ok changed) :
    ∀ entry ∈ plan.bound, entry.Expands registry message changed := by
  have hof := hm.pushAt (sound_of_message helement) hmade
  refine expands_of_gains h hm hp
    (gains_elements hm.2.fits.length (List.cons_ne_nil element []) hmade)
    fun entry he hplace hset => ?_
  subst hplace
  refine expands_elements h hp he hof hset 1 (fun hlists => absurd hlists harrays)
    fun inner hc blank hblank => ?_
  -- the element is of the opcode that carries it, so it is the blank message of that one
  have hlast := hof.elementsAt_of_carries h hc element
    (by rw [elementsAt_eq, hset]; exact List.mem_append_right _ (List.mem_singleton.2 rfl))
  cases (hlast.message?_eq h helement).symm.trans hblank
  exact forall₂_explicit_refl _

theorem expands_setAt_inside (h : registry.Sound) (hm : message.Of registry opcode)
    (hp : registry.plan? opcode = some plan) {part next : Message}
    (hheld : message.messageAt? index = some part) (hnext : next.Sound registry.schemas)
    (hex : ∀ inner, registry.Carries opcode index inner → part.Explicit registry inner next)
    (hmade : message.setAt index (.message next) = .ok changed) :
    ∀ entry ∈ plan.bound, entry.Expands registry message changed := by
  have hof := hm.setMessageAt hnext hmade
  refine expands_of_gains h hm hp (gains_setAt hm.2.fits.length hmade)
    fun entry he hplace hset => ?_
  subst hplace
  exact expands_child h hp he hof hset fun inner hc =>
    ⟨part, by rw [hheld, Option.some_or], hex inner hc⟩

theorem expands_setAt_element (h : registry.Sound) (hm : message.Of registry opcode)
    (hp : registry.plan? opcode = some plan) {part next : Message} {front back : List Message}
    (hheld : message.elementsAt index = front ++ part :: back)
    (hnext : next.Sound registry.schemas)
    (hex : ∀ inner, registry.Carries opcode index inner → part.Explicit registry inner next)
    (hmade : message.setAt index (.list (front ++ next :: back)) = .ok changed) :
    ∀ entry ∈ plan.bound, entry.Expands registry message changed := by
  have hof := Explicit.of (.element hheld hnext hex hmade) hm
  refine expands_of_gains h hm hp (gains_setAt hm.2.fits.length hmade)
    fun entry he hplace hset => ?_
  subst hplace
  refine expands_elements h hp he hof hset 0 (fun _ => rfl) fun inner hc blank _ => ?_
  rw [List.replicate_zero, List.append_nil, hheld]
  exact List.rel_append (forall₂_explicit_refl front)
    (.cons (hex inner hc) (forall₂_explicit_refl back))

/-- What is read of a message and of one that spells out more, at every entry of the plan:
one case per way of spelling out, by induction on how the one came of the other. -/
theorem Explicit.expands (h : registry.Sound) (hex : message.Explicit registry opcode changed) :
    message.Of registry opcode → registry.plan? opcode = some plan →
      ∀ entry ∈ plan.bound, entry.Expands registry message changed := by
  induction hex generalizing plan with
  | refl opcode message =>
    intro hm hp entry he
    obtain ⟨layout, hb⟩ := hm.exists_binding h hp
    exact .of_value? h hb he rfl
  | trans start _ ih ih' =>
    exact fun hm hp entry he => (ih hm hp entry he).trans (ih' (start.of hm) hp entry he)
  | default unset zero made => exact fun hm hp => expands_setAt_default h hm hp unset zero made
  | blank unset empty made => exact fun hm hp => expands_setAt_blank h hm hp unset empty made
  | append arrays empty made => exact fun hm hp => expands_pushAt_blank h hm hp arrays empty made
  | inside held sound explicit made =>
    exact fun hm hp => expands_setAt_inside h hm hp held sound explicit made
  | element held sound explicit made =>
    exact fun hm hp => expands_setAt_element h hm hp held sound explicit made

end Message

end RecordBridge

import RecordBridge.Proofs.Layout.Containment
import RecordBridge.Proofs.Registry.Coercion
import RecordBridge.Registry.Plan
/-!
# What a compiled plan holds

A plan has one item per message field, in order (`Plan.Made`, `compile_eq_ok_iff`). An item
that pairs a message field with a record field pairs fields of one name, by an
action that suits both (`Pairs`). Message fields are paired once
(`nodup_messageIndex`), and so are record fields (`nodup_recordIndex`).
-/
namespace RecordBridge

/-! ## Carriers -/

namespace Descriptor

theorem lookup_cons_of_ne {id layout : LayoutId} (h : layout ≠ id) (held : Descriptor)
    (entered : List (LayoutId × Descriptor)) :
    ((id, held) :: entered).lookup layout = entered.lookup layout := by
  rw [List.lookup_cons, beq_eq_false_iff_ne.2 h]

theorem lookup_enter_self (descriptor : Descriptor) :
    ∀ entered : List (LayoutId × Descriptor),
    (enter descriptor entered).lookup descriptor.layout =
      match entered.lookup descriptor.layout with
      | none => some descriptor
      | some held =>
        if descriptor.repeatedField.isSome ∧ ¬ held.repeatedField.isSome then some descriptor
        else some held
  | [] => List.lookup_cons_self
  | (id, held) :: rest => by
    rw [enter]
    by_cases hid : id = descriptor.layout
    · subst hid
      rw [if_pos rfl, List.lookup_cons_self]
      dsimp only
      split <;> exact List.lookup_cons_self
    · have hne : descriptor.layout ≠ id := fun h => hid h.symm
      rw [if_neg hid, lookup_cons_of_ne hne, lookup_cons_of_ne hne,
        lookup_enter_self descriptor rest]

theorem lookup_enter_of_ne {descriptor : Descriptor} {layout : LayoutId}
    (h : layout ≠ descriptor.layout) : ∀ entered : List (LayoutId × Descriptor),
    (enter descriptor entered).lookup layout = entered.lookup layout
  | [] => lookup_cons_of_ne h descriptor []
  | (id, held) :: rest => by
    rw [enter]
    split
    · next hid =>
      subst hid
      rw [lookup_cons_of_ne h]
      split <;> rw [lookup_cons_of_ne h]
    · by_cases hid : layout = id
      · subst hid
        rw [List.lookup_cons_self, List.lookup_cons_self]
      · rw [lookup_cons_of_ne hid, lookup_cons_of_ne hid, lookup_enter_of_ne h rest]

/-- The carrier of a layout is the first descriptor of it that names a repeated field, or
else the first. -/
theorem carrier?_eq (descriptors : List Descriptor) (layout : LayoutId) :
    carrier? descriptors layout =
      ((descriptors.filter (·.layout == layout)).find? (·.repeatedField.isSome)).or
        (descriptors.filter (·.layout == layout)).head? := by
  induction descriptors using List.reverseRecOn with
  | nil => rfl
  | append_singleton front descriptor ih =>
    have hlast : carrier? (front ++ [descriptor]) layout =
        (enter descriptor (carriers front)).lookup layout := by
      rw [carrier?, carriers, List.foldl_append]
      rfl
    rw [hlast, List.filter_append]
    rw [carrier?] at ih
    by_cases hlayout : descriptor.layout = layout
    · subst hlayout
      rw [lookup_enter_self, ih, List.filter_singleton, beq_self_eq_true, cond_true,
        List.find?_append, List.head?_append]
      generalize front.filter (·.layout == descriptor.layout) = ofLayout
      cases hnamed : ofLayout.find? (·.repeatedField.isSome) with
      | some held =>
        have hheld : held.repeatedField.isSome := by simpa using List.find?_some hnamed
        simp [hheld]
      | none =>
        cases hfirst : ofLayout.head? with
        | none => by_cases h : descriptor.repeatedField.isSome <;> simp [h]
        | some held =>
          have hheld : ¬ held.repeatedField.isSome :=
            List.find?_eq_none.1 hnamed held (List.mem_of_head? hfirst)
          by_cases h : descriptor.repeatedField.isSome <;> simp [h, hheld]
    · rw [lookup_enter_of_ne (Ne.symm hlayout), ih]
      simp [hlayout]

/-- The carrier of a layout is a descriptor of it. -/
theorem mem_of_carrier? {descriptors : List Descriptor} {layout : LayoutId}
    {found : Descriptor} (h : carrier? descriptors layout = some found) :
    found ∈ descriptors ∧ found.layout = layout := by
  have hmem : found ∈ descriptors.filter (·.layout == layout) := by
    simp only [carrier?_eq, Option.or_eq_some_iff] at h
    rcases h with h | ⟨-, h⟩
    · exact List.mem_of_find?_eq_some h
    · exact List.mem_of_head? h
  simpa using List.mem_filter.1 hmem

end Descriptor

namespace Plan

/-- The repeated field that an action fills. -/
def Action.target? : Action → Option Nat
  | .array _ _ target | .list _ target => some target
  | _ => none

/-- The message field that an entry fills. -/
def Entry.place (entry : Entry) : Nat := entry.action.target?.getD entry.messageIndex

/-- The opcode that an action carries records inside a field by. -/
def Action.inner? : Action → Option UInt16
  | .nested inner | .array inner _ _ | .list inner _ => some inner
  | .scalar _ => none

/-- An action carries records of a kind of field in a message field: scalars by
a coercion between the two, and what lies inside by the carrier of its layout,
one by one in the field itself or all in a repeated field. -/
inductive Pairs (descriptors : List Descriptor) (layout : Layout) (schema : Schema) :
    Schema.Field → FieldKind → Action → Prop where
  | scalar {field : Schema.Field} {kind : FieldKind} {coercion : Coercion}
      (selected : Coercion.select kind field.type = .ok (.ok coercion)) :
      Pairs descriptors layout schema field kind (.scalar coercion)
  | nested {field : Schema.Field} {id : LayoutId} {found : Descriptor}
      (carrier : Descriptor.carrier? descriptors id = some found)
      (type : field.type = .message found.schema) :
      Pairs descriptors layout schema field (.nested id) (.nested found.opcode)
  | array {field : Schema.Field} {id : LayoutId} {count : UInt64} {found : Descriptor}
      {target : Nat} (carrier : Descriptor.carrier? descriptors id = some found)
      (name : schema.fieldIndex? (found.repeatedField.getD field.name) = some target)
      (type : schema.fields[target]?.map (·.type) = some (.repeated found.schema)) :
      Pairs descriptors layout schema field (.array id count)
        (.array found.opcode count.toNat target)
  | list {field : Schema.Field} {id : LayoutId} {found : Descriptor} {target : Nat}
      (other : id ≠ layout.id) (carrier : Descriptor.carrier? descriptors id = some found)
      (name : schema.fieldIndex? (found.repeatedField.getD field.name) = some target)
      (type : schema.fields[target]?.map (·.type) = some (.repeated found.schema)) :
      Pairs descriptors layout schema field (.list id) (.list found.opcode target)

variable {layouts : LayoutSet} {descriptors : List Descriptor} {opcode : UInt16} {layout : Layout}
  {schema : Schema} {plan : Plan}

/-! ## One entry -/

theorem inner_eq_ok_iff {field : String} {id : LayoutId} {found : Descriptor} :
    Descriptor.inner descriptors opcode field id = .ok found ↔
      Descriptor.carrier? descriptors id = some found := by
  unfold Descriptor.inner
  cases Descriptor.carrier? descriptors id <;> simp

theorem target_eq_ok {field : String} {element : Descriptor} {target : Nat}
    (h : Descriptor.target opcode schema field element = .ok (.ok target)) :
    schema.fieldIndex? (element.repeatedField.getD field) = some target ∧
      schema.fields[target]?.map (·.type) = some (.repeated element.schema) := by
  simp only [Descriptor.target] at h
  split at h
  · cases h
  · next index hi =>
    split at h
    · next ht =>
      cases h
      exact ⟨hi, ht⟩
    · cases h

/-- What is paired is paired by an action for both fields, and takes the record field's bytes. -/
theorem pairs_of_action {field : Schema.Field} {kind : FieldKind} {done : Action} {size : Nat}
    (h : action layouts descriptors opcode layout schema field kind = .ok (.ok (done, size))) :
    Pairs descriptors layout schema field kind done ∧ kind.packedSize layouts.sizeOf = size := by
  have select : ∀ {kind : FieldKind}, (do
        let selected ← (Coercion.select kind field.type).mapError RegistryError.layout
        return selected.map fun coercion => (Action.scalar coercion, coercion.byteSize)) =
          .ok (.ok (done, size)) →
      Pairs descriptors layout schema field kind done ∧ kind.packedSize layouts.sizeOf = size := by
    intro kind hs
    obtain ⟨selected, hc, hs⟩ := bind_eq_ok.1 hs
    rw [mapError_eq_ok] at hc
    cases selected with
    | error reason => cases hs
    | ok coercion =>
      cases hs
      exact ⟨.scalar hc, Coercion.packedSize_select hc _⟩
  cases kind with
  | int | bool | fixedText | ownedText | textRows => exact select h
  | nested id =>
    simp only [action, bind_eq_ok, inner_eq_ok_iff] at h
    obtain ⟨found, hc, h⟩ := h
    split at h
    · next ht =>
      cases h
      exact ⟨.nested hc ht, rfl⟩
    · cases h
  | array id count =>
    simp only [action, bind_eq_ok, inner_eq_ok_iff] at h
    obtain ⟨found, hc, index, ht, h⟩ := h
    cases index with
    | error reason => cases h
    | ok target =>
      obtain ⟨product, hproduct, h⟩ := bind_eq_ok.1 h
      cases h
      rw [mapError_eq_ok, Size.mul_eq_ok_iff] at hproduct
      obtain ⟨hname, htype⟩ := target_eq_ok ht
      exact ⟨.array hc hname htype, hproduct.1⟩
  | list id =>
    simp only [action] at h
    split at h
    · cases h
    · next hne =>
      simp only [bind_eq_ok, inner_eq_ok_iff, pure_eq_ok] at h
      obtain ⟨found, hc, index, ht, h⟩ := h
      cases index with
      | error reason => cases h
      | ok target =>
        cases h
        obtain ⟨hname, htype⟩ := target_eq_ok ht
        exact ⟨.list hne hc hname htype, rfl⟩

/-- The field of a name is at the position of the name. -/
theorem field?_eq_some {name : String} {index : Nat} {found : Layout.Field}
    (hi : layout.fieldIndex? name = some index) (hf : layout.field? name = some found) :
    layout.fields[index]? = some found ∧ found.name = name := by
  refine ⟨?_, (mem_of_find?_key hf).2⟩
  rw [Layout.field?, List.find?_eq_bind_findIdx?_getElem?] at hf
  rw [Layout.fieldIndex?] at hi
  simpa [hi] using hf

/-- An entry of a message field pairs it with the record field of its name. -/
structure Entry.Sound (descriptors : List Descriptor) (layout : Layout) (schema : Schema)
    (entry : Entry) (field : Schema.Field) (found : Layout.Field) : Prop where
  message : schema.fields[entry.messageIndex]? = some field
  record : layout.fields[entry.recordIndex]? = some found
  name : found.name = field.name
  pairs : Pairs descriptors layout schema field found.kind entry.action

namespace Entry.Sound

variable {entry : Entry} {field : Schema.Field} {found : Layout.Field} {inner : UInt16}
  {count target : Nat}

theorem scalar (h : entry.Sound descriptors layout schema field found) {coercion : Coercion}
    (ha : entry.action = .scalar coercion) :
    Coercion.select found.kind field.type = .ok (.ok coercion) := by
  have hp := h.pairs
  rw [ha] at hp
  generalize found.kind = kind at hp
  cases hp with
  | scalar selected => exact selected

theorem nested (h : entry.Sound descriptors layout schema field found)
    (ha : entry.action = .nested inner) : ∃ id carrier, found.kind = .nested id ∧
      Descriptor.carrier? descriptors id = some carrier ∧ carrier.opcode = inner ∧
      field.type = .message carrier.schema := by
  have hp := h.pairs
  rw [ha] at hp
  generalize found.kind = kind at hp
  cases hp with
  | nested hc ht => exact ⟨_, _, rfl, hc, rfl, ht⟩

theorem array (h : entry.Sound descriptors layout schema field found)
    (ha : entry.action = .array inner count target) :
    ∃ id size carrier, found.kind = .array id size ∧ size.toNat = count ∧
      Descriptor.carrier? descriptors id = some carrier ∧ carrier.opcode = inner ∧
      schema.fields[target]?.map (·.type) = some (.repeated carrier.schema) := by
  have hp := h.pairs
  rw [ha] at hp
  generalize found.kind = kind at hp
  cases hp with
  | array hc _ ht => exact ⟨_, _, _, rfl, rfl, hc, rfl, ht⟩

theorem list (h : entry.Sound descriptors layout schema field found)
    (ha : entry.action = .list inner target) :
    ∃ id carrier, found.kind = .list id ∧ id ≠ layout.id ∧
      Descriptor.carrier? descriptors id = some carrier ∧ carrier.opcode = inner ∧
      schema.fields[target]?.map (·.type) = some (.repeated carrier.schema) := by
  have hp := h.pairs
  rw [ha] at hp
  generalize found.kind = kind at hp
  cases hp with
  | list hne hc _ ht => exact ⟨_, _, rfl, hne, hc, rfl, ht⟩

/-- A target is the field that the carrier of the elements names, or else the entry's own. -/
theorem element (h : entry.Sound descriptors layout schema field found)
    (ht : entry.action.target? = some target) : ∃ carrier ∈ descriptors,
      schema.fieldIndex? (carrier.repeatedField.getD field.name) = some target := by
  have hp := h.pairs
  generalize entry.action = action at hp ht
  generalize found.kind = kind at hp
  cases hp with
  | scalar | nested => cases ht
  | array hc hname | list _ hc hname =>
    cases ht
    exact ⟨_, (Descriptor.mem_of_carrier? hc).1, hname⟩

/-- Entries fill repeated fields by their targets, and other fields in place. -/
theorem repeated_place_iff (h : entry.Sound descriptors layout schema field found) :
    (∃ id, schema.fields[entry.place]?.map (·.type) = some (.repeated id)) ↔
      entry.action.target?.isSome := by
  have hat : schema.fields[entry.messageIndex]?.map (·.type) = some field.type := by
    rw [h.message, Option.map_some]
  unfold Entry.place
  cases ha : entry.action with
  | scalar coercion =>
    obtain ⟨-, ht⟩ := Coercion.select_eq_ok_iff.1 (h.scalar ha)
    simp only [Action.target?, Option.getD_none, hat, ← ht]
    cases coercion <;> simp [Coercion.carrier]
  | nested inner =>
    obtain ⟨id, carrier, -, -, -, ht⟩ := h.nested ha
    simp [Action.target?, hat, ht]
  | array inner count target =>
    obtain ⟨id, size, carrier, -, -, -, -, ht⟩ := h.array ha
    simp [Action.target?, ht]
  | list inner target =>
    obtain ⟨id, carrier, -, -, -, -, ht⟩ := h.list ha
    simp [Action.target?, ht]

end Entry.Sound

theorem sound_of_item {field : Schema.Field} {index : Nat} {entry : Entry}
    (hf : schema.fields[index]? = some field)
    (h : item layouts descriptors opcode layout schema field index = .ok (.bind entry)) :
    entry.messageIndex = index ∧
      ∃ found, entry.Sound descriptors layout schema field found ∧
        found.kind.packedSize layouts.sizeOf = entry.size := by
  unfold item at h
  split at h
  · next recordIndex found hi hfound =>
    obtain ⟨result, ha, h⟩ := bind_eq_ok.1 h
    obtain ⟨hat, hname⟩ := field?_eq_some hi hfound
    cases result with
    | error reason => cases h
    | ok done =>
      obtain ⟨act, size⟩ := done
      cases h
      obtain ⟨hpairs, hsize⟩ := pairs_of_action ha
      exact ⟨rfl, found, ⟨hf, hat, hname, hpairs⟩, hsize⟩
  · cases h

/-! ## A whole plan -/

/-- The items of a plan are those of the message fields, one for each and in order. -/
structure Made (layouts : LayoutSet) (descriptors : List Descriptor) (opcode : UInt16)
    (layout : Layout) (schema : Schema) (plan : Plan) : Prop where
  length : plan.items.length = schema.fields.length
  items : ∀ (index : Nat) field, schema.fields[index]? = some field →
    ∃ made, plan.items[index]? = some made ∧
      item layouts descriptors opcode layout schema field index = .ok made

theorem mapM_item_eq_ok_iff {items : List Item} :
    (schema.fields.zipIdx.mapM fun (field, messageIndex) =>
      item layouts descriptors opcode layout schema field messageIndex) = .ok items ↔
      Made layouts descriptors opcode layout schema ⟨items⟩ := by
  simp only [mapM_eq_ok, List.length_zipIdx, List.getElem?_zipIdx]
  constructor
  · rintro ⟨hlen, hall⟩
    refine ⟨hlen, fun index field hf => ?_⟩
    simpa using hall index (field, index) (by simp [hf])
  · rintro ⟨hlen, hall⟩
    refine ⟨hlen, fun index pair hp => ?_⟩
    cases hf : schema.fields[index]? with
    | none => simp [hf] at hp
    | some field =>
      simp only [hf, Option.map_some, Option.some.injEq, Nat.zero_add] at hp
      subst hp
      exact hall index field hf

/-- There are items when there is one for each field. -/
theorem exists_made_iff : (∃ plan, Made layouts descriptors opcode layout schema plan) ↔
    ∀ (index : Nat) field, schema.fields[index]? = some field →
      ∃ made, item layouts descriptors opcode layout schema field index = .ok made := by
  constructor
  · rintro ⟨plan, hmade⟩ index field hf
    obtain ⟨made, -, hmade⟩ := hmade.items index field hf
    exact ⟨made, hmade⟩
  · intro h
    suffices hitems : ∃ items, Made layouts descriptors opcode layout schema ⟨items⟩ from
      hitems.elim fun items hmade => ⟨⟨items⟩, hmade⟩
    simp only [← mapM_item_eq_ok_iff]
    refine exists_mapM_ok fun pair hp => ?_
    obtain ⟨index, hi⟩ := List.mem_iff_getElem?.1 hp
    rw [List.getElem?_zipIdx, Option.map_eq_some_iff] at hi
    obtain ⟨field, hf, rfl⟩ := hi
    rw [Nat.zero_add]
    exact h index field hf

/-- A plan is compiled when its items are made and 64 bits hold the bytes they take. -/
theorem compile_eq_ok_iff : compile layouts descriptors opcode layout schema = .ok plan ↔
    plan.Made layouts descriptors opcode layout schema ∧ plan.occupied < UInt64.size := by
  obtain ⟨items⟩ := plan
  simp only [compile, bind_eq_ok, pure_eq_ok, mapM_item_eq_ok_iff, mk.injEq, mapError_eq_ok,
    Size.fit_eq_ok_iff]
  constructor
  · rintro ⟨items, hmade, size, ⟨rfl, hsize⟩, rfl⟩
    exact ⟨hmade, hsize⟩
  · rintro ⟨hmade, hsize⟩
    exact ⟨items, hmade, _, ⟨rfl, hsize⟩, rfl⟩

theorem made_of_compile (h : compile layouts descriptors opcode layout schema = .ok plan) :
    plan.Made layouts descriptors opcode layout schema :=
  (compile_eq_ok_iff.1 h).1

theorem mem_bound {entry : Entry} : entry ∈ plan.bound ↔ .bind entry ∈ plan.items := by
  simp only [bound, List.mem_filterMap]
  constructor
  · rintro ⟨item | item, hm, he⟩
    · cases he
      exact hm
    · cases he
  · exact fun h => ⟨_, h, rfl⟩

@[simp] theorem bound_skip (field : String) (reason : SkipReason) (rest : List Item) :
    (Plan.mk (.skip field reason :: rest)).bound = (Plan.mk rest).bound := rfl

@[simp] theorem bound_bind (entry : Entry) (rest : List Item) :
    (Plan.mk (.bind entry :: rest)).bound = entry :: (Plan.mk rest).bound := rfl

theorem bound_append (before after : List Item) :
    (Plan.mk (before ++ after)).bound = (Plan.mk before).bound ++ (Plan.mk after).bound :=
  List.filterMap_append

/-- A paired entry is at the position of its message field, and pairs it with a record
field of its size. -/
theorem Made.entry (h : plan.Made layouts descriptors opcode layout schema)
    {index : Nat} {entry : Entry} (he : plan.items[index]? = some (.bind entry)) :
    entry.messageIndex = index ∧ ∃ field found,
      entry.Sound descriptors layout schema field found ∧
        found.kind.packedSize layouts.sizeOf = entry.size := by
  have hi : index < schema.fields.length := h.length ▸ (List.getElem?_eq_some_iff.1 he).1
  have hf := List.getElem?_eq_getElem hi
  obtain ⟨made, hm, hitem⟩ := h.items index _ hf
  rw [he] at hm
  cases hm
  obtain ⟨hindex, found, hsound, hsize⟩ := sound_of_item hf hitem
  exact ⟨hindex, _, found, hsound, hsize⟩

/-- An entry takes the bytes of its record field. -/
theorem Made.size (h : plan.Made layouts descriptors opcode layout schema) {entry : Entry}
    (he : entry ∈ plan.bound) : ∃ found, layout.fields[entry.recordIndex]? = some found ∧
      found.kind.packedSize layouts.sizeOf = entry.size := by
  obtain ⟨index, hi⟩ := List.mem_iff_getElem?.1 (mem_bound.1 he)
  obtain ⟨-, field, found, hsound, hsize⟩ := h.entry hi
  exact ⟨found, hsound.record, hsize⟩

theorem sound_of_mem_bound (h : compile layouts descriptors opcode layout schema = .ok plan)
    {entry : Entry} (he : entry ∈ plan.bound) :
    ∃ field found, entry.Sound descriptors layout schema field found := by
  obtain ⟨index, hi⟩ := List.mem_iff_getElem?.1 (mem_bound.1 he)
  obtain ⟨-, field, found, hsound, -⟩ := (made_of_compile h).entry hi
  exact ⟨field, found, hsound⟩

/-! ## Fields are paired once -/

/-- Entries have distinct keys if those at different positions have. -/
theorem nodup_bound_map {κ : Type} {key : Entry → κ}
    (h : ∀ (i j : Nat) first second, i < j → plan.items[i]? = some (.bind first) →
      plan.items[j]? = some (.bind second) → key first ≠ key second) :
    (plan.bound.map key).Nodup := by
  rw [List.nodup_iff_pairwise_ne, List.pairwise_map, bound, List.pairwise_filterMap,
    List.pairwise_iff_getElem]
  intro i j hi hj hij first hfirst second hsecond
  refine h i j first second hij ?_ ?_
  · rw [List.getElem?_eq_getElem hi]
    cases hitem : plan.items[i] with
    | bind entry => rw [hitem] at hfirst; cases hfirst; rfl
    | skip => rw [hitem] at hfirst; cases hfirst
  · rw [List.getElem?_eq_getElem hj]
    cases hitem : plan.items[j] with
    | bind entry => rw [hitem] at hsecond; cases hsecond; rfl
    | skip => rw [hitem] at hsecond; cases hsecond

theorem nodup_messageIndex (h : compile layouts descriptors opcode layout schema = .ok plan) :
    (plan.bound.map (·.messageIndex)).Nodup := by
  refine nodup_bound_map fun i j first second hij hf hs he => ?_
  have := ((made_of_compile h).entry hf).1
  have := ((made_of_compile h).entry hs).1
  omega

theorem Made.nodup_recordIndex (h : plan.Made layouts descriptors opcode layout schema)
    (hnames : (schema.fields.map (·.name)).Nodup) :
    (plan.bound.map (·.recordIndex)).Nodup := by
  refine nodup_bound_map fun i j first second hij hf hs he => ?_
  obtain ⟨hi, field, found, hfirst, -⟩ := h.entry hf
  obtain ⟨hj, field', found', hsecond, -⟩ := h.entry hs
  have hsame := hsecond.record
  rw [← he, hfirst.record] at hsame
  cases hsame
  have := eq_of_key_eq hnames hfirst.message hsecond.message
    (hfirst.name.symm.trans hsecond.name)
  omega

theorem nodup_recordIndex (h : compile layouts descriptors opcode layout schema = .ok plan)
    (hnames : (schema.fields.map (·.name)).Nodup) : (plan.bound.map (·.recordIndex)).Nodup :=
  (made_of_compile h).nodup_recordIndex hnames

/-- Entries of different message fields meet in a place only if it is the target of both. -/
theorem target?_eq_of_place_eq (h : compile layouts descriptors opcode layout schema = .ok plan)
    {first second : Entry} (hfirst : first ∈ plan.bound) (hsecond : second ∈ plan.bound)
    (hne : first.messageIndex ≠ second.messageIndex) (he : first.place = second.place) :
    ∃ target, first.action.target? = some target ∧ second.action.target? = some target := by
  obtain ⟨_, _, hf⟩ := sound_of_mem_bound h hfirst
  obtain ⟨_, _, hs⟩ := sound_of_mem_bound h hsecond
  -- both have a target, or neither has
  have hsame : first.action.target?.isSome ↔ second.action.target?.isSome := by
    rw [← hf.repeated_place_iff, ← hs.repeated_place_iff, he]
  unfold Entry.place at he
  cases htf : first.action.target? with
  | none =>
    cases hts : second.action.target? with
    | none => exact absurd (by simpa [htf, hts] using he) hne
    | some => simp [htf, hts] at hsame
  | some target =>
    cases hts : second.action.target? with
    | none => simp [htf, hts] at hsame
    | some other => exact ⟨target, rfl, by simpa [htf, hts] using he.symm⟩

/-- Places are filled once when targets are. -/
theorem nodup_place (h : compile layouts descriptors opcode layout schema = .ok plan)
    (htargets : (plan.bound.filterMap (·.action.target?)).Nodup) :
    (plan.bound.map Entry.place).Nodup := by
  have hmessages := nodup_messageIndex h
  rw [List.nodup_iff_pairwise_ne, List.pairwise_map] at hmessages ⊢
  rw [List.nodup_iff_pairwise_ne, List.pairwise_filterMap] at htargets
  refine (hmessages.and htargets).imp_of_mem fun {first second} hfirst hsecond hne he => ?_
  obtain ⟨target, htf, hts⟩ := target?_eq_of_place_eq h hfirst hsecond hne.1 he
  exact hne.2 target htf target hts rfl

end Plan

end RecordBridge

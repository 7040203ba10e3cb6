import RecordBridge.Proofs.Registry.Plan
/-!
# Fields that a plan covers

A message field is carried when an entry reads and fills it (`Plan.Carries`), and
skipped when the plan says so under its name (`Plan.Skips`). A plan has one item
for each message field, under that field's name (`skips_iff`). The elements of an
array or a list go to the field that their opcode's descriptor names, which need not
be the field itself (`Plan.Redirects`). A field is therefore carried if it is paired
and not redirected, or if another field is redirected to it (`carries_iff`); and being
carried and being skipped go apart exactly where a redirection makes them
(`carries_iff_not_skips_iff`).
-/
namespace RecordBridge.Plan

/-- A message field that an entry reads and fills. -/
def Carries (plan : Plan) (index : Nat) : Prop :=
  ∃ entry ∈ plan.bound, entry.place = index

/-- A message field that is skipped, by its name. -/
def Skips (plan : Plan) (field : String) : Prop :=
  field ∈ plan.skipped.map Prod.fst

/-- The message field at `own` is paired, but its record field is carried in another
message field, the one at `target`. -/
def Redirects (plan : Plan) (own target : Nat) : Prop :=
  own ≠ target ∧ ∃ entry ∈ plan.bound, entry.messageIndex = own ∧ entry.place = target

instance (plan : Plan) (index : Nat) : Decidable (plan.Carries index) :=
  inferInstanceAs (Decidable (∃ entry ∈ plan.bound, _))

instance (plan : Plan) (field : String) : Decidable (plan.Skips field) :=
  inferInstanceAs (Decidable (field ∈ plan.skipped.map Prod.fst))

instance (plan : Plan) (own target : Nat) : Decidable (plan.Redirects own target) :=
  inferInstanceAs (Decidable (own ≠ target ∧ ∃ entry ∈ plan.bound, _))

variable {layouts : LayoutSet} {descriptors : List Descriptor} {opcode : UInt16} {layout : Layout}
  {schema : Schema} {plan : Plan} {index : Nat} {field : Schema.Field}

theorem skips_iff_exists {name : String} :
    plan.Skips name ↔ ∃ reason, .skip name reason ∈ plan.items := by
  simp only [Skips, skipped, List.mem_map, List.mem_filterMap]
  constructor
  · rintro ⟨⟨_, reason⟩, ⟨item, hm, hi⟩, rfl⟩
    cases item with
    | bind entry => cases hi
    | skip other cause =>
      cases hi
      exact ⟨reason, hm⟩
  · rintro ⟨reason, hm⟩
    exact ⟨(name, reason), ⟨_, hm, rfl⟩, rfl⟩

/-- A field is skipped under its own name. -/
theorem name_of_item_skip {name : String} {reason : SkipReason}
    (h : item layouts descriptors opcode layout schema field index = .ok (.skip name reason)) :
    name = field.name := by
  unfold item at h
  split at h
  · obtain ⟨result, -, h⟩ := bind_eq_ok.1 h
    cases result with
    | ok done => cases h
    | error cause =>
      cases h
      rfl
  · cases h
    rfl

/-- Fields are skipped by their own item. -/
theorem skips_iff (h : compile layouts descriptors opcode layout schema = .ok plan)
    (hnames : (schema.fields.map (·.name)).Nodup) (hf : schema.fields[index]? = some field) :
    plan.Skips field.name ↔ ∃ reason, plan.items[index]? = some (.skip field.name reason) := by
  obtain ⟨hlen, hall⟩ := made_of_compile h
  rw [skips_iff_exists]
  constructor
  · rintro ⟨reason, hm⟩
    obtain ⟨other, hother⟩ := List.mem_iff_getElem?.1 hm
    have hlt : other < schema.fields.length := hlen ▸ (List.getElem?_eq_some_iff.1 hother).1
    have hheld := List.getElem?_eq_getElem hlt
    obtain ⟨made, hmade, hitem⟩ := hall other _ hheld
    rw [hother] at hmade
    cases hmade
    have hsame := eq_of_key_eq hnames hf hheld (name_of_item_skip hitem)
    subst hsame
    exact ⟨reason, hother⟩
  · rintro ⟨reason, hi⟩
    exact ⟨reason, List.mem_of_getElem? hi⟩

/-- An entry is the item of its message field. -/
theorem mem_bound_iff (h : compile layouts descriptors opcode layout schema = .ok plan)
    {entry : Entry} : entry ∈ plan.bound ↔ plan.items[entry.messageIndex]? = some (.bind entry) := by
  constructor
  · intro he
    obtain ⟨index, hi⟩ := List.mem_iff_getElem?.1 (mem_bound.1 he)
    rwa [((made_of_compile h).entry hi).1]
  · exact fun hi => mem_bound.2 (List.mem_of_getElem? hi)

/-- A field that is not skipped is paired by an entry of its own. -/
theorem not_skips_iff (h : compile layouts descriptors opcode layout schema = .ok plan)
    (hnames : (schema.fields.map (·.name)).Nodup) (hf : schema.fields[index]? = some field) :
    ¬ plan.Skips field.name ↔ ∃ entry ∈ plan.bound, entry.messageIndex = index := by
  rw [skips_iff h hnames hf]
  constructor
  · intro hskip
    obtain ⟨made, hmade, hitem⟩ := (made_of_compile h).items index field hf
    cases made with
    | bind entry =>
      exact ⟨entry, mem_bound.2 (List.mem_of_getElem? hmade), ((made_of_compile h).entry hmade).1⟩
    | skip name reason =>
      rw [name_of_item_skip hitem] at hmade
      exact absurd ⟨reason, hmade⟩ hskip
  · rintro ⟨entry, he, rfl⟩ ⟨reason, hskip⟩
    rw [(mem_bound_iff h).1 he] at hskip
    cases hskip

/-- A field is carried by its own entry, unless that is redirected, or by that of a field
that is redirected to it. -/
theorem carries_iff (h : compile layouts descriptors opcode layout schema = .ok plan)
    (hnames : (schema.fields.map (·.name)).Nodup) (hf : schema.fields[index]? = some field) :
    plan.Carries index ↔ (¬ plan.Skips field.name ∧ ¬ ∃ target, plan.Redirects index target) ∨
      ∃ own, plan.Redirects own index := by
  rw [not_skips_iff h hnames hf]
  constructor
  · rintro ⟨entry, he, hplace⟩
    by_cases hown : entry.messageIndex = index
    · refine .inl ⟨⟨entry, he, hown⟩, ?_⟩
      rintro ⟨target, hne, other, ho, hindex, htarget⟩
      have hsame := (mem_bound_iff h).1 ho
      rw [hindex, ← hown, (mem_bound_iff h).1 he] at hsame
      cases hsame
      exact hne (hplace.symm.trans htarget)
    · exact .inr ⟨entry.messageIndex, hown, entry, he, rfl, hplace⟩
  · rintro (⟨⟨entry, he, hown⟩, hstays⟩ | ⟨own, -, entry, he, -, hplace⟩)
    · refine ⟨entry, he, ?_⟩
      by_contra hplace
      exact hstays ⟨entry.place, Ne.symm hplace, entry, he, hown, rfl⟩
    · exact ⟨entry, he, hplace⟩

/-- A field is carried or else skipped, except for one that is skipped but redirected to,
and one that is redirected while no field is redirected to it. -/
theorem carries_iff_not_skips_iff (h : compile layouts descriptors opcode layout schema = .ok plan)
    (hnames : (schema.fields.map (·.name)).Nodup) (hf : schema.fields[index]? = some field) :
    (plan.Carries index ↔ ¬ plan.Skips field.name) ↔
      ¬ (plan.Skips field.name ∧ ∃ own, plan.Redirects own index) ∧
      ¬ ((∃ target, plan.Redirects index target) ∧ ¬ ∃ own, plan.Redirects own index) := by
  have hpaired : (∃ target, plan.Redirects index target) → ¬ plan.Skips field.name := by
    rintro ⟨target, -, entry, he, hown, -⟩
    exact (not_skips_iff h hnames hf).2 ⟨entry, he, hown⟩
  rw [carries_iff h hnames hf]
  tauto

/-- A field is redirected to the one that the descriptor of its elements names. -/
theorem Redirects.named (h : compile layouts descriptors opcode layout schema = .ok plan)
    (hnames : (schema.fields.map (·.name)).Nodup) {own target : Nat}
    (hr : plan.Redirects own target) : ∃ element ∈ descriptors, ∃ name,
      element.repeatedField = some name ∧ schema.fieldIndex? name = some target := by
  obtain ⟨hne, entry, he, rfl, hplace⟩ := hr
  obtain ⟨field, found, hsound⟩ := sound_of_mem_bound h he
  cases ht : entry.action.target? with
  | none =>
    rw [Entry.place, ht, Option.getD_none] at hplace
    exact absurd hplace hne
  | some index =>
    rw [Entry.place, ht, Option.getD_some] at hplace
    subst hplace
    obtain ⟨element, helement, hindex⟩ := hsound.element ht
    cases hname : element.repeatedField with
    | none =>
      rw [hname, Option.getD_none, Schema.fieldIndex?, findIdx?_key hnames hsound.message] at hindex
      exact absurd (Option.some.inj hindex) hne
    | some name =>
      rw [hname, Option.getD_some] at hindex
      exact ⟨element, helement, name, hname, hindex⟩

end RecordBridge.Plan

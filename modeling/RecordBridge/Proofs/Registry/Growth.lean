import RecordBridge.Proofs.Registry.Carrier
import RecordBridge.Proofs.Registry.Occupied
/-!
# Adding an opcode

What a plan takes from the other descriptors is the carriers of the layouts inside its
fields, and a plan that was compiled found them all. So it is compiled again to the same
plan among more descriptors, as long as the layouts that had a carrier keep it
(`Extends`, `Plan.compile_extends`). A further descriptor leaves the carriers as they are
when it is not the first choice for its layout (`Preferred`). Then only its own row can
fail, with an error that names its opcode (`Registry.build_grows`).
-/
namespace RecordBridge

/-- The opcode that an error names. -/
def RegistryError.opcode? : RegistryError → Option UInt16
  | .duplicateOpcode opcode | .missingLayout opcode _ | .missingSchema opcode _
  | .missingNestedOpcode opcode _ _ | .missingRepeatedField opcode _ _ => some opcode
  | .layout _ | .schema _ => none

namespace Descriptor

variable {descriptors more : List Descriptor} {added found : Descriptor}

/-- A descriptor goes before another one of its layout: it names a repeated field, and
the other one does not or has a higher opcode; or neither does, and the other one has a
higher opcode. -/
def Preferred (one other : Descriptor) : Prop :=
  (one.repeatedField.isSome ∧ (¬ other.repeatedField.isSome ∨ one.opcode < other.opcode)) ∨
  (¬ one.repeatedField.isSome ∧ ¬ other.repeatedField.isSome ∧ one.opcode < other.opcode)

instance (one other : Descriptor) : Decidable (one.Preferred other) :=
  inferInstanceAs (Decidable (_ ∨ _))

/-- A descriptor is not the first choice for its layout among some. -/
def Yields (descriptors : List Descriptor) (added : Descriptor) : Prop :=
  ∃ chosen, carrier? descriptors added.layout = some chosen ∧ chosen.Preferred added

/-- Layouts that have a carrier have the same one among more descriptors. -/
def Extends (descriptors more : List Descriptor) : Prop :=
  ∀ id found, carrier? descriptors id = some found → carrier? more id = some found

/-- The choice stands when what is added comes after it. -/
theorem Chosen.cons {id : LayoutId} (h : Chosen descriptors id found)
    (hadded : added.layout = id → found.Preferred added) :
    Chosen (added :: descriptors) id found := by
  refine ⟨List.mem_cons_of_mem _ h.mem, h.layout_eq, ?_, ?_⟩
  · refine List.forall_mem_cons.2 ⟨fun hid hnamed => ?_, h.named⟩
    rcases hadded hid with ⟨hfound, -⟩ | ⟨-, hnot, -⟩
    · exact hfound
    · exact absurd hnamed hnot
  · refine List.forall_mem_cons.2 ⟨fun hid hsame => ?_, h.least⟩
    rcases hadded hid with ⟨hfound, hnot | hlt⟩ | ⟨-, -, hlt⟩
    · exact absurd (hsame.2 hfound) hnot
    · exact UInt16.le_of_lt hlt
    · exact UInt16.le_of_lt hlt

/-- A descriptor whose layout has no carrier yet, or a better one, leaves the carriers
as they are. -/
theorem extends_of_yields
    (hsorted : descriptors.Pairwise fun one other => one.opcode ≤ other.opcode)
    (hopcodes : (more.map (·.opcode)).Nodup) (hmore : more.Perm (added :: descriptors))
    (hadded : (∀ descriptor ∈ descriptors, descriptor.layout ≠ added.layout) ∨
      Yields descriptors added) : Extends descriptors (sort more) := by
  intro id found hc
  rw [carrier?_sort_iff hopcodes]
  refine Chosen.of_mem_iff (Chosen.cons (chosen_of_carrier? hsorted hc) fun hid => ?_)
    fun descriptor => hmore.mem_iff.symm
  rcases hadded with hnone | ⟨chosen, hchosen, hpreferred⟩
  · obtain ⟨hm, hlayout⟩ := mem_of_carrier? hc
    exact absurd (hlayout.trans hid.symm) (hnone found hm)
  · rw [hid, hc] at hchosen
    exact Option.some.inj hchosen ▸ hpreferred

end Descriptor

/-! ## Plans among more descriptors -/

namespace Plan

open Descriptor (Extends)

variable {layouts : LayoutSet} {descriptors more : List Descriptor} {opcode : UInt16}
  {layout : Layout} {schema : Schema} {plan : Plan}

theorem inner_extends (h : Extends descriptors more) {field : String} {id : LayoutId}
    {found : Descriptor} (hi : Descriptor.inner descriptors opcode field id = .ok found) :
    Descriptor.inner more opcode field id = .ok found :=
  inner_eq_ok_iff.2 (h id found (inner_eq_ok_iff.1 hi))

theorem action_extends (h : Extends descriptors more) {field : Schema.Field} {kind : FieldKind}
    {result : Except SkipReason (Action × Nat)}
    (ha : action layouts descriptors opcode layout schema field kind = .ok result) :
    action layouts more opcode layout schema field kind = .ok result := by
  cases kind with
  | int | bool | fixedText | ownedText | textRows => exact ha
  | nested id =>
    obtain ⟨found, hi, ha⟩ := bind_eq_ok.1 ha
    exact bind_eq_ok.2 ⟨found, inner_extends h hi, ha⟩
  | array id count =>
    obtain ⟨found, hi, ha⟩ := bind_eq_ok.1 ha
    exact bind_eq_ok.2 ⟨found, inner_extends h hi, ha⟩
  | list id =>
    rw [action] at ha ⊢
    by_cases hown : id = layout.id
    · rwa [if_pos hown] at ha ⊢
    · rw [if_neg hown] at ha ⊢
      obtain ⟨found, hi, ha⟩ := bind_eq_ok.1 ha
      exact bind_eq_ok.2 ⟨found, inner_extends h hi, ha⟩

theorem item_extends (h : Extends descriptors more) {field : Schema.Field} {index : Nat}
    {made : Item} (hi : item layouts descriptors opcode layout schema field index = .ok made) :
    item layouts more opcode layout schema field index = .ok made := by
  unfold item at hi ⊢
  split at hi
  · obtain ⟨result, ha, hi⟩ := bind_eq_ok.1 hi
    exact bind_eq_ok.2 ⟨result, action_extends h ha, hi⟩
  · exact hi

/-- A plan is compiled to the same one where layouts have the carriers that they had. -/
theorem compile_extends (h : Extends descriptors more)
    (hc : compile layouts descriptors opcode layout schema = .ok plan) :
    compile layouts more opcode layout schema = .ok plan := by
  obtain ⟨⟨hlength, hitems⟩, hsize⟩ := compile_eq_ok_iff.1 hc
  refine compile_eq_ok_iff.2 ⟨⟨hlength, fun index field hf => ?_⟩, hsize⟩
  obtain ⟨made, hmade, hitem⟩ := hitems index field hf
  exact ⟨made, hmade, item_extends h hitem⟩

/-! ### Errors -/

variable {error : RegistryError}

theorem opcode?_inner {field : String} {id : LayoutId}
    (h : Descriptor.inner descriptors opcode field id = .error error) :
    error.opcode? = some opcode := by
  unfold Descriptor.inner at h
  split at h
  · cases h
  · cases h
    rfl

theorem opcode?_target {field : String} {element : Descriptor}
    (h : Descriptor.target opcode schema field element = .error error) :
    error.opcode? = some opcode := by
  simp only [Descriptor.target] at h
  split at h
  · cases h
    rfl
  · split at h <;> cases h

theorem opcode?_action {field : Schema.Field} {kind : FieldKind}
    (hsize : kind.packedSize layouts.sizeOf < UInt64.size)
    (h : action layouts descriptors opcode layout schema field kind = .error error) :
    error.opcode? = some opcode := by
  cases kind with
  | int | bool | fixedText | ownedText | textRows =>
    obtain ⟨selected, hselected⟩ :=
      Coercion.exists_select (FieldKind.rowsFit_of_packedSize_lt hsize) field.type
    rcases bind_eq_error.1 h with hfails | ⟨held, -, h⟩
    · rw [hselected] at hfails
      cases hfails
    · cases h
  | nested id =>
    rcases bind_eq_error.1 h with hi | ⟨found, -, h⟩
    · exact opcode?_inner hi
    · split at h <;> cases h
  | array id count =>
    rcases bind_eq_error.1 h with hi | ⟨found, -, h⟩
    · exact opcode?_inner hi
    rcases bind_eq_error.1 h with ht | ⟨result, -, h⟩
    · exact opcode?_target ht
    cases result with
    | error reason => cases h
    | ok target =>
      have hfits : Size.mul count.toNat (layouts.sizeOf id) = .ok _ :=
        Size.mul_eq_ok_iff.2 ⟨rfl, hsize⟩
      rcases bind_eq_error.1 h with hfails | ⟨size, -, h⟩
      · cases (congrArg (Except.mapError RegistryError.layout) hfits).symm.trans hfails
      · cases h
  | list id =>
    rw [action] at h
    split at h
    · cases h
    rcases bind_eq_error.1 h with hi | ⟨found, -, h⟩
    · exact opcode?_inner hi
    rcases bind_eq_error.1 h with ht | ⟨target, -, h⟩
    · exact opcode?_target ht
    · cases h

theorem opcode?_item (hsize : layout.packedSize layouts.sizeOf < UInt64.size)
    {field : Schema.Field} {index : Nat}
    (h : item layouts descriptors opcode layout schema field index = .error error) :
    error.opcode? = some opcode := by
  unfold item at h
  split at h
  · next found _ hfound =>
    have hm := (mem_of_find?_key hfound).1
    rcases bind_eq_error.1 h with ha | ⟨result, -, h⟩
    · exact opcode?_action ((Layout.packedSize_field_le hm).trans_lt hsize) ha
    · cases result <;> cases h
  · cases h

/-- What keeps a plan from being compiled is an error of its opcode, if 64 bits hold the
bytes of the layout. -/
theorem opcode?_compile (hsize : layout.packedSize layouts.sizeOf < UInt64.size)
    (hnames : (schema.fields.map (·.name)).Nodup)
    (h : compile layouts descriptors opcode layout schema = .error error) :
    error.opcode? = some opcode := by
  rcases bind_eq_error.1 h with hitems | ⟨items, hitems, h⟩
  · obtain ⟨pair, -, hitem⟩ := exists_of_mapM_eq_error hitems
    exact opcode?_item hsize hitem
  · have hmade := mapM_item_eq_ok_iff.1 hitems
    dsimp only at h
    rw [Size.fit_eq_ok_iff.2 ⟨rfl, (hmade.occupied_le hnames).trans_lt hsize⟩] at h
    cases h

end Plan

namespace Descriptor

variable {layouts : LayoutSet} {schemas : SchemaSet} {descriptors more : List Descriptor}
  {descriptor : Descriptor} {error : RegistryError}

theorem row_extends (h : Extends descriptors more) {row : Registry.Row}
    (hr : descriptor.row layouts schemas descriptors = .ok row) :
    descriptor.row layouts schemas more = .ok row := by
  obtain ⟨hrow, layout, schema, hl, hs, hc⟩ := row_eq_ok_iff.1 hr
  exact row_eq_ok_iff.2 ⟨hrow, layout, schema, hl, hs, Plan.compile_extends h hc⟩

theorem opcode?_row (hl : layouts.Sound) (hs : schemas.Sound)
    (h : descriptor.row layouts schemas descriptors = .error error) :
    error.opcode? = some descriptor.opcode := by
  unfold row at h
  dsimp only at h
  split at h
  · next layout schema hlayout hschema =>
    rcases bind_eq_error.1 h with hc | ⟨plan, -, h⟩
    · refine Plan.opcode?_compile (hl.byteSize?_eq (LayoutSet.mem_of_get? hlayout).1).2 ?_ hc
      exact (hs.fields schema (mem_of_find?_key hschema).1).names
    · cases h
  · cases h
    rfl
  · cases h
    rfl

/-- The check of descriptors with distinct opcodes fails at one whose layout or schema is
unknown. -/
theorem exists_of_check_eq_error : ∀ {descriptors : List Descriptor} {seen : List UInt16},
    (descriptors.map (·.opcode)).Nodup → (∀ descriptor ∈ descriptors, descriptor.opcode ∉ seen) →
    check layouts schemas seen descriptors = .error error →
    ∃ descriptor ∈ descriptors, error.opcode? = some descriptor.opcode ∧
      ¬ (layouts.contains descriptor.layout ∧ schemas.contains descriptor.schema)
  | [], seen, _, _, h => by cases h
  | descriptor :: rest, seen, hopcodes, hseen, h => by
    obtain ⟨hnew, hrest⟩ := List.nodup_cons.1 hopcodes
    obtain ⟨hfirst, hseen⟩ := List.forall_mem_cons.1 hseen
    rw [check, guard_eq_error, guard_eq_error, guard_eq_error] at h
    rcases h with ⟨hmem, -⟩ | ⟨-, ⟨hlayout, rfl⟩ | ⟨-, ⟨hschema, rfl⟩ | ⟨-, h⟩⟩⟩
    · exact absurd hmem hfirst
    · exact ⟨descriptor, List.mem_cons_self, rfl, fun hknown => by simp [hknown.1] at hlayout⟩
    · exact ⟨descriptor, List.mem_cons_self, rfl, fun hknown => by simp [hknown.2] at hschema⟩
    · have hapart : ∀ other ∈ rest, other.opcode ∉ descriptor.opcode :: seen := by
        intro other ho hin
        rcases List.mem_cons.1 hin with he | hin
        · exact hnew (List.mem_map.2 ⟨other, ho, he⟩)
        · exact hseen other ho hin
      obtain ⟨found, hm, hfound⟩ := exists_of_check_eq_error hrest hapart h
      exact ⟨found, List.mem_cons_of_mem _ hm, hfound⟩

end Descriptor

/-! ## Registries with more descriptors -/

namespace Registry

variable {registry grown : Registry} {layouts : LayoutSet} {schemas : SchemaSet}
  {more : List Descriptor}

/-- A registry is not built when a descriptor has no row, with an error of its opcode. -/
theorem exists_of_build_eq_error {error : RegistryError} (hl : layouts.Sound) (hs : schemas.Sound)
    (hopcodes : (more.map (·.opcode)).Nodup) (h : build layouts schemas more = .error error) :
    ∃ descriptor ∈ more, error.opcode? = some descriptor.opcode ∧
      ∀ row, descriptor.row layouts schemas (Descriptor.sort more) ≠ .ok row := by
  rcases bind_eq_error.1 h with hcheck | ⟨-, -, h⟩
  · obtain ⟨descriptor, hm, hopcode, hunknown⟩ := Descriptor.exists_of_check_eq_error
      (Descriptor.nodup_sort_iff.2 hopcodes) (by simp) hcheck
    refine ⟨descriptor, Descriptor.mem_sort.1 hm, hopcode, fun row hrow => hunknown ?_⟩
    obtain ⟨-, layout, schema, hl, hs, -⟩ := Descriptor.row_eq_ok_iff.1 hrow
    exact ⟨Option.isSome_of_eq_some hl, Option.isSome_of_eq_some hs⟩
  · rcases bind_eq_error.1 h with hrows | ⟨rows, -, h⟩
    · obtain ⟨descriptor, hm, hrow⟩ := exists_of_mapM_eq_error hrows
      refine ⟨descriptor, Descriptor.mem_sort.1 hm, Descriptor.opcode?_row hl hs hrow, ?_⟩
      rw [hrow]
      exact nofun
    · cases h

/-- A registry that was built has the rows of its descriptors. -/
theorem row?_of_build (h : build layouts schemas more = .ok grown) {row : Row}
    (hm : row.descriptor ∈ more)
    (hrow : row.descriptor.row layouts schemas (Descriptor.sort more) = .ok row) :
    grown.row? row.descriptor.opcode = some row := by
  obtain ⟨-, -, hdescriptors, hopcodes, hrows⟩ := build_eq_ok h
  have hmem : row.descriptor ∈ grown.descriptors := hdescriptors ▸ Descriptor.mem_sort.2 hm
  obtain ⟨held, hheld, he⟩ := List.mem_map.1 hmem
  have hmade := hrows held hheld
  rw [he, hdescriptors, hrow] at hmade
  obtain rfl := Except.ok.inj hmade
  rw [Registry.descriptors, List.map_map] at hopcodes
  exact find?_key hopcodes hheld

theorem descriptor?_of_build (h : build layouts schemas more = .ok grown)
    {descriptor : Descriptor} (hm : descriptor ∈ more) :
    grown.descriptor? descriptor.opcode = some descriptor := by
  obtain ⟨-, -, hdescriptors, -, hrows⟩ := build_eq_ok h
  have hmem : descriptor ∈ grown.descriptors := hdescriptors ▸ Descriptor.mem_sort.2 hm
  obtain ⟨row, hrow, rfl⟩ := List.mem_map.1 hmem
  have hmade := hrows row hrow
  rw [hdescriptors] at hmade
  rw [descriptor?, row?_of_build h hm hmade, Option.map_some]

/-- The opcodes of a registry and a new one are distinct. -/
theorem nodup_cons_descriptors (hopcodes : (registry.descriptors.map (·.opcode)).Nodup)
    {added : Descriptor} (hnew : registry.descriptor? added.opcode = none) :
    ((added :: registry.descriptors).map (·.opcode)).Nodup := by
  rw [List.map_cons, List.nodup_cons]
  refine ⟨fun hmem => ?_, hopcodes⟩
  obtain ⟨held, hheld, he⟩ := List.mem_map.1 hmem
  obtain ⟨row, hrow, rfl⟩ := List.mem_map.1 hheld
  simp only [descriptor?, row?, Option.map_eq_none_iff, List.find?_eq_none] at hnew
  exact hnew row hrow (beq_iff_eq.2 he)

/-- Building a registry with one more descriptor fails with an error of its opcode, or all
opcodes keep their descriptors and plans, unless it takes over a layout that had a carrier. -/
theorem build_grows {layoutList : List Layout} {schemaList : List Schema}
    {descriptors : List Descriptor} (hreg : ofLists layoutList schemaList descriptors = .ok registry)
    {added : Descriptor} (hnew : registry.descriptor? added.opcode = none)
    (hadded : (∀ descriptor ∈ registry.descriptors, descriptor.layout ≠ added.layout) ∨
      Descriptor.Yields registry.descriptors added)
    (hmore : more.Perm (added :: registry.descriptors)) :
    (∃ error, ofLists layoutList schemaList more = .error error ∧
      error.opcode? = some added.opcode) ∨
    ∃ grown, ofLists layoutList schemaList more = .ok grown ∧
      grown.layouts = registry.layouts ∧ grown.schemas = registry.schemas ∧
      grown.descriptor? added.opcode = some added ∧
      ∀ opcode descriptor plan, registry.descriptor? opcode = some descriptor →
        registry.plan? opcode = some plan →
        grown.descriptor? opcode = some descriptor ∧ grown.plan? opcode = some plan := by
  simp only [ofLists, bind_eq_ok, mapError_eq_ok] at hreg
  obtain ⟨layouts, hl, schemas, hs, hbuild⟩ := hreg
  have hlists : ofLists layoutList schemaList more = build layouts schemas more := by
    rw [ofLists, hl, hs]
    rfl
  obtain ⟨hlayouts, hschemas, hsorted, hopcodes, hrows⟩ := build_eq_ok hbuild
  have hapart : (more.map (·.opcode)).Nodup :=
    (hmore.map _).nodup_iff.2 (nodup_cons_descriptors hopcodes hnew)
  have hextends := Descriptor.extends_of_yields (hsorted ▸ Descriptor.sort_pairwise _) hapart
    hmore hadded
  -- the rows of the registry are made among more descriptors as well
  have hkept : ∀ row ∈ registry.rows, row.descriptor ∈ more ∧
      row.descriptor.row layouts schemas (Descriptor.sort more) = .ok row := by
    intro row hrow
    refine ⟨hmore.mem_iff.2 (List.mem_cons_of_mem _ (List.mem_map_of_mem hrow)), ?_⟩
    exact Descriptor.row_extends hextends (hrows row hrow)
  rw [hlists]
  cases hmade : build layouts schemas more with
  | error error =>
    obtain ⟨descriptor, hm, hopcode, hnone⟩ := exists_of_build_eq_error
      (LayoutSet.sound_of_ofList hl).2 (SchemaSet.sound_of_ofList hs) hapart hmade
    refine .inl ⟨error, rfl, ?_⟩
    rcases List.mem_cons.1 (hmore.mem_iff.1 hm) with rfl | hheld
    · exact hopcode
    · obtain ⟨row, hrow, rfl⟩ := List.mem_map.1 hheld
      exact absurd (hkept row hrow).2 (hnone row)
  | ok grown =>
    obtain ⟨hlayouts', hschemas', -⟩ := build_eq_ok hmade
    refine .inr ⟨grown, rfl, hlayouts'.trans hlayouts.symm, hschemas'.trans hschemas.symm, ?_,
      fun opcode descriptor plan hd hp => ?_⟩
    · exact descriptor?_of_build hmade (hmore.mem_iff.2 List.mem_cons_self)
    · obtain ⟨row, hrow, rfl⟩ := Option.map_eq_some_iff.1 hd
      rw [plan?, hrow, Option.map_some] at hp
      obtain ⟨hm, rfl⟩ := mem_of_find?_key hrow
      obtain ⟨hmem, hmaderow⟩ := hkept row hm
      rw [descriptor?, plan?, row?_of_build hmade hmem hmaderow]
      exact ⟨rfl, hp⟩

/-! ### A further opcode for crates -/

/-- Opcode 3 carries crates, all of them to the load of the wagons of opcode 5. -/
def loadRegistry : Registry where
  layouts := wagonRegistry.layouts
  schemas := wagonRegistry.schemas
  rows := [⟨⟨3, "crate", "Crate", some "load"⟩,
      ⟨[.skip "next" .ownLink, .bind ⟨1, 0, .scalar (.int 2 false), 2⟩]⟩⟩,
    ⟨⟨5, "wagon", "Wagon", none⟩,
      ⟨[.bind ⟨0, 3, .list 3 3, 8⟩, .skip "label" .typeMismatch, .skip "owner" .missingField,
        .bind ⟨3, 1, .array 3 3 3, 30⟩]⟩⟩]

/-- A lower opcode for crates does not take them over unless it names a repeated field. -/
theorem build_grows_load :
    ofLists wagonLayouts wagonSchemas loadRegistry.descriptors = .ok loadRegistry ∧
    Descriptor.Yields loadRegistry.descriptors ⟨1, "crate", "Crate", none⟩ ∧
    (∃ grown, ofLists wagonLayouts wagonSchemas
        (⟨1, "crate", "Crate", none⟩ :: loadRegistry.descriptors) = .ok grown ∧
      grown.descriptor? 1 = some ⟨1, "crate", "Crate", none⟩ ∧
      grown.plan? 5 = loadRegistry.plan? 5) ∧
    ∃ plan, (ofLists wagonLayouts wagonSchemas (⟨1, "crate", "Crate", some "waiting"⟩ ::
        loadRegistry.descriptors)).toOption.bind (·.plan? 5) = some plan ∧
      loadRegistry.plan? 5 ≠ some plan := by
  have hreg : ofLists wagonLayouts wagonSchemas loadRegistry.descriptors = .ok loadRegistry := by
    cbv
  have hyields : Descriptor.Yields loadRegistry.descriptors ⟨1, "crate", "Crate", none⟩ :=
    ⟨⟨3, "crate", "Crate", some "load"⟩, rfl, by decide⟩
  have hbuilt : (ofLists wagonLayouts wagonSchemas
      (⟨1, "crate", "Crate", none⟩ :: loadRegistry.descriptors)).isOk := by cbv
  refine ⟨hreg, hyields, ?_, ?_⟩
  · rcases build_grows hreg rfl (.inr hyields) (.refl _) with ⟨error, herror, -⟩ | hgrown
    · rw [herror] at hbuilt
      cases hbuilt
    · obtain ⟨grown, hmade, -, -, hadded, hsame⟩ := hgrown
      exact ⟨grown, hmade, hadded, (hsame 5 _ _ rfl rfl).2⟩
  · have htaken : ((ofLists wagonLayouts wagonSchemas
        (⟨1, "crate", "Crate", some "waiting"⟩ :: loadRegistry.descriptors)).toOption.bind
          (·.plan? 5)) = some ⟨[.bind ⟨0, 3, .list 1 0, 8⟩, .skip "label" .typeMismatch,
        .skip "owner" .missingField, .bind ⟨3, 1, .array 1 3 0, 30⟩]⟩ := by cbv
    exact ⟨_, htaken, by decide⟩

end Registry

end RecordBridge

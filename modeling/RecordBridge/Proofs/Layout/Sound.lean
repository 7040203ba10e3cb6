import RecordBridge.Proofs.Layout.Size
/-!
# Sound layout sets

What `LayoutSet.ofList` lets through (`sound_of_ofList`): layouts with distinct
names, whose fields have distinct names and usable sizes and refer to layouts of
the list; at most one link a layout, and one where lists need it; a ranking in
which every layout comes before those it contains by value; and sizes within 64 bits.
-/
namespace RecordBridge

namespace Layout

/-- The sizes of a field are not zero and its layouts exist; the nodes of a list
have a link. -/
def KindSound (layouts : List Layout) : FieldKind → Prop
  | .int width _ => width ≠ 0 ∧ width ≤ 8
  | .nested id => (find? layouts id).isSome
  | .array id count => (find? layouts id).isSome ∧ count ≠ 0
  | .list id => ∃ node, find? layouts id = some node ∧ node.linkIndex?.isSome
  | kind => kind.textLength? ≠ some 0

/-- Fields are named apart and of sound kinds, and at most one is the link. -/
structure FieldsSound (layouts : List Layout) (layout : Layout) : Prop where
  names : (layout.fields.map (·.name)).Nodup
  kinds : ∀ field ∈ layout.fields, KindSound layouts field.kind
  links : layout.fields.countP layout.isLink ≤ 1

/-- Every layout comes before those it contains by value. -/
inductive Ranked : List Layout → Prop where
  | nil : Ranked []
  | cons {layout : Layout} {rest : List Layout}
      (embedded : ∀ field ∈ layout.fields, ∀ id, field.kind.embedded? = some id →
        (find? rest id).isSome)
      (ranked : Ranked rest) : Ranked (layout :: rest)

end Layout

/-- Layouts are named apart and have sound fields, and all of them are ranked. The rows of
their texts are within 64 bits. -/
structure LayoutSet.Sound (set : LayoutSet) : Prop where
  ids : (set.layouts.map (·.id)).Nodup
  named : ∀ layout ∈ set.layouts, layout.id ≠ ""
  fields : ∀ layout ∈ set.layouts, Layout.FieldsSound set.layouts layout
  ranked : Layout.Ranked set.ranked
  ranks : ∀ layout ∈ set.layouts, (Layout.find? set.ranked layout.id).isSome
  mem_of_ranked : ∀ layout ∈ set.ranked, layout ∈ set.layouts
  rows : ∀ layout ∈ set.layouts, ∀ field ∈ layout.fields, field.kind.RowsFit

namespace Layout

/-! ## Names and fields -/

theorem checkIds_eq_ok_iff : ∀ {layouts : List Layout} {seen : List LayoutId},
    checkIds seen layouts = .ok () ↔ (layouts.map (·.id)).Nodup ∧
      (∀ layout ∈ layouts, layout.id ≠ "") ∧ ∀ layout ∈ layouts, layout.id ∉ seen
  | [], seen => by simp [checkIds]
  | layout :: rest, seen => by
    have ih := @checkIds_eq_ok_iff rest (layout.id :: seen)
    simp only [checkIds]
    by_cases he : layout.id = ""
    · simp [he]
    by_cases hs : layout.id ∈ seen
    · simp [he, hs]
    rw [if_neg he, if_neg hs, ih]
    simp only [List.map_cons, List.nodup_cons, List.mem_map, List.forall_mem_cons]
    constructor
    · rintro ⟨hn, hne, hnot⟩
      exact ⟨⟨fun ⟨a, ha, hk⟩ => hnot a ha (by simp [hk]), hn⟩, ⟨he, hne⟩, hs,
        fun a ha hm => hnot a ha (List.mem_cons_of_mem _ hm)⟩
    · rintro ⟨⟨hn, hd⟩, ⟨-, hne⟩, -, hnot⟩
      refine ⟨hd, hne, fun a ha hm => ?_⟩
      rcases List.mem_cons.1 hm with hk | hm
      · exact hn ⟨a, ha, hk⟩
      · exact hnot a ha hm

theorem checkKind_eq_ok_iff {layouts : List Layout} {id : LayoutId} {field : Field} :
    checkKind layouts id field = .ok () ↔ KindSound layouts field.kind := by
  unfold checkKind KindSound
  cases field.kind with
  | int width signed => simp
  | bool | ownedText => simp [FieldKind.textLength?]
  | fixedText | textRows => simp
  | nested inner => cases h : find? layouts inner <;> simp [h]
  | array inner count => cases h : find? layouts inner <;> simp [h]
  | list inner =>
    cases h : find? layouts inner with
    | none => simp [h]
    | some node => simp [h, Option.isSome_iff_ne_none]

theorem checkFields_eq_ok_iff {layouts : List Layout} {id : LayoutId} :
    ∀ {fields : List Field} {seen : List String},
    checkFields layouts id seen fields = .ok () ↔ (fields.map (·.name)).Nodup ∧
      (∀ field ∈ fields, KindSound layouts field.kind) ∧ ∀ field ∈ fields, field.name ∉ seen
  | [], seen => by simp [checkFields]
  | field :: rest, seen => by
    have ih := @checkFields_eq_ok_iff layouts id rest (field.name :: seen)
    rw [checkFields, guard_eq_ok, check_bind_eq_ok]
    simp only [checkKind_eq_ok_iff, ih, List.map_cons, List.nodup_cons, List.mem_map,
      List.forall_mem_cons]
    constructor
    · rintro ⟨hs, hk, hn, hks, hnot⟩
      exact ⟨⟨fun ⟨a, ha, he⟩ => hnot a ha (by simp [he]), hn⟩, ⟨hk, hks⟩, hs,
        fun a ha hm => hnot a ha (List.mem_cons_of_mem _ hm)⟩
    · rintro ⟨⟨hn, hd⟩, ⟨hk, hks⟩, hs, hnot⟩
      refine ⟨hs, hk, hd, hks, fun a ha hm => ?_⟩
      rcases List.mem_cons.1 hm with he | hm
      · exact hn ⟨a, ha, he⟩
      · exact hnot a ha hm

theorem check_eq_ok_iff {layouts : List Layout} {layout : Layout} :
    check layouts layout = .ok () ↔ FieldsSound layouts layout := by
  rw [check, check_bind_eq_ok, checkFields_eq_ok_iff]
  by_cases h : 1 < layout.fields.countP layout.isLink
  · simp only [h, if_true, throw_ne_ok, and_false, false_iff]
    exact fun hs => absurd hs.links (by omega)
  · simp only [h, if_false, pure_eq_ok, and_true, List.not_mem_nil, not_false_eq_true,
      implies_true]
    constructor
    · rintro ⟨hn, hk⟩
      exact ⟨hn, hk, by omega⟩
    · exact fun hs => ⟨hs.names, hs.kinds⟩

/-! ## The ranking -/

theorem isSome_find?_iff {layouts : List Layout} {id : LayoutId} :
    (find? layouts id).isSome ↔ ∃ layout ∈ layouts, layout.id = id :=
  isSome_find?_key

/-- What ranking some of `source` does to the layouts ranked before. -/
structure Grows (source before after : List Layout) : Prop where
  ranked : Ranked before → Ranked after
  kept : ∀ layout ∈ before, layout ∈ after
  mem : ∀ layout ∈ after, layout ∈ before ∨ layout ∈ source

namespace Grows

variable {source before middle after : List Layout}

theorem refl (source before : List Layout) : Grows source before before :=
  ⟨fun h => h, fun _ h => h, fun _ h => .inl h⟩

theorem trans (h : Grows source before middle) (h' : Grows source middle after) :
    Grows source before after := by
  refine ⟨fun hr => h'.ranked (h.ranked hr), fun l hl => h'.kept l (h.kept l hl), fun l hl => ?_⟩
  rcases h'.mem l hl with hm | hs
  · exact h.mem l hm
  · exact .inr hs

theorem mono {fewer : List Layout} (h : Grows fewer before after)
    (hs : ∀ layout ∈ fewer, layout ∈ source) : Grows source before after :=
  ⟨h.ranked, h.kept, fun l hl => (h.mem l hl).imp_right (hs l)⟩

/-- A layout whose contents are ranked may go before all of them. -/
theorem cons {layout : Layout} (h : Grows source before after) (hs : layout ∈ source)
    (hin : ∀ field ∈ layout.fields, ∀ id, field.kind.embedded? = some id →
      (find? after id).isSome) : Grows source before (layout :: after) := by
  refine ⟨fun hr => .cons hin (h.ranked hr), fun l hl => List.mem_cons_of_mem _ (h.kept l hl),
    fun l hl => ?_⟩
  rcases List.mem_cons.1 hl with rfl | hl
  · exact .inr hs
  · exact h.mem l hl

theorem isSome_find? (h : Grows source before after) {id : LayoutId}
    (hid : (find? before id).isSome) : (find? after id).isSome := by
  obtain ⟨layout, hm, he⟩ := isSome_find?_iff.1 hid
  exact isSome_find?_iff.2 ⟨layout, h.kept layout hm, he⟩

/-- Steps that each rank what they are asked for rank all of it. -/
theorem of_foldlM {α : Type} {f : List Layout → α → Except LayoutError (List Layout)}
    {wants : α → LayoutId → Prop}
    (hf : ∀ before a after, f before a = .ok after →
      Grows source before after ∧ ∀ id, wants a id → (find? after id).isSome) :
    ∀ {items : List α} {before after : List Layout}, items.foldlM f before = .ok after →
      Grows source before after ∧
        ∀ a ∈ items, ∀ id, wants a id → (find? after id).isSome
  | [], before, after, h => by
    rw [List.foldlM_nil, pure_eq_ok] at h
    subst h
    exact ⟨.refl source before, fun _ ha => absurd ha List.not_mem_nil⟩
  | a :: items, before, after, h => by
    rw [List.foldlM_cons, bind_eq_ok] at h
    obtain ⟨middle, hm, h⟩ := h
    obtain ⟨hgrow, hwant⟩ := hf before a middle hm
    obtain ⟨hrest, hwants⟩ := of_foldlM hf h
    refine ⟨hgrow.trans hrest, List.forall_mem_cons.2 ⟨fun id hid => ?_, hwants⟩⟩
    exact hrest.isSome_find? (hwant id hid)

end Grows

/-- Ranking a layout ranks it and what it contains, after what was ranked before. -/
theorem grows_of_rank : ∀ {waiting ranked after : List Layout} {id : LayoutId},
    rank waiting ranked id = .ok after →
    Grows waiting ranked after ∧ (find? after id).isSome
  | waiting, ranked, after, id, h => by
    rw [rank] at h
    by_cases hr : (find? ranked id).isSome
    · rw [if_pos hr] at h
      cases h
      exact ⟨.refl waiting ranked, hr⟩
    rw [if_neg hr] at h
    split at h
    · cases h
    · next layout hw =>
      obtain ⟨hmem, hid⟩ := mem_of_find?_key hw
      obtain ⟨middle, hfold, h⟩ := bind_eq_ok.1 h
      cases h
      have hless : (waiting.eraseP (·.id == id)).length < waiting.length := by
        have : (waiting.eraseP (·.id == id)).length = waiting.length - 1 :=
          List.length_eraseP_of_mem hmem (by simpa using hid)
        have := List.length_pos_of_mem hmem
        omega
      obtain ⟨hgrow, hin⟩ : Grows waiting ranked middle ∧ ∀ field ∈ layout.fields,
          ∀ inner, field.kind.embedded? = some inner → (find? middle inner).isSome := by
        refine Grows.of_foldlM (fun before field after hf => ?_) hfold
        cases he : field.kind.embedded? with
        | none =>
          rw [he] at hf
          cases hf
          exact ⟨.refl waiting before, fun inner hi => by cases hi⟩
        | some nested =>
          rw [he] at hf
          obtain ⟨hgrow, hsome⟩ := grows_of_rank hf
          refine ⟨hgrow.mono fun l hl => List.mem_of_mem_eraseP hl, fun inner hi => ?_⟩
          cases hi
          exact hsome
      exact ⟨hgrow.cons hmem hin, isSome_find?_iff.2 ⟨layout, List.mem_cons_self, hid⟩⟩
termination_by waiting => waiting.length

/-- Ranking all layouts ranks each of them. -/
theorem grows_of_ranking {layouts ranked : List Layout}
    (h : layouts.foldlM (fun ranked layout => rank layouts ranked layout.id) [] = .ok ranked) :
    Grows layouts [] ranked ∧ ∀ layout ∈ layouts, (find? ranked layout.id).isSome := by
  have hstep : ∀ before (layout : Layout) after, rank layouts before layout.id = .ok after →
      Grows layouts before after ∧ ∀ id, layout.id = id → (find? after id).isSome := by
    intro before layout after hr
    obtain ⟨hgrow, hsome⟩ := grows_of_rank hr
    exact ⟨hgrow, fun _ he => he ▸ hsome⟩
  obtain ⟨hgrow, hall⟩ := Grows.of_foldlM hstep h
  exact ⟨hgrow, fun layout hl => hall layout hl layout.id rfl⟩

end Layout

namespace LayoutSet

/-- A list of layouts is accepted as a set when the checks pass and the layouts can be
ranked, and what was ranked has its sizes. -/
theorem ofList_eq_ok_iff {layouts : List Layout} {set : LayoutSet} : ofList layouts = .ok set ↔
    Layout.checkIds [] layouts = .ok () ∧ layouts.forM (Layout.check layouts) = .ok () ∧
      layouts.foldlM (fun ranked layout => Layout.rank layouts ranked layout.id) [] =
        .ok set.ranked ∧ set.layouts = layouts := by
  rw [ofList, check_bind_eq_ok, check_bind_eq_ok, bind_eq_ok]
  refine and_congr_right fun _ => and_congr_right fun _ => ?_
  constructor
  · rintro ⟨ranked, hrank, h⟩
    split at h
    · cases h
    · cases h
      exact ⟨hrank, rfl⟩
  · obtain ⟨held, ranked, sizes, hsizes⟩ := set
    rintro ⟨hrank, rfl⟩
    refine ⟨ranked, hrank, ?_⟩
    split
    · next h => cases hsizes.symm.trans h
    · next h =>
      cases hsizes.symm.trans h
      rfl

/-- Accepted layouts are sound, and are kept as they are. -/
theorem sound_of_ofList {layouts : List Layout} {set : LayoutSet}
    (h : ofList layouts = .ok set) : set.layouts = layouts ∧ set.Sound := by
  obtain ⟨hids, hfields, hrank, hlayouts⟩ := ofList_eq_ok_iff.1 h
  rw [← hlayouts] at hids hfields hrank
  obtain ⟨hd, hne, -⟩ := Layout.checkIds_eq_ok_iff.1 hids
  obtain ⟨hgrow, hall⟩ := Layout.grows_of_ranking hrank
  have hmem : ∀ layout ∈ set.ranked, layout ∈ set.layouts := fun layout hl =>
    (hgrow.mem layout hl).resolve_left List.not_mem_nil
  refine ⟨hlayouts, hd, hne, fun layout hl => ?_, hgrow.ranked .nil, fun layout hl => ?_, hmem,
    fun layout hl => ?_⟩
  · exact Layout.check_eq_ok_iff.1 (forM_eq_ok.1 hfields layout hl)
  · exact hall layout hl
  · obtain ⟨found, hr, hid⟩ := Layout.isSome_find?_iff.1 (hall layout hl)
    obtain rfl := List.inj_on_of_nodup_map hd (hmem found hr) hl hid
    exact Layout.rowsFit_of_sizeTable set.sizes_eq found hr

variable {set : LayoutSet} {layout : Layout} {id : LayoutId}

theorem mem_of_get? (h : set.get? id = some layout) : layout ∈ set.layouts ∧ layout.id = id :=
  mem_of_find?_key h

namespace Sound

theorem get?_id (hset : set.Sound) (h : layout ∈ set.layouts) :
    set.get? layout.id = some layout :=
  find?_key hset.ids h

/-- Layouts of one name are one. -/
theorem eq_of_id_eq (hset : set.Sound) {other : Layout} (h : layout ∈ set.layouts)
    (h' : other ∈ set.layouts) (hid : layout.id = other.id) : layout = other := by
  have := hset.get?_id h
  rw [hid, hset.get?_id h'] at this
  exact (Option.some.inj this).symm

end Sound

end LayoutSet

end RecordBridge

import RecordBridge.Proofs.Layout.Sound
/-!
# Containment by value

A layout contains another one by value when it embeds a record of it, alone or in
an array (`Contains`). Ranking succeeds when no layout contains itself, at any
depth (`exists_rank`), and ranked layouts do not (`acc_contains`). Sizes follow
containment: the size of a ranked layout is the sum over its fields, whatever the
order the layouts were ranked in (`lookup_sizeTable`, `LayoutSet.Sound.byteSize?_eq`),
and there is one if that sum is within 64 bits for each of them (`exists_sizeTable`).
-/
namespace RecordBridge

/-- The kinds of fields that hold records by value. -/
theorem FieldKind.embedded?_eq_some_iff {kind : FieldKind} {id : LayoutId} :
    kind.embedded? = some id ↔ kind = .nested id ∨ ∃ count, kind = .array id count := by
  cases kind <;> simp [embedded?]

/-- Two ways to size embedded layouts agree on a field when they agree on what it embeds. -/
theorem FieldKind.packedSize_congr {kind : FieldKind} {one other : LayoutId → Nat}
    (h : ∀ id, kind.embedded? = some id → one id = other id) :
    kind.packedSize one = kind.packedSize other := by
  cases kind with
  | nested id | array id count => simp [packedSize, h id rfl]
  | _ => rfl

namespace Layout

/-- The layout `outer` has a record of `inner` in a field, alone or in an array. -/
def Contains (layouts : List Layout) (outer inner : LayoutId) : Prop :=
  ∃ layout ∈ layouts, layout.id = outer ∧ ∃ field ∈ layout.fields,
    field.kind = .nested inner ∨ ∃ count, field.kind = .array inner count

variable {layouts : List Layout}

/-- What the one layout of a name contains is embedded in its fields. -/
theorem contains_iff (hids : (layouts.map (·.id)).Nodup) {layout : Layout}
    (hl : layout ∈ layouts) {inner : LayoutId} : Contains layouts layout.id inner ↔
      ∃ field ∈ layout.fields, field.kind.embedded? = some inner := by
  simp only [Contains, ← FieldKind.embedded?_eq_some_iff]
  constructor
  · rintro ⟨found, hm, hid, hfield⟩
    obtain rfl := List.inj_on_of_nodup_map hids hm hl hid
    exact hfield
  · exact fun hfield => ⟨layout, hl, rfl, hfield⟩

/-! ## Ranking -/

/-- Ranking a layout succeeds if all layouts not waiting contain it: it cannot be one
of them without containing itself. -/
theorem exists_rank (hacyclic : ∀ id, ¬ Relation.TransGen (Contains layouts) id id)
    (hknown : ∀ outer inner, Contains layouts outer inner → ∃ layout ∈ layouts, layout.id = inner) :
    ∀ {waiting ranked : List Layout} {id : LayoutId}, (∃ layout ∈ layouts, layout.id = id) →
      (∀ layout ∈ waiting, layout ∈ layouts) →
      (∀ layout ∈ layouts, layout ∉ waiting → Relation.TransGen (Contains layouts) layout.id id) →
      ∃ after, rank waiting ranked id = .ok after
  | waiting, ranked, id, hid, hsub, hentered => by
    rw [rank]
    by_cases hr : (find? ranked id).isSome
    · exact ⟨ranked, if_pos hr⟩
    rw [if_neg hr]
    split
    · next hnone =>
      obtain ⟨layout, hl, rfl⟩ := hid
      have hnot : layout ∉ waiting := fun hw => List.find?_eq_none.1 hnone layout hw (by simp)
      exact absurd (hentered layout hl hnot) (hacyclic layout.id)
    · next layout hw =>
      obtain ⟨hmem, rfl⟩ := mem_of_find?_key hw
      have hless : (waiting.eraseP (·.id == layout.id)).length < waiting.length := by
        have := List.length_eraseP_of_mem (p := (·.id == layout.id)) hmem (by simp)
        have := List.length_pos_of_mem hmem
        omega
      refine exists_bind_ok_iff.2 ((exists_foldlM_ok fun before field hf => ?_).imp fun after ha =>
        ⟨ha, _, rfl⟩)
      cases he : field.kind.embedded? with
      | none => exact ⟨before, rfl⟩
      | some inner =>
        -- one level down the layout is entered as well, and contains what is ranked next
        have hin : Contains layouts layout.id inner :=
          ⟨layout, hsub layout hmem, rfl, field, hf, FieldKind.embedded?_eq_some_iff.1 he⟩
        refine exists_rank hacyclic hknown (hknown _ _ hin)
          (fun other ho => hsub other (List.mem_of_mem_eraseP ho)) fun other ho hnot => ?_
        by_cases heq : other.id = layout.id
        · exact heq ▸ .single hin
        · have hwait : other ∉ waiting := fun hm =>
            hnot ((List.mem_eraseP_of_neg (by simpa using heq)).2 hm)
          exact (hentered other ho hwait).tail hin
termination_by waiting => waiting.length

/-- What a ranked layout embeds is ranked. -/
theorem Ranked.isSome_find? {ranked : List Layout} (h : Ranked ranked) {layout : Layout}
    (hl : layout ∈ ranked) {field : Field} (hf : field ∈ layout.fields) {id : LayoutId}
    (he : field.kind.embedded? = some id) : (find? ranked id).isSome := by
  induction h with
  | nil => cases hl
  | @cons head rest embedded ranked ih =>
    have hrest : (find? rest id).isSome := by
      rcases List.mem_cons.1 hl with rfl | hl
      · exact embedded field hf id he
      · exact ih hl
    obtain ⟨inner, hm, hid⟩ := isSome_find?_iff.1 hrest
    exact isSome_find?_iff.2 ⟨inner, List.mem_cons_of_mem _ hm, hid⟩

/-- Containment below a ranked layout comes to an end. -/
theorem acc_contains (hids : (layouts.map (·.id)).Nodup) {ranked : List Layout}
    (h : Ranked ranked) : (∀ layout ∈ ranked, layout ∈ layouts) → ∀ {id : LayoutId},
    (find? ranked id).isSome → Acc (fun inner outer => Contains layouts outer inner) id := by
  induction h with
  | nil => exact fun _ _ h => by cases h
  | @cons layout rest embedded ranked ih =>
    intro hmem id hid
    obtain ⟨hl, hrest⟩ := List.forall_mem_cons.1 hmem
    by_cases he : layout.id = id
    · subst he
      refine .intro _ fun inner hin => ?_
      obtain ⟨field, hf, hkind⟩ := (contains_iff hids hl).1 hin
      exact ih hrest (embedded field hf inner hkind)
    · exact ih hrest (by simpa [find?, he] using hid)

end Layout

namespace LayoutSet.Sound

variable {set : LayoutSet}

theorem wellFounded_contains (h : set.Sound) :
    WellFounded fun inner outer => Layout.Contains set.layouts outer inner := by
  refine ⟨fun id => ?_⟩
  by_cases hid : (Layout.find? set.ranked id).isSome
  · exact Layout.acc_contains h.ids h.ranked h.mem_of_ranked hid
  · refine .intro _ fun inner hin => absurd ?_ hid
    obtain ⟨layout, hl, rfl, -⟩ := hin
    exact h.ranks layout hl

/-- No layout of a sound set contains itself, at any depth. -/
theorem not_contains_self (h : set.Sound) (id : LayoutId) :
    ¬ Relation.TransGen (Layout.Contains set.layouts) id id := by
  intro hcycle
  have hback := Relation.transGen_swap.2 hcycle
  exact h.wellFounded_contains.transGen.irrefl.irrefl id hback

end LayoutSet.Sound

/-! ## Sizes -/

namespace Layout

variable {layouts : List Layout}

theorem packedSize_congr {layout : Layout} {one other : LayoutId → Nat}
    (h : ∀ field ∈ layout.fields, ∀ id, field.kind.embedded? = some id → one id = other id) :
    layout.packedSize one = layout.packedSize other :=
  congrArg List.sum (List.map_congr_left fun field hf => FieldKind.packedSize_congr (h field hf))

/-- Each ranked layout has as its size the sum over its fields, which 64 bits hold. -/
theorem lookup_sizeTable (hids : (layouts.map (·.id)).Nodup) {ranked : List Layout}
    (h : Ranked ranked) : ∀ {table : List (LayoutId × Nat)}, sizeTable ranked = .ok table →
    (∀ layout ∈ ranked, layout ∈ layouts) → ∀ layout ∈ ranked,
    table.lookup layout.id = some (layout.packedSize (sizeIn table)) ∧
      layout.packedSize (sizeIn table) < UInt64.size := by
  induction h with
  | nil => exact fun _ _ _ h => absurd h List.not_mem_nil
  | @cons head rest embedded ranked ih =>
    intro table htable hmem layout hl
    obtain ⟨inside, hinside, hfits, rfl⟩ := sizeTable_cons_eq_ok_iff.1 htable
    obtain ⟨hhead, hrest⟩ := List.forall_mem_cons.1 hmem
    -- the head adds nothing to what the table says of the layouts after it
    have hsame : ∀ id, (find? rest id).isSome →
        ((head.id, head.packedSize (sizeIn inside)) :: inside).lookup id = inside.lookup id := by
      intro id hid
      obtain ⟨other, ho, rfl⟩ := isSome_find?_iff.1 hid
      by_cases heq : other.id = head.id
      · obtain rfl := List.inj_on_of_nodup_map hids (hrest other ho) hhead heq
        rw [List.lookup_cons_self, (ih hinside hrest other ho).1]
      · rw [List.lookup_cons, beq_eq_false_iff_ne.2 heq]
    have hsize : ∀ one ∈ head :: rest,
        one.packedSize (sizeIn ((head.id, head.packedSize (sizeIn inside)) :: inside)) =
          one.packedSize (sizeIn inside) := by
      intro one hm
      refine packedSize_congr fun field hf id he => ?_
      have hfound : (find? rest id).isSome := by
        rcases List.mem_cons.1 hm with rfl | hm
        · exact embedded field hf id he
        · exact ranked.isSome_find? hm hf he
      rw [sizeIn, hsame id hfound, sizeIn]
    rw [hsize layout hl]
    rcases List.mem_cons.1 hl with rfl | hl
    · exact ⟨List.lookup_cons_self, hfits⟩
    · rw [hsame layout.id (isSome_find?_iff.2 ⟨layout, hl, rfl⟩)]
      exact ih hinside hrest layout hl

/-- Layouts have a table of sizes if 64 bits hold sizes of all of them that come to the sums
over the fields. -/
theorem exists_sizeTable {sizeOf : LayoutId → Nat} {ranked : List Layout} (h : Ranked ranked) :
    (∀ layout ∈ ranked, sizeOf layout.id = layout.packedSize sizeOf ∧
      sizeOf layout.id < UInt64.size) →
    ∃ table, sizeTable ranked = .ok table ∧
      ∀ id, (find? ranked id).isSome → sizeIn table id = sizeOf id := by
  induction h with
  | nil => exact fun _ => ⟨[], rfl, fun id hid => by cases hid⟩
  | @cons head rest embedded ranked ih =>
    intro hsizes
    obtain ⟨⟨hsum, hfits⟩, hrest⟩ := List.forall_mem_cons.1 hsizes
    obtain ⟨inside, hinside, hsame⟩ := ih hrest
    have hhead : head.packedSize (sizeIn inside) = sizeOf head.id := by
      rw [hsum]
      exact packedSize_congr fun field hf id he => hsame id (embedded field hf id he)
    refine ⟨_, sizeTable_cons_eq_ok_iff.2 ⟨inside, hinside, hhead ▸ hfits, rfl⟩, fun id hid => ?_⟩
    by_cases he : id = head.id
    · subst he
      rw [sizeIn, List.lookup_cons_self, Option.getD_some, hhead]
    · rw [sizeIn, List.lookup_cons, beq_eq_false_iff_ne.2 he]
      exact hsame id (by simpa [find?, Ne.symm he] using hid)

end Layout

namespace LayoutSet

variable {set : LayoutSet}

/-- The packed size of a layout of a set. -/
def sizeOf (set : LayoutSet) (id : LayoutId) : Nat := (set.byteSize? id).getD 0

/-- The packed size of a layout is the sum over its fields, which 64 bits hold. -/
theorem Sound.byteSize?_eq (h : set.Sound) {layout : Layout} (hl : layout ∈ set.layouts) :
    set.byteSize? layout.id = some (layout.packedSize set.sizeOf) ∧
      layout.packedSize set.sizeOf < UInt64.size := by
  obtain ⟨found, hr, hid⟩ := Layout.isSome_find?_iff.1 (h.ranks layout hl)
  obtain rfl := List.inj_on_of_nodup_map h.ids (h.mem_of_ranked found hr) hl hid
  exact Layout.lookup_sizeTable h.ids h.ranked set.sizes_eq h.mem_of_ranked found hr

/-- A field of a sound set has a size within 64 bits. -/
theorem Sound.byteSize_field (h : set.Sound) {layout : Layout} (hl : layout ∈ set.layouts)
    {field : Layout.Field} (hf : field ∈ layout.fields) :
    field.kind.byteSize set.sizeOf = .ok (field.kind.packedSize set.sizeOf) :=
  FieldKind.byteSize_of_packedSize_lt
    ((Layout.packedSize_field_le hf).trans_lt (h.byteSize?_eq hl).2)

end LayoutSet

end RecordBridge

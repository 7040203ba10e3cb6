import RecordBridge.Proofs.Layout.Containment
/-!
# Which layouts make a set

`Layout.Coherent` says of a list of layouts what its author has to see to: names,
sizes, and that what a field refers to is there. `LayoutSet.ofList` accepts the
coherent lists and no others, in whatever order the layouts come, as long as their
sizes are within 64 bits (`Layout.SizesFit`), and gives each layout the sum of the sizes
of its fields (`ofList_ok_iff_coherent`).
-/
namespace RecordBridge

namespace Layout

/-- A kind of field has a size, and the layouts that it names are there; that of a
list has a list field of its own. -/
def Usable (layouts : List Layout) : FieldKind → Prop
  | .int width _ => 1 ≤ width ∧ width ≤ 8
  | .bool | .ownedText => True
  | .fixedText length => length ≠ 0
  | .textRows count length => count.toNat * length.toNat ≠ 0
  | .nested id => ∃ layout ∈ layouts, layout.id = id
  | .array id count => (∃ layout ∈ layouts, layout.id = id) ∧ count ≠ 0
  | .list id => ∃ node ∈ layouts, node.id = id ∧ ∃ link ∈ node.fields, link.kind = .list id

/-- Layouts fit together: they are named, and named apart, as are the fields of each;
fields are usable; a layout has one list field of its own at most; and none contains
itself by value. -/
structure Coherent (layouts : List Layout) : Prop where
  named : ∀ layout ∈ layouts, layout.id ≠ ""
  ids : (layouts.map (·.id)).Nodup
  names : ∀ layout ∈ layouts, (layout.fields.map (·.name)).Nodup
  usable : ∀ layout ∈ layouts, ∀ field ∈ layout.fields, Usable layouts field.kind
  links : ∀ layout ∈ layouts, layout.fields.countP (·.kind = .list layout.id) ≤ 1
  acyclic : ∀ id, ¬ Relation.TransGen (Contains layouts) id id

/-- Layouts have sizes within 64 bits: that of each is the sum over its fields. -/
def SizesFit (layouts : List Layout) : Prop :=
  ∃ sizeOf : LayoutId → Nat, ∀ layout ∈ layouts,
    sizeOf layout.id = (layout.fields.map fun field => field.kind.packedSize sizeOf).sum ∧
      sizeOf layout.id < UInt64.size

variable {layouts : List Layout}

theorem isSome_linkIndex?_iff {layout : Layout} :
    layout.linkIndex?.isSome ↔ ∃ link ∈ layout.fields, link.kind = .list layout.id := by
  simp [linkIndex?, isLink]

/-- Where layouts are named apart, usable kinds are the sound ones. -/
theorem kindSound_iff (hids : (layouts.map (·.id)).Nodup) {kind : FieldKind} :
    KindSound layouts kind ↔ Usable layouts kind := by
  cases kind with
  | int width signed =>
    have hpos : width ≠ 0 ↔ 1 ≤ width := by grind
    exact and_congr_left fun _ => hpos
  | bool | ownedText => simp [KindSound, Usable, FieldKind.textLength?]
  | fixedText length => simp [KindSound, Usable, FieldKind.textLength?, ← UInt64.toNat_inj]
  | textRows count length =>
    simp only [KindSound, Usable, FieldKind.textLength?, UInt64.size, ne_eq, Option.some.injEq]
    omega
  | nested id => exact isSome_find?_iff
  | array id count => exact and_congr_left' isSome_find?_iff
  | list id =>
    simp only [KindSound, Usable]
    constructor
    · rintro ⟨node, hfound, hlink⟩
      obtain ⟨hn, rfl⟩ := mem_of_find?_key hfound
      exact ⟨node, hn, rfl, isSome_linkIndex?_iff.1 hlink⟩
    · rintro ⟨node, hn, rfl, hlink⟩
      exact ⟨node, find?_key hids hn, isSome_linkIndex?_iff.2 hlink⟩

/-- What a usable field embeds is there. -/
theorem exists_of_usable {kind : FieldKind} (h : Usable layouts kind) {id : LayoutId}
    (he : kind.embedded? = some id) : ∃ layout ∈ layouts, layout.id = id := by
  cases kind with
  | nested inner => cases he; exact h
  | array inner count => cases he; exact h.1
  | _ => cases he

end Layout

namespace LayoutSet

variable {layouts : List Layout}

theorem Sound.coherent {set : LayoutSet} (h : set.Sound) : Layout.Coherent set.layouts where
  named := h.named
  ids := h.ids
  names layout hl := (h.fields layout hl).names
  usable layout hl field hf := (Layout.kindSound_iff h.ids).1 ((h.fields layout hl).kinds field hf)
  links layout hl := (h.fields layout hl).links
  acyclic := h.not_contains_self

/-- The sizes of a set are those of its layouts. -/
theorem Sound.sizeOf_eq {set : LayoutSet} (h : set.Sound) {layout : Layout}
    (hl : layout ∈ set.layouts) : set.sizeOf layout.id = layout.packedSize set.sizeOf := by
  rw [sizeOf, (h.byteSize?_eq hl).1, Option.getD_some]

theorem Sound.sizesFit {set : LayoutSet} (h : set.Sound) : Layout.SizesFit set.layouts :=
  ⟨set.sizeOf, fun _ hl => ⟨h.sizeOf_eq hl, h.sizeOf_eq hl ▸ (h.byteSize?_eq hl).2⟩⟩

/-- Coherent layouts pass every check, the ranking of each ends, and so does the sizing if
64 bits hold their sizes. -/
theorem exists_ofList (h : Layout.Coherent layouts) (hsizes : Layout.SizesFit layouts) :
    ∃ set, ofList layouts = .ok set := by
  have hids : Layout.checkIds [] layouts = .ok () :=
    Layout.checkIds_eq_ok_iff.2 ⟨h.ids, h.named, fun _ _ => List.not_mem_nil⟩
  have hchecks : layouts.forM (Layout.check layouts) = .ok () := by
    refine forM_eq_ok.2 fun layout hl => Layout.check_eq_ok_iff.2 ⟨h.names layout hl, ?_, ?_⟩
    · intro field hf
      exact (Layout.kindSound_iff h.ids).2 (h.usable layout hl field hf)
    · exact h.links layout hl
  have hknown : ∀ outer inner, Layout.Contains layouts outer inner →
      ∃ layout ∈ layouts, layout.id = inner := by
    rintro outer inner ⟨layout, hl, -, field, hf, hkind⟩
    exact Layout.exists_of_usable (h.usable layout hl field hf)
      (FieldKind.embedded?_eq_some_iff.2 hkind)
  obtain ⟨ranked, hranked⟩ : ∃ ranked,
      layouts.foldlM (fun ranked layout => Layout.rank layouts ranked layout.id) [] = .ok ranked :=
    exists_foldlM_ok fun ranked layout hl => Layout.exists_rank h.acyclic hknown ⟨layout, hl, rfl⟩
      (fun _ hw => hw) fun other ho hnot => absurd ho hnot
  obtain ⟨sizeOf, hsizes⟩ := hsizes
  have hgrow := Layout.grows_of_ranking hranked
  obtain ⟨table, htable, -⟩ := Layout.exists_sizeTable (hgrow.1.ranked .nil) fun layout hl =>
    hsizes layout ((hgrow.1.mem layout hl).resolve_left List.not_mem_nil)
  exact ⟨⟨layouts, ranked, table, htable⟩, ofList_eq_ok_iff.2 ⟨hids, hchecks, hranked, rfl⟩⟩

/-- A list of layouts is accepted if and only if it is coherent and its sizes are within
64 bits. Each layout of an accepted list has a size, which is the sum over its fields: the
width of an integer, one byte for a flag, the length of a buffer, a pointer for a text
behind one and for a list, and the sizes of the layouts that the field embeds. -/
theorem ofList_ok_iff_coherent (layouts : List Layout) :
    ((∃ set, ofList layouts = .ok set) ↔ Layout.Coherent layouts ∧ Layout.SizesFit layouts) ∧
      ∀ set, ofList layouts = .ok set → ∃ sizeOf : LayoutId → Nat, ∀ layout ∈ layouts,
        set.byteSize? layout.id = some (sizeOf layout.id) ∧
          sizeOf layout.id =
            (layout.fields.map fun field => field.kind.packedSize sizeOf).sum := by
  refine ⟨⟨?_, fun h => exists_ofList h.1 h.2⟩, ?_⟩
  · rintro ⟨set, hset⟩
    obtain ⟨rfl, hsound⟩ := sound_of_ofList hset
    exact ⟨hsound.coherent, hsound.sizesFit⟩
  · intro set hset
    obtain ⟨rfl, hsound⟩ := sound_of_ofList hset
    refine ⟨set.sizeOf, fun layout hl => ⟨?_, hsound.sizeOf_eq hl⟩⟩
    rw [(hsound.byteSize?_eq hl).1, hsound.sizeOf_eq hl]

/-- Rows whose bytes 64 bits do not hold are in no set. -/
example : ofList [⟨"page", [⟨"rows", .textRows 4 4611686018427387905⟩]⟩] = .error .sizeOverflow := by
  decide +kernel

/-- A shelf of nine boxes before the boxes, and these before their lid, which the shelf
has as well; and nodes that are linked to each other. -/
def shelfLayouts : List Layout :=
  [⟨"shelf", [⟨"boxes", .array "box" 9⟩, ⟨"lid", .nested "lid"⟩, ⟨"notes", .list "note"⟩]⟩,
    ⟨"box", [⟨"size", .int 4 false⟩, ⟨"lid", .nested "lid"⟩]⟩,
    ⟨"lid", [⟨"open", .bool⟩, ⟨"marks", .textRows 2 3⟩, ⟨"colour", .fixedText 5⟩]⟩,
    ⟨"note", [⟨"text", .ownedText⟩, ⟨"next", .list "note"⟩]⟩]

theorem ofList_shelf : Layout.Coherent shelfLayouts ∧ Layout.SizesFit shelfLayouts ∧
    ∃ set, ofList shelfLayouts = .ok set ∧
    ["shelf", "box", "lid", "note"].map set.byteSize? = [some 164, some 16, some 12, some 16] ∧
    ∃ sizeOf : LayoutId → Nat, ∀ layout ∈ shelfLayouts,
      set.byteSize? layout.id = some (sizeOf layout.id) ∧
        sizeOf layout.id = (layout.fields.map fun field => field.kind.packedSize sizeOf).sum := by
  have hsizes : (ofList shelfLayouts).map (["shelf", "box", "lid", "note"].map ·.byteSize?) =
      .ok [some 164, some 16, some 12, some 16] := by decide +kernel
  cases hset : ofList shelfLayouts with
  | error defect => rw [hset] at hsizes; cases hsizes
  | ok set =>
    rw [hset] at hsizes
    obtain ⟨hiff, hequation⟩ := ofList_ok_iff_coherent shelfLayouts
    obtain ⟨hcoherent, hfit⟩ := hiff.1 ⟨set, hset⟩
    exact ⟨hcoherent, hfit, set, rfl, Except.ok.inj hsizes, hequation set hset⟩

end LayoutSet

end RecordBridge

import RecordBridge.Proofs.Layout.Acceptance
import RecordBridge.Proofs.Record.Slots
/-!
# Zero records by name

Zero records are made from ranked layouts. Made by name, each from the zero records of
the layouts that its own contains, they are the same (`LayoutSet.Sound.allocateWith_eq`),
and containment comes to an end. `Record.IsZero` says what is in one without saying how
it is made; the records that have it are those that are allocated
(`LayoutSet.Sound.allocate_eq_ok_iff`).
-/
namespace RecordBridge

/-- A slot with nothing in it: zeros all the way along, nulls, or records of the layout
that the field names, as many as it has room for. -/
inductive Slot.IsZero : FieldKind → Slot → Prop where
  | int {width : UInt8} {signed : Bool} : IsZero (.int width signed) (.int 0)
  | bool : IsZero .bool (.bool false)
  | bytes {kind : FieldKind} {length : Nat} (hlength : kind.textLength? = some length) :
      IsZero kind (.bytes (.replicate length 0))
  | text : IsZero .ownedText (.text none)
  | record {child : Record} : IsZero (.nested child.layoutId) (.record child)
  | array {id : LayoutId} {count : UInt64} {elements : List Record}
      (hcount : elements.length = count.toNat)
      (hid : ∀ element ∈ elements, element.layoutId = id) :
      IsZero (.array id count) (.array elements)
  | link {id : LayoutId} : IsZero (.list id) (.link none)

/-- A record of one of the layouts, with a zero slot for each field, down to the innermost. -/
inductive Record.IsZero (layouts : List Layout) : Record → Prop where
  | intro {record : Record} (known : record.layout ∈ layouts)
      (slots : List.Forall₂ (fun field slot => Slot.IsZero field.kind slot)
        record.layout.fields record.slots)
      (inside : ∀ inner ∈ record.inner, IsZero layouts inner) : IsZero layouts record

/-- The zero record of a layout of the set, made from zero records of other layouts. -/
def LayoutSet.allocateWith (set : LayoutSet) (inside : LayoutId → Except LayoutError Record)
    (id : LayoutId) : Except LayoutError Record :=
  match set.get? id with
  | none => .error (.unknownLayout id)
  | some layout =>
    return .mk layout (← layout.fields.mapM fun field => Slot.zero inside field.kind)

theorem Slot.zero_congr {one other : LayoutId → Except LayoutError Record} {kind : FieldKind}
    (h : ∀ id, kind.embedded? = some id → one id = other id) :
    Slot.zero one kind = Slot.zero other kind := by
  cases kind with
  | nested id | array id count => simp only [Slot.zero, h id rfl]
  | _ => rfl

namespace Record

theorem zero_eq_error {id : LayoutId} : ∀ {ranked : List Layout},
    (∀ layout ∈ ranked, layout.id ≠ id) → zero ranked id = .error (.unknownLayout id)
  | [], _ => rfl
  | layout :: rest, h => by
    obtain ⟨hlayout, hrest⟩ := List.forall_mem_cons.1 h
    rw [zero, if_neg hlayout, zero_eq_error hrest]

theorem layoutId_of_allocate {set : LayoutSet} {id : LayoutId} {record : Record}
    (h : set.allocate id = .ok record) : record.layoutId = id := by
  obtain ⟨layout, rest, slots, -, hid, rfl, -⟩ := exists_of_zero h
  exact hid

end Record

namespace LayoutSet

variable {set : LayoutSet}

theorem allocateWith_eq_ok {inside : LayoutId → Except LayoutError Record} {id : LayoutId}
    {record : Record} (hfound : set.get? id = some record.layout)
    (hslots : record.layout.fields.mapM (fun field => Slot.zero inside field.kind) =
      .ok record.slots) : set.allocateWith inside id = .ok record := by
  obtain ⟨layout, slots⟩ := record
  rw [Record.layout_mk, Record.slots_mk] at hslots
  rw [allocateWith, hfound]
  dsimp only [Record.layout_mk]
  rw [hslots]
  rfl

/-- What zero slots are made of is zero, and holds what was allocated. -/
theorem isZero_of_zero {kind : FieldKind} {slot : Slot}
    (h : Slot.zero set.allocate kind = .ok slot) :
    Slot.IsZero kind slot ∧ ∀ inner ∈ slot.inner, ∃ id, set.allocate id = .ok inner := by
  cases kind with
  | nested id =>
    obtain ⟨child, hc, h⟩ := bind_eq_ok.1 h
    cases h
    obtain rfl := Record.layoutId_of_allocate hc
    exact ⟨.record, List.forall_mem_singleton.2 ⟨_, hc⟩⟩
  | array id count =>
    obtain ⟨element, he, h⟩ := bind_eq_ok.1 h
    cases h
    have hall : ∀ inner ∈ List.replicate count.toNat element, inner = element :=
      fun inner hm => (List.mem_replicate.1 hm).2
    exact ⟨.array List.length_replicate fun inner hm =>
        hall inner hm ▸ Record.layoutId_of_allocate he,
      fun inner hm => ⟨id, hall inner hm ▸ he⟩⟩
  | fixedText length => cases h; exact ⟨.bytes rfl, nofun⟩
  | textRows count length =>
    obtain ⟨size, hsize, h⟩ := bind_eq_ok.1 h
    cases h
    obtain ⟨hrows, rfl⟩ := FieldKind.rowsFit_of_mul hsize
    exact ⟨.bytes hrows.textLength?, nofun⟩
  | _ => cases h; exact ⟨by constructor, nofun⟩

namespace Sound

theorem allocate_eq_error (h : set.Sound) {id : LayoutId}
    (hid : ∀ layout ∈ set.layouts, layout.id ≠ id) :
    set.allocate id = .error (.unknownLayout id) :=
  Record.zero_eq_error fun layout hl => hid layout (h.mem_of_ranked layout hl)

/-- The slots of an allocated record are the zero slots of its fields. -/
theorem forall₂_zero (h : set.Sound) {id : LayoutId} {record : Record}
    (hr : set.allocate id = .ok record) :
    List.Forall₂ (fun field slot => Slot.zero set.allocate field.kind = .ok slot)
      record.layout.fields record.slots := by
  have hlen := (Record.allocate_sound h hr).fits.length
  refine List.forall₂_iff_get.2 ⟨hlen.symm, fun index hf hs => ?_⟩
  obtain ⟨slot, hslot, hz⟩ := Record.slot?_allocate h hr (List.getElem?_eq_getElem hf)
  obtain ⟨_, rfl⟩ := List.getElem?_eq_some_iff.1 hslot
  exact hz

/-- Allocating asks for the zero records of contained layouts, and for no others. -/
theorem allocateWith_eq (h : set.Sound) {inside : LayoutId → Except LayoutError Record}
    {id : LayoutId} (hinside : ∀ inner, Layout.Contains set.layouts id inner →
      inside inner = set.allocate inner) : set.allocateWith inside id = set.allocate id := by
  cases hfound : set.get? id with
  | none =>
    rw [allocateWith, hfound]
    refine (h.allocate_eq_error fun layout hl hid => ?_).symm
    rw [← hid, h.get?_id hl] at hfound
    cases hfound
  | some layout =>
    obtain ⟨hl, rfl⟩ := mem_of_get? hfound
    obtain ⟨record, hr, hsound, rfl⟩ := Record.exists_allocate h hl
    rw [hr]
    refine allocateWith_eq_ok hfound (mapM_eq_ok.2 ⟨hsound.fits.length, fun index field hf => ?_⟩)
    have hin : ∀ inner, field.kind.embedded? = some inner → inside inner = set.allocate inner :=
      fun inner hi => hinside inner
        ((Layout.contains_iff h.ids hl).2 ⟨field, List.mem_of_getElem? hf, hi⟩)
    rw [Slot.zero_congr hin]
    exact Record.slot?_allocate h hr hf

theorem isZero_of_allocate (h : set.Sound) {id : LayoutId} {record : Record}
    (hr : set.allocate id = .ok record) : record.IsZero set.layouts := by
  have hsound := Record.allocate_sound h hr
  induction hsound generalizing id with
  | @intro record known fits inside ih =>
    have hslots := h.forall₂_zero hr
    refine .intro known (hslots.imp fun _ _ hz => (isZero_of_zero hz).1) fun inner hi => ?_
    obtain ⟨slot, hs, hin⟩ := Record.mem_inner.1 hi
    obtain ⟨index, hlt, rfl⟩ := List.getElem_of_mem hs
    obtain ⟨hlen, hat⟩ := List.forall₂_iff_get.1 hslots
    obtain ⟨id, hinner⟩ := (isZero_of_zero (hat index (hlen ▸ hlt) hlt)).2 inner hin
    exact ih inner hi hinner

/-- The slot of a sound field that is zero is its zero slot, when what it holds is allocated. -/
theorem zero_of_isZero (h : set.Sound) {kind : FieldKind} {slot : Slot}
    (hkind : Layout.KindSound set.layouts kind) (hrows : kind.RowsFit)
    (hslot : Slot.IsZero kind slot)
    (hinner : ∀ inner ∈ slot.inner, set.allocate inner.layoutId = .ok inner) :
    Slot.zero set.allocate kind = .ok slot := by
  cases hslot with
  | int | bool | text | link => rfl
  | bytes hlength =>
    cases kind with
    | fixedText length => cases hlength; rfl
    | textRows count length =>
      rw [hrows.textLength?] at hlength
      cases hlength
      rw [Slot.zero, hrows.mul_eq]
      rfl
    | _ => cases hlength
  | @record child =>
    rw [Slot.zero, hinner child (List.mem_singleton.2 rfl)]
    rfl
  | @array id count elements hcount hid =>
    obtain ⟨layout, hl, rfl⟩ := Layout.isSome_find?_iff.1 hkind.1
    obtain ⟨zero, hzero, -⟩ := Record.exists_allocate h hl
    have hall : ∀ element ∈ elements, element = zero := by
      intro element he
      have hheld := hinner element he
      rw [hid element he, hzero] at hheld
      exact (Except.ok.inj hheld).symm
    rw [Slot.zero, hzero, List.eq_replicate_of_mem hall, hcount]
    rfl

theorem allocate_of_isZero (h : set.Sound) {record : Record}
    (hr : record.IsZero set.layouts) : set.allocate record.layoutId = .ok record := by
  induction hr with
  | @intro record known slots inside ih =>
    obtain ⟨hlen, hslot⟩ := List.forall₂_iff_get.1 slots
    rw [← h.allocateWith_eq fun _ _ => rfl]
    refine allocateWith_eq_ok (h.get?_id known) (mapM_eq_ok.2 ⟨hlen.symm, fun index field hf => ?_⟩)
    obtain ⟨hi, rfl⟩ := List.getElem?_eq_some_iff.1 hf
    have hi' : index < record.slots.length := hlen ▸ hi
    refine ⟨_, List.getElem?_eq_getElem hi', h.zero_of_isZero ?_ ?_ (hslot index hi hi') ?_⟩
    · exact (h.fields _ known).kinds _ (List.getElem_mem hi)
    · exact h.rows _ known _ (List.getElem_mem hi)
    · exact fun inner hin => ih inner (Record.mem_inner.2 ⟨_, List.getElem_mem hi', hin⟩)

theorem allocate_eq_ok_iff (h : set.Sound) {id : LayoutId} {record : Record} :
    set.allocate id = .ok record ↔ record.IsZero set.layouts ∧ record.layoutId = id :=
  ⟨fun hr => ⟨h.isZero_of_allocate hr, Record.layoutId_of_allocate hr⟩,
    fun ⟨hr, hid⟩ => hid ▸ h.allocate_of_isZero hr⟩

end Sound

/-- Every layout of an accepted list has a zero record, which is allocated for it and is the
only record allocated; any other name is refused. Allocating by name asks for zero records
of contained layouts only, and no layout contains others without end. -/
theorem allocates_zero {layouts : List Layout} {set : LayoutSet} (h : ofList layouts = .ok set) :
    (WellFounded fun inner outer => Layout.Contains layouts outer inner) ∧
    (∀ (inside : LayoutId → Except LayoutError Record) id,
      (∀ inner, Layout.Contains layouts id inner → inside inner = set.allocate inner) →
      set.allocateWith inside id = set.allocate id) ∧
    (∀ layout ∈ layouts, ∃ record, set.allocate layout.id = .ok record ∧
      record.layout = layout ∧ record.IsZero layouts) ∧
    (∀ id record, set.allocate id = .ok record ↔
      record.IsZero layouts ∧ record.layoutId = id) ∧
    ∀ id, (∀ layout ∈ layouts, layout.id ≠ id) → set.allocate id = .error (.unknownLayout id) := by
  obtain ⟨rfl, hsound⟩ := sound_of_ofList h
  refine ⟨hsound.wellFounded_contains, fun inside id => hsound.allocateWith_eq,
    fun layout hl => ?_, fun id record => hsound.allocate_eq_ok_iff,
    fun id => hsound.allocate_eq_error⟩
  obtain ⟨record, hr, -, hlayout⟩ := Record.exists_allocate hsound hl
  exact ⟨record, hr, hlayout, (hsound.allocate_eq_ok_iff.1 hr).1⟩

/-- The lid of an empty shelf. -/
def shelfLid : Record :=
  .mk ⟨"lid", [⟨"open", .bool⟩, ⟨"marks", .textRows 2 3⟩, ⟨"colour", .fixedText 5⟩]⟩
    [.bool false, .bytes [0, 0, 0, 0, 0, 0], .bytes [0, 0, 0, 0, 0]]

/-- A box of an empty shelf. -/
def shelfBox : Record :=
  .mk ⟨"box", [⟨"size", .int 4 false⟩, ⟨"lid", .nested "lid"⟩]⟩ [.int 0, .record shelfLid]

/-- What is in a shelf is allocated with it; notes, which are linked to notes, are not. -/
theorem allocates_zero_shelf : ∃ set, ofList shelfLayouts = .ok set ∧
    (∃ shelf, set.allocate "shelf" = .ok shelf ∧ shelf.IsZero shelfLayouts ∧
      shelf.slots = [.array (.replicate 9 shelfBox), .record shelfLid, .link none]) ∧
    set.allocateWith (fun id => .error (.recursive id)) "note" = set.allocate "note" ∧
    set.allocate "crate" = .error (.unknownLayout "crate") := by
  let set : LayoutSet := ⟨shelfLayouts, shelfLayouts.rotateRight, _, rfl⟩
  have hset : ofList shelfLayouts = .ok set := by cbv
  have hslots : (set.allocate "shelf").map (·.slots) =
      .ok [.array (.replicate 9 shelfBox), .record shelfLid, .link none] := by cbv
  obtain ⟨-, hwith, hzero, -, hunknown⟩ := allocates_zero hset
  obtain ⟨shelf, hshelf, -, hisZero⟩ := hzero _ List.mem_cons_self
  refine ⟨set, hset, ⟨shelf, hshelf, hisZero, ?_⟩, hwith _ "note" fun inner hin => ?_,
    hunknown "crate" (by decide)⟩
  · rw [show set.allocate "shelf" = .ok shelf from hshelf] at hslots
    exact Except.ok.inj hslots
  · obtain ⟨layout, hl, hid, hfield⟩ := hin
    simp only [shelfLayouts, List.mem_cons, List.not_mem_nil, or_false] at hl
    rcases hl with rfl | rfl | rfl | rfl <;> simp at hid hfield

end LayoutSet

end RecordBridge

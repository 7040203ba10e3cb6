import RecordBridge.Proofs.Record.Built
import RecordBridge.Proofs.Record.Plain
import RecordBridge.Proofs.Registry.Sound
import RecordBridge.Record.Json
/-!
# Records through JSON

A record is shown field by field, in key order, and read by filling a zero record.
What one field is filled with does not depend on the others (`Fills`), so fields may be
filled in any order (`fillEntries_eq_ok`). A record that was built comes back plain and
linked to nothing (`recordOfJson_toJson`).
-/
namespace RecordBridge

namespace Json

/-! ## Entries in key order -/

theorem perm_insert {key : String} (value : Json) : ∀ {sorted : List (String × Json)},
    key ∉ sorted.map Prod.fst → (insert key value sorted).Perm ((key, value) :: sorted)
  | [], _ => .refl _
  | (other, old) :: rest, h => by
    simp only [List.map_cons, List.mem_cons, not_or] at h
    rw [insert]
    by_cases hlt : key < other
    · rw [if_pos hlt]
    · rw [if_neg hlt, if_neg h.1]
      exact ((perm_insert value h.2).cons _).trans (.swap _ _ _)

/-- Entries with distinct keys are sorted by moving them. -/
theorem sortEntries_perm {entries : List (String × Json)} (h : (entries.map Prod.fst).Nodup) :
    (sortEntries entries).Perm entries := by
  have general : ∀ (entries sorted : List (String × Json)),
      ((entries ++ sorted).map Prod.fst).Nodup →
      (entries.foldl (fun sorted entry => insert entry.1 entry.2 sorted) sorted).Perm
        (entries ++ sorted) := by
    intro entries
    induction entries with
    | nil => exact fun sorted _ => .refl sorted
    | cons entry entries ih =>
      intro sorted h
      obtain ⟨key, value⟩ := entry
      have hnew : key ∉ sorted.map Prod.fst := by
        have hkey : key ∉ (entries ++ sorted).map Prod.fst := (List.nodup_cons.1 h).1
        simp only [List.map_append, List.mem_append, not_or] at hkey
        exact hkey.2
      have hperm : (entries ++ insert key value sorted).Perm ((key, value) :: entries ++ sorted) :=
        ((perm_insert value hnew).append_left entries).trans List.perm_middle
      exact (ih _ ((hperm.map Prod.fst).nodup_iff.2 h)).trans hperm
  have hall := general entries []
  rw [List.append_nil] at hall
  exact hall h

end Json

namespace Record

/-! ## What a record shows -/

/-- A record shows all fields but its link. -/
theorem entries_eq (link : Option Nat) : ∀ (fields : List Layout.Field) (slots : List Slot)
    (start : Nat), entries link start fields slots =
      ((fields.zip slots).zipIdx start).filterMap fun ((field, slot), index) =>
        if link = some index then none else some (field.name, slotJson slot)
  | [], _, _ => by simp [entries]
  | _ :: _, [], _ => by simp [entries]
  | field :: fields, slot :: slots, start => by
    rw [entries, entries_eq link fields slots, List.zip_cons_cons, List.zipIdx_cons,
      List.filterMap_cons]
    dsimp only
    by_cases h : link = some start
    · rw [if_pos h, if_pos h]
    · rw [if_neg h, if_neg h]

theorem mem_entries_iff {link : Option Nat} {fields : List Layout.Field} {slots : List Slot}
    {name : String} {value : Json} : (name, value) ∈ entries link 0 fields slots ↔
      ∃ index field slot, fields[index]? = some field ∧ slots[index]? = some slot ∧
        link ≠ some index ∧ field.name = name ∧ slotJson slot = value := by
  rw [entries_eq, List.mem_filterMap]
  constructor
  · rintro ⟨⟨⟨field, slot⟩, index⟩, hmem, h⟩
    dsimp only at h
    split at h
    · cases h
    · next hlink =>
      cases h
      rw [List.mem_zipIdx_iff_getElem?, List.getElem?_zip_eq_some] at hmem
      exact ⟨index, field, slot, hmem.1, hmem.2, hlink, rfl, rfl⟩
  · rintro ⟨index, field, slot, hf, hs, hlink, rfl, rfl⟩
    refine ⟨((field, slot), index), ?_, by simp [hlink]⟩
    rw [List.mem_zipIdx_iff_getElem?, List.getElem?_zip_eq_some]
    exact ⟨hf, hs⟩

theorem toJson_eq (record : Record) : record.toJson = .object (Json.sortEntries
    (entries record.layout.linkIndex? 0 record.layout.fields record.slots)) := by
  cases record
  rw [toJson, layout_mk, slots_mk]

/-- Each field is shown once. -/
theorem nodup_entries (link : Option Nat) {fields : List Layout.Field} (slots : List Slot)
    (h : (fields.map (·.name)).Nodup) :
    ((entries link 0 fields slots).map Prod.fst).Nodup := by
  have general : ∀ (fields : List Layout.Field) (slots : List Slot) (start : Nat),
      ((entries link start fields slots).map Prod.fst).Sublist (fields.map (·.name)) := by
    intro fields
    induction fields with
    | nil => intro slots start; rw [entries] <;> simp
    | cons field fields ih =>
      intro slots start
      cases slots with
      | nil => rw [entries] <;> simp
      | cons slot slots =>
        rw [entries]
        split
        · exact (ih slots _).cons _
        · exact (ih slots _).cons_cons _
  exact (general fields slots 0).nodup h

theorem allJson_eq : ∀ elements : List Record, allJson elements = elements.map toJson
  | [] => by rw [allJson, List.map_nil]
  | element :: elements => by rw [allJson, allJson_eq elements, List.map_cons]

mutual

/-- A list shows its nodes. -/
theorem nodesJson_eq : ∀ slot, nodesJson slot = (nodesOf slot).map toJson
  | .link (some (.mk layout slots)) => by
    rw [nodesJson, nodesJsonAt_eq, nodesOf, nodes, List.map_cons, toJson]
  | .link none | .int _ | .bool _ | .bytes _ | .text _ | .record _ | .array _ => by
    simp [nodesJson, nodesOf]

theorem nodesJsonAt_eq : ∀ index slots, nodesJsonAt index slots = (nodesAt index slots).map toJson
  | _, [] => by rw [nodesJsonAt, nodesAt, List.map_nil]
  | 0, slot :: _ => by rw [nodesJsonAt, nodesJson_eq, nodesAt]
  | index + 1, _ :: rest => by rw [nodesJsonAt, nodesJsonAt_eq, nodesAt]

end

/-! ## Filling one field -/

/-- Whatever else a record holds, filling a field of a kind that holds a slot with a
value puts another slot there. -/
def Fills (layouts : LayoutSet) (kind : FieldKind) (value : Json) (held slot : Slot) : Prop :=
  ∀ ⦃record : Record⦄ ⦃index : Nat⦄ ⦃name : String⦄,
    (record.layout.fields.map (·.name)).Nodup → record.layout.fields[index]? = some ⟨name, kind⟩ →
    record.slot? index = some held →
    fillField layouts value ⟨name, kind⟩ record = .ok (record.put index slot)

variable {layouts : LayoutSet} {record : Record} {index : Nat} {field : Layout.Field}

theorem accepted_eq_ok {layout : LayoutId} {name : String} {x : Except LayoutError α} {a : α} :
    accepted layout name x = .ok a ↔ x = .ok a := mapError_eq_ok

theorem index_eq_ok (hnames : (record.layout.fields.map (·.name)).Nodup)
    (hf : record.layout.fields[index]? = some field) : record.index field.name = .ok index := by
  rw [Record.index, Layout.fieldIndex?, findIdx?_key hnames hf]

theorem read_eq_ok {pick : Slot → Option α} {slot : Slot} {a : α} {expected : String}
    (hnames : (record.layout.fields.map (·.name)).Nodup)
    (hf : record.layout.fields[index]? = some field) (hs : record.slot? index = some slot)
    (hpick : pick slot = some a) : record.read field.name expected pick = .ok a := by
  rw [Record.read, index_eq_ok hnames hf, ok_bind, hs, Option.bind_some, hpick]

/-- A slot that suits the field is put there. -/
theorem setSlot_of_suits {slot : Slot} (hf : record.layout.fields[index]? = some field)
    (h : slot.Suits field.kind) : record.setSlot index slot = .ok (record.put index slot) :=
  setSlot_eq_ok_iff.2 ⟨field, hf, h.fits, by rw [h.stored]⟩

theorem setFixedText_eq_ok (hnames : (record.layout.fields.map (·.name)).Nodup)
    (hf : record.layout.fields[index]? = some field) {length : Nat}
    (hlength : field.kind.textLength? = some length) (text : String) :
    record.setFixedText field.name text =
      .ok (record.put index (.bytes (packText text length))) := by
  have hsuits : (Slot.bytes (packText text length)).Suits field.kind := by
    refine ⟨?_, ?_⟩
    · simp [Slot.fits, hlength, length_packText]
    · cases field.kind <;> rfl
  rw [setFixedText, index_eq_ok hnames hf, ok_bind, hf, Option.bind_some, hlength]
  exact setSlot_of_suits hf hsuits

/-- Elements are filled one by one. -/
theorem fillElements_eq_ok {zero : Record} {elements : List Record}
    (h : ∀ element ∈ elements, fillJson layouts element.toJson zero = .ok element.unlinked) :
    fillElements layouts (elements.map toJson) (.replicate elements.length zero) =
      .ok (elements.map unlinked) := by
  induction elements with
  | nil => rw [List.map_nil, fillElements] <;> simp
  | cons element elements ih =>
    obtain ⟨helement, hrest⟩ := List.forall_mem_cons.1 h
    rw [List.map_cons, List.length_cons, List.replicate_succ, fillElements, helement, ih hrest]
    rfl

/-- Nodes are filled one by one. -/
theorem fillNodes_eq_ok {id node : LayoutId} {name : String} {zero : Record}
    (hzero : layouts.allocate node = .ok zero) {nodes : List Record}
    (h : ∀ node ∈ nodes, fillJson layouts node.toJson zero = .ok node.unlinked) :
    fillNodes layouts id name node (nodes.map toJson) = .ok (nodes.map unlinked) := by
  induction nodes with
  | nil => rw [List.map_nil, fillNodes, List.map_nil]
  | cons first nodes ih =>
    obtain ⟨hfirst, hrest⟩ := List.forall_mem_cons.1 h
    rw [List.map_cons, fillNodes, accepted_eq_ok.2 hzero, ok_bind, hfirst, ih hrest]
    rfl

/-- Nodes that are linked to nothing are taken as the plain list. -/
theorem setList_unlinked (hset : layouts.Sound) {name : String} {id : LayoutId}
    (hnames : (record.layout.fields.map (·.name)).Nodup)
    (hf : record.layout.fields[index]? = some ⟨name, .list id⟩) {node : Layout}
    (hnode : node ∈ layouts.layouts) (hid : node.id = id) (hlink : node.linkIndex?.isSome)
    {head : Option Record}
    (hhead : ∀ first ∈ head, first.Sound layouts ∧ first.layoutId = id) :
    record.setList name ((nodesOf (.link head)).map unlinked) =
      .ok (record.put index (.link (head.map plain))) := by
  have hlayout : ∀ found : Record, found.Sound layouts → found.layoutId = id →
      found.layout = node := fun found hs he =>
    hset.eq_of_id_eq hs.known hnode (he.trans hid.symm)
  have hall : ∀ found ∈ (nodesOf (.link head)).map unlinked,
      found.layoutId = id ∧ found.layout.linkIndex?.isSome := by
    rw [List.forall_mem_map]
    intro found hfound
    obtain ⟨hs, he⟩ := Sound.mem_nodesOf hhead found hfound
    rw [layoutId, layout_unlinked, hlayout found hs he]
    exact ⟨hid, hlink⟩
  have hlinked : linkUp ((nodesOf (.link head)).map unlinked) = head.map plain := by
    rw [nodesOf_link]
    cases head with
    | none => rfl
    | some first =>
      obtain ⟨hs, he⟩ := hhead first rfl
      exact linkUp_unlinked hset hs (by rw [hlayout first hs he, hlink])
  rw [setList, index_eq_ok hnames hf, ok_bind]
  exact setListAt_eq_ok_iff.2 ⟨_, id, hf, rfl, hall, by rw [hlinked]⟩

/-! ### By kind of field -/

theorem fills_int {width : UInt8} {signed : Bool} {value : Int64} {held : Slot}
    (hsuits : (Slot.int value).Suits (.int width signed)) :
    Fills layouts (.int width signed) (slotJson (.int value)) held (Slot.int value).plain := by
  intro record index name hnames hf _
  rw [slotJson, fillField.eq_def]
  dsimp only
  rw [Int64.ofInt_toInt, accepted_eq_ok, setInt, index_eq_ok hnames hf, ok_bind, Slot.plain]
  exact setSlot_of_suits hf hsuits

theorem fills_bool {value : Bool} {held : Slot} :
    Fills layouts .bool (slotJson (.bool value)) held (Slot.bool value).plain := by
  intro record index name hnames hf _
  rw [slotJson, fillField.eq_def]
  dsimp only
  rw [accepted_eq_ok, setBool, index_eq_ok hnames hf, ok_bind, Slot.plain]
  exact setSlot_of_suits hf ⟨rfl, rfl⟩

/-- A fixed buffer is filled with its text alone. -/
theorem fills_buffer {kind : FieldKind} {buffer : List UInt8} {held : Slot}
    (hlength : kind.textLength? = some buffer.length) :
    Fills layouts kind (slotJson (.bytes buffer)) held (Slot.bytes buffer).plain := by
  intro record index name hnames hf _
  rw [slotJson, fillField.eq_def]
  dsimp only
  cases kind with
  | fixedText | textRows =>
    dsimp only
    rw [accepted_eq_ok, Slot.plain]
    exact setFixedText_eq_ok hnames hf hlength (readText buffer)
  | int | bool | ownedText | nested | array | list => cases hlength

theorem fills_ownedText {value : Option String} {held : Slot} :
    Fills layouts .ownedText (slotJson (.text value)) held (Slot.text value).plain := by
  intro record index name hnames hf _
  have hset : record.setOwnedText name value = .ok (record.put index (.text value)) := by
    rw [setOwnedText, index_eq_ok hnames hf, ok_bind]
    exact setSlot_of_suits hf ⟨rfl, rfl⟩
  cases value <;>
    rw [slotJson, fillField.eq_def] <;>
    dsimp only [Option.elim] <;>
    rw [accepted_eq_ok, hset, Slot.plain]

/-- A nested record fills the zero record in its place. -/
theorem fills_nested {id : LayoutId} {child zero : Record}
    (hfill : fillJson layouts child.toJson zero = .ok child.unlinked) :
    Fills layouts (.nested id) (slotJson (.record child)) (.record zero)
      (Slot.record child).plain := by
  intro record index name hnames hf hs
  have hnested : record.nested name = .ok zero := read_eq_ok hnames hf hs rfl
  obtain ⟨layout, slots⟩ := child
  rw [toJson, fillJson] at hfill
  rw [slotJson, toJson, fillField.eq_def]
  dsimp only
  rw [accepted_eq_ok.2 (index_eq_ok hnames hf), ok_bind, accepted_eq_ok.2 hnested, ok_bind, hfill,
    ok_bind, Slot.plain]
  rfl

/-- An array is filled element by element. -/
theorem fills_array {id : LayoutId} {count : UInt64} {elements : List Record} {zero : Record}
    (hlength : elements.length = count.toNat)
    (hparts : ∀ element ∈ elements, fillJson layouts element.toJson zero = .ok element.unlinked) :
    Fills layouts (.array id count) (slotJson (.array elements))
      (.array (.replicate count.toNat zero)) (Slot.array elements).plain := by
  intro record index name hnames hf hs
  have harray : record.array name = .ok (.replicate elements.length zero) :=
    hlength ▸ read_eq_ok hnames hf hs rfl
  rw [slotJson, allJson_eq, fillField.eq_def]
  dsimp only
  rw [if_neg (by simp [hlength]), accepted_eq_ok.2 (index_eq_ok hnames hf), ok_bind,
    accepted_eq_ok.2 harray, ok_bind, fillElements_eq_ok hparts, ok_bind, Slot.plain]
  rfl

/-- A list is built of nodes that are filled one by one. -/
theorem fills_list (hset : layouts.Sound) {node : Layout} (hnode : node ∈ layouts.layouts)
    (hlink : node.linkIndex?.isSome) {head : Option Record} {held : Slot}
    (hhead : ∀ first ∈ head, first.Sound layouts ∧ first.layoutId = node.id)
    (hparts : ∀ part ∈ nodesOf (.link head), ∀ zero, layouts.allocate part.layoutId = .ok zero →
      fillJson layouts part.toJson zero = .ok part.unlinked) :
    Fills layouts (.list node.id) (slotJson (.link head)) held (Slot.link head).plain := by
  intro record index name hnames hf _
  obtain ⟨zero, hzero, -⟩ := exists_allocate hset hnode
  have hnodes : fillNodes layouts record.layoutId name node.id ((nodesOf (.link head)).map toJson) =
      .ok ((nodesOf (.link head)).map unlinked) := fillNodes_eq_ok hzero fun part hpart =>
    hparts part hpart zero ((Sound.mem_nodesOf hhead part hpart).2.symm ▸ hzero)
  rw [slotJson, nodesJson_eq, fillField.eq_def]
  dsimp only
  rw [hnodes, ok_bind, accepted_eq_ok, Slot.plain_link]
  exact setList_unlinked hset hnames hf hnode rfl hlink hhead

/-- What a slot shows fills a zero slot with the plain slot, if that holds for its parts. -/
theorem fills_slotJson (hset : layouts.Sound) {kind : FieldKind}
    (hkind : Layout.KindSound layouts.layouts kind) {slot held : Slot} (hsuits : slot.Suits kind)
    (hinside : ∀ inner ∈ slot.inner, inner.Sound layouts)
    (hheld : Slot.zero layouts.allocate kind = .ok held)
    (hparts : ∀ part ∈ slot.parts, ∀ zero, layouts.allocate part.layoutId = .ok zero →
      fillJson layouts part.toJson zero = .ok part.unlinked) :
    Fills layouts kind (slotJson slot) held slot.plain := by
  have hfits := hsuits.fits
  cases kind with
  | int width signed =>
    cases slot <;> simp [Slot.fits, FieldKind.textLength?] at hfits
    exact fills_int hsuits
  | bool =>
    cases slot <;> simp [Slot.fits, FieldKind.textLength?] at hfits
    exact fills_bool
  | fixedText length | textRows count length =>
    cases slot <;> simp only [Slot.fits, beq_iff_eq, reduceCtorEq] at hfits
    exact fills_buffer hfits
  | ownedText =>
    cases slot <;> simp [Slot.fits, FieldKind.textLength?] at hfits
    exact fills_ownedText
  | nested id =>
    obtain ⟨child, rfl, hid⟩ := Slot.fits_nested_iff.1 hfits
    obtain ⟨zero, hzero, hheld⟩ := bind_eq_ok.1 hheld
    cases hheld
    exact fills_nested (hparts child (List.mem_singleton.2 rfl) zero (hid ▸ hzero))
  | array id count =>
    obtain ⟨elements, rfl, hlength, hid⟩ := Slot.fits_array_iff.1 hfits
    obtain ⟨zero, hzero, hheld⟩ := bind_eq_ok.1 hheld
    cases hheld
    exact fills_array hlength fun element he =>
      hparts element he zero ((hid element he).symm ▸ hzero)
  | list id =>
    obtain ⟨head, rfl, hid⟩ := Slot.fits_list_iff.1 hfits
    obtain ⟨node, hfound, hlink⟩ := hkind
    obtain ⟨hnode, rfl⟩ := mem_of_find?_key hfound
    exact fills_list hset hnode hlink (fun first hfirst =>
      ⟨hinside first (Option.mem_toList.2 hfirst), hid first hfirst⟩) hparts

/-! ## Filling a record -/

/-- Entries that fill the fields of a record in which it differs from another one make it
that one, in any order. -/
theorem fillEntries_eq_ok {target : Record} (hnames : (target.layout.fields.map (·.name)).Nodup)
    (htarget : target.slots.length = target.layout.fields.length) :
    ∀ {entries : List (String × Json)} {made : Record}, (entries.map Prod.fst).Nodup →
    made.layout = target.layout → made.slots.length = target.slots.length →
    (∀ name value, (name, value) ∈ entries → ∃ index kind held slot,
      target.layout.fields[index]? = some ⟨name, kind⟩ ∧ made.slot? index = some held ∧
      target.slot? index = some slot ∧ Fills layouts kind value held slot) →
    (∀ (index : Nat) field, target.layout.fields[index]? = some field →
      field.name ∉ entries.map Prod.fst → made.slot? index = target.slot? index) →
    fillEntries layouts entries made = .ok target
  | [], made, _, hlayout, hlen, _, hrest => by
    obtain ⟨layout, slots⟩ := made
    obtain ⟨layout', slots'⟩ := target
    cases hlayout
    rw [fillEntries]
    refine congrArg _ (congrArg (mk layout) (List.ext_getElem? fun index => ?_))
    cases hf : layout.fields[index]? with
    | some field => exact hrest index field hf (by simp)
    | none =>
      rw [List.getElem?_eq_none_iff] at hf
      simp only [slots_mk, layout_mk] at hlen htarget
      rw [List.getElem?_eq_none (by omega), List.getElem?_eq_none (by omega)]
  | (name, value) :: entries, made, hkeys, hlayout, hlen, hfills, hrest => by
    obtain ⟨hkey, hkeys⟩ := List.nodup_cons.1 hkeys
    obtain ⟨index, kind, held, slot, hf, hheld, hslot, hfill⟩ := hfills name value List.mem_cons_self
    have hfield : made.layout.field? name = some ⟨name, kind⟩ := by
      rw [hlayout]
      exact find?_key hnames (List.mem_of_getElem? hf)
    rw [fillEntries, hfield]
    dsimp only
    rw [hfill (hlayout ▸ hnames) (hlayout ▸ hf) hheld, ok_bind]
    -- The field just filled is as in the target, and no other entry is for it.
    refine fillEntries_eq_ok hnames htarget hkeys hlayout (by simpa using hlen) ?_ ?_
    · intro other value' hm
      obtain ⟨place, kind', held', slot', hf', hheld', hslot', hfill'⟩ :=
        hfills other value' (List.mem_cons_of_mem _ hm)
      refine ⟨place, kind', held', slot', hf', ?_, hslot', hfill'⟩
      rw [slot?_put_of_ne, hheld']
      rintro rfl
      cases hf.symm.trans hf'
      exact hkey (List.mem_map.2 ⟨_, hm, rfl⟩)
    · intro place field hf' hnot
      by_cases hp : index = place
      · subst hp
        rw [hslot]
        exact List.getElem?_set_self (hlen ▸ (List.getElem?_eq_some_iff.1 hslot).1)
      · rw [slot?_put_of_ne hp]
        refine hrest place field hf' fun hm => ?_
        rcases List.mem_cons.1 hm with hname | hm
        · exact hp (eq_of_key_eq hnames hf hf' hname.symm)
        · exact hnot hm

/-- What a sound record shows fills a zero record with the plain record, linked to nothing. -/
theorem fillJson_toJson (hset : layouts.Sound) {record zero : Record} (h : record.Sound layouts)
    (hzero : layouts.allocate record.layoutId = .ok zero) :
    fillJson layouts record.toJson zero = .ok record.unlinked := by
  have hsound := hset.fields record.layout h.known
  obtain ⟨fresh, hfresh, hzeros, hlayout⟩ := exists_allocate hset h.known
  obtain rfl : fresh = zero := Except.ok.inj (hfresh.symm.trans hzero)
  have hnodup := nodup_entries record.layout.linkIndex? record.slots hsound.names
  have hperm := Json.sortEntries_perm hnodup
  rw [toJson_eq, fillJson]
  refine fillEntries_eq_ok (by simpa using hsound.names)
    (by rw [length_unlinked, layout_unlinked, h.fits.length])
    ((hperm.map Prod.fst).nodup_iff.2 hnodup) (by simpa using hlayout)
    (by rw [length_unlinked, hzeros.fits.length, h.fits.length, hlayout]) ?_ ?_
  · intro name value hm
    obtain ⟨index, field, slot, hf, hs, hlink, rfl, rfl⟩ := mem_entries_iff.1 (hperm.mem_iff.1 hm)
    obtain ⟨held, hheld, hslot⟩ := slot?_allocate hset hzero (hlayout.symm ▸ hf)
    have hfills := fills_slotJson hset (hsound.kinds field (List.mem_of_getElem? hf))
      (h.fits.suits index field slot hf hs) (h.slot?_inside hs) hslot fun part hpart zero hz =>
        fillJson_toJson hset (h.mem_parts hs part hpart) hz
    refine ⟨index, field.kind, held, slot.plain, ?_, hheld, ?_, hfills⟩
    · rw [layout_unlinked, hf]
    · rw [slot?_unlinked hlink, slot?, hs, Option.map_some]
  · intro index field hf hnot
    -- only the link is not shown, and it is null in a zero record
    rw [layout_unlinked] at hf
    have hlink : record.layout.linkIndex? = some index := by
      by_contra hlink
      obtain ⟨slot, hs, -⟩ := h.exists_slot hf
      have hshown := mem_entries_iff.2 ⟨index, field, slot, hf, hs, hlink, rfl, rfl⟩
      exact hnot (List.mem_map.2 ⟨_, hperm.mem_iff.2 hshown, rfl⟩)
    obtain ⟨found, hfound, hkind⟩ := linkIndex?_eq_some hlink
    cases hf.symm.trans hfound
    obtain ⟨held, hheld, hslot⟩ := slot?_allocate hset hzero (hlayout.symm ▸ hf)
    rw [hkind] at hslot
    cases hslot
    rw [hheld, slot?_unlinked_link hlink]
    exact h.fits.length ▸ (List.getElem?_eq_some_iff.1 hf).1
termination_by sizeOf record
decreasing_by exact sizeOf_lt_of_slot? hs hpart

end Record

namespace Registry

variable {registry : Registry} {opcode : UInt16} {record : Record}

/-- A record that was built, shown as JSON and read again is the same record with clean
buffers, and with no links but those of lists. -/
theorem recordOfJson_toJson {layouts : List Layout} {schemas : List Schema}
    {descriptors : List Descriptor} (hreg : ofLists layouts schemas descriptors = .ok registry)
    (hlayout : registry.layout? opcode = some record.layout)
    (hbuilt : Record.Built registry.layouts record) :
    registry.recordOfJson opcode record.toJson = .ok record.unlinked := by
  have h := sound_of_ofLists hreg
  have hsound := hbuilt.sound h.layouts
  obtain ⟨descriptor, hd, hl⟩ := Option.bind_eq_some_iff.1 hlayout
  obtain ⟨zero, hzero, -⟩ := Record.exists_allocate h.layouts hsound.known
  have hid : descriptor.layout = record.layoutId := (LayoutSet.mem_of_get? hl).2.symm
  have hrecord : registry.record? opcode = some zero := by
    simp [record?, hd, hid, Record.layoutId, hzero, Except.toOption]
  rw [recordOfJson, hrecord]
  exact Record.fillJson_toJson h.layouts hsound hzero

/-! ### A board of tags -/

def boardLayouts : List Layout :=
  [⟨"tag", [⟨"text", .fixedText 3⟩, ⟨"next", .list "tag"⟩]⟩,
    ⟨"board", [⟨"tags", .list "tag"⟩, ⟨"pair", .array "tag" 2⟩, ⟨"owner", .ownedText⟩]⟩]

/-- Opcode 7 carries boards. -/
def boardRegistry : Registry where
  layouts := ⟨boardLayouts, boardLayouts.reverse, [("board", 38), ("tag", 11)], by decide⟩
  schemas := ⟨[⟨"Board", []⟩]⟩
  rows := [⟨⟨7, "board", "Board", none⟩, ⟨[]⟩⟩]

def boardTag (text : List UInt8) (next : Option Record) : Record :=
  .mk ⟨"tag", [⟨"text", .fixedText 3⟩, ⟨"next", .list "tag"⟩]⟩ [.bytes text, .link next]

def board (tags : Option Record) (pair : List Record) (owner : Option String) : Record :=
  .mk ⟨"board", [⟨"tags", .list "tag"⟩, ⟨"pair", .array "tag" 2⟩, ⟨"owner", .ownedText⟩]⟩
    [.link tags, .array pair, .text owner]

/-- Two tags in a list, the first with a byte after its text, and two in an array, the
first with no UTF-8 and a link. -/
def sampleBoard : Record :=
  board (some (boardTag [88, 0, 89] (some (boardTag [0, 0, 0] none))))
    [boardTag [255, 0, 1] (some (boardTag [0, 0, 0] none)), boardTag [0, 0, 0] none]
    (some "a\x00b")

theorem built_sampleBoard : Record.Built boardRegistry.layouts sampleBoard := by
  have zero : Record.Built boardRegistry.layouts (boardTag [0, 0, 0] none) :=
    .allocate (show LayoutSet.allocate _ "tag" = .ok _ from rfl)
  have first : Record.Built boardRegistry.layouts (boardTag [88, 0, 89] none) := by
    refine zero.setSlot ?_ (show Record.setSlot _ 0 (.bytes [88, 0, 89]) = .ok _ from rfl)
    exact nofun
  have element : Record.Built boardRegistry.layouts (boardTag [255, 0, 1] none) := by
    refine zero.setSlot ?_ (show Record.setSlot _ 0 (.bytes [255, 0, 1]) = .ok _ from rfl)
    exact nofun
  have linked := @Record.Built.setListAt _ _ _ 1 [_] element (List.forall_mem_singleton.2 zero) rfl
  have empty : Record.Built boardRegistry.layouts
      (board none [boardTag [0, 0, 0] none, boardTag [0, 0, 0] none] none) :=
    .allocate (show LayoutSet.allocate _ "board" = .ok _ from rfl)
  have listed := @Record.Built.setListAt _ _ _ 0 [_, _] empty
    (List.forall_mem_cons.2 ⟨first, List.forall_mem_singleton.2 zero⟩) rfl
  have paired := @Record.Built.setSlot _ _ _ 1 (.array [_, _]) listed
    (List.forall_mem_cons.2 ⟨linked, List.forall_mem_singleton.2 zero⟩) rfl
  exact @Record.Built.setOwnedText _ _ _ "owner" (some "a\x00b") paired rfl

theorem recordOfJson_sampleBoard :
    ofLists boardLayouts [⟨"Board", []⟩] [⟨7, "board", "Board", none⟩] = .ok boardRegistry ∧
      boardRegistry.layout? 7 = some sampleBoard.layout ∧
      Record.Built boardRegistry.layouts sampleBoard ∧
      boardRegistry.recordOfJson 7 sampleBoard.toJson =
        .ok (board (some (boardTag [88, 0, 0] (some (boardTag [0, 0, 0] none))))
          [boardTag [239, 191, 189] none, boardTag [0, 0, 0] none] (some "a\x00b")) := by
  have hreg : ofLists boardLayouts [⟨"Board", []⟩] [⟨7, "board", "Board", none⟩] =
      .ok boardRegistry := by cbv
  have hlayout : boardRegistry.layout? 7 = some sampleBoard.layout := by cbv
  have htexts : packText (readText [88, 0, 89]) 3 = [88, 0, 0] ∧
      packText (readText [255, 0, 1]) 3 = [239, 191, 189] ∧
      packText (readText [0, 0, 0]) 3 = [0, 0, 0] := by decide +kernel
  have hlinks : Layout.linkIndex? ⟨"tag", [⟨"text", .fixedText 3⟩, ⟨"next", .list "tag"⟩]⟩ = some 1 ∧
      Layout.linkIndex? ⟨"board", [⟨"tags", .list "tag"⟩, ⟨"pair", .array "tag" 2⟩,
        ⟨"owner", .ownedText⟩]⟩ = none := by decide
  refine ⟨hreg, hlayout, built_sampleBoard, ?_⟩
  rw [recordOfJson_toJson hreg hlayout built_sampleBoard]
  simp [sampleBoard, board, boardTag, Record.unlinked, Record.plain, Slot.plain, Record.put, htexts,
    hlinks]

end Registry

end RecordBridge

import RecordBridge.Proofs.Record.Json
import RecordBridge.Proofs.Record.Range
import RecordBridge.Proofs.Text.FixedBuffer
/-!
# Records that JSON describes

A value describes a record when it gives each field but the link a value in the range of
the field (`Json.Describes`). Such a value is what some plain record shows, but for
integers from 2^63 on: they fill a slot of 64 signed bits and come back negative
(`Json.signed`). As reading does not tell the two apart (`fillJson_signed`), a described
record is read, and shown as the value with its integers signed
(`recordOfJson_described`).
-/
namespace RecordBridge

namespace Json

/-! ## Entries in key order -/

theorem mem_insert {key other : String} {value old : Json} : ∀ {sorted : List (String × Json)},
    (other, old) ∈ insert key value sorted → other = key ∨ (other, old) ∈ sorted
  | [], h => .inl (congrArg Prod.fst (List.mem_singleton.1 h))
  | (first, held) :: rest, h => by
    rw [insert] at h
    split at h
    · exact (List.mem_cons.1 h).imp_left fun he => congrArg Prod.fst he
    split at h
    · rcases List.mem_cons.1 h with he | h
      · exact .inl (congrArg Prod.fst he)
      · exact .inr (List.mem_cons_of_mem _ h)
    · rcases List.mem_cons.1 h with he | h
      · exact .inr (he ▸ List.mem_cons_self)
      · exact (mem_insert h).imp_right (List.mem_cons_of_mem _)

theorem pairwise_insert (key : String) (value : Json) : ∀ {sorted : List (String × Json)},
    sorted.Pairwise (·.1 < ·.1) → (insert key value sorted).Pairwise (·.1 < ·.1)
  | [], _ => List.pairwise_singleton _ _
  | (other, old) :: rest, h => by
    obtain ⟨hother, hrest⟩ := List.pairwise_cons.1 h
    rw [insert]
    split
    · next hlt =>
      refine List.pairwise_cons.2 ⟨List.forall_mem_cons.2 ⟨hlt, fun entry he => ?_⟩, h⟩
      exact hlt.trans (hother entry he)
    split
    · next heq => exact List.pairwise_cons.2 ⟨fun entry he => heq ▸ hother entry he, hrest⟩
    · next hlt hne =>
      refine List.pairwise_cons.2 ⟨fun entry he => ?_, pairwise_insert key value hrest⟩
      rcases mem_insert he with rfl | he
      · exact lt_of_le_of_ne (not_lt.1 hlt) (Ne.symm hne)
      · exact hother entry he

theorem pairwise_sortEntries (entries : List (String × Json)) :
    (sortEntries entries).Pairwise (·.1 < ·.1) := by
  have general : ∀ (entries sorted : List (String × Json)), sorted.Pairwise (·.1 < ·.1) →
      (entries.foldl (fun sorted entry => insert entry.1 entry.2 sorted) sorted).Pairwise
        (·.1 < ·.1) := by
    intro entries
    induction entries with
    | nil => exact fun _ h => h
    | cons entry entries ih => exact fun sorted h => ih _ (pairwise_insert _ _ h)
  exact general entries [] .nil

/-- Sorting entries with distinct keys gives the one list in key order that has them. -/
theorem sortEntries_eq {entries sorted : List (String × Json)}
    (hkeys : (entries.map Prod.fst).Nodup) (hsorted : sorted.Pairwise (·.1 < ·.1))
    (hmem : ∀ entry, entry ∈ entries ↔ entry ∈ sorted) : sortEntries entries = sorted := by
  have hnodup : sorted.Nodup := hsorted.imp fun hlt he => (lt_irrefl _ (he ▸ hlt)).elim
  have hperm : (sortEntries entries).Perm sorted :=
    (sortEntries_perm hkeys).trans ((List.perm_ext_iff_of_nodup hkeys.of_map hnodup).2 hmem)
  exact hperm.eq_of_pairwise (fun _ _ _ _ hlt hgt => (lt_asymm hlt hgt).elim)
    (pairwise_sortEntries entries) hsorted

/-! ## Integers of 64 bits, signed -/

/-- The signed integer with the same 64 bits. -/
def signedInteger (n : Int) : Int := if n < 2 ^ 63 then n else n - 2 ^ 64

mutual

/-- A value with its integers signed. -/
def signed : Json → Json
  | .integer n => .integer (signedInteger n)
  | .array items => .array (signedItems items)
  | .object entries => .object (signedEntries entries)
  | .null => .null
  | .bool value => .bool value
  | .decimal literal => .decimal literal
  | .string value => .string value
  | .unreadable => .unreadable

/-- The items of an array, with their integers signed. -/
def signedItems : List Json → List Json
  | [] => []
  | item :: rest => signed item :: signedItems rest

/-- The entries of an object, with their integers signed. -/
def signedEntries : List (String × Json) → List (String × Json)
  | [] => []
  | (key, value) :: rest => (key, signed value) :: signedEntries rest

end

mutual

/-- The integers in a value. -/
def integers : Json → List Int
  | .integer n => [n]
  | .array items => integersItems items
  | .object entries => integersEntries entries
  | _ => []

/-- The integers in the items of an array. -/
def integersItems : List Json → List Int
  | [] => []
  | item :: rest => integers item ++ integersItems rest

/-- The integers in the entries of an object. -/
def integersEntries : List (String × Json) → List Int
  | [] => []
  | (_, value) :: rest => integers value ++ integersEntries rest

end

theorem signedItems_eq : ∀ items : List Json, signedItems items = items.map signed
  | [] => rfl
  | item :: rest => congrArg (signed item :: ·) (signedItems_eq rest)

theorem signedEntries_eq : ∀ entries : List (String × Json),
    signedEntries entries = entries.map fun entry => (entry.1, signed entry.2)
  | [] => rfl
  | (key, value) :: rest => congrArg ((key, signed value) :: ·) (signedEntries_eq rest)

theorem signedInteger_eq_self_iff {n : Int} : signedInteger n = n ↔ n < 2 ^ 63 := by
  unfold signedInteger
  split <;> omega

mutual

/-- Only integers from 2^63 on are changed. -/
theorem signed_eq_self_iff : ∀ value : Json, signed value = value ↔ ∀ n ∈ integers value, n < 2 ^ 63
  | .integer n => by simp [signed, integers, signedInteger_eq_self_iff]
  | .array items => by
    rw [signed, integers, ← signedItems_eq_self_iff items, Json.array.injEq]
  | .object entries => by
    rw [signed, integers, ← signedEntries_eq_self_iff entries, Json.object.injEq]
  | .null | .bool _ | .decimal _ | .string _ | .unreadable => by simp [signed, integers]

theorem signedItems_eq_self_iff : ∀ items : List Json,
    signedItems items = items ↔ ∀ n ∈ integersItems items, n < 2 ^ 63
  | [] => by simp [signedItems, integersItems]
  | item :: rest => by
    rw [signedItems, integersItems, List.cons.injEq, List.forall_mem_append,
      signed_eq_self_iff item, signedItems_eq_self_iff rest]

theorem signedEntries_eq_self_iff : ∀ entries : List (String × Json),
    signedEntries entries = entries ↔ ∀ n ∈ integersEntries entries, n < 2 ^ 63
  | [] => by simp [signedEntries, integersEntries]
  | (key, value) :: rest => by
    rw [signedEntries, integersEntries, List.cons.injEq, List.forall_mem_append, Prod.mk.injEq,
      signed_eq_self_iff value, signedEntries_eq_self_iff rest]
    simp

end

end Json

theorem toInt_ofInt_eq_signedInteger {n : Int} (hlow : -2 ^ 63 ≤ n) (hhigh : n < 2 ^ 64) :
    (Int64.ofInt n).toInt = Json.signedInteger n := by
  rw [Int64.toInt_ofInt, Int.bmod_def, Json.signedInteger]
  simp only [Int64.size]
  split <;> split <;> omega

theorem ofInt_signedInteger (n : Int) : Int64.ofInt (Json.signedInteger n) = Int64.ofInt n := by
  rw [← Int64.toInt_inj, Int64.toInt_ofInt, Int64.toInt_ofInt, Json.signedInteger]
  split
  · rfl
  · simp only [Int.bmod_def, Int64.size]
    split <;> split <;> omega

/-! ## Values in the range of a field -/

namespace Json

/-- A value gives all that a field of a kind holds: an integer or a text in the range of
the field, an object with one entry for each field of a record but its link, or a list of
such objects. Entries are in key order. -/
inductive Describes (layouts : LayoutSet) : Json → FieldKind → Prop where
  | int {n : Int} {width : UInt8} {signed : Bool} (range : FieldKind.InRange width signed n) :
      Describes layouts (.integer n) (.int width signed)
  | bool (flag : Bool) : Describes layouts (.bool flag) .bool
  | fixedText {text : String} {kind : FieldKind} {length : Nat}
      (kind_length : kind.textLength? = some length) (no_nul : '\x00' ∉ text.toList)
      (fits : text.utf8ByteSize ≤ length) : Describes layouts (.string text) kind
  | null : Describes layouts .null .ownedText
  | ownedText (text : String) : Describes layouts (.string text) .ownedText
  | nested {entries : List (String × Json)} {layout : Layout} {id : LayoutId}
      (known : layouts.get? id = some layout) (sorted : entries.Pairwise (·.1 < ·.1))
      (named : ∀ name, name ∈ entries.map Prod.fst ↔ ∃ index field,
        layout.fields[index]? = some field ∧ layout.linkIndex? ≠ some index ∧ field.name = name)
      (values : ∀ field ∈ layout.fields, ∀ value, (field.name, value) ∈ entries →
        Describes layouts value field.kind) : Describes layouts (.object entries) (.nested id)
  | array {items : List Json} {id : LayoutId} {count : UInt64} (length : items.length = count.toNat)
      (each : ∀ item ∈ items, Describes layouts item (.nested id)) :
      Describes layouts (.array items) (.array id count)
  | list {items : List Json} {id : LayoutId}
      (each : ∀ item ∈ items, Describes layouts item (.nested id)) :
      Describes layouts (.array items) (.list id)

end Json

namespace Record

/-! ## Reading does not tell the sign -/

variable {layouts : LayoutSet}

mutual

/-- A record is filled with signed integers as with those of 64 bits that they stand for. -/
theorem fillJson_signed : ∀ (value : Json) (record : Record),
    fillJson layouts value.signed record = fillJson layouts value record
  | .object entries, record => by
    rw [Json.signed, fillJson, fillJson, fillEntries_signed entries]
  | .integer _, _ | .array _, _ | .null, _ | .bool _, _ | .decimal _, _ | .string _, _
  | .unreadable, _ => by simp only [Json.signed, fillJson]

theorem fillEntries_signed : ∀ (entries : List (String × Json)) (record : Record),
    fillEntries layouts (Json.signedEntries entries) record = fillEntries layouts entries record
  | [], _ => rfl
  | (name, value) :: rest, record => by
    rw [Json.signedEntries, fillEntries, fillEntries]
    cases record.layout.field? name with
    | none => rfl
    | some field =>
      simp only [fillField_signed value, fillEntries_signed rest]

theorem fillField_signed : ∀ (value : Json) (field : Layout.Field) (record : Record),
    fillField layouts value.signed field record = fillField layouts value field record
  | .integer n, ⟨name, kind⟩, record => by
    cases kind <;> simp only [Json.signed, fillField, ofInt_signedInteger]
  | .object entries, ⟨name, kind⟩, record => by
    cases kind <;> simp only [Json.signed, fillField, fillEntries_signed entries]
  | .array items, ⟨name, kind⟩, record => by
    have hlen : (Json.signedItems items).length = items.length := by simp [Json.signedItems_eq]
    cases kind <;>
      simp only [Json.signed, fillField, hlen, fillElements_signed items, fillNodes_signed items]
  | .null, _, _ | .bool _, _, _ | .decimal _, _, _ | .string _, _, _ | .unreadable, _, _ => by
    rw [Json.signed]

theorem fillElements_signed : ∀ (items : List Json) (elements : List Record),
    fillElements layouts (Json.signedItems items) elements = fillElements layouts items elements
  | [], _ => rfl
  | item :: rest, [] => by rw [Json.signedItems, fillElements, fillElements] <;> simp
  | item :: rest, element :: elements => by
    rw [Json.signedItems, fillElements, fillElements, fillJson_signed item,
      fillElements_signed rest]

theorem fillNodes_signed : ∀ (items : List Json) {id node : LayoutId} {name : String},
    fillNodes layouts id name node (Json.signedItems items) = fillNodes layouts id name node items
  | [], _, _, _ => rfl
  | item :: rest, _, _, _ => by
    simp only [Json.signedItems, fillNodes, fillJson_signed item, fillNodes_signed rest]

end

/-! ## Records that are shown as a value -/

end Record

/-- A sound slot for a field that is plain and shown as a value. -/
structure Slot.Shows (layouts : LayoutSet) (kind : FieldKind) (value : Json) (slot : Slot) :
    Prop where
  suits : slot.Suits kind
  inside : ∀ inner ∈ slot.inner, inner.Sound layouts
  plain : slot.plain = slot
  json : Record.slotJson slot = value

namespace Record

variable {layouts : LayoutSet}

/-- A sound record of a layout that is plain, linked to nothing and shown as a value. -/
structure Shows (layouts : LayoutSet) (id : LayoutId) (value : Json) (record : Record) : Prop where
  sound : record.Sound layouts
  layoutId : record.layoutId = id
  unlinked : record.unlinked = record
  json : record.toJson = value

theorem shows_nested_iff {id : LayoutId} {value : Json} {slot : Slot} :
    slot.Shows layouts (.nested id) value ↔ ∃ record, slot = .record record ∧
      record.Shows layouts id value := by
  constructor
  · intro h
    obtain ⟨record, rfl, hid⟩ := Slot.fits_nested_iff.1 h.suits.fits
    have hplain := h.plain
    have hjson := h.json
    rw [Slot.plain, Slot.record.injEq] at hplain
    rw [slotJson] at hjson
    exact ⟨record, rfl, h.inside record (List.mem_singleton.2 rfl), hid, hplain, hjson⟩
  · rintro ⟨record, rfl, h⟩
    refine ⟨⟨by simp [Slot.fits, h.layoutId], rfl⟩, List.forall_mem_singleton.2 h.sound, ?_, ?_⟩
    · rw [Slot.plain, h.unlinked]
    · rw [slotJson, h.json]

theorem plain_put (record : Record) (index : Nat) (slot : Slot) :
    (record.put index slot).plain = record.plain.put index slot.plain := by
  cases record
  rw [put, put, plain, plain, layout_mk, slots_mk, layout_mk, slots_mk, List.map_set]

/-- Nodes that are plain and linked to nothing link up to a plain list. -/
theorem plain_linkUp : ∀ {nodes : List Record},
    (∀ node ∈ nodes, node.unlinked = node ∧ node.layout.linkIndex?.isSome) →
    (linkUp nodes).map plain = linkUp nodes
  | [], _ => rfl
  | node :: rest, h => by
    obtain ⟨⟨hnode, hlink⟩, hrest⟩ := List.forall_mem_cons.1 h
    obtain ⟨link, hl⟩ := Option.isSome_iff_exists.1 hlink
    rw [Record.unlinked, hl] at hnode
    rw [linkUp, hl, Option.getD_some, Option.map_some, plain_put, Slot.plain_link,
      plain_linkUp hrest]
    conv_rhs => rw [← hnode, put_put]

/-- A node is shown without its link, so it is shown as before it was linked. -/
theorem Relinked.toJson_eq {node linked : Record} (h : Relinked node linked)
    (hnames : (node.layout.fields.map (·.name)).Nodup) : linked.toJson = node.toJson := by
  rw [Record.toJson_eq, Record.toJson_eq, h.layout]
  refine congrArg _ (Json.sortEntries_eq (nodup_entries _ _ hnames)
    (Json.pairwise_sortEntries _) fun ⟨name, value⟩ => ?_)
  rw [(Json.sortEntries_perm (nodup_entries _ _ hnames)).mem_iff, mem_entries_iff,
    mem_entries_iff]
  refine exists_congr fun index => exists_congr fun field => exists_congr fun slot => ?_
  refine and_congr_right fun _ => ⟨?_, ?_⟩
  · rintro ⟨hs, hlink, hshown⟩
    exact ⟨(h.slot? index hlink).symm.trans hs, hlink, hshown⟩
  · rintro ⟨hs, hlink, hshown⟩
    exact ⟨(h.slot? index hlink).trans hs, hlink, hshown⟩

theorem map_toJson_eq {nodes linked : List Record} (h : List.Forall₂ Relinked nodes linked)
    (hnames : ∀ node ∈ nodes, (node.layout.fields.map (·.name)).Nodup) :
    linked.map toJson = nodes.map toJson := by
  induction h with
  | nil => rfl
  | cons hnode _ ih =>
    obtain ⟨hfirst, hrest⟩ := List.forall_mem_cons.1 hnames
    rw [List.map_cons, List.map_cons, hnode.toJson_eq hfirst, ih hrest]

/-- The records that items are shown as. -/
theorem exists_records {id : LayoutId} : ∀ {items : List Json},
    (∀ item ∈ items, ∃ slot : Slot, slot.Shows layouts (.nested id) item) →
    ∃ records : List Record, records.map toJson = items ∧
      ∀ record ∈ records, record.Shows layouts id record.toJson
  | [], _ => ⟨[], rfl, nofun⟩
  | item :: rest, h => by
    obtain ⟨⟨slot, hslot⟩, hrest⟩ := List.forall_mem_cons.1 h
    obtain ⟨record, rfl, hrecord⟩ := shows_nested_iff.1 hslot
    obtain ⟨records, rfl, hrecords⟩ := exists_records hrest
    have hjson := hrecord.json
    subst hjson
    exact ⟨record :: records, rfl, List.forall_mem_cons.2 ⟨hrecord, hrecords⟩⟩

/-- Records are shown by an array of them. -/
theorem shows_array {id : LayoutId} {count : UInt64} {records : List Record}
    (hlen : records.length = count.toNat)
    (h : ∀ record ∈ records, record.Shows layouts id record.toJson) :
    (Slot.array records).Shows layouts (.array id count) (.array (records.map toJson)) := by
  refine ⟨⟨?_, rfl⟩, fun inner hi => (h inner hi).sound, ?_, ?_⟩
  · exact Slot.fits_array_iff.2 ⟨records, rfl, hlen, fun record hr => (h record hr).layoutId⟩
  · rw [Slot.plain, List.map_congr_left fun record hr => (h record hr).unlinked, List.map_id']
  · rw [slotJson, allJson_eq]

/-- Records are shown by the list that links them up. -/
theorem shows_list (hset : layouts.Sound) {id : LayoutId}
    (hkind : Layout.KindSound layouts.layouts (.list id)) {records : List Record}
    (h : ∀ record ∈ records, record.Shows layouts id record.toJson) :
    (Slot.link (linkUp records)).Shows layouts (.list id) (.array (records.map toJson)) := by
  obtain ⟨node, hfound, hlink⟩ := hkind
  obtain ⟨hnode, hnid⟩ := mem_of_find?_key hfound
  have hlayout : ∀ record ∈ records, record.layout = node := fun record hr =>
    hset.eq_of_id_eq (h record hr).sound.known hnode ((h record hr).layoutId.trans hnid.symm)
  have hhead : ∀ head, linkUp records = some head → head.Sound layouts ∧ head.layoutId = id :=
    fun head => Sound.linkUp fun record hr => ⟨(h record hr).sound, (h record hr).layoutId⟩
  refine ⟨⟨?_, rfl⟩, fun inner hi => (hhead inner (Option.mem_toList.1 hi)).1, ?_, ?_⟩
  · exact Slot.fits_list_iff.2 ⟨_, rfl, fun head he => (hhead head he).2⟩
  · rw [Slot.plain_link, plain_linkUp fun record hr => ⟨(h record hr).unlinked, ?_⟩]
    rwa [hlayout record hr]
  · have hnodes := nodesOf_linkUp fun record hr =>
      (h record hr).sound.exists_link (by rwa [hlayout record hr])
    rw [slotJson, nodesJson_eq, map_toJson_eq hnodes fun record hr => ?_]
    exact (hset.fields _ (h record hr).sound.known).names

/-- A record with plain slots and a null link is plain and linked to nothing. -/
theorem unlinked_eq_self {record : Record} (hplain : ∀ slot ∈ record.slots, slot.plain = slot)
    (hlink : ∀ link, record.layout.linkIndex? = some link → record.slot? link = some (.link none)) :
    record.unlinked = record := by
  have hslots : record.plain = record := by
    obtain ⟨layout, slots⟩ := record
    rw [Record.plain]
    exact congrArg (mk layout) ((List.map_congr_left hplain).trans (List.map_id' slots))
  rw [unlinked, hslots]
  split
  · next link hl => exact put_slot? (hlink link hl)
  · rfl

section Entries

variable {layout : Layout} {entries : List (String × Json)}

/-- A link is null, and any other field has a slot that shows the value of its entry. -/
theorem exists_slot_of_entries (hnamed : ∀ name, name ∈ entries.map Prod.fst ↔ ∃ index field,
      layout.fields[index]? = some field ∧ layout.linkIndex? ≠ some index ∧ field.name = name)
    (hvalues : ∀ field ∈ layout.fields, ∀ value, (field.name, value) ∈ entries →
      ∃ slot : Slot, slot.Shows layouts field.kind value)
    {index : Nat} {field : Layout.Field} (hf : layout.fields[index]? = some field) :
    ∃ slot : Slot, slot.Suits field.kind ∧ (∀ inner ∈ slot.inner, inner.Sound layouts) ∧
      slot.plain = slot ∧ (layout.linkIndex? = some index → slot = .link none) ∧
      (layout.linkIndex? ≠ some index → (field.name, slotJson slot) ∈ entries) := by
  by_cases hlink : layout.linkIndex? = some index
  · obtain ⟨found, hfound, hkind⟩ := linkIndex?_eq_some hlink
    cases hf.symm.trans hfound
    refine ⟨.link none, ⟨by rw [hkind]; rfl, rfl⟩, List.forall_mem_nil _, by rw [Slot.plain],
      fun _ => rfl, ?_⟩
    exact fun hne => absurd hlink hne
  · have hkey := (hnamed field.name).2 ⟨index, _, hf, hlink, rfl⟩
    obtain ⟨⟨name, value⟩, hmem, hname⟩ := List.mem_map.1 hkey
    obtain rfl : name = field.name := hname
    obtain ⟨slot, hslot⟩ := hvalues field (List.mem_of_getElem? hf) value hmem
    refine ⟨slot, hslot.suits, hslot.inside, hslot.plain, fun h => absurd h hlink, fun _ => ?_⟩
    rwa [hslot.json]

/-- Entries for all fields but the link are shown by a record, if slots show their values. -/
theorem exists_shows (hset : layouts.Sound) (hlayout : layout ∈ layouts.layouts)
    (hsorted : entries.Pairwise (·.1 < ·.1))
    (hnamed : ∀ name, name ∈ entries.map Prod.fst ↔ ∃ index field,
      layout.fields[index]? = some field ∧ layout.linkIndex? ≠ some index ∧ field.name = name)
    (hvalues : ∀ field ∈ layout.fields, ∀ value, (field.name, value) ∈ entries →
      ∃ slot : Slot, slot.Shows layouts field.kind value) :
    ∃ record : Record, record.Shows layouts layout.id (.object entries) := by
  have hnames := (hset.fields layout hlayout).names
  have hkeys : (entries.map Prod.fst).Nodup :=
    List.pairwise_map.2 (hsorted.imp fun hlt => ne_of_lt hlt)
  have hslot := fun index : Fin layout.fields.length =>
    exists_slot_of_entries hnamed hvalues (List.getElem?_eq_getElem index.isLt)
  choose slot hsuits hinside hplain hlink hshown using hslot
  have hat : ∀ {index : Nat} (hi : index < layout.fields.length),
      (List.ofFn slot)[index]? = some (slot ⟨index, hi⟩) := fun hi => by
    rw [List.getElem?_ofFn, dif_pos hi]
  refine ⟨mk layout (List.ofFn slot), ⟨.intro hlayout ⟨?_, ?_⟩ ?_, rfl, ?_, ?_⟩⟩
  · simp
  · intro index field held hf hs
    obtain ⟨hi, rfl⟩ := List.getElem?_eq_some_iff.1 hf
    obtain rfl := Option.some.inj ((hat hi).symm.trans hs)
    exact hsuits ⟨index, hi⟩
  · intro inner hi
    obtain ⟨held, hs, hi⟩ := mem_inner.1 hi
    obtain ⟨index, rfl⟩ := (List.mem_ofFn' _ _).1 hs
    exact hinside index inner hi
  · refine unlinked_eq_self (fun held hs => ?_) fun link hl => ?_
    · obtain ⟨index, rfl⟩ := (List.mem_ofFn' _ _).1 hs
      exact hplain index
    · obtain ⟨field, hf, -⟩ := linkIndex?_eq_some hl
      have hi : link < layout.fields.length := (List.getElem?_eq_some_iff.1 hf).1
      exact (hat hi).trans (congrArg some (hlink ⟨link, hi⟩ hl))
  · rw [toJson_eq, layout_mk, slots_mk]
    refine congrArg _ (Json.sortEntries_eq (nodup_entries _ _ hnames) hsorted ?_)
    rintro ⟨name, value⟩
    rw [mem_entries_iff]
    constructor
    · rintro ⟨index, field, held, hf, hs, hne, rfl, rfl⟩
      obtain ⟨hi, rfl⟩ := List.getElem?_eq_some_iff.1 hf
      obtain rfl := Option.some.inj ((hat hi).symm.trans hs)
      exact hshown ⟨index, hi⟩ hne
    · intro hmem
      obtain ⟨index, field, hf, hne, rfl⟩ := (hnamed name).1 (List.mem_map.2 ⟨_, hmem, rfl⟩)
      obtain ⟨hi, rfl⟩ := List.getElem?_eq_some_iff.1 hf
      -- the record has an entry of this name, and entries have distinct names
      have hsame := List.inj_on_of_nodup_map hkeys (hshown ⟨index, hi⟩ hne) hmem rfl
      exact ⟨index, _, _, hf, hat hi, hne, rfl, congrArg Prod.snd hsame⟩

end Entries

end Record

namespace Json.Describes

open Record

variable {layouts : LayoutSet} {kind : FieldKind} {value : Json}

/-- What a value describes is shown as the value with its integers signed. -/
theorem exists_slot (hset : layouts.Sound) (h : value.Describes layouts kind)
    (hkind : Layout.KindSound layouts.layouts kind) :
    ∃ slot : Slot, slot.Shows layouts kind value.signed := by
  induction h with
  | @int n width signed range =>
    obtain ⟨hlow, hhigh⟩ := range.bounds hkind.2
    refine ⟨.int (Int64.ofInt n), ⟨rfl, ?_⟩, List.forall_mem_nil _, by rw [Slot.plain], ?_⟩
    · rw [Slot.stored, range.wrapInt_eq]
    · rw [slotJson, Json.signed, toInt_ofInt_eq_signedInteger hlow hhigh]
  | bool flag =>
    exact ⟨.bool flag, ⟨rfl, rfl⟩, List.forall_mem_nil _, by rw [Slot.plain],
      by rw [slotJson, Json.signed]⟩
  | @fixedText text kind length kind_length no_nul fits =>
    have hread := readText_packText_of_fits no_nul fits
    refine ⟨.bytes (packText text length), ⟨?_, ?_⟩, List.forall_mem_nil _, ?_, ?_⟩
    · simp [Slot.fits, kind_length, length_packText]
    · cases kind <;> rfl
    · rw [Slot.plain, hread, length_packText]
    · rw [slotJson, hread, Json.signed]
  | null =>
    refine ⟨.text none, ⟨rfl, rfl⟩, List.forall_mem_nil _, by rw [Slot.plain], ?_⟩
    rw [slotJson, Json.signed, Option.elim_none]
  | ownedText text =>
    refine ⟨.text (some text), ⟨rfl, rfl⟩, List.forall_mem_nil _, by rw [Slot.plain], ?_⟩
    rw [slotJson, Json.signed, Option.elim_some]
  | @nested entries layout id known sorted named values ih =>
    obtain ⟨hlayout, rfl⟩ := LayoutSet.mem_of_get? known
    have hkinds := (hset.fields layout hlayout).kinds
    obtain ⟨record, hrecord⟩ : ∃ record : Record, record.Shows layouts layout.id
        (.object (signedEntries entries)) := by
      rw [signedEntries_eq]
      refine exists_shows hset hlayout (List.pairwise_map.2 sorted) (by simpa using named) ?_
      intro field hf value hm
      obtain ⟨⟨name, given⟩, hgiven, he⟩ := List.mem_map.1 hm
      obtain ⟨rfl, rfl⟩ := Prod.mk.injEq _ _ _ _ ▸ he
      exact ih field hf given hgiven (hkinds field hf)
    exact ⟨.record record, shows_nested_iff.2 ⟨record, rfl, by rwa [Json.signed]⟩⟩
  | @array items id count length each ih =>
    obtain ⟨records, hjson, hrecords⟩ := @exists_records layouts id (items.map signed)
      (List.forall_mem_map.2 fun item hi => ih item hi hkind.1)
    refine ⟨.array records, ?_⟩
    rw [Json.signed, signedItems_eq, ← hjson]
    refine shows_array ?_ hrecords
    rw [← length, ← List.length_map (f := toJson), hjson, List.length_map]
  | @list items id each ih =>
    have hnode : Layout.KindSound layouts.layouts (.nested id) := by
      obtain ⟨node, hfound, -⟩ := hkind
      exact Option.isSome_iff_exists.2 ⟨node, hfound⟩
    obtain ⟨records, hjson, hrecords⟩ := @exists_records layouts id (items.map signed)
      (List.forall_mem_map.2 fun item hi => ih item hi hnode)
    refine ⟨.link (linkUp records), ?_⟩
    rw [Json.signed, signedItems_eq, ← hjson]
    exact shows_list hset hkind hrecords

end Json.Describes

namespace Registry

variable {registry : Registry} {opcode : UInt16} {layout : Layout} {value : Json}

/-- A described record is read from JSON and shown as the same JSON, but for integers
from 2^63 on, which come back negative. -/
theorem recordOfJson_described {layouts : List Layout} {schemas : List Schema}
    {descriptors : List Descriptor} (hreg : ofLists layouts schemas descriptors = .ok registry)
    (hlayout : registry.layout? opcode = some layout)
    (hvalue : value.Describes registry.layouts (.nested layout.id)) :
    ∃ record, registry.recordOfJson opcode value = .ok record ∧ record.toJson = value.signed ∧
      (record.toJson = value ↔ ∀ n ∈ value.integers, n < 2 ^ 63) := by
  have h := sound_of_ofLists hreg
  obtain ⟨hmem, zero, hrecord, hzero⟩ := h.exists_record?_of_layout? hlayout
  have hkind : Layout.KindSound registry.layouts.layouts (.nested layout.id) :=
    Layout.isSome_find?_iff.2 ⟨layout, hmem, rfl⟩
  obtain ⟨slot, hslot⟩ := hvalue.exists_slot h.layouts hkind
  obtain ⟨record, rfl, hshows⟩ := Record.shows_nested_iff.1 hslot
  have hfill : Record.fillJson registry.layouts value zero = .ok record := by
    rw [← Record.fillJson_signed, ← hshows.json, Record.fillJson_toJson h.layouts hshows.sound
      (hshows.layoutId.symm ▸ hzero), hshows.unlinked]
  refine ⟨record, ?_, hshows.json, ?_⟩
  · rw [recordOfJson, hrecord]
    exact hfill
  · rw [hshows.json, Json.signed_eq_self_iff]

/-! ### Readings of a meter -/

def readingLayout : Layout :=
  ⟨"reading", [⟨"count", .int 8 false⟩, ⟨"next", .list "reading"⟩]⟩

def meterLayout : Layout :=
  ⟨"meter", [⟨"label", .fixedText 3⟩, ⟨"low", .int 1 true⟩, ⟨"pair", .array "reading" 2⟩,
    ⟨"readings", .list "reading"⟩]⟩

/-- Opcode 1 carries readings, and opcode 2 meters. -/
def meterRegistry : Registry where
  layouts := ⟨[readingLayout, meterLayout], [meterLayout, readingLayout],
    [("meter", 44), ("reading", 16)], by decide⟩
  schemas := ⟨[⟨"Reading", []⟩]⟩
  rows := [⟨⟨1, "reading", "Reading", none⟩, ⟨[]⟩⟩, ⟨⟨2, "meter", "Reading", none⟩, ⟨[]⟩⟩]

theorem ofLists_meter : ofLists [readingLayout, meterLayout] [⟨"Reading", []⟩]
    [⟨1, "reading", "Reading", none⟩, ⟨2, "meter", "Reading", none⟩] = .ok meterRegistry := by
  cbv

def reading (count : Int) : Json := .object [("count", .integer count)]

def meter (label : String) (low : Int) (pair readings : List Json) : Json :=
  .object [("label", .string label), ("low", .integer low), ("pair", .array pair),
    ("readings", .array readings)]

theorem describes_reading {count : Int} (h : 0 ≤ count ∧ count < 2 ^ 64) :
    (reading count).Describes meterRegistry.layouts (.nested "reading") := by
  refine .nested (show meterRegistry.layouts.get? "reading" = some readingLayout from rfl)
    (List.pairwise_singleton _ _) (fun name => ⟨fun hname => ?_, ?_⟩) ?_
  · obtain rfl := List.mem_singleton.1 hname
    exact ⟨0, _, rfl, by decide, rfl⟩
  · rintro ⟨index, field, hf, hne, rfl⟩
    match index, hf with
    | 0, rfl => exact List.mem_singleton.2 rfl
    | 1, _ => exact absurd (by decide) hne
  · intro field hf value hm
    obtain ⟨hname, rfl⟩ := Prod.mk.injEq _ _ _ _ ▸ List.mem_singleton.1 hm
    rcases List.mem_pair.1 hf with rfl | rfl
    · exact .int h
    · exact absurd hname (by decide)

theorem describes_meter {label : String} {low : Int} {pair readings : List Json}
    (hlabel : '\x00' ∉ label.toList ∧ label.utf8ByteSize ≤ 3) (hlow : -128 ≤ low ∧ low < 128)
    (hpair : pair.length = 2)
    (heach : ∀ item ∈ pair ++ readings, item.Describes meterRegistry.layouts (.nested "reading")) :
    (meter label low pair readings).Describes meterRegistry.layouts (.nested "meter") := by
  have hkeys : ["label", "low", "pair", "readings"].Pairwise (· < ·) := by decide
  have hlink : meterLayout.linkIndex? = none := by decide
  obtain ⟨hpairs, hreadings⟩ := List.forall_mem_append.1 heach
  refine .nested (show meterRegistry.layouts.get? "meter" = some meterLayout from rfl)
    (List.pairwise_map.1 hkeys) (fun name => ?_) ?_
  · have hnames : name ∈ meterLayout.fields.map (·.name) ↔ _ := List.mem_map
    refine hnames.trans ⟨?_, ?_⟩
    · rintro ⟨field, hf, rfl⟩
      obtain ⟨index, hi⟩ := List.mem_iff_getElem?.1 hf
      exact ⟨index, field, hi, by simp [hlink], rfl⟩
    · rintro ⟨index, field, hf, -, rfl⟩
      exact ⟨field, List.mem_of_getElem? hf, rfl⟩
  · intro field hf value hm
    simp only [meterLayout, List.mem_cons, List.not_mem_nil, or_false] at hf
    rcases hf with rfl | rfl | rfl | rfl <;> simp at hm <;> subst hm
    · exact .fixedText rfl hlabel.1 hlabel.2
    · exact .int hlow
    · exact .array hpair hpairs
    · exact .list hreadings

/-- A meter with readings at the limits of signed integers is read and shown as it is. -/
theorem recordOfJson_meter :
    ofLists [readingLayout, meterLayout] [⟨"Reading", []⟩]
        [⟨1, "reading", "Reading", none⟩, ⟨2, "meter", "Reading", none⟩] = .ok meterRegistry ∧
      meterRegistry.layout? 2 = some meterLayout ∧
      (meter "€" (-128) [reading 0, reading (2 ^ 63 - 1)] [reading 5]).Describes
        meterRegistry.layouts (.nested meterLayout.id) ∧
      ∃ record, meterRegistry.recordOfJson 2
          (meter "€" (-128) [reading 0, reading (2 ^ 63 - 1)] [reading 5]) = .ok record ∧
        record.toJson = meter "€" (-128) [reading 0, reading (2 ^ 63 - 1)] [reading 5] := by
  have hlayout : meterRegistry.layout? 2 = some meterLayout := by cbv
  have hdescribes : (meter "€" (-128) [reading 0, reading (2 ^ 63 - 1)] [reading 5]).Describes
      meterRegistry.layouts (.nested meterLayout.id) := by
    refine describes_meter ⟨by decide, by decide⟩ (by decide) rfl fun item hi => ?_
    simp only [List.cons_append, List.nil_append, List.mem_cons, List.not_mem_nil, or_false] at hi
    rcases hi with rfl | rfl | rfl <;> exact describes_reading (by decide)
  obtain ⟨record, hread, -, hsame⟩ := recordOfJson_described ofLists_meter hlayout hdescribes
  refine ⟨ofLists_meter, hlayout, hdescribes, record, hread, hsame.2 ?_⟩
  simp [meter, reading, Json.integers, Json.integersItems, Json.integersEntries]

/-- A reading of 2^64 - 1 is read, and comes back as -1. -/
theorem reading_comes_back_negative :
    ofLists [readingLayout, meterLayout] [⟨"Reading", []⟩]
        [⟨1, "reading", "Reading", none⟩, ⟨2, "meter", "Reading", none⟩] = .ok meterRegistry ∧
      meterRegistry.layout? 1 = some readingLayout ∧
      (reading (2 ^ 64 - 1)).Describes meterRegistry.layouts (.nested readingLayout.id) ∧
      ∃ record, meterRegistry.recordOfJson 1 (reading (2 ^ 64 - 1)) = .ok record ∧
        record.toJson = reading (-1) ∧ record.toJson ≠ reading (2 ^ 64 - 1) := by
  have hshown : (Record.mk readingLayout [.int (-1), .link none]).toJson = reading (-1) := by cbv
  refine ⟨ofLists_meter, by cbv, describes_reading (by decide), _, by cbv, hshown, ?_⟩
  rw [hshown]
  simp [reading]

end Registry

end RecordBridge

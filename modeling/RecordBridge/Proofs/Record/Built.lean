import RecordBridge.Proofs.Record.Lists
/-!
# Records that were built

A record is built in a set when it came about from zero records of the set by
the operations on records: writing slots, linking lists, and changing or taking
out what is inside. Such records are sound (`Built.sound`).
-/
namespace RecordBridge.Record

/-- A record that came about by operations on zero records of the set. -/
inductive Built (set : LayoutSet) : Record → Prop where
  | allocate {id : LayoutId} {record : Record} (made : set.allocate id = .ok record) :
      Built set record
  | setSlot {record changed : Record} {index : Nat} {slot : Slot} (built : Built set record)
      (inside : ∀ inner ∈ slot.inner, Built set inner)
      (made : record.setSlot index slot = .ok changed) : Built set changed
  | setInt {record changed : Record} {name : String} {value : Int64} (built : Built set record)
      (made : record.setInt name value = .ok changed) : Built set changed
  | setBool {record changed : Record} {name : String} {value : Bool} (built : Built set record)
      (made : record.setBool name value = .ok changed) : Built set changed
  | setFixedText {record changed : Record} {name text : String} (built : Built set record)
      (made : record.setFixedText name text = .ok changed) : Built set changed
  | setOwnedText {record changed : Record} {name : String} {text : Option String}
      (built : Built set record)
      (made : record.setOwnedText name text = .ok changed) : Built set changed
  | setListAt {record changed : Record} {index : Nat} {nodes : List Record}
      (built : Built set record) (inside : ∀ node ∈ nodes, Built set node)
      (made : record.setListAt index nodes = .ok changed) : Built set changed
  | setList {record changed : Record} {name : String} {nodes : List Record}
      (built : Built set record) (inside : ∀ node ∈ nodes, Built set node)
      (made : record.setList name nodes = .ok changed) : Built set changed
  | modifyNested {record changed : Record} {name : String}
      {f : Record → Except LayoutError Record} (built : Built set record)
      (keeps : ∀ before after, f before = .ok after → after.layoutId = before.layoutId)
      (inside : ∀ before after, before ∈ record.inner → f before = .ok after → Built set after)
      (made : record.modifyNested name f = .ok changed) : Built set changed
  | modifyElement {record changed : Record} {name : String} {position : Nat}
      {f : Record → Except LayoutError Record} (built : Built set record)
      (keeps : ∀ before after, f before = .ok after → after.layoutId = before.layoutId)
      (inside : ∀ before after, before ∈ record.inner → f before = .ok after → Built set after)
      (made : record.modifyElement name position f = .ok changed) : Built set changed
  | inside {record inner : Record} (built : Built set record) (taken : inner ∈ record.inner) :
      Built set inner

variable {set : LayoutSet} {record changed : Record}

theorem setSlot_eq_ok_iff {index : Nat} {slot : Slot} : record.setSlot index slot = .ok changed ↔
    ∃ field, record.layout.fields[index]? = some field ∧ slot.fits field.kind ∧
      record.put index (slot.stored field.kind) = changed := by
  unfold setSlot
  cases record.layout.fields[index]? with
  | none => simp
  | some field => by_cases hf : slot.fits field.kind <;> simp [hf]

theorem setListAt_eq_ok_iff {index : Nat} {nodes : List Record} :
    record.setListAt index nodes = .ok changed ↔
    ∃ field id, record.layout.fields[index]? = some field ∧ field.kind = .list id ∧
      (∀ node ∈ nodes, node.layoutId = id ∧ node.layout.linkIndex?.isSome) ∧
      record.put index (.link (linkUp nodes)) = changed := by
  unfold setListAt
  cases hf : record.layout.fields[index]? with
  | none => simp
  | some field =>
    cases hk : field.kind with
    | list id =>
      simp only [hk, bind_eq_ok, pure_eq_ok, chain_eq_ok_iff]
      constructor
      · rintro ⟨head, ⟨hnodes, rfl⟩, rfl⟩
        exact ⟨field, id, rfl, hk, hnodes, rfl⟩
      · rintro ⟨field', id', hf', hk', hnodes, rfl⟩
        cases hf'
        rw [hk] at hk'
        cases hk'
        exact ⟨_, ⟨hnodes, rfl⟩, rfl⟩
    | _ => simp [hk]

namespace Sound

theorem setSlot (h : record.Sound set) {index : Nat} {slot : Slot}
    (hin : ∀ inner ∈ slot.inner, inner.Sound set)
    (hset : record.setSlot index slot = .ok changed) : changed.Sound set := by
  obtain ⟨field, hf, hfits, rfl⟩ := setSlot_eq_ok_iff.1 hset
  refine h.put (fun other ho => ?_) (by rwa [Slot.inner_stored])
  rw [hf] at ho
  cases ho
  exact Slot.suits_stored hfits

theorem setListAt (h : record.Sound set) {index : Nat} {nodes : List Record}
    (hin : ∀ node ∈ nodes, node.Sound set)
    (hset : record.setListAt index nodes = .ok changed) : changed.Sound set := by
  obtain ⟨field, id, hf, hk, hnodes, rfl⟩ := setListAt_eq_ok_iff.1 hset
  have hall : ∀ node ∈ nodes, node.Sound set ∧ node.layoutId = id :=
    fun node hm => ⟨hin node hm, (hnodes node hm).1⟩
  refine h.put (fun other ho => ⟨?_, rfl⟩) fun inner hi => ?_
  · rw [hf] at ho
    cases ho
    rw [hk]
    cases hl : Record.linkUp nodes with
    | none => rfl
    | some head => simp [Slot.fits, (linkUp hall hl).2]
  · rw [Slot.inner, Option.mem_toList] at hi
    exact (linkUp hall hi).1

theorem modifyNested (h : record.Sound set) {name : String}
    {f : Record → Except LayoutError Record}
    (hkeeps : ∀ before after, f before = .ok after → after.layoutId = before.layoutId)
    (hin : ∀ before after, before ∈ record.inner → f before = .ok after → after.Sound set)
    (hset : record.modifyNested name f = .ok changed) : changed.Sound set := by
  obtain ⟨index, -, hset⟩ := bind_eq_ok.1 hset
  split at hset
  · next before hs =>
    obtain ⟨after, ha, hset⟩ := bind_eq_ok.1 hset
    cases hset
    have hmem := mem_inner.2 ⟨_, List.mem_of_getElem? hs, List.mem_singleton.2 rfl⟩
    refine h.put (fun field hf => ⟨?_, rfl⟩) (List.forall_mem_singleton.2 (hin _ _ hmem ha))
    have hfits := (h.fits.suits index field _ hf hs).fits
    cases hk : field.kind with
    | nested id =>
      simp only [hk, Slot.fits, beq_iff_eq] at hfits ⊢
      exact (hkeeps _ _ ha).trans hfits
    | _ => rw [hk] at hfits; cases hfits
  · cases hset

theorem modifyElement (h : record.Sound set) {name : String} {position : Nat}
    {f : Record → Except LayoutError Record}
    (hkeeps : ∀ before after, f before = .ok after → after.layoutId = before.layoutId)
    (hin : ∀ before after, before ∈ record.inner → f before = .ok after → after.Sound set)
    (hset : record.modifyElement name position f = .ok changed) : changed.Sound set := by
  obtain ⟨index, -, hset⟩ := bind_eq_ok.1 hset
  split at hset
  · next elements hs =>
    split at hset
    · next before hb =>
      obtain ⟨after, ha, hset⟩ := bind_eq_ok.1 hset
      cases hset
      have hslot := List.mem_of_getElem? hs
      have hmem := List.mem_of_getElem? hb
      refine h.put (fun field hf => ⟨?_, rfl⟩) fun inner hi => ?_
      · have hfits := (h.fits.suits index field _ hf hs).fits
        cases hk : field.kind with
        | array id count =>
          simp only [hk, Slot.fits, Bool.and_eq_true, List.all_eq_true, beq_iff_eq] at hfits ⊢
          refine ⟨by simpa using hfits.1, fun element he => ?_⟩
          rcases List.mem_or_eq_of_mem_set he with he | rfl
          · exact hfits.2 element he
          · exact (hkeeps _ _ ha).trans (hfits.2 before hmem)
        | _ => rw [hk] at hfits; cases hfits
      · rcases List.mem_or_eq_of_mem_set hi with hi | rfl
        · exact h.inside (mem_inner.2 ⟨_, hslot, hi⟩)
        · exact hin before _ (mem_inner.2 ⟨_, hslot, hmem⟩) ha
    · cases hset
  · cases hset

end Sound

/-- Whatever is built in a set is sound there. -/
theorem Built.sound (hset : set.Sound) (h : Built set record) : record.Sound set := by
  induction h with
  | allocate made => exact allocate_sound hset made
  | setSlot _ _ made ih ihin => exact ih.setSlot ihin made
  | setInt _ made ih =>
    obtain ⟨index, -, made⟩ := bind_eq_ok.1 made
    refine ih.setSlot ?_ made
    exact nofun
  | setBool _ made ih =>
    obtain ⟨index, -, made⟩ := bind_eq_ok.1 made
    refine ih.setSlot ?_ made
    exact nofun
  | setFixedText _ made ih =>
    obtain ⟨index, -, made⟩ := bind_eq_ok.1 made
    split at made
    · refine ih.setSlot ?_ made
      exact nofun
    · cases made
  | setOwnedText _ made ih =>
    obtain ⟨index, -, made⟩ := bind_eq_ok.1 made
    refine ih.setSlot ?_ made
    exact nofun
  | setListAt _ _ made ih ihin => exact ih.setListAt ihin made
  | setList _ _ made ih ihin =>
    obtain ⟨index, -, made⟩ := bind_eq_ok.1 made
    exact ih.setListAt ihin made
  | modifyNested _ keeps _ made ih ihin => exact ih.modifyNested keeps ihin made
  | modifyElement _ keeps _ made ih ihin => exact ih.modifyElement keeps ihin made
  | inside _ taken ih => exact ih.inside taken

end RecordBridge.Record

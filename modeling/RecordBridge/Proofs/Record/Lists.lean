import RecordBridge.Proofs.Record.Sound
/-!
# Linked lists

The nodes of a list are its head and the nodes of the list that the head is
linked to (`nodes_eq`); in a sound record they are sound records of the layout
of the list. `Record.linkUp` links nodes in order; it is what `Record.chain`
does with nodes that can be linked (`chain_eq_ok_iff`).
-/
namespace RecordBridge.Record

/-! ## Walking the links -/

theorem nodesAt_eq : ∀ (slots : List Slot) (index : Nat),
    nodesAt index slots = slots[index]?.elim [] nodesOf
  | [], index => by simp [nodesAt]
  | slot :: rest, 0 => rfl
  | slot :: rest, index + 1 => by
    rw [nodesAt, nodesAt_eq rest index]
    rfl

theorem nodesOf_link (head : Option Record) : nodesOf (.link head) = head.elim [] nodes := by
  cases head <;> rfl

/-- The nodes from a record on: itself, and those from the next one on. -/
theorem nodes_eq (record : Record) : record.nodes = record :: record.next?.elim [] nodes := by
  obtain ⟨layout, slots⟩ := record
  rw [nodes, nodesAt_eq]
  congr 1
  unfold next? slot?
  dsimp only [layout_mk, slots_mk]
  cases layout.linkIndex? with
  | none => simp
  | some index =>
    cases h : slots[index]? with
    | none => simp [h]
    | some slot =>
      cases slot with
      | link head => simp [h, nodesOf_link]
      | _ => simp [h, nodesOf]

/-- The next node is in the link of a node. -/
theorem link_mem_slots {record head : Record} (h : record.next? = some head) :
    .link (some head) ∈ record.slots := by
  simp only [next?, Option.bind_eq_bind, Option.bind_eq_some_iff] at h
  obtain ⟨index, -, slot, hs, h⟩ := h
  cases slot with
  | link found =>
    dsimp only at h
    exact h ▸ List.mem_of_getElem? hs
  | _ => cases h

theorem linkIndex?_eq_some {layout : Layout} {index : Nat} (h : layout.linkIndex? = some index) :
    ∃ field, layout.fields[index]? = some field ∧ field.kind = .list layout.id := by
  obtain ⟨hi, hlink, -⟩ := List.findIdx?_eq_some_iff_getElem.1 h
  refine ⟨_, List.getElem?_eq_getElem hi, ?_⟩
  simpa [Layout.isLink] using hlink

/-! ## Linking nodes -/

/-- The first of some nodes, each linked to the one after it. -/
def linkUp : List Record → Option Record
  | [] => none
  | node :: rest =>
    some (node.put (node.layout.linkIndex?.getD node.slots.length) (.link (linkUp rest)))

/-- Nodes are chained when all are of the layout and have a link. -/
theorem chain_eq_ok_iff {layout : LayoutId} {field : String} : ∀ {nodes : List Record}
    {head : Option Record}, chain layout field nodes = .ok head ↔
      (∀ node ∈ nodes, node.layoutId = layout ∧ node.layout.linkIndex?.isSome) ∧
        linkUp nodes = head
  | [], head => by
    simp [chain, linkUp]
  | node :: rest, head => by
    rw [chain, bind_eq_ok]
    simp only [guard_eq_ok, chain_eq_ok_iff, List.forall_mem_cons, linkUp, Classical.not_not]
    cases hl : node.layout.linkIndex? with
    | none => simp
    | some link =>
      simp only [pure_eq_ok, Option.isSome_some, and_true, Option.getD_some]
      constructor
      · rintro ⟨tail, ⟨hrest, rfl⟩, hid, rfl⟩
        exact ⟨⟨hid, hrest⟩, rfl⟩
      · rintro ⟨⟨hid, hrest⟩, rfl⟩
        exact ⟨_, ⟨hrest, rfl⟩, hid, rfl⟩

/-- A node with its link set anew, and nothing else. -/
structure Relinked (node linked : Record) : Prop where
  layout : linked.layout = node.layout
  slot? : ∀ index, node.layout.linkIndex? ≠ some index → linked.slot? index = node.slot? index

theorem Relinked.refl (record : Record) : Relinked record record := ⟨rfl, fun _ _ => rfl⟩

/-- Nodes that were linked up are met again in order. -/
theorem nodesOf_linkUp : ∀ {nodes : List Record},
    (∀ node ∈ nodes, ∃ link, node.layout.linkIndex? = some link ∧ link < node.slots.length) →
    List.Forall₂ Relinked nodes (nodesOf (.link (linkUp nodes)))
  | [], _ => .nil
  | node :: rest, h => by
    obtain ⟨⟨link, hlink, hlt⟩, hrest⟩ := List.forall_mem_cons.1 h
    have hnext : (node.put link (.link (linkUp rest))).next? = linkUp rest := by
      simp [next?, hlink, slot?, hlt]
    rw [linkUp, hlink, Option.getD_some, nodesOf_link, Option.elim_some, nodes_eq, hnext,
      ← nodesOf_link]
    refine .cons ⟨rfl, fun index hindex => ?_⟩ (nodesOf_linkUp hrest)
    have hne : link ≠ index := fun he => hindex (by rw [hlink, he])
    exact List.getElem?_set_ne hne

variable {set : LayoutSet} {record : Record}

/-- A record with a slot for each field has one for its link. -/
theorem exists_link_of_length (h : record.slots.length = record.layout.fields.length)
    (hlink : record.layout.linkIndex?.isSome) :
    ∃ link, record.layout.linkIndex? = some link ∧ link < record.slots.length := by
  obtain ⟨link, hl⟩ := Option.isSome_iff_exists.1 hlink
  obtain ⟨field, hf, -⟩ := linkIndex?_eq_some hl
  exact ⟨link, hl, h ▸ (List.getElem?_eq_some_iff.1 hf).1⟩

theorem Fits.exists_link (h : Fits record.layout.fields record.slots)
    (hlink : record.layout.linkIndex?.isSome) :
    ∃ link, record.layout.linkIndex? = some link ∧ link < record.slots.length :=
  exists_link_of_length h.length hlink

namespace Sound

theorem exists_link (h : record.Sound set) (hlink : record.layout.linkIndex?.isSome) :
    ∃ link, record.layout.linkIndex? = some link ∧ link < record.slots.length :=
  h.fits.exists_link hlink

theorem next? (h : record.Sound set) {head : Record} (hn : record.next? = some head) :
    head ∈ record.inner ∧ head.layoutId = record.layoutId := by
  simp only [Record.next?, Option.bind_eq_bind, Option.bind_eq_some_iff] at hn
  obtain ⟨index, hl, slot, hs, hn⟩ := hn
  obtain ⟨field, hf, hk⟩ := linkIndex?_eq_some hl
  have hfits := (h.fits.suits index field slot hf hs).fits
  cases slot with
  | link found =>
    dsimp only at hn
    subst hn
    refine ⟨mem_inner.2 ⟨_, List.mem_of_getElem? hs, by simp [Slot.inner]⟩, ?_⟩
    simpa [hk, Slot.fits, layoutId] using hfits
  | _ => cases hn

/-- The nodes from a sound record on are sound, and of its layout. -/
theorem mem_nodes (h : record.Sound set) : ∀ node ∈ record.nodes,
    node.Sound set ∧ node.layoutId = record.layoutId := by
  induction h with
  | @intro record known fits inside ih =>
    have h : record.Sound set := .intro known fits inside
    rw [nodes_eq]
    refine List.forall_mem_cons.2 ⟨⟨h, rfl⟩, fun node hn => ?_⟩
    cases hnext : record.next? with
    | none => simp [hnext] at hn
    | some head =>
      rw [hnext] at hn
      obtain ⟨hin, hid⟩ := h.next? hnext
      obtain ⟨hnode, hid'⟩ := ih head hin node hn
      exact ⟨hnode, hid'.trans hid⟩

/-- The nodes of a list of sound records of a layout are sound, and of the layout. -/
theorem mem_nodesOf {id : LayoutId} {head : Option Record}
    (h : ∀ first ∈ head, first.Sound set ∧ first.layoutId = id) :
    ∀ node ∈ nodesOf (.link head), node.Sound set ∧ node.layoutId = id := by
  intro node hn
  rw [nodesOf_link] at hn
  cases head with
  | none => cases hn
  | some first =>
    obtain ⟨hfirst, hid⟩ := h first rfl
    obtain ⟨hnode, hsame⟩ := hfirst.mem_nodes node hn
    exact ⟨hnode, hsame.trans hid⟩

/-- Nodes of one layout link up to a sound list. -/
theorem linkUp {id : LayoutId} : ∀ {nodes : List Record},
    (∀ node ∈ nodes, node.Sound set ∧ node.layoutId = id) → ∀ {head : Record},
    linkUp nodes = some head → head.Sound set ∧ head.layoutId = id
  | node :: rest, h, head, hhead => by
    obtain ⟨⟨hnode, hid⟩, hrest⟩ := List.forall_mem_cons.1 h
    rw [Record.linkUp] at hhead
    cases hhead
    refine ⟨hnode.put (fun field hf => ⟨?_, rfl⟩) fun inner hi => ?_, hid⟩
    · cases hl : node.layout.linkIndex? with
      | none =>
        rw [hl, Option.getD_none, hnode.fits.length] at hf
        simp at hf
      | some link =>
        rw [hl, Option.getD_some] at hf
        obtain ⟨field', hf', hk⟩ := linkIndex?_eq_some hl
        rw [hf] at hf'
        cases hf'
        rw [hk]
        cases ht : Record.linkUp rest with
        | none => rfl
        | some tail =>
          have htail : tail.layoutId = node.layout.id := (linkUp hrest ht).2.trans hid.symm
          simp [Slot.fits, htail]
    · rw [Slot.inner, Option.mem_toList] at hi
      exact (linkUp hrest hi).1

end Sound

end RecordBridge.Record

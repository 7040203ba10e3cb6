import RecordBridge.Proofs.Record.Edits
import RecordBridge.Proofs.Record.Slots
/-!
# Lists put into records

What a list field holds is met by following links, from the head in its slot on: each
node that is met is linked to the node met after it (`next?_of_getElem?_nodes`).
Putting a list into a record links the given nodes anew, each at the link of its own
layout, so that exactly they are met, in order, whatever they were linked to before
(`setListAt_chained`). The nodes need not come from the layout set of the record, nor
from one set, and what their other slots hold need not suit the fields.
-/
namespace RecordBridge.Record

variable {record node : Record} {nodes : List Record}

/-- The node met after one is the one in its link. -/
theorem next?_of_getElem?_nodes : ∀ (position : Nat) {record : Record},
    record.nodes[position]? = some node → node.next? = record.nodes[position + 1]?
  | 0, record, h => by
    rw [nodes_eq, List.getElem?_cons_zero] at h
    rw [nodes_eq, ← Option.some.inj h]
    cases hnext : record.next? with
    | none => rfl
    | some head =>
      rw [List.getElem?_cons_succ, Option.elim_some, nodes_eq head]
      rfl
  | position + 1, record, h => by
    rw [nodes_eq, List.getElem?_cons_succ] at h ⊢
    cases hnext : record.next? with
    | none =>
      rw [hnext] at h
      cases h
    | some head =>
      rw [hnext] at h
      exact next?_of_getElem?_nodes position h

theorem next?_of_getElem?_nodesOf {head : Option Record} {position : Nat}
    (h : (nodesOf (.link head))[position]? = some node) :
    node.next? = (nodesOf (.link head))[position + 1]? := by
  rw [nodesOf_link] at h ⊢
  cases head with
  | none => cases h
  | some first => exact next?_of_getElem?_nodes position h

/-- Nodes as they are met in a list: the given ones, in order, but for their links, which
hold the node after each, and nothing on the last one. -/
structure Chained (nodes met : List Record) : Prop where
  nodes : List.Forall₂ Relinked nodes met
  next? : ∀ (position : Nat) node, met[position]? = some node → node.next? = met[position + 1]?

/-- Linking nodes up chains them. -/
theorem chained_linkUp
    (hnodes : ∀ node ∈ nodes, node.slots.length = node.layout.fields.length)
    (hlinks : ∀ node ∈ nodes, node.layout.linkIndex?.isSome) :
    Chained nodes (nodesOf (.link (linkUp nodes))) :=
  ⟨nodesOf_linkUp fun node hn => exists_link_of_length (hnodes node hn) (hlinks node hn),
    fun _ _ => next?_of_getElem?_nodesOf⟩

/-- What a list field takes: nodes of its layout that can be linked. -/
theorem setListAt_list_eq_ok_iff {changed : Record} {index : Nat} {field : Layout.Field}
    {id : LayoutId} (hfield : record.layout.fields[index]? = some field)
    (hkind : field.kind = .list id) :
    record.setListAt index nodes = .ok changed ↔
      (∀ node ∈ nodes, node.layoutId = id ∧ node.layout.linkIndex?.isSome) ∧
        record.put index (.link (linkUp nodes)) = changed := by
  rw [setListAt_eq_ok_iff]
  constructor
  · rintro ⟨field', id', hf, hk, hmade⟩
    rw [hfield] at hf
    cases hf
    rw [hkind] at hk
    cases hk
    exact hmade
  · intro hmade
    exact ⟨field, id, hfield, hkind, hmade⟩

/-- Of records with a slot for each field, nodes are put into a list field if and only if
all of them are of the field's layout and can be linked. Then they are what is met in the
list, each linked to the next one; otherwise the record is as it was. -/
theorem setListAt_chained {index : Nat} {field : Layout.Field} {id : LayoutId}
    (hrecord : record.slots.length = record.layout.fields.length)
    (hnodes : ∀ node ∈ nodes, node.slots.length = node.layout.fields.length)
    (hfield : record.layout.fields[index]? = some field) (hkind : field.kind = .list id) :
    ((outcome (Edit.setListAt index nodes) record).1 = .ok () ↔
      ∀ node ∈ nodes, node.layoutId = id ∧ node.layout.linkIndex?.isSome) ∧
    ((outcome (Edit.setListAt index nodes) record).1 = .ok () →
      (∃ met, (outcome (Edit.setListAt index nodes) record).2.list? index = some met ∧
        Chained nodes met) ∧
      ∀ other, other ≠ index →
        (outcome (Edit.setListAt index nodes) record).2.slot? other = record.slot? other) ∧
    ∀ error, (outcome (Edit.setListAt index nodes) record).1 = .error error →
      (outcome (Edit.setListAt index nodes) record).2 = record := by
  have houtcome := InPlace.setListAt index nodes record
  dsimp only at houtcome
  rw [houtcome]
  cases hset : record.setListAt index nodes with
  | error error =>
    refine ⟨⟨nofun, fun hall => ?_⟩, nofun, fun _ _ => rfl⟩
    have hmade := (setListAt_list_eq_ok_iff hfield hkind).2 ⟨hall, rfl⟩
    rw [hset] at hmade
    cases hmade
  | ok changed =>
    obtain ⟨hall, rfl⟩ := (setListAt_list_eq_ok_iff hfield hkind).1 hset
    have hlt : index < record.slots.length :=
      hrecord ▸ (List.getElem?_eq_some_iff.1 hfield).1
    have hmet := chained_linkUp hnodes fun node hn => (hall node hn).2
    refine ⟨⟨fun _ => hall, fun _ => rfl⟩, fun _ => ⟨⟨_, ?_, hmet⟩, fun other ho => ?_⟩, nofun⟩
    · simp [list?, slot?, put, hlt]
    · exact slot?_put_of_ne (Ne.symm ho) _

/-! ### Beads of several kinds -/

/-- Beads whose link comes after their number. -/
def numberedBead (number : Int64) (next : Option Record) : Record :=
  .mk ⟨"bead", [⟨"number", .int 1 false⟩, ⟨"next", .list "bead"⟩]⟩ [.int number, .link next]

/-- Beads whose link comes before their colour. -/
def colouredBead (after : Option Record) (red : Bool) : Record :=
  .mk ⟨"bead", [⟨"after", .list "bead"⟩, ⟨"red", .bool⟩]⟩ [.link after, .bool red]

/-- Beads in which another one was put in the place of the core. -/
def filledBead (next : Option Record) : Record :=
  .mk ⟨"bead", [⟨"core", .nested "core"⟩, ⟨"next", .list "bead"⟩]⟩
    [.record (colouredBead none false), .link next]

def beadString (beads : Option Record) : Record :=
  .mk ⟨"string", [⟨"beads", .list "bead"⟩]⟩ [.link beads]

/-- A numbered bead with another one after it, a coloured one, and one filled with what its
core is not, are strung without the bead that the first was linked to. -/
theorem setListAt_chained_beads :
    ¬ Fits (filledBead none).layout.fields (filledBead none).slots ∧
    (outcome (Edit.setListAt 0
        [numberedBead 1 (numberedBead 2 none), filledBead none, colouredBead none true])
      (beadString none)).1 = .ok () ∧
    (outcome (Edit.setListAt 0
        [numberedBead 1 (numberedBead 2 none), filledBead none, colouredBead none true])
      (beadString none)).2.list? 0 =
        some [numberedBead 1 (filledBead (colouredBead none true)),
          filledBead (colouredBead none true), colouredBead none true] ∧
    ∃ met, (outcome (Edit.setListAt 0
        [numberedBead 1 (numberedBead 2 none), filledBead none, colouredBead none true])
        (beadString none)).2.list? 0 = some met ∧
      Chained [numberedBead 1 (numberedBead 2 none), filledBead none, colouredBead none true]
        met := by
  have hunfit : ¬ Fits (filledBead none).layout.fields (filledBead none).slots := fun h =>
    absurd (h.suits 0 _ _ rfl rfl).fits (by decide)
  have hnodes : ∀ node ∈
      [numberedBead 1 (numberedBead 2 none), filledBead none, colouredBead none true],
      node.slots.length = node.layout.fields.length ∧ node.layoutId = "bead" ∧
        node.layout.linkIndex?.isSome := by
    simp only [List.forall_mem_cons]
    exact ⟨by decide, by decide, by decide, nofun⟩
  have hfield : (beadString none).layout.fields[0]? = some ⟨"beads", .list "bead"⟩ := rfl
  obtain ⟨hiff, hmet, -⟩ := setListAt_chained rfl (fun node hn => (hnodes node hn).1) hfield rfl
  have hok := hiff.2 fun node hn => (hnodes node hn).2
  exact ⟨hunfit, hok, rfl, (hmet hok).1⟩

end RecordBridge.Record

import RecordBridge.Proofs.Record.Parts
import RecordBridge.Proofs.Record.Slots
/-!
# Records with clean buffers and no links

A record is plain when its buffers hold their texts and nothing after these, and when
the records that it embeds are linked to nothing. Lists stay linked: their nodes are
plain, too (`linkUp_unlinked`).
-/
namespace RecordBridge

mutual

/-- A slot with clean buffers, and with embedded records that are linked to nothing. -/
def Slot.plain : Slot → Slot
  | .bytes buffer => .bytes (packText (readText buffer) buffer.length)
  | .record value => .record value.unlinked
  | .array elements => .array (elements.map Record.unlinked)
  | .link none => .link none
  | .link (some head) => .link (some head.plain)
  | .int value => .int value
  | .bool value => .bool value
  | .text value => .text value
termination_by slot => (sizeOf slot, 0)

/-- A record with plain slots, linked as before. -/
def Record.plain : Record → Record
  | .mk layout slots => .mk layout (slots.map Slot.plain)
termination_by record => (sizeOf record, 0)

/-- A record with plain slots, linked to nothing. -/
def Record.unlinked (record : Record) : Record :=
  match record.layout.linkIndex? with
  | some link => record.plain.put link (.link none)
  | none => record.plain
termination_by (sizeOf record, 1)

end

theorem Slot.plain_link (head : Option Record) :
    (Slot.link head).plain = .link (head.map Record.plain) := by
  cases head <;> rw [Slot.plain] <;> rfl

namespace Record

variable {record : Record} {index : Nat}

@[simp] theorem layout_plain (record : Record) : record.plain.layout = record.layout := by
  cases record
  rw [plain, layout_mk, layout_mk]

theorem slots_plain (record : Record) : record.plain.slots = record.slots.map Slot.plain := by
  cases record
  rw [plain, slots_mk, slots_mk]

theorem slot?_plain (record : Record) (index : Nat) :
    record.plain.slot? index = (record.slot? index).map Slot.plain := by
  rw [slot?, slots_plain, List.getElem?_map, slot?]

@[simp] theorem layout_unlinked (record : Record) : record.unlinked.layout = record.layout := by
  rw [unlinked]
  split <;> simp

theorem length_unlinked (record : Record) :
    record.unlinked.slots.length = record.slots.length := by
  rw [unlinked]
  split <;> simp [slots_plain]

/-- Slots are plain but for the link. -/
theorem slot?_unlinked (h : record.layout.linkIndex? ≠ some index) :
    record.unlinked.slot? index = (record.slot? index).map Slot.plain := by
  rw [← slot?_plain, unlinked]
  split
  · next link hlink =>
    have hne : link ≠ index := fun he => h (hlink.trans (congrArg some he))
    exact slot?_put_of_ne hne _
  · rfl

theorem slot?_unlinked_link (h : record.layout.linkIndex? = some index)
    (hi : index < record.slots.length) : record.unlinked.slot? index = some (.link none) := by
  rw [unlinked, h]
  simp [slot?, slots_plain, hi]

/-- Linking a record that was linked to nothing to what it was linked to before. -/
theorem put_unlinked {head : Option Record} (h : record.layout.linkIndex? = some index)
    (hs : record.slot? index = some (.link head)) :
    record.unlinked.put index (.link (head.map plain)) = record.plain := by
  have hplain : record.plain.slot? index = some (.link (head.map plain)) := by
    rw [slot?_plain, hs, Option.map_some, Slot.plain_link]
  rw [unlinked, h]
  exact (put_put _ _ _ _).trans (put_slot? hplain)

variable {set : LayoutSet}

/-- The link of a sound record holds the next record. -/
theorem Sound.slot?_link (h : record.Sound set) (hlink : record.layout.linkIndex? = some index) :
    record.slot? index = some (.link record.next?) := by
  obtain ⟨field, hf, hk⟩ := linkIndex?_eq_some hlink
  obtain ⟨slot, hs, hsuits⟩ := h.exists_slot hf
  obtain ⟨head, rfl, -⟩ := Slot.fits_list_iff.1 (hk ▸ hsuits.fits)
  simp [Record.next?, hlink, hs]

/-- Nodes that are linked to nothing link up to the plain list. -/
theorem linkUp_unlinked (hset : set.Sound) (h : record.Sound set)
    (hlink : record.layout.linkIndex?.isSome) :
    linkUp (record.nodes.map unlinked) = some record.plain := by
  induction h with
  | @intro record known fits inside ih =>
    have h : record.Sound set := .intro known fits inside
    obtain ⟨link, hl⟩ := Option.isSome_iff_exists.1 hlink
    -- the next node is of the same layout, so it has a link, too
    have hrest : linkUp ((record.next?.elim [] nodes).map unlinked) = record.next?.map plain := by
      cases hnext : record.next? with
      | none => rfl
      | some node =>
        obtain ⟨hin, hid⟩ := h.next? hnext
        have hlayout := hset.eq_of_id_eq (inside node hin).known known hid
        exact ih node hin (by rw [hlayout, hl]; rfl)
    rw [nodes_eq, List.map_cons, linkUp, hrest, layout_unlinked, hl, Option.getD_some]
    exact congrArg some (put_unlinked hl (h.slot?_link hl))

end Record

end RecordBridge

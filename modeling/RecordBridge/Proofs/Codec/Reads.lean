import RecordBridge.Proofs.Codec.Norm
import RecordBridge.Proofs.Codec.Prepare
import RecordBridge.Proofs.Record.Slots
import RecordBridge.Proofs.Registry.Occupied
/-!
# What a walk reads

A step of a walk reads one field of its source: of a record the paired slot
(`prepare_toMessage_congr`), of a message the place of the entry
(`prepare_toRecord_congr`). So records that agree on the paired slots are
converted alike (`run_toMessage_congr`). The link of a layout is paired by none
of its plans (`Registry.Binding.linkIndex?_ne`), and nodes are converted the
same before and after they are linked up (`run_relinked`).
-/
namespace RecordBridge

variable {registry : Registry} {limits : CodecLimits} {opcode : UInt16} {layout : Layout}
  {schema : Schema} {plan : Plan}

/-- What holds of all slots of a record holds of those of the records that a slot brings. -/
theorem Record.AllSlots.mem_parts {P : Slot → Prop} {record : Record} (h : record.AllSlots P)
    {index : Nat} {slot : Slot} (hs : record.slot? index = some slot) :
    ∀ part ∈ slot.parts, part.AllSlots P :=
  slot.forall_parts (h.slot?_inside hs) fun _ hrecord => hrecord.mem_nodes

/-- What holds of all zero slots holds of the zero record of an opcode. -/
theorem Record.allSlots_of_record? {P : Slot → Prop}
    (hslot : ∀ zero kind slot, Slot.zero zero kind = .ok slot → P slot) {record : Record}
    (h : registry.record? opcode = some record) : record.AllSlots P := by
  obtain ⟨descriptor, -, h⟩ := Option.bind_eq_some_iff.1 h
  cases ha : registry.layouts.allocate descriptor.layout with
  | error error => simp [ha, Except.toOption] at h
  | ok made =>
    rw [ha] at h
    cases h
    exact allSlots_zero hslot _ _ _ ha

namespace Walk

/-! ## One step -/

section
variable {convert : UInt16 → Record → Walk Message} {back : UInt16 → Message → Walk Record}
  {entry : Plan.Entry}

/-- A step from a record reads the paired slot. -/
theorem prepare_toMessage_congr {first second : Record}
    (h : first.slot? entry.recordIndex = second.slot? entry.recordIndex) :
    prepare .toMessage registry limits convert opcode first entry =
      prepare .toMessage registry limits convert opcode second entry := by
  unfold prepare
  cases entry.action with
  | scalar coercion =>
    dsimp only
    congr 1
    funext output
    simp only [Direction.toMessage, h]
  | nested inner => simp only [child, Direction.toMessage, h]
  | array inner count target =>
    have helements : Direction.toMessage.elements entry target first =
        Direction.toMessage.elements entry target second := by simp only [Direction.toMessage, h]
    simp only [helements]
  | list inner target =>
    have hnodes : Direction.toMessage.nodes entry target first =
        Direction.toMessage.nodes entry target second := by
      simp only [Direction.toMessage, Record.list?, h]
    simp only [hnodes]

/-- A step from a message reads the place of the entry. -/
theorem prepare_toRecord_congr {first second : Message}
    (h : first.value? entry.place = second.value? entry.place) :
    prepare .toRecord registry limits back opcode first entry =
      prepare .toRecord registry limits back opcode second entry := by
  unfold prepare
  unfold Plan.Entry.place at h
  cases ha : entry.action with
  | scalar coercion =>
    simp only [ha, Plan.Action.target?, Option.getD_none] at h
    dsimp only
    congr 1
    funext output
    simp only [Direction.toRecord, h]
  | nested inner =>
    simp only [ha, Plan.Action.target?, Option.getD_none] at h
    simp only [child, Direction.toRecord, Message.messageAt?, h]
  | array inner count target =>
    simp only [ha, Plan.Action.target?, Option.getD_some] at h
    have helements : Direction.toRecord.elements entry target first =
        Direction.toRecord.elements entry target second := by
      simp only [Direction.toRecord, Message.elementsAt, h]
    simp only [helements]
  | list inner target =>
    simp only [ha, Plan.Action.target?, Option.getD_some] at h
    have hnodes : Direction.toRecord.nodes entry target first =
        Direction.toRecord.nodes entry target second := by
      simp only [Direction.toRecord, Message.elementsAt, h]
    simp only [hnodes]

end

/-- Lists are converted alike when their items are. -/
theorem each_congr {first : α → Walk γ} {second : β → Walk γ} {xs : List α} {ys : List β}
    (h : List.Forall₂ (fun x y => first x = second y) xs ys) : each first xs = each second ys := by
  induction h with
  | nil => rfl
  | cons hhead _ ih => rw [each, each, hhead, ih]

/-! ## A whole plan -/

theorem fillItems_congr {first second : Plan.Entry → τ → Walk τ} : ∀ {items : List Plan.Item},
    (∀ entry, .bind entry ∈ items → ∀ output, first entry output = second entry output) →
    ∀ output, fillItems first opcode items output = fillItems second opcode items output
  | [], _, _ => rfl
  | .skip field reason :: rest, h, output => by
    rw [fillItems, fillItems,
      fillItems_congr (fun entry he => h entry (List.mem_cons_of_mem _ he)) output]
  | .bind entry :: rest, h, output => by
    have hrest := fillItems_congr fun entry he => h entry (List.mem_cons_of_mem _ he)
    rw [fillItems, fillItems, h entry List.mem_cons_self output]
    simp only [hrest]

/-- Records are converted alike when they agree on the paired slots. -/
theorem run_toMessage_congr (h : registry.Sound)
    (hb : registry.Binding opcode layout schema plan) (levels : Nat) {first second : Record}
    (hslots : ∀ entry ∈ plan.bound,
      first.slot? entry.recordIndex = second.slot? entry.recordIndex) :
    run .toMessage registry limits levels opcode first =
      run .toMessage registry limits levels opcode second := by
  cases levels with
  | zero => rfl
  | succ levels =>
    have hp := hb.plan?_eq h
    rw [run, run]
    congr 1
    funext output
    rw [fill_succ levels first output hp, fill_succ levels second output hp]
    refine congrArg Filled.toWalk (fillItems_congr (fun entry he output => ?_) output)
    rw [carry_eq_prepare, carry_eq_prepare,
      prepare_toMessage_congr (hslots entry (Plan.mem_bound.2 he))]

/-- A node is converted as it was before it was linked up. -/
theorem run_relinked (h : registry.Sound) {node linked : Record}
    (hb : registry.Binding opcode node.layout schema plan) (levels : Nat)
    (hlinked : Record.Relinked node linked) :
    run .toMessage registry limits levels opcode linked =
      run .toMessage registry limits levels opcode node :=
  run_toMessage_congr h hb levels fun _ he => hlinked.slot? _ (hb.linkIndex?_ne he)

end Walk

end RecordBridge

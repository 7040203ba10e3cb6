import RecordBridge.Proofs.Codec.Calls
import RecordBridge.Proofs.Codec.Succeeds
import RecordBridge.Proofs.Codec.Visits
/-!
# Arrays filled up

An array with fewer elements than it has room for is filled up with zero records,
which no walk went through. So a decode may go no deeper than allowed, and yet
leave zero records that nest deeper (`Message.PadsWithin` tells when not): these
are met when the record is encoded. Otherwise a decoded record is encoded again
(`exists_toMessage_decode_iff`).
-/
namespace RecordBridge

/-! ## What a message leaves open -/

namespace Plan

/-- The messages that an entry converts: the child, or a blank one, the elements that an
array has room for, or the nodes. -/
def Entry.sources (registry : Registry) (entry : Entry) (message : Message) : List Message :=
  match entry.action with
  | .scalar _ => []
  | .nested inner => ((message.messageAt? entry.messageIndex).or (registry.message? inner)).toList
  | .array _ count target => (message.elementsAt target).take count
  | .list _ target => message.elementsAt target

/-- How many zero records fill up the array of an entry. -/
def Entry.missing (entry : Entry) (message : Message) : Nat :=
  match entry.action with
  | .array _ count target => count - (message.elementsAt target).length
  | _ => 0

/-- How many records a zero record holds in a field. -/
def Action.embedded : Action → Nat
  | .nested _ => 1
  | .array _ count _ => count
  | .scalar _ | .list .. => 0

end Plan

/-- The zero records of an opcode nest no deeper than the levels left. -/
def Registry.Fits (registry : Registry) : (levels : Nat) → UInt16 → Prop
  | 0, _ => False
  | levels + 1, opcode => ∀ plan ∈ registry.plan? opcode, ∀ entry ∈ plan.bound,
    ∀ inner ∈ entry.action.inner?, 0 < entry.action.embedded → registry.Fits levels inner

/-- Wherever a message has too few elements for an array, the zero records that fill it up
nest no deeper than the levels left there. -/
def Message.PadsWithin (registry : Registry) : (levels : Nat) → UInt16 → Message → Prop
  | 0, _, _ => True
  | levels + 1, opcode, message => ∀ plan ∈ registry.plan? opcode, ∀ entry ∈ plan.bound,
    ∀ inner ∈ entry.action.inner?, (0 < entry.missing message → registry.Fits levels inner) ∧
      ∀ source ∈ entry.sources registry message, source.PadsWithin registry levels inner

instance Registry.decidableFits (registry : Registry) :
    ∀ levels opcode, Decidable (registry.Fits levels opcode)
  | 0, _ => .isFalse id
  | levels + 1, opcode =>
    have := registry.decidableFits levels
    -- found by itself, the instance would go through every opcode
    have (entry : Plan.Entry) : Decidable (∀ inner ∈ entry.action.inner?,
        0 < entry.action.embedded → registry.Fits levels inner) := Option.decidableForallMem _
    inferInstanceAs (Decidable (∀ plan ∈ registry.plan? opcode, ∀ entry ∈ plan.bound,
      ∀ inner ∈ entry.action.inner?, 0 < entry.action.embedded → registry.Fits levels inner))

instance Message.decidablePadsWithin (registry : Registry) :
    ∀ levels opcode message, Decidable (Message.PadsWithin registry levels opcode message)
  | 0, _, _ => .isTrue trivial
  | levels + 1, opcode, message =>
    have := decidablePadsWithin registry levels
    have (entry : Plan.Entry) : Decidable (∀ inner ∈ entry.action.inner?,
        (0 < entry.missing message → registry.Fits levels inner) ∧
          ∀ source ∈ entry.sources registry message, source.PadsWithin registry levels inner) :=
      Option.decidableForallMem _
    inferInstanceAs (Decidable (∀ plan ∈ registry.plan? opcode, ∀ entry ∈ plan.bound,
      ∀ inner ∈ entry.action.inner?, (0 < entry.missing message → registry.Fits levels inner) ∧
        ∀ source ∈ entry.sources registry message, source.PadsWithin registry levels inner))

theorem Slot.Within.of_zero {slot : Slot} {limit : Nat} (h : slot.Within 0) :
    slot.Within limit := by
  cases slot with
  | link head => exact Nat.le_trans h (Nat.zero_le limit)
  | _ => trivial

theorem Slot.within_zero {zero : LayoutId → Except LayoutError Record} {kind : FieldKind}
    {slot : Slot} (h : Slot.zero zero kind = .ok slot) : slot.Within 0 := by
  cases kind with
  | nested | array | textRows =>
    obtain ⟨inside, -, h⟩ := bind_eq_ok.1 h
    cases h
    trivial
  | list =>
    cases h
    exact Nat.le_refl 0
  | _ => cases h; trivial

variable {registry : Registry} {limits : CodecLimits} {opcode inner : UInt16} {layout : Layout}
  {schema : Schema} {plan : Plan}

namespace Walk

/-! ## Zero records -/

/-- Without lists a slot has the parts of a zero one. -/
theorem length_parts {record : Record}
    (hb : registry.Binding opcode record.layout schema plan)
    (hrecord : record.Of registry opcode) {entry : Plan.Entry} (he : entry ∈ plan.bound)
    {slot : Slot} (hslot : record.slot? entry.recordIndex = some slot) (hnone : slot.Within 0)
    (ha : entry.action.inner? = some inner) : slot.parts.length = entry.action.embedded := by
  obtain ⟨field, found, hentry⟩ := hb.entry_sound he
  have hfits := (hrecord.2.fits.suits _ found slot hentry.record hslot).fits
  cases hact : entry.action with
  | scalar coercion =>
    rw [hact] at ha
    cases ha
  | nested inner =>
    obtain ⟨id, carrier, hk, -⟩ := hentry.nested hact
    obtain ⟨child, rfl, -⟩ := Slot.fits_nested_iff.1 (hk ▸ hfits)
    rfl
  | array inner count target =>
    obtain ⟨id, size, carrier, hk, rfl, -⟩ := hentry.array hact
    obtain ⟨elements, rfl, hcount, -⟩ := Slot.fits_array_iff.1 (hk ▸ hfits)
    exact hcount
  | list inner target =>
    obtain ⟨id, carrier, hk, -⟩ := hentry.list hact
    obtain ⟨head, rfl, -⟩ := Slot.fits_list_iff.1 (hk ▸ hfits)
    exact Nat.le_zero.1 hnone

/-- A record without lists is converted exactly when zero records of its opcode fit. -/
theorem succeeds_run_iff_fits (h : registry.Sound) : ∀ (levels : Nat) {opcode : UInt16}
    {record : Record}, record.Of registry opcode → record.AllSlots (Slot.Within 0) →
    ((run .toMessage registry limits levels opcode record).Succeeds ↔
      registry.Fits levels opcode)
  | 0, opcode, record, hrecord, _ => by
    obtain ⟨schema, plan, hb⟩ := hrecord.binding h
    rw [succeeds_run_iff_fault (hb.message?_eq h)]
    refine iff_of_false ?_ id
    intro h
    cases h
  | levels + 1, opcode, record, hrecord, hnone => by
    obtain ⟨schema, plan, hb⟩ := hrecord.binding h
    have hpart : ∀ {entry : Plan.Entry} {slot : Slot} {inner : UInt16}, entry ∈ plan.bound →
        record.slot? entry.recordIndex = some slot → entry.action.inner? = some inner →
        slot.parts.length = entry.action.embedded ∧ ∀ part ∈ slot.parts,
          ((run .toMessage registry limits levels inner part).Succeeds ↔
            registry.Fits levels inner) := by
      intro entry slot inner he hslot ha
      refine ⟨length_parts hb hrecord he hslot (hnone.of_slot? hslot) ha, fun part hm => ?_⟩
      exact succeeds_run_iff_fits h levels (of_mem_parts h hb hrecord.2 he hslot ha part hm)
        (hnone.mem_parts hslot part hm)
    rw [succeeds_run_iff h hb hrecord, Registry.Fits]
    simp only [hb.plan?_eq h, Option.mem_def, Option.some.injEq, forall_eq']
    constructor
    · intro hall entry he inner ha hpos
      obtain ⟨field, found, hentry⟩ := hb.entry_sound he
      obtain ⟨slot, hslot, -⟩ := hrecord.2.exists_slot hentry.record
      obtain ⟨hlength, hiff⟩ := hpart he hslot ha
      obtain ⟨part, hm⟩ := List.exists_mem_of_length_pos (hlength ▸ hpos)
      exact (hiff part hm).1 ((hall entry he inner ha slot hslot).2 part hm)
    · intro hfits entry he inner ha slot hslot
      obtain ⟨hlength, hiff⟩ := hpart he hslot ha
      refine ⟨(hnone.of_slot? hslot).of_zero, fun part hm => (hiff part hm).2 ?_⟩
      exact hfits entry he inner ha (hlength ▸ List.length_pos_of_mem hm)

/-! ## What is received -/

/-- A part that a message was converted to; if it is a node, it was linked up since. -/
def Yields (back : Message → Walk Record) (part : Record) (source : Message) : Prop :=
  ∃ reports made, back source = ⟨reports, .ok made⟩ ∧ Record.Relinked made part

/-- What an entry leaves in a record: a part for each of its sources, and zero records. -/
def Leaves (registry : Registry) (back : UInt16 → Message → Walk Record) (source : Message)
    (entry : Plan.Entry) (record : Record) : Prop :=
  ∀ slot, record.slot? entry.recordIndex = some slot → ∀ inner, entry.action.inner? = some inner →
    ∃ parts zero, List.Forall₂ (Yields (back inner)) parts (entry.sources registry source) ∧
      registry.record? inner = some zero ∧
      slot.parts = parts ++ .replicate (entry.missing source) zero

section
variable {back : Message → Walk Record} {reports : List Diagnostic}

/-- Records that were made one by one, and linked up or not, are yielded. -/
theorem yields_of_each {sources : List Message} {made parts : List Record}
    (h : each back sources = ⟨reports, .ok made⟩)
    (hlinked : List.Forall₂ Record.Relinked made parts) :
    List.Forall₂ (Yields back) parts sources := by
  have hmade := (result_of_each h).1
  clear h
  induction hmade generalizing parts with
  | nil =>
    cases hlinked
    exact .nil
  | @cons source part _ _ hsource _ ih =>
    cases hlinked with
    | cons hlink hlinks =>
      exact .cons ⟨(back source).reports, part, by rw [← hsource], hlink⟩ (ih hlinks)

theorem relinked_refl (records : List Record) : List.Forall₂ Record.Relinked records records :=
  List.forall₂_same.2 fun record _ => .refl record

/-- The message inside a field is the child, or a blank one in its place. -/
theorem or_eq_of_child {entry : Plan.Entry} {source child : Message}
    (h : Walk.child .toRecord registry inner entry source = ⟨reports, .ok child⟩) :
    (source.messageAt? entry.messageIndex).or (registry.message? inner) = some child := by
  unfold Walk.child at h
  simp only [Direction.toRecord] at h
  cases hm : source.messageAt? entry.messageIndex with
  | some found =>
    rw [hm] at h
    obtain ⟨rfl, -⟩ := pure_eq_ok_iff.1 h
    rfl
  | none =>
    rw [hm] at h
    rw [Option.none_or]
    exact (require_eq_ok h).1

theorem sources_of_child {entry : Plan.Entry} {source child : Message}
    (ha : entry.action = .nested inner)
    (h : Walk.child .toRecord registry inner entry source = ⟨reports, .ok child⟩) :
    entry.sources registry source = [child] := by
  rw [Plan.Entry.sources, ha]
  dsimp only
  rw [or_eq_of_child h]
  rfl

end

/-- What a step from a message fills the slot of its entry with: the records that what lies
inside was converted to, and zero records where an array has room for more. -/
inductive Fills (registry : Registry) (back : UInt16 → Message → Walk Record)
    (entry : Plan.Entry) (source : Message) : Plan.Action → Slot → Prop where
  | nested {inner : UInt16} {child : Message} {reports : List Diagnostic} {made : Record}
      (child_eq : (source.messageAt? entry.messageIndex).or (registry.message? inner) = some child)
      (converted : back inner child = ⟨reports, .ok made⟩) :
      Fills registry back entry source (.nested inner) (.record made)
  | array {inner : UInt16} {count target : Nat} {reports : List Diagnostic} {made : List Record}
      {zero : Record} (zero_eq : registry.record? inner = some zero)
      (converted : each (back inner) ((source.elementsAt target).take count) =
        ⟨reports, .ok made⟩) :
      Fills registry back entry source (.array inner count target)
        (.array (made ++ .replicate (count - made.length) zero))
  | list {inner : UInt16} {target : Nat} {reports : List Diagnostic} {made : List Record}
      (converted : each (back inner) (source.elementsAt target) = ⟨reports, .ok made⟩)
      (linked : ∀ node ∈ made, node.layout.linkIndex?.isSome) :
      Fills registry back entry source (.list inner target) (.link (Record.linkUp made))

/-- A step from a message fills the slot of its entry. -/
theorem fills_of_carry (h : registry.Sound) (hb : registry.Binding opcode layout schema plan)
    {back : UInt16 → Message → Walk Record} {source : Message} {entry : Plan.Entry}
    (he : entry ∈ plan.bound) (ha : entry.action.inner? = some inner) {output next : Record}
    {reports : List Diagnostic}
    (hstep : carry .toRecord registry limits back opcode source entry output =
      ⟨reports, .ok next⟩) {slot : Slot} (hslot : next.slot? entry.recordIndex = some slot) :
    Fills registry back entry source entry.action slot := by
  obtain ⟨_, _, _, hinner⟩ := hb.inner_binding h he ha
  obtain ⟨zero, hzero, -⟩ := hinner.exists_record? h
  obtain ⟨write, hprepare, hwrite⟩ := carry_eq_ok_iff.1 hstep
  have hprepared := prepares_of_eq_ok hprepare
  generalize entry.action = action at ha hprepared
  cases hprepared with
  | scalar => cases ha
  | nested hchild hmade =>
    obtain ⟨field, -, -, rfl⟩ := Record.setSlot_eq_ok_iff.1 (mapError_eq_ok.1 hwrite)
    cases Record.eq_of_slot?_put hslot
    exact .nested (or_eq_of_child hchild) hmade
  | array hmade hpadding =>
    cases ha
    obtain ⟨field, -, -, rfl⟩ := Record.setSlot_eq_ok_iff.1 (mapError_eq_ok.1 hwrite)
    cases Record.eq_of_slot?_put hslot
    rw [padding_eq hzero] at hpadding
    cases (pure_eq_ok_iff.1 hpadding).1
    exact .array hzero hmade
  | list hwithin hmade =>
    obtain ⟨field, id, -, -, hnodes, rfl⟩ :=
      Record.setListAt_eq_ok_iff.1 (mapError_eq_ok.1 hwrite)
    cases Record.eq_of_slot?_put hslot
    exact .list hmade fun node hn => (hnodes node hn).2

/-- One entry: the step leaves what it made of its sources. -/
theorem carry_leaves (h : registry.Sound) (hb : registry.Binding opcode layout schema plan)
    {levels : Nat} {source : Message} {entry : Plan.Entry} (he : entry ∈ plan.bound)
    {output next : Record} {reports : List Diagnostic}
    (hstep : carry .toRecord registry limits (run .toRecord registry limits levels) opcode source
      entry output = ⟨reports, .ok next⟩) :
    Leaves registry (run .toRecord registry limits levels) source entry next := by
  intro slot hslot inner ha
  obtain ⟨_, _, _, hinner⟩ := hb.inner_binding h he ha
  obtain ⟨zero, hzero, -⟩ := hinner.exists_record? h
  have hfills := fills_of_carry h hb he ha hstep hslot
  unfold Plan.Entry.sources Plan.Entry.missing
  generalize entry.action = action at ha hfills
  cases hfills with
  | nested hchild hmade =>
    cases ha
    dsimp only
    rw [hchild]
    exact ⟨[_], zero, .cons ⟨_, _, hmade, .refl _⟩ .nil, hzero, rfl⟩
  | @array _ count target _ made _ hzero hmade =>
    cases ha
    have hmissing : count - made.length = count - (source.elementsAt target).length := by
      rw [length_each hmade, List.length_take]
      omega
    rw [hmissing]
    exact ⟨made, _, yields_of_each hmade (relinked_refl made), hzero, rfl⟩
  | list hmade hlinks =>
    cases ha
    have hof := of_each h (Direction.writes_toRecord h) hinner hmade
    have hlinked := Record.nodesOf_linkUp fun node hn =>
      (hof node hn).2.exists_link (hlinks node hn)
    exact ⟨_, zero, yields_of_each hmade hlinked, hzero, (List.append_nil _).symm⟩

/-! ## There again -/

theorem forall_mem_iff_of_forall₂ {P : α → Prop} {Q : β → Prop} {xs : List α} {ys : List β}
    (h : List.Forall₂ (fun x y => P x ↔ Q y) xs ys) : (∀ x ∈ xs, P x) ↔ ∀ y ∈ ys, Q y := by
  induction h with
  | nil => exact iff_of_true (List.forall_mem_nil _) (List.forall_mem_nil _)
  | cons hhead _ ih => rw [List.forall_mem_cons, List.forall_mem_cons, hhead, ih]

/-- A record that was made of a message, and linked up or not, is converted again exactly
when the zero records in it nest no deeper than the levels left, if its lists are
within the limit. -/
theorem succeeds_again_iff (h : registry.Sound) : ∀ (levels : Nat) {opcode : UInt16}
    {message : Message} {made record : Record} {reports : List Diagnostic},
    run .toRecord registry limits levels opcode message = ⟨reports, .ok made⟩ →
    Record.Relinked made record → record.Of registry opcode →
    record.AllSlots (Slot.Within limits.maxListNodes) →
    ((run .toMessage registry limits levels opcode record).Succeeds ↔
      message.PadsWithin registry levels opcode)
  | 0, opcode, message, made, record, reports, hmade, _, _, _ => by
    obtain ⟨output, -, hfill⟩ := run_eq_ok_iff.1 hmade
    cases hfill
  | levels + 1, opcode, message, made, record, reports, hmade, hlinked, hrecord, hlists => by
    obtain ⟨schema, plan, hb⟩ := hrecord.binding h
    have hp := hb.plan?_eq h
    obtain ⟨output, -, hfill⟩ := run_eq_ok_iff.1 hmade
    rw [fill_succ levels message output hp] at hfill
    have hvisits := exists_visit_slot? h hb hfill
    rw [succeeds_run_iff h hb hrecord, Message.PadsWithin]
    simp only [hp, Option.mem_def, Option.some.injEq, forall_eq']
    refine forall₂_congr fun entry he => forall₂_congr fun inner ha => ?_
    obtain ⟨field, found, hentry⟩ := hb.entry_sound he
    obtain ⟨slot, hslot, -⟩ := hrecord.2.exists_slot hentry.record
    have hsame : made.slot? entry.recordIndex = some slot := by
      rw [← hslot, hlinked.slot? _ (hlinked.layout ▸ hb.linkIndex?_ne he)]
    obtain ⟨before, next, first, -, hstep, hread⟩ := hvisits entry he
    obtain ⟨parts, zero, hyields, hzero, hparts⟩ :=
      carry_leaves h hb he hstep slot (hread.symm.trans hsame) inner ha
    have hall : ∀ part ∈ parts, part.Of registry inner ∧
        part.AllSlots (Slot.Within limits.maxListNodes) := by
      intro part hm
      have hpart : part ∈ slot.parts := hparts ▸ List.mem_append_left _ hm
      exact ⟨of_mem_parts h hb hrecord.2 he hslot ha part hpart, hlists.mem_parts hslot part hpart⟩
    have hyielded : (∀ part ∈ parts, (run .toMessage registry limits levels inner part).Succeeds) ↔
        ∀ source ∈ entry.sources registry message, source.PadsWithin registry levels inner := by
      refine forall_mem_iff_of_forall₂ (((List.forall₂_and_left _ _).2 ⟨hall, hyields⟩).imp ?_)
      rintro part source ⟨⟨hof, hwithin⟩, first, child, hchild, hlink⟩
      exact succeeds_again_iff h levels hchild hlink hof hwithin
    have hfits : (run .toMessage registry limits levels inner zero).Succeeds ↔
        registry.Fits levels inner := by
      obtain ⟨_, _, _, hinner⟩ := hb.inner_binding h he ha
      obtain ⟨fresh, hfresh, hof⟩ := (Direction.writes_toRecord h).fresh hinner
      cases hzero.symm.trans hfresh
      exact succeeds_run_iff_fits h levels hof
        (Record.allSlots_of_record? (fun _ _ _ => Slot.within_zero) hzero)
    have hwithin : slot.Within limits.maxListNodes := hlists.of_slot? hslot
    simp only [hslot, Option.some.injEq, forall_eq', hparts, List.forall_mem_append, hyielded,
      List.forall_mem_replicate, hfits, hwithin, true_and, or_iff_not_imp_left,
      Nat.pos_iff_ne_zero, and_comm]

end Walk

namespace Codec

/-- A record that was decoded whole, with its lists within the limit, is converted to a
message again exactly when the zero records that filled up its arrays nest no deeper
than allowed. Nothing else that is decoded is beyond the limits of an encode. -/
theorem exists_toMessage_decode_iff {codec : Codec} {payload : List UInt8} {layouts : List Layout}
    {schemas : List Schema} {descriptors : List Descriptor}
    (hreg : Registry.ofLists layouts schemas descriptors = .ok codec.registry)
    (hschema : codec.registry.schema? opcode = some schema)
    (hwhole : ∀ report ∈ (codec.decode opcode payload).reports, ¬ report.isAborted)
    (hlists : (codec.decode opcode payload).result.record.AllSlots
      (Slot.Within codec.limits.maxListNodes)) :
    (∃ message, (codec.toMessage opcode (codec.decode opcode payload).result.record).result =
        .ok (some message)) ↔
      (Message.decode codec.registry.schemas schema payload).1.PadsWithin codec.registry
        (codec.limits.maxDepth + 1) opcode := by
  have h := Registry.sound_of_ofLists hreg
  obtain ⟨layout, plan, hb⟩ := h.binding_of_schema? hschema
  obtain ⟨reports, hrun⟩ := run_eq_ok_of_decode h hb hwhole
  have hof := Walk.of_run h (Direction.writes_toRecord h) hb hrun
  rw [exists_toMessage_iff h hof]
  exact Walk.succeeds_again_iff h _ hrun (.refl _) hof hlists

end Codec

/-! ### Grids of cells -/

def gridLayouts : List Layout :=
  [⟨"cell", [⟨"value", .int 4 true⟩]⟩, ⟨"grid", [⟨"cells", .array "cell" 1⟩]⟩]

def gridSchema : Schema := ⟨"Grid", [⟨"cells", 1, .repeated "Cell"⟩]⟩

def gridSchemas : List Schema := [⟨"Cell", [⟨"value", 1, .int32⟩]⟩, gridSchema]

def gridDescriptors : List Descriptor := [⟨1, "grid", "Grid", none⟩, ⟨2, "cell", "Cell", none⟩]

/-- Opcode 1 carries grids of one cell, and opcode 2 the cells. -/
def gridCodec (maxDepth : Nat) : Codec where
  registry.layouts := ⟨gridLayouts, gridLayouts.reverse, [("grid", 4), ("cell", 4)], by decide⟩
  registry.schemas := ⟨gridSchemas⟩
  registry.rows :=
    [⟨⟨1, "grid", "Grid", none⟩, ⟨[.bind ⟨0, 0, .array 2 1 0, 4⟩]⟩⟩,
      ⟨⟨2, "cell", "Cell", none⟩, ⟨[.bind ⟨0, 0, .scalar (.int 4 true), 4⟩]⟩⟩]
  limits := ⟨1024, maxDepth⟩

/-- A grid with a cell of value zero. -/
def zeroGrid : Record :=
  .mk ⟨"grid", [⟨"cells", .array "cell" 1⟩]⟩
    [.array [.mk ⟨"cell", [⟨"value", .int 4 true⟩]⟩ [.int 0]]]

theorem read_grid_nil (maxDepth : Nat) :
    Message.decode (gridCodec maxDepth).registry.schemas gridSchema [] =
      (.blank gridSchema, none) := by cbv

theorem decode_grid_nil (maxDepth : Nat) :
    (gridCodec maxDepth).decode 1 [] = ⟨⟨zeroGrid, 4⟩, [], [.decoded 1 0 4]⟩ := by
  have hs : (gridCodec maxDepth).registry.schema? 1 = some gridSchema := rfl
  have hp : (gridCodec maxDepth).registry.plan? 1 = some _ := rfl
  have hz : (gridCodec maxDepth).registry.record? 1 = some zeroGrid := rfl
  exact Codec.decode_eq hs hp hz (read_grid_nil maxDepth) rfl

theorem within_zeroGrid : zeroGrid.AllSlots (Slot.Within 1024) :=
  @Record.allSlots_of_record? (gridCodec 0).registry 1 _
    (fun _ _ _ h => (Slot.within_zero h).of_zero) zeroGrid rfl

/-- A grid that is decoded from nothing, with no level below it allowed, is decoded whole,
and refused when it is encoded. -/
theorem Codec.grid_not_again :
    Registry.ofLists gridLayouts gridSchemas gridDescriptors = .ok (gridCodec 0).registry ∧
      (gridCodec 0).registry.schema? 1 = some gridSchema ∧
      (∀ report ∈ ((gridCodec 0).decode 1 []).reports, ¬ report.isAborted) ∧
      ((gridCodec 0).decode 1 []).result.record.AllSlots
        (Slot.Within (gridCodec 0).limits.maxListNodes) ∧
      ((gridCodec 0).toMessage 1 ((gridCodec 0).decode 1 []).result.record).result =
        .error (.depthExceeded 2 0) := by
  have hreg : Registry.ofLists gridLayouts gridSchemas gridDescriptors =
      .ok (gridCodec 0).registry := by cbv
  rw [decode_grid_nil]
  exact ⟨hreg, rfl, fun _ hm => absurd hm List.not_mem_nil, within_zeroGrid, rfl⟩

/-- With a level below it allowed, the grid is encoded again. -/
theorem Codec.grid_again :
    Registry.ofLists gridLayouts gridSchemas gridDescriptors = .ok (gridCodec 1).registry ∧
      (gridCodec 1).registry.schema? 1 = some gridSchema ∧
      (∀ report ∈ ((gridCodec 1).decode 1 []).reports, ¬ report.isAborted) ∧
      ((gridCodec 1).decode 1 []).result.record.AllSlots
        (Slot.Within (gridCodec 1).limits.maxListNodes) ∧
      (Message.decode (gridCodec 1).registry.schemas gridSchema []).1.PadsWithin
        (gridCodec 1).registry ((gridCodec 1).limits.maxDepth + 1) 1 ∧
      ∃ message, ((gridCodec 1).toMessage 1 ((gridCodec 1).decode 1 []).result.record).result =
        .ok (some message) := by
  have hreg : Registry.ofLists gridLayouts gridSchemas gridDescriptors =
      .ok (gridCodec 1).registry := by cbv
  have hschema : (gridCodec 1).registry.schema? 1 = some gridSchema := rfl
  have hwhole : ∀ report ∈ ((gridCodec 1).decode 1 []).reports, ¬ report.isAborted := by
    rw [decode_grid_nil]
    exact fun _ hm => absurd hm List.not_mem_nil
  have hlists : ((gridCodec 1).decode 1 []).result.record.AllSlots
      (Slot.Within (gridCodec 1).limits.maxListNodes) := by
    rw [decode_grid_nil]
    exact within_zeroGrid
  have hpads : (Message.decode (gridCodec 1).registry.schemas gridSchema []).1.PadsWithin
      (gridCodec 1).registry ((gridCodec 1).limits.maxDepth + 1) 1 := by
    rw [read_grid_nil]
    decide
  exact ⟨hreg, hschema, hwhole, hlists, hpads,
    (Codec.exists_toMessage_decode_iff hreg hschema hwhole hlists).2 hpads⟩

end RecordBridge

import RecordBridge.Proofs.Codec.Walk
import RecordBridge.Proofs.Record.Built
/-!
# Steps in two halves

A step converts what lies inside the source and then writes the output. The
first half, `Walk.prepare`, does not see the output and gives the write as a
function of it (`carry_eq_prepare`), so what a step does to two outputs is one
write applied to both. `Walk.Prepares` lists what it can be (`prepares_of_eq_ok`).
In a message it updates the place of the entry (`exists_update`), and in a record
the paired slot (`exists_write`).
-/
namespace RecordBridge

namespace Walk

variable {σ τ : Type} {direction : Direction σ τ} {registry : Registry} {limits : CodecLimits}
  {convert : UInt16 → σ → Walk τ} {opcode inner : UInt16} {source : σ} {entry : Plan.Entry}
  {output next : τ} {reports : List Diagnostic}

/-- Reports the elements that an array has no room for. -/
def reportSurplus (registry : Registry) (opcode : UInt16) (entry : Plan.Entry)
    (capacity received : Nat) : Walk Unit :=
  if capacity < received then
    report (.arrayOverflow opcode (fieldName registry opcode entry.recordIndex) capacity received)
  else pure ()

theorem reports_reportSurplus (entry : Plan.Entry) (capacity received : Nat) :
    (reportSurplus registry opcode entry capacity received).reports =
      if capacity < received then
        [.arrayOverflow opcode (fieldName registry opcode entry.recordIndex) capacity received]
      else [] := by
  unfold reportSurplus
  split <;> rfl

/-- A step up to its write: what lies inside is converted, ready to be written. -/
def prepare (direction : Direction σ τ) (registry : Registry) (limits : CodecLimits)
    (convert : UInt16 → σ → Walk τ) (opcode : UInt16) (source : σ) (entry : Plan.Entry) :
    Walk (τ → Except CodecError τ) :=
  match entry.action with
  | .scalar coercion => pure (direction.scalar entry coercion source)
  | .nested inner => do
    let child ← child direction registry inner entry source
    return direction.putChild entry (← convert inner child)
  | .array inner count target => do
    let elements := direction.elements entry target source
    reportSurplus registry opcode entry count elements.length
    let made ← each (convert inner) (elements.take count)
    return direction.putElements entry target
      (made ++ (← padding direction registry inner (count - made.length)))
  | .list inner target =>
    let nodes := direction.nodes entry target source
    if direction.boundedLists ∧ limits.maxListNodes < nodes.length then
      fail (.malformedList opcode (fieldName registry opcode entry.recordIndex)
        limits.maxListNodes)
    else return direction.putNodes entry target (← each (convert inner) nodes)

theorem bind_assoc_eq (walk : Walk α) (first : α → Walk β) (second : β → Walk γ) :
    walk >>= first >>= second = walk >>= fun a => first a >>= second := by
  obtain ⟨reports, result⟩ := walk
  cases result with
  | error error => rfl
  | ok a =>
    rw [ok_bind_eq, ok_bind_eq]
    cases hf : first a with
    | mk others result =>
      cases result with
      | error error => rfl
      | ok b => simp only [ok_bind_eq, List.append_assoc]

/-- A step is what it prepares, written. -/
theorem carry_eq_prepare : carry direction registry limits convert opcode source entry output =
    prepare direction registry limits convert opcode source entry >>= fun write =>
      ofExcept (write output) := by
  cases ha : entry.action with
  | scalar coercion =>
    rw [carry_scalar ha, prepare, ha]
    rfl
  | nested inner =>
    rw [carry_nested ha, prepare, ha]
    simp only [bind_assoc_eq, pure_bind_eq]
  | array inner count target =>
    rw [carry_array ha, prepare, ha]
    simp only [reportSurplus, bind_assoc_eq, pure_bind_eq]
  | list inner target =>
    rw [carry_list ha, prepare, ha]
    dsimp only
    split
    · rfl
    · simp only [bind_assoc_eq, pure_bind_eq]

theorem carry_eq_ok_iff : carry direction registry limits convert opcode source entry output =
      ⟨reports, .ok next⟩ ↔
    ∃ write, prepare direction registry limits convert opcode source entry =
      ⟨reports, .ok write⟩ ∧ write output = .ok next := by
  rw [carry_eq_prepare, bind_eq_ok_iff]
  constructor
  · rintro ⟨first, write, rest, hprepare, hwrite, rfl⟩
    obtain ⟨hnext, rfl⟩ := ofExcept_eq_ok_iff.1 hwrite
    exact ⟨write, by rw [hprepare, List.append_nil], hnext⟩
  · rintro ⟨write, hprepare, hnext⟩
    exact ⟨reports, write, [], hprepare, ofExcept_eq_ok_iff.2 ⟨hnext, rfl⟩, List.append_nil _⟩

/-- What a step prepares, by its action: what lies inside is converted, and nothing is
reported but on the way there, and of elements that an array has no room for. -/
inductive Prepares (direction : Direction σ τ) (registry : Registry) (limits : CodecLimits)
    (convert : UInt16 → σ → Walk τ) (opcode : UInt16) (source : σ) (entry : Plan.Entry) :
    Plan.Action → List Diagnostic → (τ → Except CodecError τ) → Prop where
  | scalar {coercion : Coercion} :
      Prepares direction registry limits convert opcode source entry (.scalar coercion) []
        (direction.scalar entry coercion source)
  | nested {inner : UInt16} {inside : σ} {reports : List Diagnostic} {made : τ}
      (child_eq : child direction registry inner entry source = pure inside)
      (converted : convert inner inside = ⟨reports, .ok made⟩) :
      Prepares direction registry limits convert opcode source entry (.nested inner) reports
        (direction.putChild entry made)
  | array {inner : UInt16} {count target : Nat} {reports : List Diagnostic} {made more : List τ}
      (converted : each (convert inner) ((direction.elements entry target source).take count) =
        ⟨reports, .ok made⟩)
      (padded : padding direction registry inner (count - made.length) = pure more) :
      Prepares direction registry limits convert opcode source entry (.array inner count target)
        ((reportSurplus registry opcode entry count
          (direction.elements entry target source).length).reports ++ reports)
        (direction.putElements entry target (made ++ more))
  | list {inner : UInt16} {target : Nat} {reports : List Diagnostic} {made : List τ}
      (within : ¬ (direction.boundedLists ∧
        limits.maxListNodes < (direction.nodes entry target source).length))
      (converted : each (convert inner) (direction.nodes entry target source) =
        ⟨reports, .ok made⟩) :
      Prepares direction registry limits convert opcode source entry (.list inner target) reports
        (direction.putNodes entry target made)

theorem require_eq_ok {value : Option α} {a : α}
    (h : require inner value = ⟨reports, .ok a⟩) : value = some a ∧ reports = [] := by
  cases value with
  | none => cases h
  | some found =>
    obtain ⟨rfl, rfl⟩ := pure_eq_ok_iff.1 h
    exact ⟨rfl, rfl⟩

theorem child_eq_ok {inside : σ}
    (h : child direction registry inner entry source = ⟨reports, .ok inside⟩) :
    child direction registry inner entry source = pure inside ∧ reports = [] := by
  have hreports : reports = [] := by
    unfold child at h
    split at h
    · exact (pure_eq_ok_iff.1 h).2
    · exact (require_eq_ok h).2
  subst hreports
  exact ⟨h, rfl⟩

theorem padding_eq_ok {missing : Nat} {more : List τ}
    (h : padding direction registry inner missing = ⟨reports, .ok more⟩) :
    padding direction registry inner missing = pure more ∧ reports = [] := by
  have hreports : reports = [] := by
    unfold padding at h
    split at h
    · exact (pure_eq_ok_iff.1 h).2
    · obtain ⟨first, fresh, rest, hfresh, hrest, rfl⟩ := bind_eq_ok_iff.1 h
      rw [(require_eq_ok hfresh).2, (pure_eq_ok_iff.1 hrest).2, List.append_nil]
  subst hreports
  exact ⟨h, rfl⟩

theorem prepares_of_eq_ok {write : τ → Except CodecError τ}
    (h : prepare direction registry limits convert opcode source entry = ⟨reports, .ok write⟩) :
    Prepares direction registry limits convert opcode source entry entry.action reports write := by
  unfold prepare at h
  cases ha : entry.action with
  | scalar coercion =>
    simp only [ha] at h
    obtain ⟨rfl, rfl⟩ := pure_eq_ok_iff.1 h
    exact .scalar
  | nested inner =>
    simp only [ha] at h
    obtain ⟨first, inside, _, hinside, hrest, rfl⟩ := bind_eq_ok_iff.1 h
    obtain ⟨middle, made, _, hmade, hwrite, rfl⟩ := bind_eq_ok_iff.1 hrest
    obtain ⟨rfl, rfl⟩ := pure_eq_ok_iff.1 hwrite
    obtain ⟨hchild, rfl⟩ := child_eq_ok hinside
    rw [List.nil_append, List.append_nil]
    exact .nested hchild hmade
  | array inner count target =>
    simp only [ha] at h
    obtain ⟨first, _, _, hsurplus, helements, rfl⟩ := bind_eq_ok_iff.1 h
    obtain ⟨middle, made, _, hmade, hfill, rfl⟩ := bind_eq_ok_iff.1 helements
    obtain ⟨last, more, _, hmore, hwrite, rfl⟩ := bind_eq_ok_iff.1 hfill
    obtain ⟨rfl, rfl⟩ := pure_eq_ok_iff.1 hwrite
    obtain ⟨hpadding, rfl⟩ := padding_eq_ok hmore
    have hfirst : first = (reportSurplus registry opcode entry count
        (direction.elements entry target source).length).reports := by rw [hsurplus]
    rw [List.append_nil, List.append_nil, hfirst]
    exact .array hmade hpadding
  | list inner target =>
    simp only [ha] at h
    split at h
    · cases h
    · next hwithin =>
      obtain ⟨first, made, _, hmade, hwrite, rfl⟩ := bind_eq_ok_iff.1 h
      obtain ⟨rfl, rfl⟩ := pure_eq_ok_iff.1 hwrite
      rw [List.append_nil]
      exact .list hwithin hmade

end Walk

/-! ## What is written -/

namespace Message

variable {message next : Message} {index : Nat}

theorem put_value? (message : Message) (index : Nat) :
    message.put index (message.value? index) = message := by
  obtain ⟨schema, values⟩ := message
  simp only [put, Message.schema, Message.values, value?]
  by_cases hi : index < values.length
  · simp [List.getElem?_eq_getElem hi]
  · rw [List.set_eq_of_length_le (by omega)]

theorem value?_put_of_ne {other : Nat} (h : index ≠ other) (value : Option Value) :
    (message.put index value).value? other = message.value? other := by
  rw [value?, value?, values_put, List.getElem?_set_ne h]

/-- The elements in what a field holds. -/
def heldElements : Option Value → List Message
  | some (.list elements) => elements
  | _ => []

theorem elementsAt_eq (message : Message) (index : Nat) :
    message.elementsAt index = heldElements (message.value? index) := rfl

/-- Appending to a field is an update of it. -/
theorem exists_update_of_appendAt (index : Nat) (elements : List Message) :
    ∃ update : Option Value → Option Value, ∀ message next : Message,
      message.appendAt index elements = .ok next →
        next = message.put index (update (message.value? index)) := by
  by_cases he : elements.isEmpty
  · refine ⟨id, fun message next h => ?_⟩
    rw [appendAt, if_pos he] at h
    cases h
    exact (put_value? message index).symm
  · refine ⟨fun held => some (.list (heldElements held ++ elements)), fun message next h => ?_⟩
    rw [appendAt, if_neg he] at h
    simp only [bind_eq_ok, pure_eq_ok] at h
    obtain ⟨_, -, rfl⟩ := h
    rw [elementsAt_eq]

end Message

/-- Setting a slot puts one there that depends on the layout alone. -/
theorem Record.exists_content_of_setSlot (index : Nat) (slot : Slot) :
    ∃ content : Layout → Option Slot, ∀ record next : Record,
      (record.setSlot index slot).mapError CodecError.layout = .ok next →
        next = (content record.layout).elim record (record.put index) := by
  refine ⟨fun layout => layout.fields[index]?.map fun field => slot.stored field.kind,
    fun record next h => ?_⟩
  obtain ⟨field, hf, -, rfl⟩ := setSlot_eq_ok_iff.1 (mapError_eq_ok.1 h)
  simp [hf]

namespace Walk

variable {registry : Registry} {limits : CodecLimits} {opcode : UInt16} {entry : Plan.Entry}
  {reports : List Diagnostic}

/-- A step to a message updates the place of the entry. -/
theorem exists_update {convert : UInt16 → Record → Walk Message} {source : Record}
    {write : Message → Except CodecError Message}
    (h : prepare .toMessage registry limits convert opcode source entry = ⟨reports, .ok write⟩) :
    ∃ update : Option Value → Option Value, ∀ output next, write output = .ok next →
      next = output.put entry.place (update (output.value? entry.place)) := by
  have hprepared := prepares_of_eq_ok h
  unfold Plan.Entry.place
  generalize entry.action = action at hprepared
  cases hprepared with
  | @scalar coercion =>
    simp only [Direction.toMessage, Plan.Action.target?, Option.getD_none]
    cases (source.slot? entry.recordIndex).bind coercion.toValue? with
    | none =>
      refine ⟨id, fun output next hnext => ?_⟩
      cases hnext
      exact (Message.put_value? _ _).symm
    | some value =>
      refine ⟨fun _ => some value, fun output next hnext => ?_⟩
      exact (Message.setAt_eq_ok_iff.1 (mapError_eq_ok.1 hnext)).2.symm
  | @nested _ _ _ made =>
    refine ⟨fun _ => some (.message made), fun output next hnext => ?_⟩
    exact (Message.setAt_eq_ok_iff.1 (mapError_eq_ok.1 hnext)).2.symm
  | @array _ _ target _ made more =>
    obtain ⟨update, hupdate⟩ := Message.exists_update_of_appendAt target (made ++ more)
    exact ⟨update, fun output next hnext => hupdate output next (mapError_eq_ok.1 hnext)⟩
  | @list _ target _ made =>
    obtain ⟨update, hupdate⟩ := Message.exists_update_of_appendAt target made
    exact ⟨update, fun output next hnext => hupdate output next (mapError_eq_ok.1 hnext)⟩

/-- A step to a record puts a slot where the entry is paired, or leaves the record. -/
theorem exists_write {back : UInt16 → Message → Walk Record} {source : Message}
    {write : Record → Except CodecError Record}
    (h : prepare .toRecord registry limits back opcode source entry = ⟨reports, .ok write⟩) :
    ∃ content : Layout → Option Slot, ∀ output next, write output = .ok next →
      next = (content output.layout).elim output (output.put entry.recordIndex) := by
  have hprepared := prepares_of_eq_ok h
  generalize entry.action = action at hprepared
  cases hprepared with
  | @scalar coercion =>
    simp only [Direction.toRecord]
    cases coercion.toSlot? (source.value? entry.messageIndex) with
    | none =>
      refine ⟨fun _ => none, fun output next hnext => ?_⟩
      cases hnext
      rfl
    | some slot => exact Record.exists_content_of_setSlot entry.recordIndex slot
  | @nested _ _ _ made => exact Record.exists_content_of_setSlot entry.recordIndex (.record made)
  | @array _ _ _ _ made more =>
    exact Record.exists_content_of_setSlot entry.recordIndex (.array (made ++ more))
  | @list _ _ _ made =>
    refine ⟨fun _ => some (.link (Record.linkUp made)), fun output next hnext => ?_⟩
    obtain ⟨_, _, -, -, -, rfl⟩ := Record.setListAt_eq_ok_iff.1 (mapError_eq_ok.1 hnext)
    rfl

end Walk

end RecordBridge

import RecordBridge.Proofs.Message.Append
/-!
# Cut messages

The fields of a message that is read without a fault end at its cuts
(`Schema.cuts`). A field is read from bytes at the front of its own, so no strict
prefix of them is a field (`Schema.readPart_take`). Bytes that stop inside a
field therefore end in a fault, and have the parts up to the last cut
(`Schema.Whole.exists_cut`): a message that was cut short is noticed, and has lost
nothing but the field it was cut in (`Message.decode_take`).
-/
namespace RecordBridge

namespace Schema

variable {schema : Schema} {bytes front rest : List UInt8} {part : Part}

/-- Where the fields of some bytes start, up to the first that is not read, and
where the last one read ends. -/
def cuts (schema : Schema) (bytes : List UInt8) : List Nat :=
  match _h : schema.readPart bytes with
  | .error _ => [0]
  | .ok (_, rest) => 0 :: (schema.cuts rest).map (bytes.length - rest.length + ·)
termination_by bytes.length
decreasing_by exact length_lt_of_readPart _h

theorem cuts_nil (schema : Schema) : schema.cuts [] = [0] := by
  rw [cuts]
  split
  · rfl
  · next h => exact absurd (length_lt_of_readPart h) (Nat.not_lt_zero _)

theorem cuts_of_readPart (h : schema.readPart (front ++ rest) = .ok (part, rest)) :
    schema.cuts (front ++ rest) = 0 :: (schema.cuts rest).map (front.length + ·) := by
  rw [cuts]
  split
  · next he => rw [h] at he; cases he
  · next he => rw [h] at he; cases he; simp

/-- Bytes that are whole fields, each read from a front of its own. -/
inductive Whole (schema : Schema) : List UInt8 → Prop
  | nil : schema.Whole []
  | cons {front rest : List UInt8} {part : Part} (pos : 0 < front.length)
      (read : ∀ more, schema.readPart (front ++ more) = .ok (part, more))
      (whole : schema.Whole rest) : schema.Whole (front ++ rest)

theorem whole_of_parts (h : (schema.parts bytes).2 = none) : schema.Whole bytes := by
  fun_induction parts schema bytes with
  | case1 bytes he => exact List.isEmpty_iff.1 he ▸ .nil
  | case2 => cases h
  | case3 bytes _ part rest hread parts fault hrest ih =>
    have hlt := length_lt_of_readPart hread
    obtain ⟨front, rfl, hfront⟩ := exists_front_of_readPart hread
    rw [List.length_append] at hlt
    exact .cons (by omega) hfront (ih (by simpa [hrest] using h))

/-- The cuts go up, from 0 to the end. -/
theorem Whole.cuts_ascend (h : schema.Whole bytes) :
    (schema.cuts bytes).Pairwise (· < ·) ∧ (schema.cuts bytes).head? = some 0 ∧
      (schema.cuts bytes).getLast? = some bytes.length := by
  induction h with
  | nil => simp [cuts_nil]
  | @cons front rest part hlen hfront _ ih =>
    obtain ⟨hup, -, hlast⟩ := ih
    rw [cuts_of_readPart (hfront rest)]
    refine ⟨List.pairwise_cons.2 ⟨fun c hc => ?_, ?_⟩, rfl, ?_⟩
    · obtain ⟨c, -, rfl⟩ := List.mem_map.1 hc
      omega
    · exact List.pairwise_map.2 (hup.imp fun hlt => Nat.add_lt_add_left hlt _)
    · rw [List.getLast?_cons, List.getLast?_map, hlast]
      simp

/-! ## Cut fields -/

/-- No strict prefix of the bytes of a field is a field. -/
theorem readPart_take (hfront : ∀ more, schema.readPart (front ++ more) = .ok (part, more))
    {n : Nat} (hn : n < front.length) : ∃ error, schema.readPart (front.take n) = .error error := by
  cases hread : schema.readPart (front.take n) with
  | error error => exact ⟨error, rfl⟩
  | ok read =>
    -- Then the whole field could be read with something left over.
    obtain ⟨early, left⟩ := read
    obtain ⟨short, htake, hshort⟩ := exists_front_of_readPart hread
    have hwhole : front = short ++ (left ++ front.drop n) := by
      rw [← List.append_assoc, ← htake, List.take_append_drop]
    have hboth := hfront []
    rw [List.append_nil, hwhole, hshort] at hboth
    have hleft := congrArg List.length (Prod.mk.inj (Except.ok.inj hboth)).2
    simp only [List.length_append, List.length_drop, List.length_nil] at hleft
    omega

/-- Cut bytes have the parts up to the last cut that is left, and a fault unless
they end there. -/
theorem Whole.exists_cut (h : schema.Whole bytes) : ∀ n ≤ bytes.length,
    ∃ cut, IsGreatest {c | c ∈ schema.cuts bytes ∧ c ≤ n} cut ∧
      (schema.parts (bytes.take cut)).2 = none ∧
      (schema.parts (bytes.take n)).1 = (schema.parts (bytes.take cut)).1 ∧
      ((schema.parts (bytes.take n)).2 = none ↔ n = cut) := by
  induction h with
  | nil =>
    intro n hn
    obtain rfl := Nat.le_zero.1 hn
    exact ⟨0, ⟨by simp [cuts_nil], fun c hc => hc.2⟩, by simp [parts_nil]⟩
  | @cons front rest part hlen hfront _ ih =>
    intro n hn
    rw [cuts_of_readPart (hfront rest)]
    by_cases hin : n < front.length
    · -- The first field is cut: no other cut is left.
      refine ⟨0, ⟨by simp, fun c hc => ?_⟩, ?_⟩
      · rcases List.mem_cons.1 hc.1 with rfl | hc'
        · exact Nat.le_refl _
        · obtain ⟨c, -, rfl⟩ := List.mem_map.1 hc'
          have := hc.2
          omega
      · rw [List.take_append_of_le_length (Nat.le_of_lt hin), List.take_zero, parts_nil]
        cases n with
        | zero => simp [parts_nil]
        | succ n =>
          obtain ⟨error, herror⟩ := readPart_take hfront hin
          rw [parts_of_readPart_error (List.ne_nil_of_length_pos (by simp; omega)) herror]
          simp
    · -- The first field is whole, and the rest is cut.
      obtain ⟨m, rfl⟩ := Nat.exists_eq_add_of_le (Nat.le_of_not_lt hin)
      rw [List.length_append] at hn
      obtain ⟨cut, ⟨⟨hcut, hle⟩, hmax⟩, hnone, hparts, hfault⟩ := ih m (by omega)
      refine ⟨front.length + cut, ⟨⟨?_, by omega⟩, fun c hc => ?_⟩, ?_⟩
      · exact List.mem_cons_of_mem _ (List.mem_map_of_mem hcut)
      · rcases List.mem_cons.1 hc.1 with rfl | hc'
        · exact Nat.zero_le _
        · obtain ⟨c, hmem, rfl⟩ := List.mem_map.1 hc'
          exact Nat.add_le_add_left (hmax ⟨hmem, Nat.le_of_add_le_add_left hc.2⟩) _
      · rw [List.take_length_add_append, List.take_length_add_append,
          parts_of_readPart (hfront _), parts_of_readPart (hfront _)]
        exact ⟨hnone, congrArg (part :: ·) hparts, by rw [hfault]; omega⟩

/-- The parts of cut bytes are the first ones of the bytes. -/
theorem Whole.parts_take_prefix (h : schema.Whole bytes) {n : Nat} (hn : n ≤ bytes.length) :
    (schema.parts (bytes.take n)).1 <+: (schema.parts bytes).1 := by
  obtain ⟨cut, -, hnone, hparts, -⟩ := h.exists_cut n hn
  have happend := @Schema.parts_append _ (bytes.drop cut) schema hnone
  rw [List.take_append_drop] at happend
  rw [hparts, happend]
  exact List.prefix_append _ _

end Schema

namespace Message

variable {set : SchemaSet} {schema : Schema}
  {take : Message → Part → Message × Option MessageError} {bytes : List UInt8}

/-- The first ones of parts that are taken in without a fault leave the same message
whatever fault is after them. -/
theorem takeParts_of_first_parts {message : Message} {first parts : List Part}
    (h : (takeParts take none message parts).2 = none) (hfirst : first <+: parts)
    (fault : Option MessageError) :
    takeParts take fault message first = ((takeParts take none message first).1, fault) := by
  induction first generalizing message parts with
  | nil => rfl
  | cons part first ih =>
    obtain ⟨rest, rfl⟩ := hfirst
    rw [List.cons_append, takeParts] at h
    rw [takeParts, takeParts]
    split at h
    · cases h
    · exact ih h (List.prefix_append _ _)

/-- Bytes whose parts are the first ones of a message read without a fault are read up to
the fault after these parts. -/
theorem decode_of_first_parts (h : (decode set schema bytes).2 = none) {short : List UInt8}
    (hfirst : (schema.parts short).1 <+: (schema.parts bytes).1) :
    decode set schema short =
      ((takeParts (takeAt set nestingLimit) none (blank schema) (schema.parts short).1).1.finish,
        (schema.parts short).2) := by
  simp only [decode, mergeFrom_eq_takeParts, schema_blank] at h ⊢
  rw [fault_eq_none_of_takeParts h] at h
  rw [takeParts_of_first_parts h hfirst]

/-- The bytes of a message that is read without a fault are whole fields. -/
theorem whole_of_decode (h : (decode set schema bytes).2 = none) : schema.Whole bytes := by
  simp only [decode, mergeFrom_eq_takeParts, schema_blank] at h
  exact schema.whole_of_parts (fault_eq_none_of_takeParts h)

/-- A message that is read without a fault, cut short: without a fault exactly at a cut,
and elsewhere as it is up to the last cut before. -/
theorem decode_take (h : (decode set schema bytes).2 = none) :
    (schema.cuts bytes).Pairwise (· < ·) ∧ (schema.cuts bytes).head? = some 0 ∧
    (schema.cuts bytes).getLast? = some bytes.length ∧
    ∀ n ≤ bytes.length,
      ((decode set schema (bytes.take n)).2 = none ↔ n ∈ schema.cuts bytes) ∧
      (n ∉ schema.cuts bytes → ∃ cut, IsGreatest {c | c ∈ schema.cuts bytes ∧ c < n} cut ∧
        (decode set schema (bytes.take n)).1 = (decode set schema (bytes.take cut)).1) := by
  have hwhole := whole_of_decode h
  obtain ⟨hup, hfirst, hlast⟩ := hwhole.cuts_ascend
  refine ⟨hup, hfirst, hlast, fun n hn => ?_⟩
  obtain ⟨cut, ⟨⟨hcut, hle⟩, hmax⟩, -, hparts, hfault⟩ := hwhole.exists_cut n hn
  have hmem : n ∈ schema.cuts bytes ↔ n = cut :=
    ⟨fun h => Nat.le_antisymm (hmax ⟨h, Nat.le_refl n⟩) hle, fun h => h ▸ hcut⟩
  rw [hmem, decode_of_first_parts h (hwhole.parts_take_prefix hn)]
  refine ⟨hfault, fun hne => ⟨cut, ⟨⟨hcut, by omega⟩, ?_⟩, ?_⟩⟩
  · exact fun c hc => hmax ⟨hc.1, Nat.le_of_lt hc.2⟩
  · rw [decode_of_first_parts h (hwhole.parts_take_prefix (hle.trans hn)), hparts]

/-- A number, four bytes of an unknown field and a next node, cut inside the unknown field. -/
theorem decode_take_node :
    (decode ⟨[nodeSchema]⟩ nodeSchema
      [0x08, 5, 0x4d, 1, 2, 3, 4, 0x12, 2, 0x08, 7]).2 = none ∧
    nodeSchema.cuts [0x08, 5, 0x4d, 1, 2, 3, 4, 0x12, 2, 0x08, 7] = [0, 2, 7, 11] ∧
    (decode ⟨[nodeSchema]⟩ nodeSchema [0x08, 5, 0x4d, 1, 2]).2 ≠ none ∧
    ∃ cut, IsGreatest {c | c ∈ [0, 2, 7, 11] ∧ c < 5} cut ∧
      (decode ⟨[nodeSchema]⟩ nodeSchema [0x08, 5, 0x4d, 1, 2]).1 =
        (decode ⟨[nodeSchema]⟩ nodeSchema
          ([0x08, 5, 0x4d, 1, 2, 3, 4, 0x12, 2, 0x08, 7].take cut)).1 := by
  have hnone : (decode ⟨[nodeSchema]⟩ nodeSchema
      [0x08, 5, 0x4d, 1, 2, 3, 4, 0x12, 2, 0x08, 7]).2 = none := by cbv
  have hcuts : nodeSchema.cuts [0x08, 5, 0x4d, 1, 2, 3, 4, 0x12, 2, 0x08, 7] =
      [0, 2, 7, 11] := by cbv
  obtain ⟨-, -, -, hcut⟩ := decode_take hnone
  obtain ⟨hfault, hmessage⟩ := hcut 5 (by decide)
  rw [hcuts] at hfault hmessage
  exact ⟨hnone, hcuts, fun h => absurd (hfault.1 h) (by decide), hmessage (by decide)⟩

end Message

end RecordBridge

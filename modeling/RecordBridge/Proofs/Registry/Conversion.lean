import RecordBridge.Proofs.Record.Built
import RecordBridge.Proofs.Record.Range
import RecordBridge.Proofs.Registry.Coercion
import RecordBridge.Proofs.Text.FixedBuffer
/-!
# What a coercion converts

A selected coercion has a value for every slot that suits the record field, and a slot for
every value of the message field and for none. A slot that a message carries whole
(`Slot.Whole`) comes back from its value, and the slot of a value is stored as it is: of an
integer, it is the one in the range of the field that is congruent to it
(`select_converts`).
-/
namespace RecordBridge

/-- A slot that a message carries whole: an integer, a flag, a text without NUL behind a
pointer, or a buffer that holds one, with nothing but zeros after it. -/
inductive Slot.Whole : Slot → Prop where
  | int (value : Int64) : Whole (.int value)
  | bool (value : Bool) : Whole (.bool value)
  | text {text : String} (no_nul : '\x00' ∉ text.toList) : Whole (.text (some text))
  | bytes {text : String} (no_nul : '\x00' ∉ text.toList) (zeros : Nat) :
      Whole (.bytes (Utf8.encode text ++ .replicate zeros 0))

/-- A text that fits is packed with zeros after it. -/
theorem packText_of_fits {text : String} (h : '\x00' ∉ text.toList) (zeros : Nat) :
    packText text ((Utf8.encode text).length + zeros) =
      Utf8.encode text ++ .replicate zeros 0 := by
  rw [packText, untilNul_eq_self h, List.take_of_length_le (Nat.le_add_right _ _), List.rightpad,
    Nat.add_sub_cancel_left]

namespace Slot

/-- A slot that is carried whole is what is carried of it. -/
theorem Whole.carried_eq {slot : Slot} (h : slot.Whole) : slot.carried = slot := by
  cases h with
  | int | bool => rfl
  | text no_nul => rw [carried, Option.elim_some, untilNul_eq_self no_nul]
  | @bytes text no_nul zeros =>
    have hpack := packText_of_fits no_nul zeros
    have hread : readText (Utf8.encode text ++ .replicate zeros 0) = text := by
      rw [← hpack]
      exact readText_packText_of_fits no_nul (by simp [Utf8.length_encode])
    rw [carried, hread, List.length_append, List.length_replicate, hpack]

end Slot

namespace Coercion

variable {kind : FieldKind} {type : FieldType} {coercion : Coercion} {given : Option Value}
  {slot : Slot}

/-- Every value of the message field, and none, has a slot. -/
theorem exists_toSlot? (h : ∀ value ∈ given, value.fits coercion.carrier) :
    ∃ slot, coercion.toSlot? given = some slot := by
  rcases given with _ | value
  · cases coercion <;> exact ⟨_, rfl⟩
  · have hfits := h value rfl
    cases coercion <;> cases value <;> first | exact ⟨_, rfl⟩ | cases hfits

/-- The slot of a value is stored as it is. -/
theorem stored_toSlot? (hk : ofKind? kind = .ok (some coercion))
    (ht : coercion.toSlot? given = some slot) : slot.stored kind = slot := by
  have hkind := ofKind?_eq_ok hk
  cases coercion with
  | int width signed =>
    obtain ⟨rfl, -⟩ := hkind
    rcases given with _ | value
    · cases ht
      rw [Slot.stored, wrapInt_zero]
    · cases value <;> cases ht
      rw [Slot.stored, wrapInt_wrapInt]
  | bool | fixedText | ownedText =>
    rcases given with _ | value
    · cases ht
      rfl
    · cases value <;> cases ht
      rfl

/-- The slot of a value suits the record field. -/
theorem suits_toSlot? (hk : ofKind? kind = .ok (some coercion))
    (ht : coercion.toSlot? given = some slot) : slot.Suits kind :=
  ⟨(fits_toSlot? hk ht).1, stored_toSlot? hk ht⟩

/-- The slot of an integer holds the one that the field has in its range for it; an unset
field stands for 0. -/
theorem exists_wrapsTo (hw : (wrapSize? width).isSome) {value : Int32}
    (hvalue : given.getD (.int32 0) = .int32 value)
    (ht : (Coercion.int width signed).toSlot? given = some slot) :
    ∃ number : Int64, slot = .int number ∧
      FieldKind.WrapsTo width signed value.toInt number.toInt := by
  obtain ⟨size, hsize⟩ := Option.isSome_iff_exists.1 hw
  have hlow := value.le_toInt
  have hhigh := value.toInt_lt
  have hcast : (Int64.ofInt value.toInt).toInt = value.toInt :=
    Int64.toInt_ofInt_of_le (by omega) (by omega)
  have hwraps := @wrapsTo_wrapInt width signed size hsize (Int64.ofInt value.toInt)
  rw [hcast] at hwraps
  rcases given with _ | held
  · cases hvalue
    cases ht
    rw [show Int64.ofInt (Int32.toInt 0) = 0 from rfl, wrapInt_zero] at hwraps
    exact ⟨0, rfl, hwraps⟩
  · cases hvalue
    cases ht
    exact ⟨_, rfl, hwraps⟩

/-- A slot that suits the record field has a value of the message field. What comes back of
it suits the record field, and is the slot if that is carried whole. -/
theorem exists_toValue? (h : select kind type = .ok (.ok coercion)) (hs : slot.Suits kind) :
    ∃ value back, coercion.toValue? slot = some value ∧ value.fits type ∧
      coercion.toSlot? (some value) = some back ∧ back.fits kind ∧
      (slot.Whole → back = slot) := by
  obtain ⟨hk, rfl⟩ := select_eq_ok_iff.1 h
  obtain ⟨value, back, hvalue, hback, hcarried⟩ := toSlot?_toValue? hk hs
  have hsuits := suits_toSlot? hk hback
  refine ⟨value, back, hvalue, (fits_toValue? hvalue).1, hback, hsuits.fits, fun hwhole => ?_⟩
  rw [← hsuits.stored, hcarried, hwhole.carried_eq]

/-- A selected coercion converts every slot that suits the record field to a value of the
message field, and back to a slot of the record field, the same if it is carried whole. It
converts every value of the message field, and an unset one, to a slot of the record field
that a record stores as it is; of an integer, that is the one in the range of the field
that is congruent to it, and there is no other. -/
theorem select_converts (h : select kind type = .ok (.ok coercion)) :
    (∀ slot : Slot, slot.Suits kind → ∃ value back,
      coercion.toValue? slot = some value ∧ value.fits type ∧
      coercion.toSlot? (some value) = some back ∧ back.fits kind ∧
      (slot.Whole → back = slot)) ∧
    ∀ given : Option Value, (∀ value ∈ given, value.fits type) → ∃ slot,
      coercion.toSlot? given = some slot ∧ slot.fits kind ∧
      (∀ (record : Record) (index : Nat) (field : Layout.Field),
        record.layout.fields[index]? = some field → field.kind = kind →
        record.setSlot index slot = .ok (record.put index slot)) ∧
      ∀ (width : UInt8) (signed : Bool) (value : Int32), kind = .int width signed →
        given.getD (.int32 0) = .int32 value → ∃ number : Int64, slot = .int number ∧
          FieldKind.WrapsTo width signed value.toInt number.toInt := by
  refine ⟨fun slot hs => exists_toValue? h hs, fun given hgiven => ?_⟩
  obtain ⟨hk, rfl⟩ := select_eq_ok_iff.1 h
  obtain ⟨slot, hslot⟩ := exists_toSlot? hgiven
  have hsuits := suits_toSlot? hk hslot
  refine ⟨slot, hslot, hsuits.fits, ?_, ?_⟩
  · rintro record index field hf rfl
    refine Record.setSlot_eq_ok_iff.2 ⟨field, hf, hsuits.fits, ?_⟩
    rw [hsuits.stored]
  · rintro width signed value rfl hvalue
    obtain ⟨hw, hc⟩ := Option.ite_none_right_eq_some.1 (Except.ok.inj hk)
    cases hc
    exact exists_wrapsTo hw hvalue hslot

/-- An unsigned field of four bytes carries its largest integer as a negative one, and takes
a negative one for it. -/
theorem select_converts_uint32 :
    select (.int 4 false) .int32 = .ok (.ok (.int 4 false)) ∧
      (Slot.int 4294967295).Suits (.int 4 false) ∧
      (∃ value, (Coercion.int 4 false).toValue? (.int 4294967295) = some value ∧
        value.fits .int32 ∧
        (Coercion.int 4 false).toSlot? (some value) = some (.int 4294967295)) ∧
      ∃ number : Int64, (Coercion.int 4 false).toSlot? (some (.int32 (-2))) = some (.int number) ∧
        FieldKind.WrapsTo 4 false (-2) number.toInt := by
  have h : select (.int 4 false) .int32 = .ok (.ok (.int 4 false)) := by decide
  have hs : (Slot.int 4294967295).Suits (.int 4 false) := ⟨rfl, by rw [Slot.stored]; rfl⟩
  obtain ⟨hthere, hback⟩ := select_converts h
  obtain ⟨value, back, hvalue, hfits, hslot, -, hwhole⟩ := hthere _ hs
  rw [hwhole (.int _)] at hslot
  obtain ⟨slot, hslot', -, -, hnumber⟩ := hback (some (.int32 (-2))) (by rintro _ ⟨⟩; rfl)
  obtain ⟨number, rfl, hwraps⟩ := hnumber 4 false (-2) rfl rfl
  exact ⟨h, hs, ⟨value, hvalue, hfits, hslot⟩, number, hslot', hwraps⟩

end Coercion

end RecordBridge

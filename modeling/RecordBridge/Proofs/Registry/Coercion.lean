import RecordBridge.Proofs.Message.Canon
import RecordBridge.Proofs.Record.Sound
import RecordBridge.Registry.Coercion
/-!
# Coercions there and back

The value made of a slot fits the message field, and the slot made of a value
fits the record field. Going there and back keeps integers and flags, and texts
up to their first NUL (`toSlot?_toValue?`); a default value and an unset field
give the same slot (`toSlot?_default`).
-/
namespace RecordBridge

/-- What a message carries of a scalar slot: text up to its first NUL, made valid
and packed again, with the null pointer as the empty text. -/
def Slot.carried : Slot → Slot
  | .bytes buffer => .bytes (packText (readText buffer) buffer.length)
  | .text held => .text (some (held.elim "" untilNul))
  | slot => slot

theorem untilNul_untilNul (text : String) : untilNul (untilNul text) = untilNul text := by
  have hall := List.all_takeWhile (p := (· ≠ '\x00')) (l := text.toList)
  have hself := @List.takeWhile_append_of_pos _ _ _ [] (List.all_eq_true.1 hall)
  simp only [List.append_nil, List.takeWhile_nil] at hself
  simp only [untilNul, String.toList_ofList, hself]

theorem untilNul_empty : untilNul "" = "" := by simp [untilNul]

theorem packText_empty (length : Nat) : packText "" length = .replicate length 0 := by
  simp [packText, untilNul_empty, Utf8.encode, List.rightpad]

namespace Coercion

variable {kind : FieldKind} {type : FieldType} {coercion : Coercion}

/-- A coercion is selected for a kind that has one, if the message field is its carrier. -/
theorem select_eq_ok_iff : select kind type = .ok (.ok coercion) ↔
    ofKind? kind = .ok (some coercion) ∧ coercion.carrier = type := by
  simp only [select, bind_eq_ok]
  constructor
  · rintro ⟨found | found, hfound, h⟩
    · cases h
    · simp only [pure_eq_ok] at h
      split at h
      · next hc =>
        cases h
        exact ⟨hfound, hc⟩
      · cases h
  · rintro ⟨hfound, hc⟩
    exact ⟨some coercion, hfound, congrArg pure (if_pos hc)⟩

/-- A coercion takes the bytes of the record field that it is for. -/
theorem packedSize_select (h : select kind type = .ok (.ok coercion)) (sizeOf : LayoutId → Nat) :
    kind.packedSize sizeOf = coercion.byteSize := by
  have hkind := (select_eq_ok_iff.1 h).1
  cases kind with
  | int width signed =>
    obtain ⟨-, hc⟩ := Option.ite_none_right_eq_some.1 (Except.ok.inj hkind)
    exact Option.some.inj hc ▸ rfl
  | textRows count length =>
    obtain ⟨size, hsize, hkind⟩ := bind_eq_ok.1 hkind
    cases hkind
    exact (FieldKind.rowsFit_of_mul hsize).2
  | nested | array | list => cases hkind
  | _ => cases hkind; rfl

/-- Rows within 64 bits do not stop the selection. -/
theorem exists_select (hrows : kind.RowsFit) (type : FieldType) :
    ∃ selected, select kind type = .ok selected := by
  obtain ⟨found, hfound⟩ : ∃ found, ofKind? kind = .ok found := by
    cases kind with
    | textRows count length => simp [ofKind?, hrows.mul_eq]
    | _ => exact ⟨_, rfl⟩
  rw [select, hfound, ok_bind]
  cases found <;> exact ⟨_, rfl⟩

/-- The kinds of record fields that each coercion is for. -/
theorem ofKind?_eq_ok : ofKind? kind = .ok (some coercion) → match coercion with
    | .int width signed => kind = .int width signed ∧ (wrapSize? width).isSome
    | .bool => kind = .bool
    | .fixedText length => kind.textLength? = some length
    | .ownedText => kind = .ownedText := by
  intro h
  cases kind with
  | int width signed =>
    simp only [ofKind?] at h
    split at h
    · next hw =>
      cases h
      exact ⟨rfl, hw⟩
    · cases h
  | textRows count length =>
    obtain ⟨size, hsize, h⟩ := bind_eq_ok.1 h
    cases h
    obtain ⟨hrows, rfl⟩ := FieldKind.rowsFit_of_mul hsize
    exact hrows.textLength?
  | bool | ownedText | fixedText => cases h; rfl
  | nested | array | list => cases h

/-- A slot made of a message value fits the record field. -/
theorem fits_toSlot? (hk : ofKind? kind = .ok (some coercion)) {value : Option Value} {slot : Slot}
    (ht : coercion.toSlot? value = some slot) : slot.fits kind ∧ slot.inner = [] := by
  have hkind := ofKind?_eq_ok hk
  cases coercion with
  | int width signed =>
    obtain ⟨rfl, -⟩ := hkind
    rcases value with _ | value
    · cases ht; exact ⟨rfl, rfl⟩
    · cases value <;> cases ht; exact ⟨rfl, rfl⟩
  | bool =>
    subst hkind
    rcases value with _ | value
    · cases ht; exact ⟨rfl, rfl⟩
    · cases value <;> cases ht; exact ⟨rfl, rfl⟩
  | ownedText =>
    subst hkind
    rcases value with _ | value
    · cases ht; exact ⟨rfl, rfl⟩
    · cases value <;> cases ht; exact ⟨rfl, rfl⟩
  | fixedText length =>
    rcases value with _ | value
    · cases ht; exact ⟨by simp [Slot.fits, hkind], rfl⟩
    · cases value <;> cases ht; exact ⟨by simp [Slot.fits, hkind, length_packText], rfl⟩

/-- A value made of a record slot fits the message field. -/
theorem fits_toValue? {slot : Slot} {value : Value} (ht : coercion.toValue? slot = some value) :
    value.fits coercion.carrier ∧ value.inner = [] := by
  cases coercion <;> cases slot <;> cases ht <;> exact ⟨rfl, rfl⟩

/-- An unset field gives the slot that the default value of its type gives. -/
theorem toSlot?_default {value : Value} (hfit : value.fits coercion.carrier)
    (hd : value.isDefault) : coercion.toSlot? none = coercion.toSlot? (some value) := by
  cases coercion with
  | int width signed =>
    cases value with
    | int32 value =>
      have h0 : value = 0 := by simpa [Value.isDefault] using hd
      have hwrap : wrapInt width signed (Int64.ofInt value.toInt) = 0 := by
        rw [h0]
        exact wrapInt_zero width signed
      exact congrArg (fun kept => some (Slot.int kept)) hwrap.symm
    | _ => cases hfit
  | bool =>
    cases value with
    | bool value =>
      have hfalse : value = false := by simpa [Value.isDefault] using hd
      rw [hfalse]
      rfl
    | _ => cases hfit
  | fixedText length =>
    cases value with
    | string value =>
      have hempty : value = "" := by simpa [Value.isDefault] using hd
      rw [hempty]
      exact congrArg (fun buffer => some (Slot.bytes buffer)) (packText_empty length).symm
    | _ => cases hfit
  | ownedText =>
    cases value with
    | string value =>
      have hempty : value = "" := by simpa [Value.isDefault] using hd
      rw [hempty]
      exact congrArg (fun text => some (Slot.text (some text))) untilNul_empty.symm
    | _ => cases hfit

/-- A field of a canonical message gives the slot that it gave before. -/
theorem toSlot?_canon {message : Message} {index : Nat} {value : Value}
    (hv : message.value? index = some value) (hfit : value.fits coercion.carrier) :
    coercion.toSlot? (message.canon.value? index) = coercion.toSlot? (some value) := by
  rw [Message.value?_canon, hv]
  by_cases hd : value.isDefault
  · rw [Option.filter_some_neg (by simp [hd]), Option.map_none, toSlot?_default hfit hd]
  · rw [Option.filter_some_pos (by simp [hd]), Option.map_some]
    cases value with
    | int32 | bool | string => rfl
    | message | list => cases coercion <;> cases hfit

/-- Integers of a width keep their value as 32-bit ones and back. -/
theorem wrapInt_int32 {width : UInt8} (hw : (wrapSize? width).isSome) (signed : Bool)
    (value : Int64) :
    wrapInt width signed (Int64.ofInt (Int32.ofInt (wrapInt width signed value).toInt).toInt) =
      wrapInt width signed value := by
  obtain ⟨size, hsize⟩ := Option.isSome_iff_exists.1 hw
  have h32 : size ∣ Int32.size := by
    rcases wrapSize?_cases hsize with rfl | rfl | rfl <;> decide
  have h64 : Int32.size ∣ Int64.size := by decide
  -- each cast only drops multiples of the size
  have hcast : ∀ n : Int, ((n.bmod Int32.size).bmod Int64.size) % size = n % size := by
    intro n
    rw [← Int.bmod_emod (x := (n.bmod Int32.size).bmod Int64.size),
      Int.bmod_bmod_of_dvd (Nat.dvd_trans h32 h64), Int.bmod_bmod_of_dvd h32, Int.bmod_emod]
  rw [← Int64.toInt_inj, toInt_wrapInt hsize, Int64.toInt_ofInt, Int32.toInt_ofInt]
  have hself := congrArg Int64.toInt (wrapInt_wrapInt width signed value)
  rw [toInt_wrapInt hsize] at hself
  refine Eq.trans ?_ hself
  cases signed with
  | true =>
    simp only [if_true, Int.bmod_bmod_of_dvd (Nat.dvd_trans h32 h64), Int.bmod_bmod_of_dvd h32]
  | false =>
    simp only [Bool.false_eq_true, if_false]
    exact hcast _

/-- A suiting slot has a value, which gives back what is carried of the slot. -/
theorem toSlot?_toValue? (hk : ofKind? kind = .ok (some coercion)) {slot : Slot}
    (hs : slot.Suits kind) : ∃ value back, coercion.toValue? slot = some value ∧
      coercion.toSlot? (some value) = some back ∧ back.stored kind = slot.carried := by
  have hkind := ofKind?_eq_ok hk
  have hfits := hs.fits
  cases coercion with
  | int width signed =>
    obtain ⟨rfl, hw⟩ := hkind
    cases slot <;> try cases hfits
    next value =>
      refine ⟨_, _, rfl, rfl, ?_⟩
      have hstored : wrapInt width signed value = value := by simpa [Slot.stored] using hs.stored
      rw [Slot.stored, wrapInt_wrapInt, wrapInt_int32 hw, hstored]
      rfl
  | bool =>
    subst hkind
    cases slot <;> try cases hfits
    exact ⟨_, _, rfl, rfl, rfl⟩
  | ownedText =>
    subst hkind
    cases slot <;> try cases hfits
    next held =>
      refine ⟨_, _, rfl, rfl, ?_⟩
      cases held with
      | none => simp [Slot.stored, Slot.carried, untilNul_empty]
      | some text => simp only [Slot.stored, Slot.carried, Option.elim, untilNul_untilNul]
  | fixedText length =>
    cases slot with
    | bytes buffer =>
      refine ⟨_, _, rfl, rfl, ?_⟩
      have hlen : length = buffer.length := by simpa [Slot.fits, hkind] using hfits
      have hstored : ∀ other, (Slot.bytes other).stored kind = .bytes other := fun _ => rfl
      rw [hstored, Slot.carried, hlen]
    | _ => cases kind <;> simp [Slot.fits, FieldKind.textLength?] at hfits hkind

end Coercion

end RecordBridge

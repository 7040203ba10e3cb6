import RecordBridge.Proofs.Record.Sound
/-!
# The range of an integer field

A field of a width holds the integers of so many bits, with a sign or without
(`FieldKind.InRange`). The widths that wrap store of any integer the one in range that is
congruent to it (`wrapsTo_wrapInt`), and so an integer in range as it is
(`FieldKind.InRange.wrapInt_eq`).
-/
namespace RecordBridge

/-- An integer is in the range of a field of a width. -/
def FieldKind.InRange (width : UInt8) (signed : Bool) (n : Int) : Prop :=
  if signed then -2 ^ (8 * width.toNat - 1) ≤ n ∧ n < 2 ^ (8 * width.toNat - 1)
  else 0 ≤ n ∧ n < 2 ^ (8 * width.toNat)

/-- Of the integers in the range of a field, `n` is the one congruent to `value` modulo as
many as the bits of the field tell apart. -/
structure FieldKind.WrapsTo (width : UInt8) (signed : Bool) (value n : Int) : Prop where
  range : InRange width signed n
  congruent : n ≡ value [ZMOD 2 ^ (8 * width.toNat)]
  unique : ∀ other, InRange width signed other →
    other ≡ value [ZMOD 2 ^ (8 * width.toNat)] → other = n

/-- A width that wraps tells as many integers apart as its bits do. -/
theorem wrapSize?_eq_pow {width : UInt8} {size : Nat} (h : wrapSize? width = some size) :
    (size : Int) = 2 ^ (8 * width.toNat) := by
  unfold wrapSize? at h
  split_ifs at h <;> subst width <;> cases h <;> rfl

section

variable {width : UInt8} {signed : Bool} {n : Int}

/-- The range of a width that wraps is what it wraps to. -/
theorem inRange_iff {size : Nat} (hsize : wrapSize? width = some size) :
    FieldKind.InRange width signed n ↔
      if signed then -(size : Int) ≤ n * 2 ∧ n * 2 < size else 0 ≤ n ∧ n < size := by
  have hone : UInt8.toNat 1 = 1 := rfl
  have htwo : UInt8.toNat 2 = 2 := rfl
  have hfour : UInt8.toNat 4 = 4 := rfl
  unfold wrapSize? at hsize
  split_ifs at hsize <;> subst width <;> cases hsize <;> cases signed <;>
    norm_num [FieldKind.InRange, hone, htwo, hfour, UInt8.size, UInt16.size, UInt32.size] <;> omega

namespace FieldKind.InRange

/-- The range of a field lies in 64 bits, signed or unsigned. -/
theorem bounds (h : InRange width signed n) (hwidth : width ≤ 8) : -2 ^ 63 ≤ n ∧ n < 2 ^ 64 := by
  have hw : width.toNat ≤ 8 := hwidth
  unfold InRange at h
  cases signed with
  | true =>
    have hp : (2 : Int) ^ (8 * width.toNat - 1) ≤ 2 ^ 63 :=
      pow_le_pow_right₀ (by decide) (by omega)
    simp only [if_true] at h
    omega
  | false =>
    have hp : (2 : Int) ^ (8 * width.toNat) ≤ 2 ^ 64 := pow_le_pow_right₀ (by decide) (by omega)
    simp only [Bool.false_eq_true, if_false] at h
    omega

/-- An integer in range is stored as it is. -/
theorem wrapInt_eq (h : InRange width signed n) :
    wrapInt width signed (Int64.ofInt n) = Int64.ofInt n := by
  cases hsize : wrapSize? width with
  | none => simp [wrapInt, hsize]
  | some size =>
    have hlimits := (inRange_iff hsize).1 h
    have hn : (Int64.ofInt n).toInt = n := by
      rw [Int64.toInt_ofInt]
      refine Int.bmod_eq_of_le_mul_two ?_ ?_ <;>
        rcases wrapSize?_cases hsize with rfl | rfl | rfl <;> split at hlimits <;>
        simp only [Int64.size] <;> omega
    rw [← Int64.toInt_inj, toInt_wrapInt hsize, hn]
    cases signed with
    | true => exact Int.bmod_eq_of_le_mul_two hlimits.1 hlimits.2
    | false => exact Int.emod_eq_of_lt hlimits.1 hlimits.2

end FieldKind.InRange

/-- A width that wraps stores of an integer the one in range that is congruent to it. -/
theorem wrapsTo_wrapInt {size : Nat} (hsize : wrapSize? width = some size) (value : Int64) :
    FieldKind.WrapsTo width signed value.toInt (wrapInt width signed value).toInt := by
  have hwrap := toInt_wrapInt hsize signed value
  have hcases := wrapSize?_cases hsize
  refine ⟨(inRange_iff hsize).2 ?_, ?_, fun other hother hcongruent => ?_⟩
  · rw [hwrap]
    cases signed <;> rcases hcases with rfl | rfl | rfl <;>
      simp only [Int.bmod_def, if_true, Bool.false_eq_true, if_false] <;> omega
  · rw [← wrapSize?_eq_pow hsize, hwrap, Int.ModEq]
    cases signed with
    | true => exact Int.bmod_emod
    | false => exact Int.emod_emod_of_dvd _ (dvd_refl _)
  · have hlimits := (inRange_iff hsize).1 hother
    rw [← wrapSize?_eq_pow hsize] at hcongruent
    rw [hwrap]
    cases signed with
    | true =>
      calc other = other.bmod size := (Int.bmod_eq_of_le_mul_two hlimits.1 hlimits.2).symm
        _ = (other % size).bmod size := (Int.emod_bmod _ _).symm
        _ = (value.toInt % size).bmod size := by rw [hcongruent]
        _ = value.toInt.bmod size := Int.emod_bmod _ _
    | false =>
      exact (Int.emod_eq_of_lt hlimits.1 hlimits.2).symm.trans hcongruent

end

end RecordBridge

import RecordBridge.Wire.Key
/-!
# Skipping unknown fields

A field of unknown number is passed over by its wire type alone. A group lasts
until the end key of its own number; what lies between is skipped likewise, up
to a nesting of `groupLimit`.

| here | operation |
| --- | --- |
| `Wire.skip` | `skip_field` |
-/
namespace RecordBridge.Wire

/-- How deep fields may lie in skipped groups. -/
def groupLimit : Nat := 100

/-- Splits off exactly `n` bytes, without a look at how many follow. -/
def splitExactly? (n : Nat) (bytes : List UInt8) : Option (List UInt8 × List UInt8) :=
  if (bytes.take n).length = n then some (bytes.take n, bytes.drop n) else none

/-- What is left is no longer. -/
theorem length_le_of_splitExactly? {n : Nat} {bytes front back : List UInt8}
    (h : splitExactly? n bytes = some (front, back)) : back.length ≤ bytes.length := by
  unfold splitExactly? at h
  split at h <;> cases h
  simp

/-- Drops exactly `n` bytes. -/
def dropExactly (n : Nat) (bytes : List UInt8) : Except WireFault (List UInt8) :=
  match splitExactly? n bytes with
  | some (_, rest) => .ok rest
  | none => .error .underflow

/-- Skips the content of a field that is no group. -/
def skipContent : WireType → List UInt8 → Except WireFault (List UInt8)
  | .varint, bytes => do return (← varint bytes).2
  | .fixed32, bytes => dropExactly 4 bytes
  | .fixed64, bytes => dropExactly 8 bytes
  | .lengthDelimited, bytes => do
    let (n, rest) ← varint bytes
    dropExactly n rest
  | .startGroup, _ | .endGroup, _ => .error .endGroup

theorem length_le_of_skipContent {wire : WireType} {bytes rest : List UInt8}
    (h : skipContent wire bytes = .ok rest) : rest.length ≤ bytes.length := by
  have drop : ∀ {n : Nat} {bytes rest : List UInt8},
      dropExactly n bytes = .ok rest → rest.length ≤ bytes.length := by
    intro n bytes rest h
    unfold dropExactly at h
    split at h
    · next hs => cases h; exact length_le_of_splitExactly? hs
    · cases h
  cases wire with
  | startGroup | endGroup => cases h
  | fixed32 | fixed64 => exact drop h
  | varint =>
    cases hv : varint bytes with
    | error e => simp [skipContent, hv, bind, Except.bind] at h
    | ok v =>
      simp only [skipContent, hv, bind, Except.bind, pure, Except.pure] at h
      cases h; exact Nat.le_of_lt (length_lt_of_varint hv)
  | lengthDelimited =>
    cases hv : varint bytes with
    | error e => simp [skipContent, hv, bind, Except.bind] at h
    | ok v =>
      simp only [skipContent, hv, bind, Except.bind] at h
      exact Nat.le_trans (drop h) (Nat.le_of_lt (length_lt_of_varint hv))

/-- Skips to the end of the groups begun, `begun` holding their numbers from the
innermost out. -/
def skipGroups : (begun : List UInt32) → List UInt8 → Except WireFault (List UInt8)
  | [], bytes => .ok bytes
  | number :: outer, bytes =>
    match _h : key bytes with
    | .error fault => .error fault
    | .ok ((found, .endGroup), rest) =>
      if found = number then skipGroups outer rest else .error .endGroup
    | .ok ((found, .startGroup), rest) =>
      if groupLimit ≤ (number :: outer).length then .error .groupDepth
      else skipGroups (found :: number :: outer) rest
    | .ok ((_, wire), rest) =>
      if groupLimit ≤ (number :: outer).length then .error .groupDepth
      else match _hc : skipContent wire rest with
        | .error fault => .error fault
        | .ok rest => skipGroups (number :: outer) rest
termination_by _ bytes => bytes.length
decreasing_by
  · exact length_lt_of_key _h
  · exact length_lt_of_key _h
  · exact Nat.lt_of_le_of_lt (length_le_of_skipContent _hc) (length_lt_of_key _h)

/-- Skips the field whose key has been read. -/
def skip (number : UInt32) : WireType → List UInt8 → Except WireFault (List UInt8)
  | .startGroup, bytes => skipGroups [number] bytes
  | wire, bytes => skipContent wire bytes

theorem length_le_of_skipGroups {begun : List UInt32} {bytes rest : List UInt8}
    (h : skipGroups begun bytes = .ok rest) : rest.length ≤ bytes.length := by
  fun_induction skipGroups begun bytes with
  | case1 bytes => cases h; exact Nat.le_refl _
  | case2 | case4 | case5 | case7 | case8 => cases h
  | case3 _ _ _ _ hk ih => exact Nat.le_trans (ih h) (Nat.le_of_lt (length_lt_of_key hk))
  | case6 _ _ _ _ _ hk _ ih => exact Nat.le_trans (ih h) (Nat.le_of_lt (length_lt_of_key hk))
  | case9 =>
    rename_i hk _ _ hc ih
    exact Nat.le_trans (ih h) (Nat.le_trans (length_le_of_skipContent hc)
      (Nat.le_of_lt (length_lt_of_key hk)))

theorem length_le_of_skip {number : UInt32} {wire : WireType} {bytes rest : List UInt8}
    (h : skip number wire bytes = .ok rest) : rest.length ≤ bytes.length := by
  cases wire with
  | startGroup => exact length_le_of_skipGroups h
  | _ => simp only [skip] at h; exact length_le_of_skipContent h

end RecordBridge.Wire

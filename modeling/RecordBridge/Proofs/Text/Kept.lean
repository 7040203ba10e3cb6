import RecordBridge.Proofs.Text.FixedBuffer
/-!
# What a buffer keeps of a text

A buffer keeps the part of a text before its first NUL, as far as it reaches. Of a part
that does not fit, it keeps the longest beginning in whole characters that does
(`LongestWithin`). In what room that leaves lies a piece of the next character, which is
read as one replacement character (`readText_packText_kept`).
-/
namespace RecordBridge

/-- A text is the longest beginning of another one, in whole characters, that takes at
most `room` bytes. -/
structure LongestWithin (room : Nat) (text front : String) : Prop where
  begins : ∃ rest, text = front ++ rest
  fits : front.utf8ByteSize ≤ room
  longest : ∀ other rest, text = other ++ rest → other.utf8ByteSize ≤ room →
    other.utf8ByteSize ≤ front.utf8ByteSize

theorem utf8ByteSize_ofList_cons (c : Char) (chars : List Char) :
    (String.ofList (c :: chars)).utf8ByteSize =
      c.utf8Size + (String.ofList chars).utf8ByteSize := by
  rw [String.ofList_cons, String.utf8ByteSize_append, String.utf8ByteSize_singleton]

/-- A beginning that the next character takes past the room is the longest one. -/
theorem longestWithin_of_next {room : Nat} {front rest : List Char} {next : Char}
    (hfits : (String.ofList front).utf8ByteSize ≤ room)
    (hnext : room < (String.ofList front).utf8ByteSize + next.utf8Size) :
    LongestWithin room (String.ofList (front ++ next :: rest)) (String.ofList front) := by
  refine ⟨⟨.ofList (next :: rest), String.ofList_append⟩, hfits, fun other back hsplit hother => ?_⟩
  have hchars : front ++ next :: rest = other.toList ++ back.toList := by
    rw [← String.toList_append, ← hsplit, String.toList_ofList]
  rcases List.append_eq_append_iff.1 hchars with ⟨more, hmore, hback⟩ | ⟨more, rfl, -⟩
  · -- a longer beginning has the next character, unless there is nothing more in it
    cases more with
    | nil =>
      rw [List.append_nil] at hmore
      rw [← hmore, String.ofList_toList]
    | cons first more =>
      obtain ⟨rfl, -⟩ := List.cons.inj hback
      rw [← @String.ofList_toList other, hmore, String.ofList_append, String.utf8ByteSize_append,
        utf8ByteSize_ofList_cons] at hother
      omega
  · rw [String.ofList_append, String.ofList_toList, String.utf8ByteSize_append]
    omega

namespace Utf8

/-- A text that does not fit is cut at the first character that does not, which is replaced
where a piece of it is left. -/
theorem exists_cut_eq : ∀ {chars : List Char} {room : Nat},
    room < (String.ofList chars).utf8ByteSize → ∃ front next rest,
      chars = front ++ next :: rest ∧ (String.ofList front).utf8ByteSize ≤ room ∧
      room < (String.ofList front).utf8ByteSize + next.utf8Size ∧
      cut room chars =
        front ++ if (String.ofList front).utf8ByteSize < room then ['\uFFFD'] else []
  | [], room, h => by
    exact absurd h (Nat.not_lt_zero room)
  | c :: chars, room, h => by
    rw [utf8ByteSize_ofList_cons] at h
    by_cases hfits : c.utf8Size ≤ room
    · obtain ⟨front, next, rest, rfl, hle, hlt, hcut⟩ :=
        @exists_cut_eq chars (room - c.utf8Size) (by omega)
      have hroom : (String.ofList front).utf8ByteSize < room - c.utf8Size ↔
          c.utf8Size + (String.ofList front).utf8ByteSize < room := by omega
      refine ⟨c :: front, next, rest, rfl, ?_, ?_, ?_⟩
      · rw [utf8ByteSize_ofList_cons]
        omega
      · rw [utf8ByteSize_ofList_cons]
        omega
      · rw [cut, if_pos hfits, hcut, utf8ByteSize_ofList_cons]
        simp only [hroom, List.cons_append]
    · have hsize : (String.ofList []).utf8ByteSize = 0 := rfl
      refine ⟨[], c, chars, rfl, Nat.zero_le _, by omega, ?_⟩
      rw [cut, if_neg hfits, hsize, List.nil_append]
      by_cases h0 : room = 0
      · rw [if_pos h0, if_neg (by omega)]
      · rw [if_neg h0, if_pos (by omega)]

end Utf8

/-- Before the first NUL of a text comes the part of it that is packed. -/
theorem exists_rest_untilNul (text : String) : ∃ rest, text = untilNul text ++ rest ∧
    '\x00' ∉ (untilNul text).toList ∧ ∀ c ∈ rest.toList.head?, c = '\x00' := by
  refine ⟨.ofList (text.toList.dropWhile (· ≠ '\x00')), ?_, ?_, fun c hc => ?_⟩
  · rw [untilNul, ← String.ofList_append, List.takeWhile_append_dropWhile, String.ofList_toList]
  · exact fun hmem => ne_nul_of_mem_untilNul _ hmem rfl
  · rw [String.toList_ofList] at hc
    have hhead := List.head?_dropWhile_not (· ≠ '\x00') text.toList
    rw [hc] at hhead
    simpa using hhead

/-- What a buffer of a length gives back of a text that is packed into it: the part before
the first NUL if it fits, and otherwise the longest beginning of that part that does, with
one replacement character behind it where a piece of the next character is left. What is
read is packed and read again as it is. -/
theorem readText_packText_kept (text : String) (length : Nat) :
    (packText text length).length = length ∧
    (∃ part rest, text = part ++ rest ∧ '\x00' ∉ part.toList ∧
      (∀ c ∈ rest.toList.head?, c = '\x00') ∧
      (part.utf8ByteSize ≤ length → readText (packText text length) = part) ∧
      (length < part.utf8ByteSize → ∃ front, LongestWithin length part front ∧
        readText (packText text length) =
          front ++ if front.utf8ByteSize < length then "\uFFFD" else "")) ∧
    readText (packText (readText (packText text length)) length) =
      readText (packText text length) := by
  obtain ⟨rest, htext, hnul, hrest⟩ := exists_rest_untilNul text
  have hread := readText_packText text length
  refine ⟨length_packText text length, ⟨untilNul text, rest, htext, hnul, hrest, ?_, ?_⟩,
    readText_packText_readText text length⟩
  · intro hfits
    rw [← Utf8.length_encode] at hfits
    rw [hread, Utf8.cut_eq_self hfits, String.ofList_toList]
  · intro hlong
    rw [← @String.ofList_toList (untilNul text)] at hlong
    obtain ⟨front, next, more, hchars, hfits, hnext, hcut⟩ := Utf8.exists_cut_eq hlong
    have hlongest := @longestWithin_of_next length front more next hfits hnext
    rw [← hchars, String.ofList_toList] at hlongest
    refine ⟨.ofList front, hlongest, ?_⟩
    rw [hread, hcut, String.ofList_append]
    split_ifs <;> rfl

/-- A character of three bytes that is cut after two of them. -/
example : readText (packText "né€" 5) = "né\uFFFD" := by decide

end RecordBridge

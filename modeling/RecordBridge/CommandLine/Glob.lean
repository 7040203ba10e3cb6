/-!
# Glob patterns

A pattern is matched against a whole text. `?` stands for one character, `*`
for any number of them, and `[…]` for one out of a class, or, after `!`, for one
that is not in it. Slashes are characters like others. `**` must be a whole
component of the pattern, and stands for any number of components.

| here | operation |
| --- | --- |
| `Glob.parse?` | `Pattern::new` |
| `Glob.matches?` | `Pattern::matches` |
-/
namespace RecordBridge

namespace Glob

/-- A member of a class: a range of characters, of which one alone is the
smallest. -/
structure Span where
  first : Char
  last : Char
deriving DecidableEq, Repr

/-- A part of a pattern. -/
inductive Token where
  | char (value : Char)
  | anyChar
  | within (members : List Span)
  | except (members : List Span)
  /-- Any number of characters. -/
  | sequence
  /-- Any number of components, each with the slash that ends it. -/
  | components
deriving DecidableEq, Repr

/-- The members that the text of a class names. A dash between two characters
makes them a range. -/
def spans : List Char → List Span
  | first :: '-' :: last :: rest => ⟨first, last⟩ :: spans rest
  | c :: rest => ⟨c, c⟩ :: spans rest
  | [] => []

/-- Splits off the text of a class. It ends at a bracket that is not its first
character. -/
def classText? : List Char → Option (List Char × List Char)
  | [] => none
  | c :: rest =>
    match rest.dropWhile (· ≠ ']') with
    | [] => none
    | _ :: after => some (c :: rest.takeWhile (· ≠ ']'), after)

/-- Splits off a class whose opening bracket has been read. -/
def class? : List Char → Option (Token × List Char)
  | '!' :: text => (classText? text).map fun (members, rest) => (.except (spans members), rest)
  | text => (classText? text).map fun (members, rest) => (.within (spans members), rest)

/-- Splits off what follows `**`: a slash, or nothing more. -/
def afterComponents? : List Char → Option (List Char)
  | [] => some []
  | '/' :: rest => some rest
  | _ => none

/-- Splits off one token, at the start of a component or inside one. -/
def token? (atStart : Bool) : List Char → Option (Token × List Char)
  | '*' :: '*' :: rest =>
    if atStart then (afterComponents? rest).map (.components, ·) else none
  | '*' :: rest => some (.sequence, rest)
  | '?' :: rest => some (.anyChar, rest)
  | '[' :: rest => class? rest
  | c :: rest => some (.char c, rest)
  | [] => none

theorem length_lt_of_classText? {text : List Char} {split : List Char × List Char}
    (h : classText? text = some split) : split.2.length < text.length := by
  cases text with
  | nil => cases h
  | cons c rest =>
    simp only [classText?] at h
    have hle := (List.dropWhile_sublist (l := rest) (· ≠ ']')).length_le
    split at h
    · cases h
    · next heq =>
      cases h
      rw [heq, List.length_cons] at hle
      simp only [List.length_cons]; omega

/-- A token takes at least one character. -/
theorem length_lt_of_token? {atStart : Bool} {text : List Char} {split : Token × List Char}
    (h : token? atStart text = some split) : split.2.length < text.length := by
  unfold token? at h
  split at h
  · split at h
    · obtain ⟨rest, hr, rfl⟩ := Option.map_eq_some_iff.1 h
      unfold afterComponents? at hr
      split at hr <;> cases hr
      · simp
      · simp only [List.length_cons]; omega
    · cases h
  · cases h; simp
  · cases h; simp
  · next rest =>
    unfold class? at h
    split at h <;> obtain ⟨found, hc, rfl⟩ := Option.map_eq_some_iff.1 h <;>
      have := length_lt_of_classText? hc <;> simp only [List.length_cons] at * <;> omega
  · cases h; simp
  · cases h

/-- The tokens of a pattern. -/
def tokens? (atStart : Bool) (text : List Char) : Option (List Token) :=
  if text.isEmpty then some []
  else match _h : token? atStart text with
    | none => none
    | some (token, rest) =>
      (tokens? (token = .components ∨ token = .char '/') rest).map (token :: ·)
termination_by text.length
decreasing_by exact length_lt_of_token? _h

/-- Whether a token that stands for one character stands for this one. -/
def Token.accepts : Token → Char → Bool
  | .char value, c => c = value
  | .anyChar, _ => true
  | .within members, c => members.any fun span => span.first ≤ c ∧ c ≤ span.last
  | .except members, c => !members.any fun span => span.first ≤ c ∧ c ≤ span.last
  | .sequence, _ | .components, _ => false

/-- How a text fares against tokens. -/
inductive Verdict where
  | yes
  | no
  /-- It ends before the tokens do, and so does whatever is shorter. -/
  | tooShort
deriving DecidableEq, Repr

/-- A verdict, or the next one in place of `no`. -/
def Verdict.orNext (next : Unit → Verdict) : Verdict → Verdict
  | .no => next ()
  | verdict => verdict

/-- The verdict on the first end of a text whose verdict is not `no`. -/
def judgeSuffixes (judge : List Char → Verdict) : List Char → Verdict
  | [] => judge []
  | c :: rest => (judge (c :: rest)).orNext fun _ => judgeSuffixes judge rest

/-- The same among the ends after slashes and the empty one. -/
def judgeComponents (judge : List Char → Verdict) : List Char → Verdict
  | [] => judge []
  | '/' :: rest => (judge rest).orNext fun _ => judgeComponents judge rest
  | _ :: rest => judgeComponents judge rest

/-- Whether tokens stand for a text. What stands for any number of characters
takes as few as it can, and is not asked to take more once the text has proved
too short: that keeps the search linear in the text for each token. -/
def judge : List Token → List Char → Verdict
  | [], text => if text.isEmpty then .yes else .no
  | .sequence :: tokens, text => judgeSuffixes (judge tokens) text
  | .components :: tokens, text =>
    (judge tokens text).orNext fun _ => judgeComponents (judge tokens) text
  | _ :: _, [] => .tooShort
  | token :: tokens, c :: rest => if token.accepts c then judge tokens rest else .no

end Glob

/-- A pattern for texts. -/
structure Glob where
  tokens : List Glob.Token
deriving DecidableEq, Repr

namespace Glob

/-- Reads a pattern. -/
def parse? (text : String) : Option Glob :=
  (tokens? true text.toList).map Glob.mk

/-- Whether a pattern stands for a text. -/
def matches? (glob : Glob) (text : String) : Bool :=
  judge glob.tokens text.toList = .yes

end Glob

end RecordBridge

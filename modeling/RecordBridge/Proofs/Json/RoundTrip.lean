import RecordBridge.Json.Reader
import RecordBridge.Proofs.Json.Tokens
/-!
# Reading printed values

The machine that reads JSON takes the text of a value from any state that waits for one
to the state in which that value is complete (`reads_print`). That is shown for all that
may come after it, so items and entries follow one by one, and a text that is printed
with no breaks but blanks is read as the value it was printed from (`parse?_print`).
-/
namespace RecordBridge.Json

/-- A value that its text determines: integers have 64 bits, and there are no other
numbers and no unreadable parts. -/
inductive Exact : Json → Prop where
  | null : Exact .null
  | bool (value : Bool) : Exact (.bool value)
  | integer {n : Int} (min : -2 ^ 63 ≤ n) (max : n < 2 ^ 64) : Exact (.integer n)
  | string (value : String) : Exact (.string value)
  | array {items : List Json} (exact : ∀ item ∈ items, Exact item) : Exact (.array items)
  | object {entries : List (String × Json)} (exact : ∀ entry ∈ entries, Exact entry.2) :
      Exact (.object entries)

/-- Line breaks, and what follows colons, are blanks. -/
structure Style.Blank (style : Style) : Prop where
  lineBreak : ∀ level, ∀ c ∈ style.lineBreak level, isBlank c
  afterColon : ∀ c ∈ style.afterColon, isBlank c

theorem Style.blank_pretty : Style.pretty.Blank where
  lineBreak level c hc := by
    rcases List.mem_cons.1 hc with rfl | hc
    · rfl
    · rw [List.eq_of_mem_replicate hc]
      rfl
  afterColon c hc := by
    rw [List.mem_singleton.1 hc]
    rfl

/-! ## The machine on text -/

namespace State

/-- The state after all tokens of a text. -/
def run (state : State) (text : List Char) : Option State :=
  (tokens? text).bind (·.foldlM take state)

variable {state : State} {outer : List Open}

theorem run_nil : state.run [] = some state := by
  simp [run, tokens?]

theorem run_blanks {blanks : List Char} (h : ∀ c ∈ blanks, isBlank c) (rest : List Char) :
    state.run (blanks ++ rest) = state.run rest := by
  induction blanks with
  | nil => rfl
  | cons c blanks ih =>
    obtain ⟨hc, hblanks⟩ := List.forall_mem_cons.1 h
    rw [← ih hblanks, List.cons_append, run, tokens?, if_pos hc, run]

theorem run_token {c : Char} {text rest : List Char} {token : Token} (hc : isBlank c = false)
    (h : token? c text = some (token, rest)) :
    state.run (c :: text) = (state.take token).bind (·.run rest) := by
  rw [run, tokens?, if_neg (by simp [hc])]
  split
  · simp_all
  · next hfound =>
    cases hfound.symm.trans h
    unfold run
    cases htokens : tokens? rest <;> cases htake : state.take token <;>
      simp [List.foldlM_cons, htake]

/-- A value may start here, inside `outer`. The end of an array is no value. -/
def Awaits (state : State) (outer : List Open) : Prop :=
  ∀ token, token ≠ .closeArray → state.take token = begin outer token

theorem awaits_value (outer : List Open) : (value outer).Awaits outer := fun _ _ => rfl

theorem awaits_firstItem (outer : List Open) : (firstItem outer).Awaits (.array [] :: outer) := by
  intro token h
  cases token <;> first | rfl | exact absurd rfl h

/-- A value of one token is complete after it. -/
theorem Awaits.run_token (h : state.Awaits outer) {c : Char} {text rest : List Char}
    (token : Token) {value : Json} (hc : isBlank c = false) (hclose : token ≠ .closeArray)
    (hbegin : begin outer token = some (complete value outer))
    (htoken : token? c text = some (token, rest)) :
    state.run (c :: text) = (complete value outer).run rest := by
  rw [State.run_token hc htoken, h token hclose, hbegin, Option.bind_some]

theorem Awaits.run_openArray (h : state.Awaits outer) (rest : List Char) :
    state.run ('[' :: rest) = (firstItem outer).run rest := by
  have htake : state.take .openArray = some (firstItem outer) := h .openArray nofun
  rw [State.run_token rfl rfl, htake, Option.bind_some]

theorem Awaits.run_openObject (h : state.Awaits outer) (rest : List Char) :
    state.run ('\x7b' :: rest) = (firstKey outer).run rest := by
  have htake : state.take .openObject = some (firstKey outer) := h .openObject nofun
  rw [State.run_token rfl rfl, htake, Option.bind_some]

end State

open State (run_nil run_blanks run_token awaits_value awaits_firstItem)

/-! ## One value after another -/

theorem numberEnds_cons {c : Char} {rest : List Char}
    (h : c.isDigit = false ∧ c ≠ '.' ∧ c ≠ 'e' ∧ c ≠ 'E') : NumberEnds (c :: rest) := by
  intro first hfirst
  cases hfirst
  exact h

/-- A text is read as a value wherever one may start, if nothing goes on with a number. -/
def Reads (text : List Char) (value : Json) : Prop :=
  ∀ {state : State} {outer : List Open} {rest : List Char}, state.Awaits outer → NumberEnds rest →
    state.run (text ++ rest) = (State.complete value outer).run rest

variable {style : Style} {level : Nat} {outer : List Open} {close text : List Char}

theorem numberEnds_printItems (hclose : ∀ c ∈ close, isBlank c) (items : List Json) :
    NumberEnds (printItems style level items ++ (close ++ ']' :: text)) := by
  cases items with
  | nil =>
    have hend : NumberEnds (']' :: text) := numberEnds_cons (by decide)
    rw [printItems, List.nil_append]
    exact hend.blanks_append hclose
  | cons item items => exact numberEnds_cons (by decide)

/-- The items after the first, and the end of their array. -/
theorem run_printItems (hs : style.Blank) (hclose : ∀ c ∈ close, isBlank c) {items : List Json}
    (hitems : ∀ item ∈ items, Reads (print style level item) item) (first : Json)
    (done : List Json) :
    (State.complete first (.array done :: outer)).run
        (printItems style level items ++ (close ++ ']' :: text)) =
      (State.complete (.array (done.reverse ++ first :: items)) outer).run text := by
  -- `first` has just been read, and `done` are the items before it, the last first
  induction items generalizing first done with
  | nil =>
    rw [printItems, List.nil_append, run_blanks hclose, run_token rfl rfl, State.take, Option.bind_some,
      List.reverse_cons]
  | cons item items ih =>
    obtain ⟨hitem, hrest⟩ := List.forall_mem_cons.1 hitems
    have hnext := ih hrest item (first :: done)
    rw [List.reverse_cons, List.append_assoc, List.singleton_append] at hnext
    rw [← hnext, printItems, List.cons_append, run_token rfl rfl, State.take, Option.bind_some]
    simp only [List.append_assoc]
    rw [run_blanks (hs.lineBreak level), hitem (awaits_value _) (numberEnds_printItems hclose items)]

theorem numberEnds_printEntries (hclose : ∀ c ∈ close, isBlank c)
    (entries : List (String × Json)) :
    NumberEnds (printEntries style level entries ++ (close ++ '\x7d' :: text)) := by
  cases entries with
  | nil =>
    have hend : NumberEnds ('\x7d' :: text) := numberEnds_cons (by decide)
    rw [printEntries, List.nil_append]
    exact hend.blanks_append hclose
  | cons entry entries => exact numberEnds_cons (by decide)

/-- An entry as it is kept while its object is open. -/
def keyed (entry : String × Json) : Option String × Json := (some entry.1, entry.2)

theorem ofEntries_keyed (entries : List (String × Json)) :
    ofEntries (entries.map keyed) = .object entries := by
  have hkeys : (entries.map keyed).mapM (fun entry => entry.1.map (·, entry.2)) = some entries := by
    induction entries with
    | nil => rfl
    | cons entry entries ih => rw [List.map_cons, List.mapM_cons, ih]; rfl
  rw [ofEntries, hkeys]

/-- A key, its colon and its value. -/
theorem run_entry (hs : style.Blank) {state : State} {done : List (Option String × Json)}
    (hkey : ∀ key, state.take (.string key) = some (.colon done key outer)) {entry : String × Json}
    (hvalue : Reads (print style level entry.2) entry.2) (hends : NumberEnds text) :
    state.run (quote entry.1 ++ ':' :: (style.afterColon ++ (print style level entry.2 ++ text))) =
      (State.complete entry.2 (.object done (some entry.1) :: outer)).run text := by
  simp only [quote, List.cons_append, List.append_assoc, List.nil_append]
  rw [run_token rfl (token?_quote _ _), hkey, Option.bind_some, run_token rfl rfl, State.take,
    Option.bind_some, run_blanks hs.afterColon, hvalue (awaits_value _) hends]

/-- The entries after the first, and the end of their object. -/
theorem run_printEntries (hs : style.Blank) (hclose : ∀ c ∈ close, isBlank c)
    {entries : List (String × Json)}
    (hvalues : ∀ entry ∈ entries, Reads (print style level entry.2) entry.2)
    (first : String × Json) (done : List (String × Json)) :
    (State.complete first.2 (.object (done.map keyed) (some first.1) :: outer)).run
        (printEntries style level entries ++ (close ++ '\x7d' :: text)) =
      (State.complete (.object (done.reverse ++ first :: entries)) outer).run text := by
  induction entries generalizing first done with
  | nil =>
    have hobject := ofEntries_keyed (first :: done).reverse
    rw [List.map_reverse, List.map_cons, keyed] at hobject
    rw [printEntries, List.nil_append, run_blanks hclose, run_token rfl rfl, State.take,
      Option.bind_some, hobject, List.reverse_cons]
  | cons entry entries ih =>
    obtain ⟨hvalue, hrest⟩ := List.forall_mem_cons.1 hvalues
    have hnext := ih hrest entry (first :: done)
    rw [List.reverse_cons, List.append_assoc, List.singleton_append] at hnext
    rw [← hnext, printEntries, List.cons_append, run_token rfl rfl, State.take, Option.bind_some]
    simp only [List.append_assoc, List.cons_append]
    rw [run_blanks (hs.lineBreak level), run_entry hs (fun _ => rfl) hvalue
      (numberEnds_printEntries hclose entries)]
    rfl

/-! ## A whole value -/

/-- A printed value is read as that value. -/
theorem reads_print (hs : style.Blank) {value : Json} (h : value.Exact) :
    ∀ level, Reads (print style level value) value := by
  induction h with
  | null =>
    intro level state outer rest hstate _
    have htext : "null".toList = ['n', 'u', 'l', 'l'] := by decide
    rw [print, htext]
    exact hstate.run_token (.name .null) rfl nofun rfl rfl
  | bool value =>
    intro level state outer rest hstate _
    have htext : "true".toList = ['t', 'r', 'u', 'e'] ∧
      "false".toList = ['f', 'a', 'l', 's', 'e'] := by decide
    cases value with
    | true =>
      rw [print, if_pos rfl, htext.1]
      exact hstate.run_token (.name (.bool true)) rfl nofun rfl rfl
    | false =>
      rw [print, if_neg nofun, htext.2]
      exact hstate.run_token (.name (.bool false)) rfl nofun rfl rfl
  | integer hmin hmax =>
    intro level state outer rest hstate hends
    obtain ⟨c, digits, htext, hc, htoken⟩ := token?_integer _ hends
    have hblank : isBlank c = false := by
      rcases hc with rfl | hc
      · rfl
      · by_contra hb
        simp [(not_isDigit_of_isBlank (Bool.eq_true_of_not_eq_false hb)).1] at hc
    rw [print, htext]
    exact hstate.run_token (.number _) hblank nofun (by rw [begin, value_literalOf hmin hmax]) htoken
  | string value =>
    intro level state outer rest hstate _
    rw [print, quote, List.cons_append, List.append_assoc, List.singleton_append]
    exact hstate.run_token (.string (some value)) rfl nofun rfl (token?_quote value rest)
  | @array items _ ih =>
    intro level state outer rest hstate _
    cases items with
    | nil =>
      rw [print, List.cons_append, List.singleton_append, hstate.run_openArray, run_token rfl rfl]
      rfl
    | cons item items =>
      -- the first item is read where the array might also end, the others after commas
      obtain ⟨hitem, hitems⟩ := List.forall_mem_cons.1 ih
      simp only [print, List.cons_append, List.append_assoc, List.nil_append]
      rw [hstate.run_openArray, run_blanks (hs.lineBreak _), hitem _ (awaits_firstItem outer)
        (numberEnds_printItems (hs.lineBreak _) items),
        run_printItems hs (hs.lineBreak _) fun other ho => hitems other ho _]
      rfl
  | @object entries _ ih =>
    intro level state outer rest hstate _
    cases entries with
    | nil =>
      rw [print, List.cons_append, List.singleton_append, hstate.run_openObject, run_token rfl rfl]
      rfl
    | cons entry entries =>
      obtain ⟨hvalue, hvalues⟩ := List.forall_mem_cons.1 ih
      simp only [print, List.cons_append, List.append_assoc, List.nil_append]
      rw [hstate.run_openObject, run_blanks (hs.lineBreak _), run_entry hs (fun _ => rfl) (hvalue _)
        (numberEnds_printEntries (hs.lineBreak _) entries)]
      exact run_printEntries hs (hs.lineBreak _) (fun other ho => hvalues other ho _) entry []

/-- Reading what was printed gives the value back. -/
theorem parse?_print (hs : style.Blank) {value : Json} (h : value.Exact) :
    parse? (String.ofList (print style level value)) = some value := by
  have hrun : (State.value []).run (print style level value ++ []) = (State.complete value []).run [] :=
    reads_print hs h level (awaits_value []) nofun
  rw [List.append_nil, run_nil, State.run] at hrun
  obtain ⟨tokens, htokens, hfold⟩ := Option.bind_eq_some_iff.1 hrun
  rw [parse?, String.toList_ofList, htokens, Option.bind_some, ofTokens?, hfold]

theorem parse?_pretty {value : Json} (h : value.Exact) : parse? value.pretty = some value :=
  parse?_print Style.blank_pretty h

end RecordBridge.Json

import Mathlib
/-!
# Look-ups and checks

Tables of the bridge are lists whose entries have distinct keys. Looking such a
key up finds the one entry that has it, at its position. Tables are checked by
steps that may fail; a check that passed passed every step.
-/
namespace RecordBridge

/-! ## Steps that may fail -/

/-- A sequence succeeds when its first step does, and then the rest. -/
theorem bind_eq_ok {x : Except ε α} {f : α → Except ε β} {b : β} :
    (x >>= f) = .ok b ↔ ∃ a, x = .ok a ∧ f a = .ok b := by
  cases x <;> simp [bind, Except.bind]

/-- A check lets the rest go on. -/
theorem check_bind_eq_ok {x : Except ε Unit} {f : Unit → Except ε β} {b : β} :
    (x >>= f) = .ok b ↔ x = .ok () ∧ f () = .ok b := by
  rw [bind_eq_ok]
  exact ⟨fun ⟨_, hx, hf⟩ => ⟨hx, hf⟩, fun ⟨hx, hf⟩ => ⟨(), hx, hf⟩⟩

/-- A sequence succeeds with some result when its steps do. -/
theorem exists_bind_ok_iff {x : Except ε α} {f : α → Except ε β} :
    (∃ b, (x >>= f) = .ok b) ↔ ∃ a, x = .ok a ∧ ∃ b, f a = .ok b := by
  simp only [bind_eq_ok]
  exact ⟨fun ⟨b, a, hx, hf⟩ => ⟨a, hx, b, hf⟩, fun ⟨a, hx, b, hf⟩ => ⟨b, a, hx, hf⟩⟩

/-- A sequence fails when its first step does, or else with the rest. -/
theorem bind_eq_error {x : Except ε α} {f : α → Except ε β} {e : ε} :
    (x >>= f) = .error e ↔ x = .error e ∨ ∃ a, x = .ok a ∧ f a = .error e := by
  cases x <;> simp [bind, Except.bind]

@[simp] theorem ok_bind (a : α) (f : α → Except ε β) : ((.ok a : Except ε α) >>= f) = f a := rfl

@[simp] theorem pure_eq_ok {a b : α} : (pure a : Except ε α) = .ok b ↔ a = b := by
  simp [pure, Except.pure]

@[simp] theorem throw_ne_ok {e : ε} {a : α} : (throw e : Except ε α) ≠ .ok a := nofun

@[simp] theorem mapError_eq_ok {f : ε → δ} {x : Except ε α} {a : α} :
    x.mapError f = .ok a ↔ x = .ok a := by
  cases x <;> simp [Except.mapError]

/-- A guard lets through what it does not refuse. -/
theorem guard_eq_ok {p : Prop} [Decidable p] {e : ε} {rest : Unit → Except ε β} {b : β} :
    (if p then throw e >>= rest else rest ()) = .ok b ↔ ¬ p ∧ rest () = .ok b := by
  by_cases h : p
  · rw [if_pos h]
    exact ⟨nofun, fun hb => absurd h hb.1⟩
  · rw [if_neg h]
    exact ⟨fun hb => ⟨h, hb⟩, fun hb => hb.2⟩

theorem guard_eq_error {p : Prop} [Decidable p] {e e' : ε} {rest : Unit → Except ε β} :
    (if p then throw e >>= rest else rest ()) = .error e' ↔
      p ∧ e = e' ∨ ¬ p ∧ rest () = .error e' := by
  by_cases h : p
  · simp [h, throw, throwThe, MonadExceptOf.throw, bind, Except.bind]
  · simp [h]

theorem forM_eq_ok {f : α → Except ε Unit} {l : List α} {u : Unit} :
    l.forM f = .ok u ↔ ∀ a ∈ l, f a = .ok () := by
  induction l with
  | nil => simp [List.forM]
  | cons a l ih =>
    change (f a >>= fun _ => l.forM f) = .ok u ↔ _
    rw [bind_eq_ok, List.forall_mem_cons]
    exact ⟨fun ⟨_, ha, hl⟩ => ⟨ha, ih.1 hl⟩, fun ⟨ha, hl⟩ => ⟨(), ha, ih.2 hl⟩⟩

/-- A list was converted when each of its items was, position by position. -/
theorem mapM_eq_ok {f : α → Except ε β} : ∀ {l : List α} {out : List β},
    l.mapM f = .ok out ↔
      out.length = l.length ∧ ∀ (i : Nat) a, l[i]? = some a → ∃ b, out[i]? = some b ∧ f a = .ok b
  | [], out => by
    simp only [List.mapM_nil, pure_eq_ok, List.length_nil, List.getElem?_nil, reduceCtorEq,
      false_imp_iff, implies_true, and_true, List.length_eq_zero_iff]
    exact eq_comm
  | a :: l, out => by
    rw [List.mapM_cons]
    simp only [bind_eq_ok, pure_eq_ok, mapM_eq_ok (l := l)]
    constructor
    · rintro ⟨b, hb, bs, ⟨hlen, hbs⟩, rfl⟩
      refine ⟨by simp [hlen], fun i x hx => ?_⟩
      cases i with
      | zero => exact ⟨b, rfl, by simpa using (Option.some.inj hx) ▸ hb⟩
      | succ i => exact hbs i x hx
    · rintro ⟨hlen, hall⟩
      cases out with
      | nil => simp at hlen
      | cons b bs =>
        obtain ⟨b', hb', hfa⟩ := hall 0 a rfl
        cases hb'
        exact ⟨b, hfa, bs, ⟨by simpa using hlen, fun i x hx => hall (i + 1) x hx⟩, rfl⟩

/-- A list of steps that each succeed succeeds. -/
theorem exists_mapM_ok {f : α → Except ε β} : ∀ {l : List α}, (∀ a ∈ l, ∃ b, f a = .ok b) →
    ∃ out, l.mapM f = .ok out
  | [], _ => ⟨[], rfl⟩
  | a :: l, h => by
    obtain ⟨⟨b, hb⟩, hl⟩ := List.forall_mem_cons.1 h
    obtain ⟨bs, hbs⟩ := exists_mapM_ok hl
    exact ⟨b :: bs, by rw [List.mapM_cons, hb, hbs]; rfl⟩

/-- A list that was not converted has an item that was not. -/
theorem exists_of_mapM_eq_error {f : α → Except ε β} {e : ε} : ∀ {l : List α},
    l.mapM f = .error e → ∃ a ∈ l, f a = .error e
  | [], h => by cases h
  | a :: l, h => by
    rw [List.mapM_cons, bind_eq_error] at h
    rcases h with ha | ⟨b, -, h⟩
    · exact ⟨a, List.mem_cons_self, ha⟩
    · rcases bind_eq_error.1 h with hl | ⟨bs, -, h⟩
      · obtain ⟨found, hm, hf⟩ := exists_of_mapM_eq_error hl
        exact ⟨found, List.mem_cons_of_mem _ hm, hf⟩
      · cases h

theorem exists_mapM_ok_iff {f : α → Except ε β} {l : List α} :
    (∃ out, l.mapM f = .ok out) ↔ ∀ a ∈ l, ∃ b, f a = .ok b := by
  refine ⟨fun ⟨out, h⟩ a ha => ?_, exists_mapM_ok⟩
  obtain ⟨i, hi⟩ := List.mem_iff_getElem?.1 ha
  obtain ⟨b, -, hb⟩ := (mapM_eq_ok.1 h).2 i a hi
  exact ⟨b, hb⟩

/-- Steps that each succeed, whatever came before, succeed together. -/
theorem exists_foldlM_ok {f : β → α → Except ε β} : ∀ {l : List α} {init : β},
    (∀ b, ∀ a ∈ l, ∃ c, f b a = .ok c) → ∃ c, l.foldlM f init = .ok c
  | [], init, _ => ⟨init, rfl⟩
  | a :: l, init, h => by
    obtain ⟨b, hb⟩ := h init a List.mem_cons_self
    obtain ⟨c, hc⟩ : ∃ c, l.foldlM f b = .ok c :=
      exists_foldlM_ok fun b a ha => h b a (List.mem_cons_of_mem _ ha)
    exact ⟨c, by rw [List.foldlM_cons, hb, ok_bind, hc]⟩

/-! ## Entries with distinct keys -/

section
variable {κ : Type} {key : α → κ} {l : List α}

/-- The one entry with a key. -/
theorem eq_of_key_eq (h : (l.map key).Nodup) {i j : Nat} {a b : α} (ha : l[i]? = some a)
    (hb : l[j]? = some b) (hk : key a = key b) : i = j := by
  have hi := (List.getElem?_eq_some_iff.1 ha).1
  exact (List.getElem?_inj (by simpa using hi) h).1 (by simp [ha, hb, hk])

variable [BEq κ] [LawfulBEq κ]

theorem findIdx?_key (h : (l.map key).Nodup) {i : Nat} {a : α} (ha : l[i]? = some a) :
    l.findIdx? (key · == key a) = some i := by
  obtain ⟨hi, rfl⟩ := List.getElem?_eq_some_iff.1 ha
  rw [List.findIdx?_eq_some_iff_getElem]
  refine ⟨hi, by simp, fun j hj hk => ?_⟩
  have hj' : l[j]? = some l[j] := List.getElem?_eq_getElem (by omega)
  have := eq_of_key_eq h hj' ha (by simpa using hk)
  omega

theorem find?_key (h : (l.map key).Nodup) {a : α} (ha : a ∈ l) :
    l.find? (key · == key a) = some a := by
  obtain ⟨i, hi⟩ := List.mem_iff_getElem?.1 ha
  cases hf : l.find? (key · == key a) with
  | none => exact absurd (List.find?_eq_none.1 hf a ha) (by simp)
  | some b =>
    obtain ⟨j, hj⟩ := List.mem_iff_getElem?.1 (List.mem_of_find?_eq_some hf)
    have hk : key b = key a := by simpa using List.find?_some hf
    have := eq_of_key_eq h hj hi hk
    subst this
    rw [hi] at hj
    exact hj.symm

/-- What a look-up by key finds is in the table and has the key. -/
theorem mem_of_find?_key {k : κ} {a : α} (h : l.find? (key · == k) = some a) :
    a ∈ l ∧ key a = k :=
  ⟨List.mem_of_find?_eq_some h, by simpa using List.find?_some h⟩

/-- A look-up by key finds something when an entry has the key. -/
theorem isSome_find?_key {k : κ} :
    (l.find? (key · == k)).isSome ↔ ∃ a ∈ l, key a = k := by
  simp

end

end RecordBridge

import RecordBridge.Proofs.Text.Utf8
import RecordBridge.Registry.Fingerprint
/-!
# What the bytes of schemas tell apart

The bytes that are hashed are a prefix-free code: every number has a fixed width,
every text and list is preceded by its length, and every type by its tag, so an item
can be told from every other and from whatever follows it (`Code.PrefixFree`). Sets of
schemas whose names and lists fit the four bytes of a length are therefore told apart
by their bytes, also where more tables follow them (`SchemaSet.prefixFree_code`), and
the bytes of one set never begin with those of another (`SchemaSet.code_isPrefix_iff`).
-/
namespace RecordBridge

namespace Code

/-! ## Prefix-free codes -/

/-- Items with `P` are told from each other by their codes, and from what follows. -/
def PrefixFree (P : α → Prop) (code : α → List UInt8) : Prop :=
  ∀ a b, P a → P b → ∀ rest more : List UInt8,
    code a ++ rest = code b ++ more → a = b ∧ rest = more

/-- Items of a list that has a length of four bytes. -/
def ShortList (P : α → Prop) (items : List α) : Prop :=
  items.length < UInt32.size ∧ ∀ item ∈ items, P item

instance {P : α → Prop} [DecidablePred P] (items : List α) : Decidable (ShortList P items) :=
  inferInstanceAs (Decidable (_ ∧ _))

/-- A name that has a length of four bytes. -/
def Short (name : String) : Prop := name.utf8ByteSize < UInt32.size

instance (name : String) : Decidable (Short name) := inferInstanceAs (Decidable (_ < _))

variable {P : α → Prop} {code : α → List UInt8}

theorem prefixFree_littleEndian (count : Nat) :
    PrefixFree (· < 256 ^ count) (littleEndian count) := by
  induction count with
  | zero =>
    intro a b ha hb rest more h
    simp only [Nat.pow_zero] at ha hb
    exact ⟨by omega, h⟩
  | succ count ih =>
    intro a b ha hb rest more h
    simp only [littleEndian, List.cons_append, List.cons.injEq] at h
    obtain ⟨hlow, hhigh⟩ := h
    have hdiv : ∀ n, n < 256 ^ (count + 1) → n / 256 < 256 ^ count := by
      intro n hn
      rw [Nat.pow_succ] at hn
      exact Nat.div_lt_of_lt_mul (by omega)
    obtain ⟨hq, hrest⟩ := ih _ _ (hdiv a ha) (hdiv b hb) _ _ hhigh
    have hmod : a % 256 = b % 256 := by simpa using congrArg UInt8.toNat hlow
    exact ⟨by omega, hrest⟩

/-- A text is as long as its length says, and its bytes are that text's alone. -/
theorem prefixFree_text : PrefixFree Short text := by
  intro a b ha hb rest more h
  simp only [text, List.append_assoc] at h
  obtain ⟨hsize, h⟩ := prefixFree_littleEndian 4 _ _ ha hb _ _ h
  obtain ⟨hbytes, hrest⟩ :=
    List.append_inj h (by rw [Utf8.length_encode, Utf8.length_encode, hsize])
  have htext := congrArg Utf8.decode? hbytes
  rw [Utf8.decode?_encode, Utf8.decode?_encode] at htext
  exact ⟨Option.some.inj htext, hrest⟩

theorem PrefixFree.flatMap (hcode : PrefixFree P code) {rest more : List UInt8} :
    ∀ {items others : List α}, items.length = others.length →
    (∀ item ∈ items, P item) → (∀ other ∈ others, P other) →
    items.flatMap code ++ rest = others.flatMap code ++ more → items = others ∧ rest = more
  | [], [], _, _, _, h => ⟨rfl, h⟩
  | item :: items, other :: others, hlen, hitems, hothers, h => by
    have htail : items.length = others.length := by simpa using hlen
    obtain ⟨hitem, hitems⟩ := List.forall_mem_cons.1 hitems
    obtain ⟨hother, hothers⟩ := List.forall_mem_cons.1 hothers
    simp only [List.flatMap_cons, List.append_assoc] at h
    obtain ⟨hfirst, h⟩ := hcode _ _ hitem hother _ _ h
    obtain ⟨hothers, hrest⟩ := hcode.flatMap htail hitems hothers h
    exact ⟨congrArg₂ List.cons hfirst hothers, hrest⟩

/-- The length of a list says where its last item ends. -/
theorem PrefixFree.list (hcode : PrefixFree P code) :
    PrefixFree (ShortList P) (Code.list code) := by
  intro items others hitems hothers rest more h
  simp only [Code.list, List.append_assoc] at h
  obtain ⟨hlen, h⟩ := prefixFree_littleEndian 4 _ _ hitems.1 hothers.1 _ _ h
  exact hcode.flatMap hlen hitems.2 hothers.2 h

/-! ## Schemas -/

/-- The schema that a type names, if any, has a short name. -/
def ShortType (type : FieldType) : Prop := ∀ id ∈ type.schema?, Short id

instance (type : FieldType) : Decidable (ShortType type) :=
  inferInstanceAs (Decidable (∀ id ∈ type.schema?, Short id))

/-- The names in a schema are short, and so is the list of its fields. -/
def ShortSchema (schema : Schema) : Prop :=
  Short schema.id ∧
    ShortList (fun field => Short field.name ∧ ShortType field.type) schema.fields

instance (schema : Schema) : Decidable (ShortSchema schema) :=
  inferInstanceAs (Decidable (_ ∧ _))

theorem prefixFree_type : PrefixFree ShortType type := by
  intro a b ha hb rest more h
  cases a with
  | int32 =>
    cases b with
    | int32 => exact ⟨rfl, by simpa [type] using h⟩
    | _ => simp [type] at h
  | bool =>
    cases b with
    | bool => exact ⟨rfl, by simpa [type] using h⟩
    | _ => simp [type] at h
  | string =>
    cases b with
    | string => exact ⟨rfl, by simpa [type] using h⟩
    | _ => simp [type] at h
  | message id =>
    cases b with
    | message id' =>
      simp only [type, List.cons_append, List.cons.injEq, true_and] at h
      obtain ⟨rfl, hrest⟩ := prefixFree_text _ _ (ha id rfl) (hb id' rfl) _ _ h
      exact ⟨rfl, hrest⟩
    | _ => simp [type] at h
  | repeated id =>
    cases b with
    | repeated id' =>
      simp only [type, List.cons_append, List.cons.injEq, true_and] at h
      obtain ⟨rfl, hrest⟩ := prefixFree_text _ _ (ha id rfl) (hb id' rfl) _ _ h
      exact ⟨rfl, hrest⟩
    | _ => simp [type] at h

theorem prefixFree_schemaField :
    PrefixFree (fun field => Short field.name ∧ ShortType field.type)
      (fun field : Schema.Field =>
        text field.name ++ (littleEndian 4 field.number.toNat ++ type field.type)) := by
  intro field other hfield hother rest more h
  simp only [List.append_assoc] at h
  obtain ⟨hname, h⟩ := prefixFree_text _ _ hfield.1 hother.1 _ _ h
  obtain ⟨hnumber, h⟩ :=
    prefixFree_littleEndian 4 _ _ field.number.toNat_lt other.number.toNat_lt _ _ h
  obtain ⟨htype, hrest⟩ := prefixFree_type _ _ hfield.2 hother.2 _ _ h
  cases field
  cases other
  simp only [Schema.Field.mk.injEq]
  exact ⟨⟨hname, UInt32.toNat_inj.1 hnumber, htype⟩, hrest⟩

theorem prefixFree_schema : PrefixFree ShortSchema schema := by
  intro a b ha hb rest more h
  simp only [schema, List.append_assoc] at h
  obtain ⟨hid, h⟩ := prefixFree_text _ _ ha.1 hb.1 _ _ h
  obtain ⟨hfields, hrest⟩ := prefixFree_schemaField.list _ _ ha.2 hb.2 _ _ h
  cases a
  cases b
  exact ⟨congrArg₂ Schema.mk hid hfields, hrest⟩

end Code

/-! ## Schema sets -/

namespace SchemaSet

open Code

/-- The bytes of a set say where they end, whatever is written after them. -/
theorem prefixFree_code :
    PrefixFree (fun set => ShortList ShortSchema set.schemas) SchemaSet.code := by
  intro set other hset hother rest more h
  obtain ⟨hschemas, hrest⟩ := prefixFree_schema.list _ _ hset hother _ _ h
  exact ⟨congrArg SchemaSet.mk hschemas, hrest⟩

/-- The bytes of a set begin with those of another only where the two have the same
schemas, in the same order. -/
theorem code_isPrefix_iff {set other : SchemaSet} (hset : ShortList ShortSchema set.schemas)
    (hother : ShortList ShortSchema other.schemas) :
    set.code <+: other.code ↔ set.schemas = other.schemas := by
  constructor
  · rintro ⟨rest, h⟩
    have hsame : set.code ++ rest = other.code ++ [] := by rw [h, List.append_nil]
    obtain ⟨rfl, -⟩ := prefixFree_code _ _ hset hother _ _ hsame
    rfl
  · intro h
    rw [SchemaSet.code, SchemaSet.code, h]

/-- Marks in a row. The letters of the two names may be shared out differently. -/
def markSchemas (id field : String) : List Schema :=
  [⟨id, [⟨field, 1, .bool⟩, ⟨"next", 2, .message id⟩]⟩]

/-- Names that run on alike end in different places, and a set is told from one that
goes on after the same schemas. -/
theorem not_isPrefix_marks :
    ∃ marks others both,
      ofList (markSchemas "ab" "c") = .ok marks ∧ ofList (markSchemas "a" "bc") = .ok others ∧
      ofList (markSchemas "ab" "c" ++ markSchemas "a" "bc") = .ok both ∧
      ShortList ShortSchema marks.schemas ∧ ShortList ShortSchema others.schemas ∧
      ShortList ShortSchema both.schemas ∧
      ¬ marks.code <+: others.code ∧ ¬ marks.code <+: both.code := by
  have haccepted : ofList (markSchemas "ab" "c") = .ok ⟨markSchemas "ab" "c"⟩ ∧
      ofList (markSchemas "a" "bc") = .ok ⟨markSchemas "a" "bc"⟩ ∧
      ofList (markSchemas "ab" "c" ++ markSchemas "a" "bc") =
        .ok ⟨markSchemas "ab" "c" ++ markSchemas "a" "bc"⟩ := by decide
  obtain ⟨hok, hok', hok''⟩ := haccepted
  have hmarks : ShortList ShortSchema (markSchemas "ab" "c") := by decide
  have hothers : ShortList ShortSchema (markSchemas "a" "bc") := by decide
  have hboth : ShortList ShortSchema (markSchemas "ab" "c" ++ markSchemas "a" "bc") := by decide
  have hcut : markSchemas "ab" "c" ≠ markSchemas "a" "bc" := by decide
  have hlonger : markSchemas "ab" "c" ≠ markSchemas "ab" "c" ++ markSchemas "a" "bc" := by decide
  refine ⟨_, _, _, hok, hok', hok'', hmarks, hothers, hboth, fun h => ?_, fun h => ?_⟩
  · exact hcut ((code_isPrefix_iff hmarks hothers).1 h)
  · exact hlonger ((code_isPrefix_iff hmarks hboth).1 h)

end SchemaSet

end RecordBridge

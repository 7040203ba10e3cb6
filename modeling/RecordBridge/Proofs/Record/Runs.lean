import RecordBridge.Proofs.Record.Edits
/-!
# Records by name

A program allocates records of two layout sets, copies them, and writes into them and
into the records inside them, with records it had at some time as arguments
(`Run`). The sets may have layouts of one name that differ, and records of either are
taken for records of that name. In every state, each record nevertheless has the slots
that its own layout asks for, and an operation that fails leaves every record as it was
(`run_fits`).
-/
namespace RecordBridge.Record

/-! ## Writers -/

/-- A writer with its arguments. -/
inductive Write where
  | int (name : String) (value : Int64)
  | bool (name : String) (value : Bool)
  | fixedText (name : String) (value : String)
  | ownedText (name : String) (value : Option String)
  | slot (index : Nat) (content : Slot)
  | list (name : String) (nodes : List Record)
  | listAt (index : Nat) (nodes : List Record)

namespace Write

/-- What a writer does in place. -/
def edit : Write → Edit Unit
  | .int name value => .setInt name value
  | .bool name value => .setBool name value
  | .fixedText name value => .setFixedText name value
  | .ownedText name value => .setOwnedText name value
  | .slot index content => .setSlot index content
  | .list name nodes => .setList name nodes
  | .listAt index nodes => .setListAt index nodes

/-- The record that a writer makes of one. -/
def apply : Write → Record → Except LayoutError Record
  | .int name value => (·.setInt name value)
  | .bool name value => (·.setBool name value)
  | .fixedText name value => (·.setFixedText name value)
  | .ownedText name value => (·.setOwnedText name value)
  | .slot index content => (·.setSlot index content)
  | .list name nodes => (·.setList name nodes)
  | .listAt index nodes => (·.setListAt index nodes)

/-- The records among the arguments of a writer. -/
def records : Write → List Record
  | .slot _ content => content.inner
  | .list _ nodes | .listAt _ nodes => nodes
  | _ => []

theorem inPlace (write : Write) : InPlace write.edit write.apply := by
  cases write with
  | int name value => exact .setInt name value
  | bool name value => exact .setBool name value
  | fixedText name value => exact .setFixedText name value
  | ownedText name value => exact .setOwnedText name value
  | slot index content => exact .setSlot index content
  | list name nodes => exact .setList name nodes
  | listAt index nodes => exact .setListAt index nodes

end Write

variable {set : LayoutSet} {record changed : Record}

/-- An operation keeps the layout of a record, and keeps it sound. -/
structure Keeps (set : LayoutSet) (operation : Record → Except LayoutError Record) : Prop where
  layout : ∀ before after, operation before = .ok after → after.layout = before.layout
  sound : ∀ before after, before.Sound set → operation before = .ok after → after.Sound set

namespace Keeps

variable {operation : Record → Except LayoutError Record}

theorem setSlot {slot : Slot} (hin : ∀ inner ∈ slot.inner, inner.Sound set) (index : Nat) :
    Keeps set (·.setSlot index slot) := by
  refine ⟨fun before after h => ?_, fun before after hb h => hb.setSlot hin h⟩
  obtain ⟨field, -, -, rfl⟩ := setSlot_eq_ok_iff.1 h
  rfl

theorem setListAt {nodes : List Record} (hin : ∀ node ∈ nodes, node.Sound set) (index : Nat) :
    Keeps set (·.setListAt index nodes) := by
  refine ⟨fun before after h => ?_, fun before after hb h => hb.setListAt hin h⟩
  obtain ⟨field, id, -, -, -, rfl⟩ := setListAt_eq_ok_iff.1 h
  rfl

theorem index_bind {operation : Nat → Record → Except LayoutError Record}
    (h : ∀ index, Keeps set (operation index)) (name : String) :
    Keeps set fun record => record.index name >>= fun index => operation index record := by
  refine ⟨fun before after hop => ?_, fun before after hb hop => ?_⟩
  · obtain ⟨index, -, hop⟩ := bind_eq_ok.1 hop
    exact (h index).layout before after hop
  · obtain ⟨index, -, hop⟩ := bind_eq_ok.1 hop
    exact (h index).sound before after hb hop

theorem setLeaf {slot : Slot} (h : slot.inner = []) (index : Nat) :
    Keeps set (·.setSlot index slot) :=
  setSlot (by simp [h]) index

theorem setFixedText (name text : String) : Keeps set (·.setFixedText name text) := by
  have hbytes : ∀ index length, Keeps set (·.setSlot index (.bytes (packText text length))) :=
    fun index length => setLeaf rfl index
  refine index_bind (fun index => ⟨fun before after h => ?_, fun before after hb h => ?_⟩) name
  · split at h
    · exact (hbytes index _).layout before after h
    · cases h
  · split at h
    · exact (hbytes index _).sound before after hb h
    · cases h

theorem modifyNested (h : Keeps set operation) (name : String) :
    Keeps set (·.modifyNested name operation) := by
  refine ⟨fun before after hop => ?_, fun before after hb hop => ?_⟩
  · obtain ⟨index, -, hop⟩ := bind_eq_ok.1 hop
    split at hop
    · obtain ⟨_, -, hop⟩ := bind_eq_ok.1 hop
      cases hop
      rfl
    · cases hop
  · refine hb.modifyNested (fun inner left hi => ?_) (fun inner left hm hi => ?_) hop
    · rw [layoutId, h.layout inner left hi]
      rfl
    · exact h.sound inner left (hb.inside hm) hi

theorem modifyElement (h : Keeps set operation) (name : String) (position : Nat) :
    Keeps set (·.modifyElement name position operation) := by
  refine ⟨fun before after hop => ?_, fun before after hb hop => ?_⟩
  · obtain ⟨index, -, hop⟩ := bind_eq_ok.1 hop
    split at hop
    · split at hop
      · obtain ⟨_, -, hop⟩ := bind_eq_ok.1 hop
        cases hop
        rfl
      · cases hop
    · cases hop
  · refine hb.modifyElement (fun inner left hi => ?_) (fun inner left hm hi => ?_) hop
    · rw [layoutId, h.layout inner left hi]
      rfl
    · exact h.sound inner left (hb.inside hm) hi

/-- What is kept at the end of a path is kept of the record that it starts from. -/
theorem modifyAt (h : Keeps set operation) : ∀ path : List Step,
    Keeps set (Record.modifyAt operation path)
  | [] => h
  | .nested name :: path => (h.modifyAt path).modifyNested name
  | .element name position :: path => (h.modifyAt path).modifyElement name position

end Keeps

/-- A writer with sound arguments keeps records sound. -/
theorem Write.keeps {write : Write} (hargs : ∀ record ∈ write.records, record.Sound set) :
    Keeps set write.apply := by
  cases write with
  | int name value | bool name value | ownedText name value =>
    exact .index_bind (fun index => .setLeaf rfl index) name
  | fixedText name value => exact .setFixedText name value
  | slot index content => exact .setSlot hargs index
  | list name nodes => exact .index_bind (fun index => .setListAt hargs index) name
  | listAt index nodes => exact .setListAt hargs index

/-! ## Programs -/

/-- Records by name. -/
abbrev Store := String → Record

/-- An operation of a program on its records. -/
inductive Operation where
  | allocate (name : String) (set : LayoutSet) (id : LayoutId)
  | empty (name : String)
  | copy (name source : String)
  | write (name : String) (path : List Step) (writer : Write)

namespace Operation

/-- What an operation does in place. -/
def run : Operation → ExceptT LayoutError (StateM Store) Unit
  | .allocate name set id => do
    let record ← MonadExcept.ofExcept (set.allocate id)
    modify (Function.update · name record)
  | .empty name => modify (Function.update · name .empty)
  | .copy name source => do
    let store ← get
    modify (Function.update · name (store source))
  | .write name path writer => do
    let store ← get
    let (result, left) := outcome (writer.edit.at path) (store name)
    modify (Function.update · name left)
    MonadExcept.ofExcept result

/-- The records that an operation makes of some. -/
def apply : Operation → Store → Except LayoutError Store
  | .allocate name set id, store => return Function.update store name (← set.allocate id)
  | .empty name, store => return Function.update store name .empty
  | .copy name source, store => return Function.update store name (store source)
  | .write name path writer, store =>
    return Function.update store name (← modifyAt writer.apply path (store name))

theorem inPlace (operation : Operation) : InPlace operation.run operation.apply := by
  intro store
  cases operation with
  | allocate name set id =>
    rw [run, outcome_bind, outcome_ofExcept, apply]
    cases set.allocate id <;> rfl
  | empty name => rfl
  | copy name source => rfl
  | write name path writer =>
    rw [run, outcome_bind, outcome_get, apply]
    dsimp only
    rw [(writer.inPlace.at path) (store name)]
    cases modifyAt writer.apply path (store name) with
    | ok changed => rfl
    | error error =>
      simp only [outcome_bind, outcome_modify, outcome_ofExcept, Function.update_eq_self]
      rfl

end Operation

/-- A record, or one inside it. -/
inductive Holds : Record → Record → Prop where
  | self {record : Record} : Holds record record
  | inner {record next found : Record} (mem : next ∈ record.inner) (holds : Holds next found) :
      Holds record found

/-- A record of one of some states, or one inside such a record. -/
def Taken (states : List Store) (record : Record) : Prop :=
  ∃ store ∈ states, ∃ name, (store name).Holds record

/-- Records are allocated from the two sets, and arguments are taken from the states so far. -/
def Operation.Allowed (first second : LayoutSet) (states : List Store) : Operation → Prop
  | .allocate _ set _ => set = first ∨ set = second
  | .write _ _ writer => ∀ record ∈ writer.records, Taken states record
  | .empty _ | .copy _ _ => True

/-- The states that a program goes through, the last one first. Whether or not an
operation succeeds, the program goes on with the records as it left them. -/
inductive Run (first second : LayoutSet) : List Store → Prop where
  | start : Run first second [fun _ => .empty]
  | step {store : Store} {earlier : List Store} {operation : Operation}
      (run : Run first second (store :: earlier))
      (allowed : operation.Allowed first second (store :: earlier)) :
      Run first second ((outcome operation.run store).2 :: store :: earlier)

/-! ## Every state -/

/-- The layouts of two sets and that of the empty record; their names may be shared. -/
def pool (first second : LayoutSet) : LayoutSet where
  layouts := ⟨"", []⟩ :: (first.layouts ++ second.layouts)
  ranked := []
  sizes := []
  sizes_eq := rfl

theorem Sound.mono {other : LayoutSet} (hsub : ∀ layout ∈ set.layouts, layout ∈ other.layouts)
    (h : record.Sound set) : record.Sound other := by
  induction h with
  | intro known fits _ ih => exact .intro (hsub _ known) fits ih

variable {first second : LayoutSet}

theorem sound_empty : Record.empty.Sound (pool first second) := by
  refine .intro List.mem_cons_self ⟨rfl, fun index field slot hf _ => ?_⟩ fun inner hi => ?_
  · simp [Record.empty] at hf
  · simp [Record.empty, Record.inner] at hi

theorem sound_allocate (hfirst : first.Sound) (hsecond : second.Sound)
    (hset : set = first ∨ set = second) {id : LayoutId} (h : set.allocate id = .ok record) :
    record.Sound (pool first second) := by
  rcases hset with rfl | rfl
  · exact (allocate_sound hfirst h).mono fun layout hl =>
      List.mem_cons_of_mem _ (List.mem_append_left _ hl)
  · exact (allocate_sound hsecond h).mono fun layout hl =>
      List.mem_cons_of_mem _ (List.mem_append_right _ hl)

/-- What is inside a sound record is sound. -/
theorem Holds.sound {found : Record} (h : record.Holds found) (hr : record.Sound set) :
    found.Sound set := by
  induction h with
  | self => exact hr
  | inner mem _ ih => exact ih (hr.inside mem)

/-- The records of a store are sound among the layouts of two sets. -/
def Store.Sound (first second : LayoutSet) (store : Store) : Prop :=
  ∀ name, (store name).Sound (pool first second)

theorem Store.Sound.update {store : Store} (h : store.Sound first second)
    (hr : record.Sound (pool first second)) (name : String) :
    Store.Sound first second (Function.update store name record) := by
  intro other
  by_cases ho : other = name
  · rw [ho, Function.update_self]
    exact hr
  · rw [Function.update_of_ne ho]
    exact h other

/-- An operation on sound records leaves sound records. -/
theorem Operation.sound_apply (hfirst : first.Sound) (hsecond : second.Sound)
    {states : List Store} (hstates : ∀ store ∈ states, store.Sound first second)
    {operation : Operation} (hallowed : operation.Allowed first second states)
    {store after : Store} (hstore : store.Sound first second)
    (h : operation.apply store = .ok after) : after.Sound first second := by
  cases operation with
  | allocate name set id =>
    obtain ⟨record, hr, h⟩ := bind_eq_ok.1 h
    cases h
    exact hstore.update (sound_allocate hfirst hsecond hallowed hr) name
  | empty name =>
    cases h
    exact hstore.update sound_empty name
  | copy name source =>
    cases h
    exact hstore.update (hstore source) name
  | write name path writer =>
    obtain ⟨changed, hc, h⟩ := bind_eq_ok.1 h
    cases h
    have hargs : ∀ record ∈ writer.records, record.Sound (pool first second) := by
      intro record hrecord
      obtain ⟨earlier, he, source, hholds⟩ := hallowed record hrecord
      exact hholds.sound (hstates earlier he source)
    exact hstore.update (((Write.keeps hargs).modifyAt path).sound _ _ (hstore name) hc) name

/-- The records of every state of a program are sound. -/
theorem Run.sound (hfirst : first.Sound) (hsecond : second.Sound) {states : List Store}
    (h : Run first second states) : ∀ store ∈ states, store.Sound first second := by
  induction h with
  | start => exact List.forall_mem_singleton.2 fun _ => sound_empty
  | @step store earlier operation _ allowed ih =>
    refine List.forall_mem_cons.2 ⟨?_, ih⟩
    have hstore := ih store List.mem_cons_self
    rcases operation.inPlace.changed with hsame | hafter
    · rw [hsame]
      exact hstore
    · exact Operation.sound_apply hfirst hsecond ih allowed hstore hafter

/-- In every state that a program reaches with records of two accepted layout sets, each
record and each record inside it has one slot for each field of its own layout, of the
field's kind, with integers wrapped to its width; and an operation that fails there
leaves all records as they are. -/
theorem run_fits {layouts layouts' : List Layout} (hfirst : LayoutSet.ofList layouts = .ok first)
    (hsecond : LayoutSet.ofList layouts' = .ok second) {store : Store} {earlier : List Store}
    (hrun : Run first second (store :: earlier)) :
    (∀ name found, (store name).Holds found → Fits found.layout.fields found.slots) ∧
    ∀ (operation : Operation) error, (outcome operation.run store).1 = .error error →
      (outcome operation.run store).2 = store := by
  have hfirst := (LayoutSet.sound_of_ofList hfirst).2
  have hsecond := (LayoutSet.sound_of_ofList hsecond).2
  have hstore := hrun.sound hfirst hsecond store List.mem_cons_self
  exact ⟨fun name found hholds => (hholds.sound (hstore name)).fits,
    fun operation error herror => operation.inPlace.unchanged herror⟩

/-! ### Cells of two sets -/

def boxLayouts : LayoutSet where
  layouts := [⟨"cell", [⟨"value", .int 1 false⟩]⟩, ⟨"box", [⟨"inside", .nested "cell"⟩]⟩]
  ranked := [⟨"box", [⟨"inside", .nested "cell"⟩]⟩, ⟨"cell", [⟨"value", .int 1 false⟩]⟩]
  sizes := [("box", 1), ("cell", 1)]
  sizes_eq := by decide

def textLayouts : LayoutSet where
  layouts := [⟨"cell", [⟨"text", .fixedText 2⟩, ⟨"flag", .bool⟩]⟩]
  ranked := [⟨"cell", [⟨"text", .fixedText 2⟩, ⟨"flag", .bool⟩]⟩]
  sizes := [("cell", 3)]
  sizes_eq := by decide

/-- A box of the one set and a cell of the other. -/
def cellsApart : Store :=
  (outcome (Operation.allocate "cell" textLayouts "cell").run
    (outcome (Operation.allocate "box" boxLayouts "box").run fun _ => .empty).2).2

/-- The cell is in the box, which takes it by its layout's name. -/
def cellInside : Store :=
  (outcome (Operation.write "box" [] (.slot 0 (.record (cellsApart "cell")))).run cellsApart).2

/-- A box with a cell of another set inside has no integer to write there. -/
theorem run_fits_cells :
    LayoutSet.ofList boxLayouts.layouts = .ok boxLayouts ∧
    LayoutSet.ofList textLayouts.layouts = .ok textLayouts ∧
    (∃ earlier, Run boxLayouts textLayouts (cellInside :: earlier)) ∧
    (cellInside "box").Holds (cellsApart "cell") ∧
    Fits [⟨"text", .fixedText 2⟩, ⟨"flag", .bool⟩] (cellsApart "cell").slots ∧
    (outcome (Operation.write "box" [.nested "inside"] (.int "value" 1)).run cellInside).1 =
      .error (.unknownField "cell" "value") ∧
    (outcome (Operation.write "box" [.nested "inside"] (.int "value" 1)).run cellInside).2 =
      cellInside := by
  have hbox : LayoutSet.ofList boxLayouts.layouts = .ok boxLayouts := by cbv
  have htext : LayoutSet.ofList textLayouts.layouts = .ok textLayouts := by cbv
  have hrun : ∃ earlier, Run boxLayouts textLayouts (cellInside :: earlier) := by
    refine ⟨_, .step (.step (.step .start (.inl rfl)) (.inr rfl)) fun record hrecord => ?_⟩
    exact ⟨cellsApart, List.mem_cons_self, "cell", List.mem_singleton.1 hrecord ▸ .self⟩
  have hinner : (cellInside "box").inner = [cellsApart "cell"] := by cbv
  have hholds : (cellInside "box").Holds (cellsApart "cell") :=
    .inner (hinner ▸ List.mem_singleton_self _) .self
  have herror : (outcome (Operation.write "box" [.nested "inside"]
      (.int "value" 1)).run cellInside).1 = .error (.unknownField "cell" "value") := by cbv
  have hlayout : (cellsApart "cell").layout.fields =
      [⟨"text", .fixedText 2⟩, ⟨"flag", .bool⟩] := by cbv
  obtain ⟨earlier, hstates⟩ := hrun
  obtain ⟨hfits, hunchanged⟩ := run_fits hbox htext hstates
  exact ⟨hbox, htext, ⟨earlier, hstates⟩, hholds, hlayout ▸ hfits "box" _ hholds, herror,
    hunchanged _ _ herror⟩

end RecordBridge.Record

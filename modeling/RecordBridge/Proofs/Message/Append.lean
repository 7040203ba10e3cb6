import RecordBridge.Proofs.Message.InPlace
/-!
# Messages from appended bytes

Bytes after some that are read whole are read into the message that these left, and reading
into a message merges with what is read afresh (`Message.mergeFrom_eq`). So the message from
appended bytes is what the messages from both come to (`Message.decode_append`), with the
fault of the later one.
-/
namespace RecordBridge.Message

variable {set : SchemaSet} {schema : Schema}

/-- Bytes after some that are read without a fault are read into what these left. -/
theorem mergeFrom_append {levels : Nat} {message : Message} {front : List UInt8}
    (hfront : (mergeFrom set levels message front).2 = none) (back : List UInt8) :
    mergeFrom set levels message (front ++ back) =
      mergeFrom set levels (mergeFrom set levels message front).1 back := by
  simp only [mergeFrom_eq_takeParts] at hfront ⊢
  have hfault := fault_eq_none_of_takeParts hfront
  rw [hfault] at hfront
  rw [Schema.parts_append hfault, takeParts_append hfront, hfault,
    schema_takeParts (schema_takeAt levels)]

theorem decode_append_eq_merge (hset : set.Sound) (hs : schema ∈ set.schemas)
    {front : List UInt8} (hfront : (decode set schema front).2 = none) (back : List UInt8) :
    decode set schema (front ++ back) =
      ((decode set schema front).1.merge (decode set schema back).1,
        (decode set schema back).2) := by
  have hsound := decode_sound hset hs front
  have hschema := schema_decode set schema front
  simp only [decode] at hfront hsound hschema ⊢
  obtain ⟨hread, hfault⟩ := mergeFrom_eq hset nestingLimit hsound back
  rw [schema_finish] at hschema
  rw [hschema] at hread hfault
  rw [mergeFrom_append hfront, hread, hfault]

/-- Bytes appended to some that are read whole end in the fault that they have
by themselves, and the message is what those of both parts come to. -/
theorem decode_append {schemas : List Schema} (hset : SchemaSet.ofList schemas = .ok set)
    (hs : schema ∈ set.schemas) {front : List UInt8}
    (hfront : (decode set schema front).2 = none) (back : List UInt8) :
    (decode set schema (front ++ back)).2 = (decode set schema back).2 ∧
    Joined (decode set schema front).1 (decode set schema back).1
      (decode set schema (front ++ back)).1 := by
  have hset := SchemaSet.sound_of_ofList hset
  rw [decode_append_eq_merge hset hs hfront]
  refine ⟨rfl, (decode_sound hset hs front).joined_merge hset (decode_sound hset hs back) ?_⟩
  rw [schema_decode, schema_decode]

/-- A number and a next node, and then a next node that ends in half a varint. -/
theorem decode_append_node :
    SchemaSet.ofList [nodeSchema] = .ok ⟨[nodeSchema]⟩ ∧
    nodeSchema ∈ (⟨[nodeSchema]⟩ : SchemaSet).schemas ∧
    (decode ⟨[nodeSchema]⟩ nodeSchema [0x08, 5, 0x12, 2, 0x08, 7]).2 = none ∧
    (decode ⟨[nodeSchema]⟩ nodeSchema ([0x08, 5, 0x12, 2, 0x08, 7] ++ [0x12, 3, 0x08, 0, 0x80])).2 =
      (decode ⟨[nodeSchema]⟩ nodeSchema [0x12, 3, 0x08, 0, 0x80]).2 ∧
    Joined (decode ⟨[nodeSchema]⟩ nodeSchema [0x08, 5, 0x12, 2, 0x08, 7]).1
      (decode ⟨[nodeSchema]⟩ nodeSchema [0x12, 3, 0x08, 0, 0x80]).1
      (decode ⟨[nodeSchema]⟩ nodeSchema
        ([0x08, 5, 0x12, 2, 0x08, 7] ++ [0x12, 3, 0x08, 0, 0x80])).1 := by
  have hset : SchemaSet.ofList [nodeSchema] = .ok ⟨[nodeSchema]⟩ := by rfl
  have hfront : (decode ⟨[nodeSchema]⟩ nodeSchema [0x08, 5, 0x12, 2, 0x08, 7]).2 = none := by cbv
  exact ⟨hset, List.mem_singleton.2 rfl, hfront,
    decode_append hset (List.mem_singleton.2 rfl) hfront _⟩

end RecordBridge.Message

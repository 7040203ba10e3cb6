import RecordBridge.Config
import RecordBridge.Proofs.Json.RoundTrip
/-!
# Written configurations

What a configuration is written as determines it: names may hold any characters, widths,
opcodes, numbers and sizes fill their types, and a repeated field may be absent, empty or
named. No table has to be sound for that (`read?_write`).
-/
namespace RecordBridge

namespace Json

/-! ## Values with an exact text -/

theorem exact_natJson {n : Nat} (h : n < UInt64.size) : (Config.natJson n).Exact :=
  .integer (by omega) (by simp only [UInt64.size] at h; omega)

theorem exact_array_map {f : α → Json} (h : ∀ a, (f a).Exact) (l : List α) :
    (Json.array (l.map f)).Exact := by
  refine .array fun item hi => ?_
  obtain ⟨a, -, rfl⟩ := List.mem_map.1 hi
  exact h a

theorem exact_object_iff {entries : List (String × Json)} :
    (Json.object entries).Exact ↔ ∀ entry ∈ entries, entry.2.Exact :=
  ⟨fun | .object h => h, .object⟩

end Json

namespace Config

open Json

theorem exact_kindJson (kind : FieldKind) : (kindJson kind).Exact := by
  have hwidth : ∀ width : UInt8, (natJson width.toNat).Exact := fun width =>
    exact_natJson (Nat.lt_trans width.toNat_lt_size (by decide))
  have hsize : ∀ size : UInt64, (natJson size.toNat).Exact := fun size =>
    exact_natJson size.toNat_lt_size
  cases kind <;> simp [kindJson, exact_object_iff, hwidth, hsize, Exact.string, Exact.bool]

theorem exact_layoutJson (layout : Layout) : (layoutJson layout).Exact := by
  have hfields := exact_array_map (f := fun field : Layout.Field =>
    .object [("name", .string field.name), ("kind", kindJson field.kind)])
    (fun field => by simp [exact_object_iff, exact_kindJson, Exact.string]) layout.fields
  simp [layoutJson, exact_object_iff, hfields, Exact.string]

theorem exact_typeJson (type : FieldType) : (typeJson type).Exact := by
  cases type <;> simp [typeJson, exact_object_iff, Exact.string]

theorem exact_schemaJson (schema : Schema) : (schemaJson schema).Exact := by
  have hnumber : ∀ number : UInt32, (natJson number.toNat).Exact := fun number =>
    exact_natJson (Nat.lt_trans number.toNat_lt_size (by decide))
  have hfields := exact_array_map (f := fun field : Schema.Field =>
    .object [("name", .string field.name), ("number", natJson field.number.toNat),
      ("type", typeJson field.type)])
    (fun field => by simp [exact_object_iff, hnumber, exact_typeJson, Exact.string]) schema.fields
  simp [schemaJson, exact_object_iff, hfields, Exact.string]

theorem exact_descriptorJson (descriptor : Descriptor) : (descriptorJson descriptor).Exact := by
  have hopcode : (natJson descriptor.opcode.toNat).Exact :=
    exact_natJson (Nat.lt_trans descriptor.opcode.toNat_lt_size (by decide))
  simp [descriptorJson, exact_object_iff, hopcode, or_imp, forall_and, Exact.string]

/-- A configuration has an exact text. -/
theorem exact_toJson (config : Config) : config.toJson.Exact := by
  simp [toJson, exact_object_iff, exact_array_map exact_layoutJson, exact_array_map exact_schemaJson,
    exact_array_map exact_descriptorJson]

/-! ## Reading what was written -/

/-- Each item of a list is read back, so the list is. -/
theorem mapM_map_eq_some {f : α → Json} {g : Json → Option α} (h : ∀ a, g (f a) = some a)
    (l : List α) : (l.map f).mapM g = some l := by
  induction l with
  | nil => rfl
  | cons a l ih => rw [List.map_cons, List.mapM_cons, h, ih]; rfl

/-- A number below a bound is read back. All that a reader sees of its text is that. -/
theorem exists_natJson {bound n : Nat} (h : n < bound) :
    ∃ json, natJson n = json ∧ nat? bound (some json) = some n :=
  ⟨_, rfl, by simp [nat?, natJson, h]⟩

theorem exists_sizeJson (n : UInt64) :
    ∃ json, natJson n.toNat = json ∧ size? (some json) = some n := by
  obtain ⟨json, hjson, hn⟩ := exists_natJson n.toNat_lt_size
  exact ⟨json, hjson, by rw [size?, hn, Option.map_some, UInt64.ofNat_toNat]⟩

theorem kind?_kindJson (kind : FieldKind) : kind? (kindJson kind) = some kind := by
  cases kind with
  | int width signed =>
    obtain ⟨json, hjson, hwidth⟩ := exists_natJson width.toNat_lt_size
    rw [kindJson, hjson]
    change (do return FieldKind.int (UInt8.ofNat (← nat? UInt8.size (some json))) signed) = _
    simp [hwidth]
  | fixedText length =>
    obtain ⟨json, hjson, hlength⟩ := exists_sizeJson length
    rw [kindJson, hjson]
    change (do return FieldKind.fixedText (← size? (some json))) = _
    simp [hlength]
  | textRows count length =>
    obtain ⟨rows, hrows, hcount⟩ := exists_sizeJson count
    obtain ⟨json, hjson, hlength⟩ := exists_sizeJson length
    rw [kindJson, hrows, hjson]
    change (do return FieldKind.textRows (← size? (some rows)) (← size? (some json))) = _
    simp [hcount, hlength]
  | array layout count =>
    obtain ⟨json, hjson, hcount⟩ := exists_sizeJson count
    rw [kindJson, hjson]
    change (do return FieldKind.array layout (← size? (some json))) = _
    simp [hcount]
  | bool | ownedText | nested | list => rfl

theorem layout?_layoutJson (layout : Layout) : layout? (layoutJson layout) = some layout := by
  have hfields := mapM_map_eq_some (g := layoutField?) (f := fun field : Layout.Field =>
    .object [("name", .string field.name), ("kind", kindJson field.kind)]) (fun field => by
      change (do return Layout.Field.mk field.name (← kind? (kindJson field.kind))) = _
      simp [kind?_kindJson]) layout.fields
  change (do return Layout.mk layout.id (← List.mapM layoutField? (layout.fields.map _))) = _
  rw [hfields]
  rfl

theorem type?_typeJson (type : FieldType) : type? (typeJson type) = some type := by
  cases type <;> rfl

theorem schemaField?_eq_some (field : Schema.Field) :
    schemaField? (.object [("name", .string field.name), ("number", natJson field.number.toNat),
      ("type", typeJson field.type)]) = some field := by
  obtain ⟨json, hjson, hnumber⟩ := exists_natJson field.number.toNat_lt_size
  rw [hjson]
  change (do
    return Schema.Field.mk field.name (UInt32.ofNat (← nat? UInt32.size (some json)))
      (← type? (typeJson field.type))) = _
  simp [hnumber, type?_typeJson]

theorem schema?_schemaJson (schema : Schema) : schema? (schemaJson schema) = some schema := by
  have hfields := mapM_map_eq_some schemaField?_eq_some schema.fields
  change (do return Schema.mk schema.id (← List.mapM schemaField? (schema.fields.map _))) = _
  rw [hfields]
  rfl

theorem descriptor?_descriptorJson (descriptor : Descriptor) :
    descriptor? (descriptorJson descriptor) = some descriptor := by
  obtain ⟨opcode, layout, schema, repeatedField⟩ := descriptor
  obtain ⟨json, hjson, hopcode⟩ := exists_natJson opcode.toNat_lt_size
  rw [descriptorJson, hjson]
  cases repeatedField <;>
    change (do return Descriptor.mk (UInt16.ofNat (← nat? UInt16.size (some json))) layout schema _) = _ <;>
    simp [hopcode]

theorem ofJson?_toJson (config : Config) : ofJson? config.toJson = some config := by
  change (do
    return Config.mk (← List.mapM layout? (config.layouts.map layoutJson))
      (← List.mapM schema? (config.schemas.map schemaJson))
      (← List.mapM descriptor? (config.descriptors.map descriptorJson))) = _
  rw [mapM_map_eq_some layout?_layoutJson, mapM_map_eq_some schema?_schemaJson,
    mapM_map_eq_some descriptor?_descriptorJson]
  rfl

/-- Writing a configuration and reading it back gives the same configuration. -/
theorem read?_write (config : Config) : read? config.write = some config := by
  rw [read?, write, parse?_pretty config.exact_toJson, Option.bind_some, ofJson?_toJson]

end Config

end RecordBridge

import EntityCompiler.Proofs.Api.Model
import EntityCompiler.Proofs.Artifacts

/-!
# Properties of columns

Which members the property of a column has: those of its type are under keys of their own, and all others
are under one key each.  What a component shows of a literal is the literal itself, with the nulls in it.
-/

namespace EntityCompiler.Api

open Model

variable {c : Column} {key : String} {value : Json}

/-! ## Members of the type -/

/-- The keys under which a schema object says what values it is for. -/
def typeKeys : List String :=
  ["type", "format", "items"]

/-- The members that describe a column type. -/
def typeMembers (type : ColumnType) : List (String × Json) :=
  dumpFields (typeFields type)

theorem mem_typeKeys_of_mem {type : ColumnType} {member : String × Json} (h : member ∈ typeMembers type) :
    member.1 ∈ typeKeys := by
  cases type with
  | primitive p =>
    cases p <;> revert member <;>
      simp [typeMembers, typeFields, dumpFields_eq_map, Model.text, isNull, typeKeys]
  | arrayOf element =>
    revert member
    simp [typeMembers, typeFields, dumpFields_eq_map, Model.text, isNull, typeKeys]

theorem member?_typeMembers_eq_none (type : ColumnType) {key : String} (h : key ∉ typeKeys) :
    (Json.object (typeMembers type)).member? key = none := by
  have hnone : (typeMembers type).find? (fun member ↦ member.1 = key) = none :=
    List.find?_eq_none.mpr fun _ hmember hkey ↦
      h (of_decide_eq_true hkey ▸ mem_typeKeys_of_mem hmember)
  rw [Json.member?, hnone, Option.map_none]

theorem nodup_fields (c : Column) : ((typeFields c.type ++ columnFields c).map (·.1)).Nodup := by
  have hdeclared : (columnFields c).map (·.1) =
      ["nullable", "description", "readOnly", "default", "examples"] := rfl
  rw [List.map_append, hdeclared]
  cases c.type with
  | primitive p => cases p <;> decide
  | arrayOf element =>
    change ["type", "items", "nullable", "description", "readOnly", "default", "examples"].Nodup
    decide

theorem notMem_typeKeys_of_mem {part : Model} (h : (key, part) ∈ columnFields c) : key ∉ typeKeys := by
  have hkeys : ∀ key ∈ ["nullable", "description", "readOnly", "default", "examples"],
      key ∉ typeKeys := by decide
  exact hkeys key (List.mem_map_of_mem (f := Prod.fst) h)

/-- What a property says besides its type is not under the type keys. -/
theorem member?_property {key : String} (h : key ∈ typeKeys) (c : Column) :
    (property c).member? key = (Json.object (typeMembers c.type)).member? key := by
  have hnone : (dumpFields (columnFields c)).find? (fun member ↦ member.1 = key) = none := by
    refine List.find?_eq_none.mpr fun member hmember hkey ↦ ?_
    obtain ⟨part, hpart, -⟩ := mem_dumpFields_iff.mp hmember
    exact notMem_typeKeys_of_mem hpart (of_decide_eq_true hkey ▸ h)
  rw [property, columnModel, dump, dumpFields_append, Json.member?, Json.member?, List.find?_append, hnone,
    Option.or_none, typeMembers]

/-! ## Other members -/

/-- Under the key of a field a property has what is dumped for it, unless that is null. -/
theorem member?_property_eq_some_iff {part : Model} (h : (key, part) ∈ columnFields c) :
    (property c).member? key = some value ↔ part.isNull = false ∧ value = part.dump :=
  member?_dump_of_mem (nodup_fields c) (List.mem_append_right _ h)

theorem member?_flag_iff {b : Bool} (h : (key, Model.flag b) ∈ columnFields c) :
    (property c).member? key = some value ↔ b = true ∧ value = .bool true := by
  rw [member?_property_eq_some_iff h]
  cases b <;> simp [flag, isNull, dump]

theorem member?_plain_iff {shown : Json} (h : (key, Model.plain shown) ∈ columnFields c) :
    (property c).member? key = some value ↔ shown ≠ .null ∧ value = shown := by
  rw [member?_property_eq_some_iff h, ← Bool.not_eq_true, isNull_plain_iff, dump]

theorem member?_nullable_property_iff : (property c).member? "nullable" = some value ↔
    c.acceptsNull = true ∧ value = .bool true :=
  member?_flag_iff (by simp [columnFields])

theorem member?_readOnly_property_iff : (property c).member? "readOnly" = some value ↔
    c.immutable = true ∧ value = .bool true :=
  member?_flag_iff (by simp [columnFields])

theorem member?_description_property_iff : (property c).member? "description" = some value ↔
    ∃ text, c.description = some text ∧ value = .text text := by
  have hmem : ("description", Model.text? c.description) ∈ columnFields c := by simp [columnFields]
  rw [member?_plain_iff hmem]
  cases c.description <;> simp [Json.ofText?]

theorem member?_default_property_iff : (property c).member? "default" = some value ↔
    c.default = some value ∧ value ≠ .null := by
  have hmem : ("default", Model.plain (c.default.getD .null)) ∈ columnFields c := by
    simp [columnFields]
  rw [member?_plain_iff hmem]
  cases c.default with
  | none => simp
  | some kept =>
    simp only [Option.getD_some, Option.some.injEq]
    constructor
    · rintro ⟨hset, rfl⟩
      exact ⟨rfl, hset⟩
    · rintro ⟨rfl, hset⟩
      exact ⟨hset, rfl⟩

theorem member?_examples_property_iff : (property c).member? "examples" = some value ↔
    ∃ kept, c.sample = some kept ∧ value = .array [kept] := by
  have hmem : ("examples", Model.plain ((c.sample.map fun value ↦ .array [value]).getD .null)) ∈
      columnFields c := by simp [columnFields]
  rw [member?_plain_iff hmem]
  cases c.sample <;> simp

/-! ## Members of the component -/

/-- The properties of the public columns. -/
def properties (e : Entity) : List (String × Json) :=
  e.publicColumns.map fun (name, c) ↦ (name, property c)

/-- The schema object of an entity. -/
def schemaObject (e : Entity) : Json :=
  (componentModel e).dump

theorem checkedModel_eq_ok_iff {e : Entity} {model : Model} :
    checkedModel e = .ok model ↔ e.FitsComponent ∧ model = componentModel e := by
  rw [checkedModel, ← fits_iff]
  by_cases hfits : fits e = true
  · simp [hfits, eq_comm]
  · simp [hfits]

theorem component_eq_ok_iff {e : Entity} {schema : Json} :
    component e = .ok schema ↔ e.FitsComponent ∧ schema = schemaObject e := by
  rw [component, map_eq_ok_iff]
  constructor
  · rintro ⟨model, hmodel, rfl⟩
    obtain ⟨hfits, rfl⟩ := checkedModel_eq_ok_iff.mp hmodel
    exact ⟨hfits, rfl⟩
  · rintro ⟨hfits, rfl⟩
    exact ⟨_, checkedModel_eq_ok_iff.mpr ⟨hfits, rfl⟩, rfl⟩

theorem member?_properties_schemaObject (e : Entity) :
    (schemaObject e).member? "properties" = some (.object (properties e)) := by
  have hproperties : dumpEntries (e.publicColumns.map fun (name, c) ↦ (name, columnModel c)) =
      properties e := by
    rw [dumpEntries_eq_map, List.map_map]
    rfl
  rw [← hproperties]
  rfl

theorem member?_required_schemaObject (e : Entity) : (schemaObject e).member? "required" =
    if (requiredNames e).isEmpty then none else some (Json.ofTexts (requiredNames e)) := by
  cases hempty : (requiredNames e).isEmpty <;>
    simp [schemaObject, componentModel, dump, dumpFields_eq_map, hempty, isNull, Model.text,
      Json.member?, Json.ofTexts]

end EntityCompiler.Api

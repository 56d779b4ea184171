import EntityCompiler.Proofs.Api.Hidden
import EntityCompiler.Proofs.Api.Property
import EntityCompiler.Proofs.Validation.Restricted

/-!
# Components and public schemas

The public schema of an entity is what is left of its full schema without the columns that the API hides,
and its component depicts the public schema: it has the same names in the same order, it lists the same
names as required, and each of its properties is nested like the node of the field, so that the column type
can be read off it.
-/

namespace EntityCompiler

open Validation

/-! ## Properties and nodes -/

theorem Validation.node_of_injective : Function.Injective Node.of := by
  intro type
  induction type with
  | primitive p =>
    intro other h
    cases other with
    | primitive q => exact congrArg _ (Node.scalar.inj h)
    | arrayOf element => cases h
  | arrayOf element ih =>
    intro other h
    cases other with
    | primitive q => cases h
    | arrayOf inner => exact congrArg _ (ih (Node.sequence.inj h))

namespace Api

/-- The OpenAPI form of a primitive.  Any value is a JSON value. -/
def form : Primitive → Json
  | .string => .object [("type", .text "string")]
  | .number => .object [("type", .text "number")]
  | .integer => .object [("type", .text "integer")]
  | .boolean => .object [("type", .text "boolean")]
  | .date => .object [("type", .text "string"), ("format", .text "date-time")]
  | .json => .object []

theorem object_typeMembers (p : Primitive) : Json.object (typeMembers (.primitive p)) = form p := by
  cases p <;> rfl

/-- What a schema object says under its type keys is the form of a node: an array for each sequence, whose
items say nothing else, and the form of the primitive at the bottom. -/
inductive Depicts : Json → Node → Prop
  | scalar {schema : Json} {p : Primitive}
      (hform : ∀ key ∈ typeKeys, schema.member? key = (form p).member? key) :
      Depicts schema (.scalar p)
  | sequence {schema items : Json} {element : Node} (htype : schema.member? "type" = some (.text "array"))
      (hformat : schema.member? "format" = none) (hitems : schema.member? "items" = some items)
      (hbare : ∀ key ∉ typeKeys, items.member? key = none) (helement : Depicts items element) :
      Depicts schema (.sequence element)

theorem form_type_ne_array (p : Primitive) : (form p).member? "type" ≠ some (.text "array") := by
  cases p <;> simp [form, Json.member?]

/-- Primitives are told apart by the types and formats of their forms. -/
theorem form_injective {p q : Primitive} (htype : (form p).member? "type" = (form q).member? "type")
    (hformat : (form p).member? "format" = (form q).member? "format") : p = q := by
  cases p <;> cases q <;> first | rfl | simp [form, Json.member?] at htype hformat

/-- A schema object depicts at most one node. -/
theorem Depicts.unique {schema : Json} {m n : Node} (hm : Depicts schema m) (hn : Depicts schema n) :
    m = n := by
  induction hm generalizing n with
  | @scalar schema p hform =>
    have htype := hform "type" (by decide)
    cases hn with
    | @scalar _ q hother =>
      have hsame (key : String) (hkey : key ∈ typeKeys) : (form p).member? key = (form q).member? key :=
        (hform key hkey).symm.trans (hother key hkey)
      rw [form_injective (hsame "type" (by decide)) (hsame "format" (by decide))]
    | sequence harray _ _ _ _ => exact absurd (htype.symm.trans harray) (form_type_ne_array p)
  | @sequence schema items element htype _ hitems _ _ ih =>
    cases hn with
    | @scalar _ q hother =>
      exact absurd ((hother "type" (by decide)).symm.trans htype) (form_type_ne_array q)
    | sequence _ _ hother _ helement =>
      obtain rfl := Option.some.inj (hitems.symm.trans hother)
      rw [ih helement]

/-- A schema object depicts the node of a column type if it has the members of the type under the type
keys. -/
theorem depicts_of_members {schema : Json} {type : ColumnType}
    (h : ∀ key ∈ typeKeys, schema.member? key = (Json.object (typeMembers type)).member? key) :
    Depicts schema (Node.of type) := by
  induction type generalizing schema with
  | primitive p => exact .scalar (object_typeMembers p ▸ h)
  | arrayOf element ih =>
    exact .sequence (h "type" (by decide)) (h "format" (by decide)) (h "items" (by decide))
      (fun key hkey ↦ member?_typeMembers_eq_none element hkey) (ih fun _ _ ↦ rfl)

theorem depicts_property_iff {c : Column} {node : Node} :
    Depicts (property c) node ↔ node = Node.of c.type := by
  have hproperty : Depicts (property c) (Node.of c.type) :=
    depicts_of_members fun _ hkey ↦ member?_property hkey c
  constructor
  · intro h
    exact h.unique hproperty
  · rintro rfl
    exact hproperty

/-! ## Components and schemas -/

/-- What the component of an entity has to do with its public schema. -/
structure DepictsSchema (component : Json) (e : Entity) : Prop where
  properties : ∃ properties, component.member? "properties" = some (.object properties) ∧
    properties.map (·.1) = (Schema.shown e).fieldNames ∧
    List.Forall₂ (fun property f ↦ Depicts property.2 f.node) properties (Schema.shown e).fields ∧
    List.Forall₂ (fun property column ↦
      ∀ type, Depicts property.2 (Node.of type) → type = column.2.type) properties e.publicColumns
  required : component.member? "required" =
    if (Schema.shown e).requiredFields = [] then none
    else some (Json.ofTexts (Schema.shown e).requiredFields)

theorem requiredFields_shown (e : Entity) : (Schema.shown e).requiredFields = requiredNames e := by
  simp only [Schema.requiredFields, Schema.shown, Schema.ofColumns, requiredNames, List.filter_map,
    List.map_map]
  rfl

theorem depictsSchema_schemaObject (e : Entity) : DepictsSchema (schemaObject e) e where
  properties := by
    refine ⟨_, member?_properties_schemaObject e, ?_, ?_, ?_⟩
    · rw [Schema.shown, fieldNames_ofColumns, Api.properties, List.map_map]
      rfl
    · rw [Schema.shown, Schema.ofColumns, Api.properties, List.forall₂_map_left_iff,
        List.forall₂_map_right_iff]
      exact List.forall₂_same.mpr fun column _ ↦ depicts_property_iff.mpr rfl
    · rw [Api.properties, List.forall₂_map_left_iff]
      exact List.forall₂_same.mpr fun column _ type htype ↦
        node_of_injective (depicts_property_iff.mp htype)
  required := by
    rw [requiredFields_shown, member?_required_schemaObject]
    simp only [List.isEmpty_iff]

end Api

namespace Entity

/-- The public schema of an entity is the projection of the full one, and its component depicts the public
schema.  A record that the full schema accepts is accepted by the public schema once it is restricted to
the public columns, and its validated form is that of the whole record, restricted in the same way.  There
is a component unless one of the public columns has too many levels for it; its properties have the names
of the public fields in their order and the types of the columns, and it lists as required what the public
schema requires.  Names of columns are distinct, as those described by a dictionary always are. -/
theorem shown_projects {e : Entity} (hnames : e.columnNames.Nodup) :
    (∀ record result, (Schema.full e).validate record = .ok result →
      (Schema.shown e).validate (restrict (e.publicColumns.map (·.1)) record) =
        .ok (restrictFields (e.publicColumns.map (·.1)) result)) ∧
      SucceedsIff e.FitsComponent .tooDeep (Api.component e) ∧
      ∀ component, Api.component e = .ok component → Api.DepictsSchema component e := by
  refine ⟨fun record result h ↦ validate_restrict hnames _ h, Api.component_succeedsIff e,
    fun component h ↦ ?_⟩
  obtain ⟨-, rfl⟩ := Api.component_eq_ok_iff.mp h
  exact Api.depictsSchema_schemaObject e

theorem shown_projects_guarded :
    let e := guardedEntity "token" "first"
    let record : List (Value × Value) := [(.text "title", .text "Dune"), (.text "token", .text "key")]
    build (guarded "token" "first") = .ok e ∧ e.columnNames.Nodup ∧
      ∃ result component, (Schema.full e).validate record = .ok result ∧
        result.map (·.1) = ["token", "title"] ∧
        (Schema.shown e).validate (restrict ["title"] record) = .ok (restrictFields ["title"] result) ∧
        Api.component e = .ok component ∧ Api.DepictsSchema component e := by
  intro e record
  have hbuild : build (guarded "token" "first") = .ok e := build_guarded rfl (by decide)
  have hnames : e.columnNames.Nodup := by decide
  obtain ⟨result, hresult, hkeys⟩ : ∃ result, (Schema.full e).validate record = .ok result ∧
      result.map (·.1) = ["token", "title"] := ⟨_, rfl, rfl⟩
  obtain ⟨hprojects, hcomponent, hdepicts⟩ := shown_projects hnames
  have hfits : e.FitsComponent := by
    intro column hmem
    obtain rfl := List.mem_singleton.mp hmem
    exact ⟨by decide, fun value hvalue ↦ by rcases hvalue with h | h <;> cases h⟩
  obtain ⟨component, hok⟩ := hcomponent.success hfits
  exact ⟨hbuild, hnames, result, component, hresult, hkeys, hprojects record result hresult, hok,
    hdepicts component hok⟩

/-- An accepted entity that has a field in its public schema but no component. -/
theorem shown_projects_nested :
    let e := Sql.tableEntity .json (nested 253) (nestedJson 253)
    build (Sql.tableColumn .json (nested 253)) = .ok e ∧ e.columnNames.Nodup ∧
      (Schema.shown e).fieldNames = ["data"] ∧ Api.component e = .error .tooDeep := by
  intro e
  exact ⟨Sql.build_tableColumn_nested 253, List.nodup_singleton "data", rfl,
    (Api.component_succeedsIff e).failure
      (not_fitsComponent_of_nested List.mem_cons_self rfl (by decide))⟩

end Entity

end EntityCompiler

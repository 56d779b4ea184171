import EntityCompiler.Proofs.Column.Frozen
import EntityCompiler.Proofs.Presence

/-!
# Literals in components

What the property of a column shows beside its type, under one key each: whether it may be null, its
description, whether it is immutable, its default and its example.  The dump leaves nulls out of a property,
but not out of the literals that it shows.  Each default that is shown is accepted by validation unless its
text of a date is not read.
-/

namespace EntityCompiler

/-! ## Paths -/

namespace Json

/-- One step from a JSON value to a part of it. -/
inductive Step where
  | key (name : String)
  | index (i : Nat)

/-- The part of a value that a step leads to. -/
def part? (value : Json) : Step → Option Json
  | .key name => value.member? name
  | .index i =>
    match value with
    | .array items => items[i]?
    | _ => none

/-- The value that a path leads to. -/
def at? : List Step → Json → Option Json
  | [], value => some value
  | step :: path, value => (value.part? step).bind (at? path)

end Json

open Json

/-! ## Members of components -/

/-- The JSON value that a literal held by an entity stands for. -/
def Json.plain? (literal : Option Json) : Option Json :=
  literal.bind fun kept ↦ kept.held.value.toJson?

theorem Json.plain?_eq (literal : Option Json) : plain? literal = literal := by
  cases literal with
  | none => rfl
  | some kept => exact kept.toJson?_held

/-- The path to a member of the property of a column. -/
def Api.memberPath (name key : String) : List Step :=
  [.key "properties", .key name, .key key]

/-- What a component shows of a public column beside its type.  The literals are told along every path
into them. -/
structure Column.ShownIn (component : Json) (name : String) (c : Column) : Prop where
  nullable : ∀ value, at? (Api.memberPath name "nullable") component = some value ↔
    c.acceptsNull = true ∧ value = .bool true
  readOnly : ∀ value, at? (Api.memberPath name "readOnly") component = some value ↔
    c.immutable = true ∧ value = .bool true
  description : ∀ value, at? (Api.memberPath name "description") component = some value ↔
    ∃ text, c.description = some text ∧ value = .text text
  /-- A null default is not shown. -/
  default : ∀ path value, at? (Api.memberPath name "default" ++ path) component = some value ↔
    ∃ plain, plain? c.default = some plain ∧ plain ≠ .null ∧ at? path plain = some value
  /-- A null example is shown. -/
  examples : ∀ path value, at? (Api.memberPath name "examples" ++ path) component = some value ↔
    ∃ plain, plain? c.sample = some plain ∧ at? path (.array [plain]) = some value

namespace Api

variable {e : Entity} {column : String × Column}

/-- A member of the property of a public column is found in the schema object. -/
theorem at?_memberPath (hnames : e.columnNames.Nodup) (hmem : column ∈ e.publicColumns) (key : String)
    (path : List Step) : at? (memberPath column.1 key ++ path) (schemaObject e) =
      ((property column.2).member? key).bind (at? path) := by
  calc at? (memberPath column.1 key ++ path) (schemaObject e)
      = ((schemaObject e).member? "properties").bind
          (at? (.key column.1 :: .key key :: path)) := rfl
    _ = ((Json.object (properties e)).member? column.1).bind (at? (.key key :: path)) := by
        rw [member?_properties_schemaObject, Option.bind_some]
        rfl
    _ = ((property column.2).member? key).bind (at? path) := by
        rw [member?_properties hnames hmem, Option.bind_some]
        rfl

theorem shownIn_schemaObject (hnames : e.columnNames.Nodup) (hmem : column ∈ e.publicColumns) :
    column.2.ShownIn (schemaObject e) column.1 := by
  have hmember (key : String) : at? (memberPath column.1 key) (schemaObject e) =
      (property column.2).member? key := by
    rw [← List.append_nil (memberPath column.1 key), at?_memberPath hnames hmem]
    exact Option.bind_fun_some _
  refine ⟨fun value ↦ ?_, fun value ↦ ?_, fun value ↦ ?_, fun path value ↦ ?_, fun path value ↦ ?_⟩
  · rw [hmember, member?_nullable_property_iff]
  · rw [hmember, member?_readOnly_property_iff]
  · rw [hmember, member?_description_property_iff]
  · rw [at?_memberPath hnames hmem, Option.bind_eq_some_iff, plain?_eq]
    simp only [member?_default_property_iff, and_assoc]
  · rw [at?_memberPath hnames hmem, Option.bind_eq_some_iff, plain?_eq]
    simp only [member?_examples_property_iff]
    constructor
    · rintro ⟨_, ⟨kept, hkept, rfl⟩, hat⟩
      exact ⟨kept, hkept, hat⟩
    · rintro ⟨kept, hkept, hat⟩
      exact ⟨_, ⟨kept, hkept, rfl⟩, hat⟩

end Api

/-! ## Defaults that are shown -/

namespace Validation

variable {v : Value} {e : Entity} {column : String × Column} {kept : Json}
  {record : List (Value × Value)} {result : List (String × Value)}

/-- A record without a column that has a default has the result of the record with the default in it. -/
theorem validate_putEntry_default (hbuild : Entity.build v = .ok e) (hnames : e.columnNames.Nodup)
    (hmem : column ∈ e.columns) (hdefault : column.2.default = some kept)
    (hrecord : (Schema.full e).validate record = .ok result)
    (habsent : Value.lookup? column.1 record = none) :
    (Schema.full e).validate (Value.putEntry (.text column.1) kept.toValue record) = .ok result := by
  obtain ⟨hknown, hadmits, rfl⟩ := (validate_full_eq_ok_iff hbuild).mp hrecord
  obtain ⟨entity, spec, hspec⟩ := exists_build_of_mem hbuild hmem
  have hfits : column.2.defaultFits = true := by
    have hcolumn := hadmits column hmem
    rw [Admits, habsent] at hcolumn
    exact hcolumn.2
  obtain ⟨w, hw⟩ := exists_resolve?_of_defaultFits hdefault hfits
  have hcheck : (Field.of column.1 column.2).check kept.toValue = .accepted w :=
    (field_check_default_eq_accepted_iff hspec hdefault).mpr ⟨hfits, hw⟩
  refine (validate_full_eq_ok_iff hbuild).mpr ⟨fun entry hentry ↦ ?_, fun other hother ↦ ?_, ?_⟩
  · rcases Value.mem_putEntry (Value.text?_text _) hentry with hkey | hold
    · exact ⟨column, hmem, hkey⟩
    · exact hknown entry hold
  · rw [Admits, Value.lookup?_putEntry (Value.text?_text _)]
    split_ifs with hname
    · obtain rfl : other = column := List.inj_on_of_nodup_map hnames hother hmem hname
      exact ⟨w, hcheck⟩
    · exact hadmits other hother
  · refine List.filterMap_congr fun other hother ↦ congrArg _ ?_
    rw [outcome?, outcome?, Value.lookup?_putEntry (Value.text?_text _)]
    split_ifs with hname
    · obtain rfl : other = column := List.inj_on_of_nodup_map hnames hother hmem hname
      rw [habsent, hdefault, Option.bind_some, hw]
      exact (congrArg Checked.toOption hcheck).symm
    · rfl

end Validation

namespace Entity

open Validation

variable {v : Value} {e : Entity}

/-- The component of an entity shows the literals of its public columns as they are; the columns have
distinct names, as those described by a dictionary always have.  There is a component unless one of the
public columns has too many levels for it.  A default that it shows passes the check of its column exactly
when it has a value, which all of them have unless the description has a moment with seconds in its offset.
An accepted record without the column has the result that it has with this default in it, with what the
check makes of the default under the name of the column. -/
theorem component_shows_literals (hbuild : build v = .ok e) (hnames : e.columnNames.Nodup) :
    SucceedsIff e.FitsComponent .tooDeep (Api.component e) ∧
      (v.WholeMinutes → ∀ column ∈ e.columns, column.2.resolves = true) ∧
      ∀ component, Api.component e = .ok component → ∀ column ∈ e.publicColumns,
        column.2.ShownIn component column.1 ∧
        ∀ shown, at? (Api.memberPath column.1 "default") component = some shown →
          ∃ f, (Schema.full e).get column.1 = .ok f ∧
            ((∃ w, f.check shown.toValue = .accepted w) ↔ column.2.resolves = true) ∧
            ∀ record result, (Schema.full e).validate record = .ok result →
              Value.lookup? column.1 record = none →
              ∃ w, f.check shown.toValue = .accepted w ∧ (column.1, w) ∈ result ∧
                (Schema.full e).validate
                  (Value.putEntry (.text column.1) shown.toValue record) = .ok result := by
  refine ⟨Api.component_succeedsIff e, fun hwhole column hmem ↦
    Column.resolves_of_readable ((readable_iff_of_build hbuild).mpr hwhole column hmem),
    fun component hcomponent column hmem ↦ ?_⟩
  obtain ⟨hfits, rfl⟩ := Api.component_eq_ok_iff.mp hcomponent
  have hcolumn : column ∈ e.columns := List.mem_of_mem_filter hmem
  have hshown := Api.shownIn_schemaObject hnames hmem
  refine ⟨hshown, fun shown hat ↦ ?_⟩
  have hdefault : column.2.default = some shown := by
    obtain ⟨plain, hplain, -, hpart⟩ := (hshown.default [] shown).mp (by rwa [List.append_nil])
    rw [← plain?_eq column.2.default, hplain]
    exact hpart
  obtain ⟨entity, spec, hspec⟩ := exists_build_of_mem hbuild hcolumn
  have hcheck {w : Value} : (Field.of column.1 column.2).check shown.toValue = .accepted w ↔
      column.2.defaultFits = true ∧ column.2.resolve? shown = some w :=
    field_check_default_eq_accepted_iff hspec hdefault
  refine ⟨_, get_full hnames hcolumn, ?_, fun record result hrecord habsent ↦ ?_⟩
  · simp only [hcheck, (hfits column hmem).defaultFits_eq, exists_and_left, Column.resolves, hdefault,
      Option.all_some, Option.isSome_iff_exists, and_self]
  · have hput := validate_putEntry_default hbuild hnames hcolumn hdefault hrecord habsent
    obtain ⟨-, hadmits, rfl⟩ := (validate_full_eq_ok_iff hbuild).mp hrecord
    have hadmitted := hadmits column hcolumn
    rw [Admits, habsent] at hadmitted
    obtain ⟨w, hw⟩ := exists_resolve?_of_defaultFits hdefault hadmitted.2
    refine ⟨w, hcheck.mpr ⟨hadmitted.2, hw⟩, mem_outcomes hcolumn ?_, hput⟩
    rw [outcome?, habsent, hdefault]
    exact hw

/-- A literal with a null and with the values that count as nothing. -/
def sampledLiteral : Json :=
  .object [("a", .null), ("b", .array [.bool false, .int 0, .text "", .array [], .object []])]

/-- The description of an entity with an optional column that has this default and a null example. -/
def sampled : Value :=
  .ofFields [("name", .text "Book"), ("columns", .ofFields [("data", .ofFields [("type", .text "json"),
    ("optional", .bool true), ("immutable", .bool true), ("default", sampledLiteral.toValue),
    ("example", .null)])])]

/-- The entity that `sampled` describes. -/
def sampledEntity : Entity :=
  Specification.freeze
    { name := "Book"
      columns := [("data", {
        type := .text "json", optional := true, immutable := true,
        default := some sampledLiteral.toValue, sample := some .null })] }
    [("data", {
      type := .primitive .json, optional := true, immutable := true, default := some sampledLiteral,
      sample := some .null })]

theorem component_shows_literals_sampled :
    let e := sampledEntity
    build sampled = .ok e ∧ e.columnNames.Nodup ∧ ∃ component, Api.component e = .ok component ∧
      at? (Api.memberPath "data" "default" ++ [.key "a"]) component = some .null ∧
      at? (Api.memberPath "data" "default" ++ [.key "b", .index 2]) component = some (.text "") ∧
      at? (Api.memberPath "data" "examples") component = some (.array [.null]) ∧
      at? (Api.memberPath "data" "description") component = none ∧
      ∃ w result, (Schema.full e).validate [] = .ok result ∧ ("data", w) ∈ result ∧
        (Schema.full e).validate [(.text "data", sampledLiteral.toValue)] = .ok result := by
  intro e
  have hbuild : build sampled = .ok e := rfl
  have hnames : e.columnNames.Nodup := List.nodup_singleton "data"
  have hfits : e.FitsComponent := by
    intro column hmem
    obtain rfl := List.mem_singleton.mp hmem
    exact ⟨by decide, fun value hvalue ↦ by rcases hvalue with h | h <;> cases h <;> decide⟩
  obtain ⟨hcomponent, -, hshows⟩ := component_shows_literals hbuild hnames
  obtain ⟨component, hok⟩ := hcomponent.success hfits
  obtain ⟨hshown, haccepted⟩ := hshows component hok _ List.mem_cons_self
  have hdefault (path : List Step) (value : Json) (h : at? path sampledLiteral = some value) :
      at? (Api.memberPath "data" "default" ++ path) component = some value :=
    (hshown.default path value).mpr ⟨sampledLiteral, plain?_eq _, nofun, h⟩
  have hexamples : at? (Api.memberPath "data" "examples") component = some (.array [.null]) :=
    (hshown.examples [] _).mpr ⟨.null, plain?_eq _, rfl⟩
  have hdescription : at? (Api.memberPath "data" "description") component = none := by
    refine Option.eq_none_iff_forall_ne_some.mpr fun value hvalue ↦ ?_
    obtain ⟨text, htext, -⟩ := (hshown.description value).mp hvalue
    cases htext
  obtain ⟨_, -, -, hrecords⟩ := haccepted sampledLiteral (hdefault [] _ rfl)
  obtain ⟨result, hresult⟩ : ∃ result, (Schema.full e).validate [] = .ok result := ⟨_, rfl⟩
  obtain ⟨w, -, hmem, hput⟩ := hrecords [] result hresult rfl
  exact ⟨hbuild, hnames, component, hok, hdefault _ _ rfl, hdefault _ _ rfl, hexamples, hdescription, w,
    result, hresult, hmem, hput⟩

theorem nestedJson_ne_null (depth : Nat) : nestedJson depth ≠ .null := by
  cases depth <;> simp [nestedJson]

/-- An accepted entity with a public column that has a default, which no component shows, and one whose
component shows a default that validation refuses. -/
theorem component_shows_literals_nested :
    (let e := optionalEntity .json (nested 253) (nestedJson 253)
    build (optionalColumn .json (nested 253)) = .ok e ∧
      (∃ column ∈ e.publicColumns, column.2.default = some (nestedJson 253) ∧ nestedJson 253 ≠ .null) ∧
      Api.component e = .error .tooDeep) ∧
    let shown : Json := .text halfMinute.isoText
    let e := optionalEntity .date (.moment halfMinute) shown
    build (optionalColumn .date (.moment halfMinute)) = .ok e ∧
      ∃ component f, Api.component e = .ok component ∧
        at? (Api.memberPath "data" "default") component = some shown ∧
        (Schema.full e).get "data" = .ok f ∧ ¬∃ w, f.check shown.toValue = .accepted w := by
  refine ⟨?_, ?_⟩
  · intro e
    have hmem : ("data", { type := .primitive .json, optional := true, default := some (nestedJson 253) }) ∈
        e.publicColumns := List.mem_cons_self
    exact ⟨build_optionalColumn_nested 253, ⟨_, hmem, rfl, nestedJson_ne_null 253⟩,
      (Api.component_succeedsIff e).failure (not_fitsComponent_of_nested hmem rfl (by decide))⟩
  · intro shown e
    let column : String × Column :=
      ("data", { type := .primitive .date, optional := true, default := some shown })
    have hbuild : build (optionalColumn .date (.moment halfMinute)) = .ok e :=
      build_optionalColumn rfl (by simp) rfl
    have hnames : e.columnNames.Nodup := List.nodup_singleton "data"
    have hmem : column ∈ e.columns := List.mem_cons_self
    obtain ⟨entity, spec, hspec⟩ := exists_build_of_mem hbuild hmem
    have hpublic : column ∈ e.publicColumns := List.mem_cons_self
    have hshown := (Api.shownIn_schemaObject hnames hpublic).default
    refine ⟨hbuild, Api.schemaObject e, _, rfl, (hshown [] shown).mpr ⟨shown, plain?_eq _, by simp [shown], rfl⟩,
      get_full hnames hmem, ?_⟩
    rintro ⟨w, hw⟩
    have haccepted := ((field_check_default_eq_accepted_iff hspec rfl).mp hw).1
    rw [defaultFits_of_seconds rfl rfl rfl] at haccepted
    cases haccepted

end Entity

end EntityCompiler

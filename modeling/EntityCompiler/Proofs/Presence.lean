import EntityCompiler.Proofs.Api.Property
import EntityCompiler.Proofs.Entity.Readable
import EntityCompiler.Proofs.Entity.Reported
import EntityCompiler.Proofs.Sql.Table
import EntityCompiler.Proofs.Validation.Presence

/-!
# Null and absence in all artifacts

The table, the records that are accepted and the component of an entity agree on which columns may be
null.  They agree on which may be absent, except for optional columns whose default is a date that is not
read: these are not listed as required, but no accepted record stays accepted without them.
-/

namespace EntityCompiler

open Validation

variable {v : Value} {e : Entity} {column : String × Column}

/-! ## Fields -/

theorem Validation.get_full (hnames : e.columnNames.Nodup) (hmem : column ∈ e.columns) :
    (Schema.full e).get column.1 = .ok (Field.of column.1 column.2) := by
  have hfound : (e.columns.find? fun other ↦ other.1 = column.1) = some column := by
    obtain ⟨other, hother⟩ : ∃ other, (e.columns.find? fun other ↦ other.1 = column.1) = some other :=
      Option.isSome_iff_exists.mp (List.find?_isSome.mpr ⟨column, hmem, by simp⟩)
    have hname : other.1 = column.1 := by simpa using List.find?_some hother
    rw [hother, List.inj_on_of_nodup_map hnames (List.mem_of_find?_eq_some hother) hmem hname]
  have hfields : ((Schema.full e).fields.find? fun f ↦ f.name = column.1) =
      (e.columns.find? fun other ↦ other.1 = column.1).map fun other ↦ Field.of other.1 other.2 := by
    rw [Schema.full, Schema.ofColumns, List.find?_map]
    rfl
  rw [Schema.get, hfields, hfound, Option.map_some]

/-! ## Components -/

namespace Api

/-- Whether a name is listed as required in a schema object. -/
def IsListed (schema : Json) (name : String) : Prop :=
  ∃ names, schema.member? "required" = some (.array names) ∧ .text name ∈ names

theorem isListed_schemaObject_iff {name : String} :
    IsListed (schemaObject e) name ↔ name ∈ requiredNames e := by
  unfold IsListed
  rw [member?_required_schemaObject]
  cases hempty : (requiredNames e).isEmpty with
  | true =>
    have hnone : requiredNames e = [] := List.isEmpty_iff.mp hempty
    simp [hnone]
  | false => simp [Json.ofTexts]

/-- The property of a public column is found under its name. -/
theorem member?_properties (hnames : e.columnNames.Nodup) (hmem : column ∈ e.publicColumns) :
    (Json.object (properties e)).member? column.1 = some (property column.2) := by
  have hkeys : (properties e).map (·.1) = e.publicColumns.map (·.1) := by
    rw [properties, List.map_map]
    rfl
  have hnodup : ((properties e).map (·.1)).Nodup := by
    rw [hkeys]
    exact hnames.sublist (List.filter_sublist.map _)
  exact (Json.member?_eq_some_iff hnodup).mpr (List.mem_map.mpr ⟨column, hmem, rfl⟩)

theorem mem_requiredNames_iff (hnames : e.columnNames.Nodup) (hmem : column ∈ e.publicColumns) :
    column.1 ∈ requiredNames e ↔ column.2.optional = false := by
  have hrequired : column.2.required = true ↔ column.2.optional = false := by
    simp [Column.required]
  rw [requiredNames, List.mem_map, ← hrequired]
  constructor
  · rintro ⟨other, hother, hname⟩
    obtain ⟨hpublic, hother⟩ := List.mem_filter.mp hother
    have hsame : other = column := List.inj_on_of_nodup_map hnames (List.mem_of_mem_filter hpublic)
      (List.mem_of_mem_filter hmem) hname
    rwa [← hsame]
  · intro hcolumn
    exact ⟨column, List.mem_filter.mpr ⟨hmem, hcolumn⟩, rfl⟩

end Api

/-- Whether what is kept of the default of a column has a value for the records without the column. -/
def Column.resolves (c : Column) : Bool :=
  c.default.all fun value ↦ (c.resolve? value).isSome

/-- The default of a column that fits into a component has no more levels than validation looks into. -/
theorem Column.FitsComponent.defaultFits_eq {c : Column} (h : c.FitsComponent) :
    c.defaultFits = c.resolves := by
  rw [defaultFits, resolves]
  cases hdefault : c.default with
  | none => rfl
  | some value =>
    have hlevels : value.depth + 2 ≤ depthLimit := h.2 value (.inl hdefault)
    have hfits : Literal.fits c.type value = true := Literal.fits_of_depth_le (by omega)
    rw [Option.all_some, Option.all_some, hfits, Bool.true_and]

theorem Column.resolves_of_readable {c : Column} (h : c.Readable) : c.resolves = true := by
  rw [resolves, Option.all_eq_true]
  intro value hdefault
  by_cases hnull : value = .null
  · rw [hnull]
    rfl
  · rw [resolve?_of_ne_null hnull]
    exact h value (.inl hdefault) hnull

/-! ## Agreement -/

/-- What a table, the field of a column and the accepted records say of null for a stored column that
has a given definition. -/
structure Column.AgreesInTable (g : Sql.Generator) (e : Entity) (column : String × Column)
    (definition : String) : Prop where
  rendered : g.columnDefinition e.name column.1 column.2 = .ok definition
  notNull : ∃ type, Sql.renderType g.profile g.jsonArrayFallback ⟨some e.name, column.1⟩
      column.2.type = .ok type ∧
    (Sql.NotNullAfter (g.profile.identifier column.1) type definition ↔ column.2.acceptsNull = false)
  field : ∃ f, (Schema.full e).get column.1 = .ok f ∧
    (f.nullable = false ↔ column.2.acceptsNull = false)
  records : (Schema.full e).RefusesNull column.1 ↔ column.2.acceptsNull = false
  /-- The columns of the primary key do not accept null. -/
  primary : column.1 ∈ Sql.Generator.primaryNames e.storedColumns → column.2.acceptsNull = false

/-- What the field of a column and the accepted records say of null and absence, whether there is a
component or not. -/
structure Column.AgreesInRecords (e : Entity) (column : String × Column) : Prop where
  field : ∃ f, (Schema.full e).get column.1 = .ok f ∧ f.nullable = column.2.acceptsNull ∧
    f.required = column.2.required
  null : (Schema.full e).RefusesNull column.1 ↔ column.2.acceptsNull = false
  absence : (Schema.full e).RefusesAbsence column.1 ↔
    column.2.required = true ∨ column.2.defaultFits = false

/-- What a component, the field of a column and the accepted records say of null and absence for a
public column. -/
structure Column.AgreesInComponent (schema : Json) (e : Entity) (column : String × Column) :
    Prop where
  nullable : ∃ properties property f, schema.member? "properties" = some properties ∧
    properties.member? column.1 = some property ∧ (Schema.full e).get column.1 = .ok f ∧
    (property.member? "nullable" = some (.bool true) ↔ f.nullable = true)
  listed : Api.IsListed schema column.1 ↔ column.2.required = true
  required : (Api.IsListed schema column.1 ↔ (Schema.full e).RefusesAbsence column.1) ↔
    (column.2.required = false → column.2.resolves = true)

theorem Column.agreesInTable {g : Sql.Generator} (hbuild : Entity.build v = .ok e)
    (hnames : e.columnNames.Nodup) (hmem : column ∈ e.columns) {definition : String}
    (hdefinition : g.columnDefinition e.name column.1 column.2 = .ok definition) :
    Column.AgreesInTable g e column definition where
  rendered := hdefinition
  notNull := Sql.Generator.notNullAfter_columnDefinition_iff hdefinition
  field := ⟨Field.of column.1 column.2, get_full hnames hmem, Iff.rfl⟩
  records := refusesNull_iff hbuild hnames hmem
  primary := by
    intro hprimary
    obtain ⟨other, hother, hflag, hname⟩ := Sql.Generator.mem_primaryNames.mp hprimary
    have hsame : other = column :=
      List.inj_on_of_nodup_map hnames (List.mem_of_mem_filter hother) hmem hname
    have hwell := (Entity.wellFormed_of_build hbuild).columns column hmem
    obtain ⟨hoptional, hnullable⟩ := hwell.primary (hsame ▸ hflag)
    rw [acceptsNull, hnullable, hoptional]
    rfl

theorem Column.agreesInRecords (hbuild : Entity.build v = .ok e) (hnames : e.columnNames.Nodup)
    (hmem : column ∈ e.columns) : Column.AgreesInRecords e column where
  field := ⟨Field.of column.1 column.2, get_full hnames hmem, rfl, rfl⟩
  null := refusesNull_iff hbuild hnames hmem
  absence := by
    rw [refusesAbsence_iff hbuild hnames hmem, required]
    cases column.2.optional <;> simp

theorem Column.agreesInComponent {schema : Json} (hbuild : Entity.build v = .ok e)
    (hnames : e.columnNames.Nodup) (hschema : Api.component e = .ok schema)
    (hmem : column ∈ e.publicColumns) : Column.AgreesInComponent schema e column := by
  have hcolumn : column ∈ e.columns := List.mem_of_mem_filter hmem
  obtain ⟨hfits, rfl⟩ := Api.component_eq_ok_iff.mp hschema
  have hlisted : Api.IsListed (Api.schemaObject e) column.1 ↔ column.2.required = true := by
    rw [Api.isListed_schemaObject_iff, Api.mem_requiredNames_iff hnames hmem, required]
    simp
  refine ⟨⟨_, _, _, Api.member?_properties_schemaObject e, Api.member?_properties hnames hmem,
    get_full hnames hcolumn, ?_⟩, hlisted, ?_⟩
  · rw [Api.member?_nullable_property_iff, Field.of]
    simp
  · rw [hlisted, (agreesInRecords hbuild hnames hcolumn).absence, (hfits column hmem).defaultFits_eq]
    cases column.2.required <;> simp

/-- The artifacts of an entity agree on null and on absence; its columns have distinct names, as those
described by a dictionary always have.  In the statement that creates its table, the definition of a stored
column has `NOT NULL` directly after the type exactly when the column does not accept null, as its field
says, and when every accepted record is refused once the column is null; the columns of the primary key
are among them.  Every accepted record is refused without a column exactly when the column is required or
validation does not accept its default.  In a component, the property of a public column is nullable
exactly when the field is, and the column is listed as required exactly when it is; that every accepted
record is refused without it comes to the same unless it is optional and its default has no value, which
takes a moment with seconds in its offset.  There is no component exactly when a public column has too
many levels. -/
theorem Entity.presence_agrees (hbuild : build v = .ok e) (hnames : e.columnNames.Nodup) :
    (∀ (g : Sql.Generator) (text : String), g.tableStatement? e = .ok (some text) →
      ∃ definitions, text = g.tableText e (definitions ++ g.primaryKeyClause e.storedColumns) ∧
        List.Forall₂ (Column.AgreesInTable g e) e.storedColumns definitions) ∧
    (∀ column ∈ e.columns, Column.AgreesInRecords e column ∧
      (v.WholeMinutes → column.2.resolves = true)) ∧
    ((∃ schema, Api.component e = .ok schema) ↔ e.FitsComponent) ∧
    ∀ schema, Api.component e = .ok schema →
      ∀ column ∈ e.publicColumns, Column.AgreesInComponent schema e column := by
  refine ⟨fun g text htext ↦ ?_, fun column hmem ↦ ⟨Column.agreesInRecords hbuild hnames hmem,
    fun hwhole ↦ Column.resolves_of_readable ((readable_iff_of_build hbuild).mpr hwhole column hmem)⟩,
    by simp [Api.component_eq_ok_iff], fun schema hschema column hmem ↦
      Column.agreesInComponent hbuild hnames hschema hmem⟩
  obtain ⟨-, -, definitions, hdefinitions, hlines⟩ :=
    Sql.Generator.tableStatement?_eq_ok_some_iff.mp htext
  refine ⟨definitions, hlines, ?_⟩
  have hstored : List.Forall₂ (fun column definition ↦ column ∈ e.columns ∧
      g.columnDefinition e.name column.1 column.2 = .ok definition) e.storedColumns definitions :=
    (List.forall₂_and_left _ _).mpr ⟨fun _ hmem ↦ List.mem_of_mem_filter hmem, hdefinitions⟩
  exact hstored.imp fun column definition hcolumn ↦
    Column.agreesInTable hbuild hnames hcolumn.1 hcolumn.2

theorem Entity.presence_agrees_newYear :
    let e := Sql.tableEntity .date (.moment newYear) (.text newYear.isoText)
    let g : Sql.Generator := {
      profile := .of .postgres, naming := .entity, schemaName := none, ifNotExists := true
      jsonArrayFallback := true, includeComments := false, indent := "  " }
    build (Sql.tableColumn .date (.moment newYear)) = .ok e ∧ e.columnNames.Nodup ∧
      (∃ text, g.tableStatement? e = .ok (some text)) ∧ (Schema.full e).RefusesNull "data" ∧
      (∃ schema, Api.component e = .ok schema ∧ Api.IsListed schema "data") ∧
      (Schema.full e).RefusesAbsence "data" := by
  intro e g
  have hbuild : build (Sql.tableColumn .date (.moment newYear)) = .ok e :=
    Sql.build_tableColumn rfl (by simp) rfl
  have hnames : e.columnNames.Nodup := List.nodup_singleton "data"
  obtain ⟨definition, hdefinition⟩ : ∃ definition, g.columnDefinition e.name "data"
      { type := .primitive .date, default := some (.text newYear.isoText) } = .ok definition :=
    ⟨_, rfl⟩
  have htext : g.tableStatement? e =
      .ok (some (g.tableText e ([definition] ++ g.primaryKeyClause e.storedColumns))) :=
    Sql.Generator.tableStatement?_eq_ok_some_iff.mpr
      ⟨rfl, List.cons_ne_nil _ _, [definition], .cons hdefinition .nil, rfl⟩
  have hschema : Api.component e = .ok (Api.schemaObject e) := by rfl
  have hlisted : Api.IsListed (Api.schemaObject e) "data" :=
    Api.isListed_schemaObject_iff.mpr List.mem_cons_self
  obtain ⟨htable, hrecords, -, hcomponent⟩ := presence_agrees hbuild hnames
  obtain ⟨definitions, -, hcolumns⟩ := htable g _ htext
  refine ⟨hbuild, hnames, ⟨_, htext⟩, ?_, ⟨_, hschema, ?_⟩, ?_⟩
  · cases hcolumns with
    | cons hfirst _ => exact hfirst.records.mpr rfl
  · exact (hcomponent _ hschema _ List.mem_cons_self).listed.mpr rfl
  · exact (hrecords _ List.mem_cons_self).1.absence.mpr (.inl rfl)

/-- The description of a table with one optional column, which has a date for its default. -/
def Sql.optionalDate (t : Moment) : Value :=
  .ofFields [("name", .text "Book"), ("table", .bool true), ("columns", .ofFields [("due", .ofFields
    [("type", .text "date"), ("optional", .bool true), ("default", .moment t)])])]

/-- An optional column that is not listed as required, and without which no record is accepted. -/
theorem Entity.presence_agrees_seconds :
    ∃ e schema, build (Sql.optionalDate halfMinute) = .ok e ∧ e.table = true ∧
      Api.component e = .ok schema ∧ ¬Api.IsListed schema "due" ∧
      (Schema.full e).RefusesAbsence "due" := by
  let spec : Specification := {
    name := "Book", table := true
    columns := [("due", { type := .text "date", optional := true, default := some (.moment halfMinute) })] }
  let column : String × Column := ("due", {
    type := .primitive .date, optional := true, default := some (.text halfMinute.isoText) })
  have hspec : Specification.read (Sql.optionalDate halfMinute) = .ok spec := by rfl
  have hbuild : build (Sql.optionalDate halfMinute) = .ok (spec.freeze [column]) :=
    build_eq_ok_iff.mpr ⟨spec, hspec, build_column rfl rfl rfl (by decide) rfl (by simp) rfl⟩
  have hnames : (spec.freeze [column]).columnNames.Nodup := List.nodup_singleton "due"
  have hmem : column ∈ (spec.freeze [column]).columns := List.mem_cons_self
  have hrefused : column.2.defaultFits = false := defaultFits_of_seconds rfl rfl rfl
  refine ⟨_, Api.schemaObject _, hbuild, rfl, rfl, ?_,
    (refusesAbsence_iff hbuild hnames hmem).mpr fun hoptional ↦ nomatch hrefused.symm.trans hoptional.2⟩
  have hpublic : column ∈ (spec.freeze [column]).publicColumns := List.mem_cons_self
  rw [Api.isListed_schemaObject_iff, Api.mem_requiredNames_iff hnames hpublic]
  exact Bool.noConfusion

end EntityCompiler

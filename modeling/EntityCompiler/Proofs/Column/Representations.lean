import EntityCompiler.Proofs.Api.Depicted
import EntityCompiler.Proofs.Entity.Reread
import EntityCompiler.Proofs.Sql.Literal

/-!
# Representations of column types

A column type is determined by its innermost primitive and the number of arrays around it, and by each text
or structure that stands for it: its canonical form, its description, the node that records are checked
against, and its name in the dialect that has arrays.
-/

namespace EntityCompiler

namespace ColumnType

theorem eq_of_base_of_depth {s t : ColumnType} (hbase : s.base = t.base) (hdepth : s.depth = t.depth) :
    s = t := by
  induction s generalizing t with
  | primitive p =>
    cases t with
    | primitive q => exact congrArg primitive hbase
    | arrayOf other => exact absurd hdepth (Nat.succ_ne_zero _).symm
  | arrayOf element ih =>
    cases t with
    | primitive q => exact absurd hdepth (Nat.succ_ne_zero _)
    | arrayOf other => exact congrArg arrayOf (ih hbase (Nat.succ.inj hdepth))

/-! ## Raw forms -/

/-- The canonical form of a type is a raw form of it. -/
theorem parse_toJson (t : ColumnType) : parse t.toJson.toValue = .ok t :=
  parse_eq_ok_iff.mpr t.spelledBy_toJson

/-- A value is a column type that has been parsed before, the name of a primitive, or a dictionary whose only
key says that its value is the element type of an array. -/
theorem exists_parse_iff {raw : Value} : (∃ t, parse raw = .ok t) ↔ (∃ t, raw = .columnType t) ∨
    (∃ name ∈ ["string", "number", "integer", "boolean", "date", "json"], raw = .text name) ∨
    ∃ key ∈ ["arrayOf", "array_of"], ∃ v, raw = .dict [(.text key, v)] ∧ ∃ t, parse v = .ok t := by
  simp only [parse_eq_ok_iff]
  constructor
  · rintro ⟨type, hspelled⟩
    cases hspelled with
    | parsed => exact .inl ⟨type, rfl⟩
    | named p => exact .inr (.inl ⟨p.name, by cases p <;> decide, rfl⟩)
    | @arrayOf key element v hkey helement => exact .inr (.inr ⟨key, hkey, v, rfl, element, helement⟩)
  · rintro (⟨t, rfl⟩ | ⟨name, hname, rfl⟩ | ⟨key, hkey, v, rfl, element, helement⟩)
    · exact ⟨t, .parsed t⟩
    · have hnames : ["string", "number", "integer", "boolean", "date", "json"] =
          Primitive.all.map Primitive.name := rfl
      rw [hnames] at hname
      obtain ⟨p, -, rfl⟩ := List.mem_map.mp hname
      exact ⟨.primitive p, .named p⟩
    · exact ⟨.arrayOf element, .arrayOf hkey helement⟩

/-! ## Descriptions -/

/-- No name of a primitive begins like the description of an array. -/
theorem name_ne_describe_arrayOf (p : Primitive) (element : ColumnType) :
    p.name ≠ (arrayOf element).describe := by
  intro h
  have hstart : "ar".toList.isPrefixOf p.name.toList = true := by
    rw [h, describe, String.toList_append, String.toList_append]
    rfl
  cases p <;> exact absurd hstart (by decide)

theorem describe_injective : Function.Injective describe := by
  intro s t h
  induction s generalizing t with
  | primitive p =>
    cases t with
    | primitive q => exact congrArg primitive (Primitive.name_injective h)
    | arrayOf other => exact absurd h (name_ne_describe_arrayOf p other)
  | arrayOf element ih =>
    cases t with
    | primitive q => exact absurd h.symm (name_ne_describe_arrayOf q element)
    | arrayOf other =>
      have hinner : element.describe = other.describe := by
        rw [describe, describe, String.append_left_inj, String.append_right_inj] at h
        exact h
      exact congrArg arrayOf (ih hinner)

end ColumnType

namespace Sql

/-! ## Types in the dialect that has arrays -/

/-- The name of a type with a pair of brackets for each array. -/
def bracketed (name : String) (depth : Nat) : String :=
  name ++ String.join (List.replicate depth "[]")

theorem bracketed_zero (name : String) : bracketed name 0 = name :=
  String.append_empty

theorem bracketed_succ (name : String) (depth : Nat) :
    bracketed name (depth + 1) = bracketed name depth ++ "[]" := by
  rw [bracketed, bracketed, List.replicate_succ', String.join_append, String.append_assoc]
  rfl

/-- The brackets of a text are told apart from a name that does not end in one. -/
theorem bracketed_inj {name other : String} {depth n : Nat} (hname : name.toList.getLast? ≠ some ']')
    (hother : other.toList.getLast? ≠ some ']') (h : bracketed name depth = bracketed other n) :
    name = other ∧ depth = n := by
  have hlast (text : String) : (text ++ "[]").toList.getLast? = some ']' := by
    rw [String.toList_append]
    exact List.getLast?_append_cons text.toList '[' [']']
  induction depth generalizing n with
  | zero =>
    rw [bracketed_zero] at h
    cases n with
    | zero => exact ⟨h.trans (bracketed_zero other), rfl⟩
    | succ n =>
      rw [h, bracketed_succ, hlast] at hname
      exact absurd rfl hname
  | succ depth ih =>
    cases n with
    | zero =>
      rw [bracketed_zero] at h
      rw [← h, bracketed_succ, hlast] at hother
      exact absurd rfl hother
    | succ n =>
      rw [bracketed_succ, bracketed_succ, String.append_left_inj] at h
      obtain ⟨hnames, hdepths⟩ := ih h
      exact ⟨hnames, congrArg Nat.succ hdepths⟩

theorem typeName_postgres_injective : Function.Injective (Profile.of .postgres).typeName := by
  intro p q h
  cases p <;> cases q <;> first | rfl | exact absurd h (by decide)

/-- The text of a type is the name of its innermost primitive and a pair of brackets for each array. -/
theorem exists_renderType_eq_bracketed (t : ColumnType) :
    ∃ name, (Profile.of .postgres).typeName t.base = some name ∧ name.toList.getLast? ≠ some ']' ∧
      ∀ fallback subject, renderType (.of .postgres) fallback subject t = .ok (bracketed name t.depth) := by
  induction t with
  | primitive p => cases p <;> exact ⟨_, rfl, by decide, fun _ _ ↦ rfl⟩
  | arrayOf element ih =>
    obtain ⟨name, hname, hlast, htext⟩ := ih
    refine ⟨name, hname, hlast, fun fallback subject ↦ ?_⟩
    change (renderType (.of .postgres) fallback subject element).map (· ++ "[]") = _
    rw [htext, ColumnType.depth, bracketed_succ]
    rfl

theorem renderType_postgres_inj {fallback : Bool} {subject : Subject} {s t : ColumnType}
    (h : renderType (.of .postgres) fallback subject s = renderType (.of .postgres) fallback subject t) :
    s = t := by
  obtain ⟨name, hname, hlast, htext⟩ := exists_renderType_eq_bracketed s
  obtain ⟨other, hother, hlast', htext'⟩ := exists_renderType_eq_bracketed t
  rw [htext, htext'] at h
  obtain ⟨rfl, hdepth⟩ := bracketed_inj hlast hlast' (Except.ok.inj h)
  exact ColumnType.eq_of_base_of_depth (typeName_postgres_injective (hname.trans hother.symm)) hdepth

/-- An array is written with a cast to the text of its type. -/
theorem exists_renderDefault_array {element : ColumnType} {value : Json} {type : String}
    (hform : Literal.Form (.arrayOf element) value) (htype : ∀ fallback subject,
      renderType (.of .postgres) fallback subject (.arrayOf element) = .ok type) (subject : Subject) :
    ∃ items, renderDefault (.of .postgres) subject (.arrayOf element) value =
      .ok ("ARRAY[" ++ items ++ "]::" ++ type) := by
  obtain ⟨body, hbody⟩ := exists_renderElement hform
  cases value with
  | array values =>
    have hliteral : renderDefault (.of .postgres) subject (.arrayOf element) (.array values) =
        .ok (body ++ "::" ++ type) := by
      have hnative : (Profile.of .postgres).nativeArrays = true := rfl
      rw [renderDefault, if_pos hnative, htype, hbody]
      · rfl
      · exact nofun
    rw [renderElement, bind_eq_ok_iff] at hbody
    obtain ⟨parts, -, hparts⟩ := hbody
    have hbrackets : "ARRAY[" ++ ", ".intercalate parts ++ "]" = body := Except.ok.inj hparts
    have hcast (text : String) : text ++ "]" ++ "::" = text ++ "]::" := String.append_assoc
    refine ⟨", ".intercalate parts, hliteral.trans (congrArg Except.ok ?_)⟩
    rw [← hbrackets, hcast]
  | _ => exact absurd hform id

/-- The clause of an array in a built entity. -/
theorem exists_defaultClause_array {v : Value} {e : Entity} {column : String × Column} {value : Json}
    {type : String} {g : Generator} (hprofile : g.profile = .of .postgres)
    (hbuild : Entity.build v = .ok e) (hmem : column ∈ e.columns) (harray : column.2.type.isArray = true)
    (hdefault : column.2.default = some value) (hnull : value ≠ .null)
    (htype : ∀ fallback subject, renderType (.of .postgres) fallback subject column.2.type = .ok type) :
    ∃ items, g.defaultClause e.name column.1 column.2 =
      .ok ["DEFAULT " ++ ("ARRAY[" ++ items ++ "]::" ++ type)] := by
  obtain ⟨_, spec, hspec⟩ := Validation.exists_build_of_mem hbuild hmem
  obtain ⟨-, hform⟩ := (ColumnSpecification.form_default hspec hdefault).resolve_left fun h ↦ hnull h.1
  cases hcolumn : column.2.type with
  | primitive p =>
    rw [hcolumn] at harray
    cases harray
  | arrayOf element =>
    have hnow : ¬(column.2.db.defaultNow = true ∧ column.2.type = .primitive .date) := by
      rw [hcolumn]
      exact fun h ↦ nomatch h.2
    rw [hcolumn] at hform htype
    obtain ⟨items, hliteral⟩ := exists_renderDefault_array hform htype ⟨some e.name, column.1⟩
    refine ⟨items, ?_⟩
    rw [Generator.defaultClause, if_neg hnow, hdefault, hprofile, hcolumn]
    simp only [hliteral]
    rfl

end Sql

namespace ColumnType

/-- A column type is parsed from a type that has been parsed before, from one of six names, or from a
dictionary with one entry whose value is parsed.  The type is recovered from its canonical form, and its
canonical form, its description, its node and its text in the dialect that has arrays each belong to no other
type.  The text is the name of the innermost primitive with a pair of brackets for each array, and an array
that is a default is cast to it. -/
theorem determined_by_representations :
    (∀ raw : Value, (∃ t, parse raw = .ok t) ↔ (∃ t, raw = .columnType t) ∨
      (∃ name ∈ ["string", "number", "integer", "boolean", "date", "json"], raw = .text name) ∨
      ∃ key ∈ ["arrayOf", "array_of"], ∃ v, raw = .dict [(.text key, v)] ∧ ∃ t, parse v = .ok t) ∧
    (∀ t : ColumnType, parse t.toJson.toValue = .ok t) ∧
    (∀ raw t, parse raw = .ok t → (parse t.toJson.toValue).map toJson = .ok t.toJson) ∧
    Function.Injective toJson ∧ Function.Injective describe ∧ Function.Injective Validation.Node.of ∧
    (∀ fallback subject s t, Sql.renderType (.of .postgres) fallback subject s =
      Sql.renderType (.of .postgres) fallback subject t → s = t) ∧
    ∀ t : ColumnType, ∃ name text, (Sql.Profile.of .postgres).typeName t.base = some name ∧
      text = Sql.bracketed name t.depth ∧
      (∀ fallback subject, Sql.renderType (.of .postgres) fallback subject t = .ok text) ∧
      ∀ (v : Value) (e : Entity) (column : String × Column) (value : Json) (g : Sql.Generator),
        Entity.build v = .ok e → column ∈ e.columns → column.2.type = t → t.isArray = true →
        column.2.default = some value → value ≠ .null → g.profile = .of .postgres →
        ∃ items, g.defaultClause e.name column.1 column.2 =
          .ok ["DEFAULT " ++ ("ARRAY[" ++ items ++ "]::" ++ text)] := by
  refine ⟨fun raw ↦ exists_parse_iff, parse_toJson, ?_, toJson_injective, describe_injective,
    Validation.node_of_injective, fun _ _ _ _ ↦ Sql.renderType_postgres_inj, fun t ↦ ?_⟩
  · intro raw t _
    rw [parse_toJson]
    rfl
  · obtain ⟨name, hname, -, htext⟩ := Sql.exists_renderType_eq_bracketed t
    refine ⟨name, _, hname, rfl, htext, ?_⟩
    rintro v e column value g hbuild hmem rfl harray hdefault hnull hprofile
    exact Sql.exists_defaultClause_array hprofile hbuild hmem harray hdefault hnull htext

/-- The description of a table whose column holds arrays of arrays. -/
def nestedTable : Value :=
  .ofFields [("name", .text "Book"), ("table", .bool true), ("columns", .ofFields [("grid",
    .ofFields [("type", .ofFields [("arrayOf", .ofFields [("array_of", .text "number")])]),
      ("default", .list [.list [.int 1]])])])]

theorem determined_by_representations_grid :
    let raw := Value.ofFields [("arrayOf", .ofFields [("array_of", .text "number")])]
    let t := arrayOf (arrayOf (.primitive .number))
    let g : Sql.Generator := {
      profile := .of .postgres, naming := .entity, schemaName := none, ifNotExists := true
      jsonArrayFallback := true, includeComments := false, indent := "  " }
    parse raw = .ok t ∧ (parse t.toJson.toValue).map toJson = .ok t.toJson ∧
      ∃ e column value items, Entity.build nestedTable = .ok e ∧ column ∈ e.columns ∧
        column.2.type = t ∧ column.2.default = some value ∧ value ≠ .null ∧
        g.defaultClause e.name column.1 column.2 =
          .ok ["DEFAULT " ++ ("ARRAY[" ++ items ++ "]::" ++ "DOUBLE PRECISION[][]")] := by
  intro raw t g
  obtain ⟨-, -, hstable, -, -, -, -, htexts⟩ := determined_by_representations
  have hparse : parse raw = .ok t := rfl
  obtain ⟨name, text, hname, rfl, -, hclause⟩ := htexts t
  obtain rfl : "DOUBLE PRECISION" = name := Option.some.inj hname
  have htext : Sql.bracketed "DOUBLE PRECISION" t.depth = "DOUBLE PRECISION[][]" := rfl
  obtain ⟨e, column, value, hbuild, hmem, htype, hdefault, hnull⟩ : ∃ e column value,
      Entity.build nestedTable = .ok e ∧ column ∈ e.columns ∧ column.2.type = t ∧
        column.2.default = some value ∧ value ≠ .null :=
    ⟨_, _, .array [.array [.int 1]], rfl, List.mem_cons_self, rfl, rfl, nofun⟩
  obtain ⟨items, hitems⟩ :=
    hclause nestedTable e column value g hbuild hmem htype rfl hdefault hnull rfl
  exact ⟨hparse, hstable raw t hparse, e, column, value, items, hbuild, hmem, htype, hdefault, hnull,
    htext ▸ hitems⟩

end ColumnType

end EntityCompiler

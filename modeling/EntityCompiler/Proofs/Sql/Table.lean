import EntityCompiler.Proofs.Json.Length
import EntityCompiler.Sql.Generator

/-!
# Tables and their columns

What the statement that creates a table consists of: the definitions of the stored columns in their
order, each with its clauses in a fixed order, and the clause of the primary key.
-/

namespace EntityCompiler.Sql

/-- Whether a definition has the clause `NOT NULL` directly after an identifier and a type. -/
def NotNullAfter (identifier type definition : String) : Prop :=
  ∃ clauses, definition = " ".intercalate (identifier :: type :: "NOT NULL" :: clauses)

/-- The characters of a definition are those of its identifier, its type and its clauses, with a blank
before each part but the first. -/
theorem toList_definition (identifier type : String) (clauses : List String) :
    (" ".intercalate (identifier :: type :: clauses)).toList =
      identifier.toList ++ (' ' :: type.toList ++ clauses.flatMap fun clause ↦ ' ' :: clause.toList) := by
  have hblank : " ".toList = [' '] := rfl
  rw [String.toList_intercalate, List.map_cons, Json.intercalate_cons, hblank, List.map_cons,
    List.flatMap_cons, List.flatMap_map]
  rfl

/-- A definition whose clauses all begin with another letter does not have `NOT NULL` after its type. -/
theorem not_notNullAfter {identifier type : String} {clauses : List String}
    (h : ∀ clause ∈ clauses, ∃ first rest, clause.toList = first :: rest ∧ first ≠ 'N') :
    ¬NotNullAfter identifier type (" ".intercalate (identifier :: type :: clauses)) := by
  rintro ⟨others, heq⟩
  have hchars := congrArg String.toList heq
  rw [toList_definition, toList_definition] at hchars
  have hclauses := List.append_cancel_left (List.append_cancel_left hchars)
  cases clauses with
  | nil => exact nomatch hclauses
  | cons clause clauses =>
    obtain ⟨first, rest, hclause, hfirst⟩ := h clause List.mem_cons_self
    rw [List.flatMap_cons, List.flatMap_cons, hclause] at hclauses
    exact hfirst (List.cons.inj (List.cons.inj hclauses).2).1

namespace Generator

variable {g : Generator} {e : Entity} {entity name definition text : String} {c : Column}

/-! ## Definitions of columns -/

/-- The clauses of a column after its type, when `default` has those of its default. -/
def clauses (g : Generator) (c : Column) (default : List String) : List String :=
  (if c.acceptsNull then [] else ["NOT NULL"]) ++ default ++
    (if c.db.unique && !c.db.primary then ["UNIQUE"] else []) ++ g.commentClause c

theorem columnDefinition_eq_ok_iff : g.columnDefinition entity name c = .ok definition ↔
    ∃ type default, renderType g.profile g.jsonArrayFallback ⟨some entity, name⟩ c.type = .ok type ∧
      g.defaultClause entity name c = .ok default ∧
      definition = " ".intercalate (g.profile.identifier name :: type :: g.clauses c default) := by
  simp only [columnDefinition, bind_eq_ok_iff, mapError_eq_ok_iff, pure, Except.pure,
    Except.ok.injEq, List.append_assoc, List.cons_append, List.nil_append, clauses]
  constructor
  · rintro ⟨type, htype, default, hdefault, rfl⟩
    exact ⟨type, default, htype, hdefault, rfl⟩
  · rintro ⟨type, default, htype, hdefault, rfl⟩
    exact ⟨type, htype, default, hdefault, rfl⟩

/-- A clause of a default has the current time or the literal of the default. -/
theorem mem_defaultClause {default : List String} (h : g.defaultClause entity name c = .ok default)
    {clause : String} (hmem : clause ∈ default) :
    ∃ literal, clause = "DEFAULT " ++ literal ∧ (literal = g.profile.currentTimestamp ∨
      ∃ value, renderDefault g.profile ⟨some entity, name⟩ c.type value = .ok literal) := by
  unfold defaultClause at h
  by_cases hnow : c.db.defaultNow = true ∧ c.type = .primitive .date
  · rw [if_pos hnow] at h
    obtain rfl := Except.ok.inj h
    exact ⟨_, List.mem_singleton.mp hmem, .inl rfl⟩
  · rw [if_neg hnow] at h
    cases hvalue : c.default with
    | none =>
      rw [hvalue] at h
      obtain rfl := Except.ok.inj h
      exact absurd hmem List.not_mem_nil
    | some value =>
      rw [hvalue] at h
      obtain ⟨literal, hliteral, rfl⟩ := map_eq_ok_iff.mp h
      exact ⟨literal, List.mem_singleton.mp hmem, .inr ⟨value, hliteral⟩⟩

theorem mem_commentClause {clause : String} (h : clause ∈ g.commentClause c) :
    ∃ comment, clause = "COMMENT " ++ quoteText comment := by
  unfold commentClause at h
  cases hdescription : c.description with
  | none => simp [hdescription] at h
  | some comment =>
    rw [hdescription] at h
    by_cases hincluded : g.includeComments = true
    · by_cases hinline : g.profile.inlineComments = true
      · refine ⟨comment, ?_⟩
        simpa [Comment.clause?, hincluded, hinline] using h
      · simp [Comment.clause?, hincluded, hinline] at h
    · simp [hincluded] at h

/-- A definition has `NOT NULL` directly after its type exactly when the column does not accept null. -/
theorem notNullAfter_columnDefinition_iff (h : g.columnDefinition entity name c = .ok definition) :
    ∃ type, renderType g.profile g.jsonArrayFallback ⟨some entity, name⟩ c.type = .ok type ∧
      (NotNullAfter (g.profile.identifier name) type definition ↔ c.acceptsNull = false) := by
  obtain ⟨type, default, htype, hdefault, rfl⟩ := columnDefinition_eq_ok_iff.mp h
  refine ⟨type, htype, ?_⟩
  cases haccepts : c.acceptsNull with
  | false =>
    refine iff_of_true ⟨default ++ ((if c.db.unique && !c.db.primary then ["UNIQUE"] else []) ++
      g.commentClause c), ?_⟩ rfl
    simp [clauses, haccepts]
  | true =>
    refine iff_of_false (not_notNullAfter fun clause hmem ↦ ?_) (by decide)
    simp only [clauses, haccepts, if_true, List.nil_append, List.mem_append] at hmem
    rcases hmem with (hmem | hmem) | hmem
    · obtain ⟨literal, rfl, -⟩ := mem_defaultClause hdefault hmem
      exact ⟨'D', _, String.toList_append, by decide⟩
    · have hunique : clause = "UNIQUE" := by
        by_cases hflags : (c.db.unique && !c.db.primary) = true
        · rw [if_pos hflags] at hmem
          exact List.mem_singleton.mp hmem
        · rw [if_neg hflags] at hmem
          exact absurd hmem List.not_mem_nil
      exact ⟨'U', _, congrArg String.toList hunique, by decide⟩
    · obtain ⟨comment, rfl⟩ := mem_commentClause hmem
      exact ⟨'C', _, String.toList_append, by decide⟩

/-! ## Statements -/

/-- The statement that creates the table of an entity, with given lines. -/
def tableText (g : Generator) (e : Entity) (lines : List String) : String :=
  (if g.ifNotExists then "CREATE TABLE IF NOT EXISTS " else "CREATE TABLE ") ++
    g.profile.tableReference (g.tableName e) g.schemaName ++ " (\n" ++
    ",\n".intercalate (lines.map (g.indent ++ ·)) ++ "\n);"

/-- There is a statement exactly for a table with stored columns that all have a definition; its lines
are these definitions and the clause of the primary key. -/
theorem tableStatement?_eq_ok_some_iff : g.tableStatement? e = .ok (some text) ↔
    e.table = true ∧ e.storedColumns ≠ [] ∧ ∃ definitions,
      List.Forall₂ (fun column definition ↦
        g.columnDefinition e.name column.1 column.2 = .ok definition) e.storedColumns definitions ∧
      text = g.tableText e (definitions ++ g.primaryKeyClause e.storedColumns) := by
  have hdefinitions (definitions : List String) :
      g.columnDefinitions e.name e.storedColumns = .ok definitions ↔
        List.Forall₂ (fun column definition ↦
          g.columnDefinition e.name column.1 column.2 = .ok definition) e.storedColumns definitions :=
    mapM_eq_ok_iff
  unfold tableStatement?
  by_cases hnone : (!e.table || e.storedColumns.isEmpty) = true
  · rw [if_pos hnone]
    refine iff_of_false nofun fun ⟨htable, hstored, _⟩ ↦ ?_
    simp [htable, hstored] at hnone
  · have htable : e.table = true ∧ e.storedColumns ≠ [] := by simpa using hnone
    rw [if_neg hnone]
    simp only [bind_eq_ok_iff, pure, Except.pure, Except.ok.injEq, Option.some.injEq, hdefinitions,
      htable, ne_eq, not_false_eq_true, true_and]
    exact exists_congr fun definitions ↦ and_congr_right fun _ ↦ eq_comm

theorem mem_primaryNames {columns : List (String × Column)} {name : String} :
    name ∈ primaryNames columns ↔ ∃ column ∈ columns, column.2.db.primary = true ∧ column.1 = name := by
  simp [primaryNames, and_assoc]

end Generator

end EntityCompiler.Sql

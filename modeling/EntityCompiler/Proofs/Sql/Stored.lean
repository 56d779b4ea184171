import EntityCompiler.Journal.Generation
import EntityCompiler.Proofs.Outcome

/-!
# What a database is told of an entity

The statements for an entity are made from its stored columns, and of each of them only from its
name, its type, its default, its storage flags and whether it accepts null, and from its description
where comments are written.  Entities that agree in this have the same statements or fail alike,
whatever other columns they have.
-/

namespace EntityCompiler

/-- Columns that are the same to a database.  Their descriptions count only where they are written
as comments. -/
structure Column.StoredAlike (commented : Bool) (c d : Column) : Prop where
  type : c.type = d.type
  acceptsNull : c.acceptsNull = d.acceptsNull
  default : c.default = d.default
  db : c.db = d.db
  description : commented = true → c.description = d.description

/-- Entities that are the same to a database.  Nothing is asked of columns that are not stored. -/
structure Entity.StoredAlike (commented : Bool) (e f : Entity) : Prop where
  name : e.name = f.name
  table : e.table = f.table
  columns : List.Forall₂ (fun c d ↦ c.1 = d.1 ∧ c.2.StoredAlike commented d.2) e.storedColumns
    f.storedColumns

namespace Sql.Generator

variable {g : Generator} {c d : Column} {columns others : List (String × Column)} {e f : Entity}

/-! ## Columns -/

theorem defaultClause_congr (htype : c.type = d.type) (hdefault : c.default = d.default)
    (hdb : c.db = d.db) (entity name : String) :
    g.defaultClause entity name c = g.defaultClause entity name d := by
  unfold defaultClause
  rw [htype, hdefault, hdb]

theorem commentClause_congr (h : g.includeComments = true → c.description = d.description) :
    g.commentClause c = g.commentClause d := by
  unfold commentClause
  by_cases hcomments : g.includeComments = true
  · rw [h hcomments]
  · cases c.description <;> cases d.description <;> simp [hcomments]

theorem columnDefinition_congr (h : c.StoredAlike g.includeComments d) (entity name : String) :
    g.columnDefinition entity name c = g.columnDefinition entity name d := by
  unfold columnDefinition
  rw [h.type, h.acceptsNull, h.db, defaultClause_congr h.type h.default h.db,
    commentClause_congr h.description]

theorem columnDefinitions_cons (entity : String) (column : String × Column)
    (columns : List (String × Column)) : g.columnDefinitions entity (column :: columns) =
      g.columnDefinition entity column.1 column.2 >>= fun first ↦
        g.columnDefinitions entity columns >>= fun rest ↦ .ok (first :: rest) := by
  rw [columnDefinitions, List.mapM_cons]
  rfl

theorem columnDefinitions_congr
    (h : List.Forall₂ (fun c d ↦ c.1 = d.1 ∧ c.2.StoredAlike g.includeComments d.2) columns others)
    (entity : String) : g.columnDefinitions entity columns = g.columnDefinitions entity others := by
  induction h with
  | nil => rfl
  | cons hcolumn _ ih =>
    rw [columnDefinitions_cons, columnDefinitions_cons, ih, hcolumn.1,
      columnDefinition_congr hcolumn.2]

/-! ## Statements -/

/-- Columns with the same names and storage flags give the same names to a statement that chooses by
flags. -/
theorem chosenNames_congr (chosen : StorageFlags → Bool)
    (h : List.Forall₂ (fun c d ↦ c.1 = d.1 ∧ c.2.db = d.2.db) columns others) :
    (columns.filter fun column ↦ chosen column.2.db).map (·.1) =
      (others.filter fun column ↦ chosen column.2.db).map (·.1) := by
  apply map_eq_of_forall₂
  have hchosen : List.Forall₂ (fun c d ↦ c.1 = d.1 ∧ c.2.db = d.2.db)
      (columns.filter fun column ↦ chosen column.2.db)
      (others.filter fun column ↦ chosen column.2.db) := by
    apply List.rel_filter _ h
    intro c d hcolumn
    exact iff_of_eq (congrArg (fun flags ↦ chosen flags = true) hcolumn.2)
  exact hchosen.imp fun c d hcolumn ↦ hcolumn.1

theorem primaryKeyClause_congr
    (h : List.Forall₂ (fun c d ↦ c.1 = d.1 ∧ c.2.db = d.2.db) columns others) :
    g.primaryKeyClause columns = g.primaryKeyClause others := by
  have hnames : primaryNames columns = primaryNames others := chosenNames_congr (·.primary) h
  unfold primaryKeyClause
  rw [hnames]

theorem indexStatements_congr (hname : e.name = f.name) (htable : e.table = f.table)
    (h : List.Forall₂ (fun c d ↦ c.1 = d.1 ∧ c.2.db = d.2.db) e.storedColumns f.storedColumns) :
    g.indexStatements e = g.indexStatements f := by
  have hnames (e : Entity) : g.indexStatements e =
      if e.table then
        ((e.storedColumns.filter fun column ↦ column.2.db.index && !column.2.db.primary).map
          (·.1)).map fun name ↦
            Index.statement g.profile (g.tableName e) [name] none g.schemaName false
      else [] := by
    rw [List.map_map]
    rfl
  rw [hnames, hnames, htable, chosenNames_congr (fun flags ↦ flags.index && !flags.primary) h,
    tableName, tableName, hname]

theorem commentStatements_congr (hname : e.name = f.name) (htable : e.table = f.table)
    (h : g.includeComments = true → List.Forall₂
      (fun c d ↦ c.1 = d.1 ∧ c.2.description = d.2.description) e.storedColumns f.storedColumns) :
    g.commentStatements e = g.commentStatements f := by
  unfold commentStatements tableName
  by_cases hcomments : g.includeComments = true
  · have hshown : e.storedColumns.map (fun column ↦ (column.1, column.2.description)) =
        f.storedColumns.map fun column ↦ (column.1, column.2.description) := by
      apply map_eq_of_forall₂
      exact (h hcomments).imp fun c d hcolumn ↦ Prod.ext hcolumn.1 hcolumn.2
    have hstatements := congrArg (List.filterMap fun shown ↦ shown.2.bind fun text ↦
      Comment.statement? g.profile (g.naming.tableName f.name) shown.1 text g.schemaName) hshown
    rw [List.filterMap_map, List.filterMap_map] at hstatements
    rw [hname, htable]
    exact congrArg (fun statements ↦ if f.table && g.includeComments then statements else [])
      hstatements
  · simp [hcomments]

section StoredAlike

variable (h : e.StoredAlike g.includeComments f)
include h

theorem forall₂_db_of_storedAlike : List.Forall₂ (fun c d ↦ c.1 = d.1 ∧ c.2.db = d.2.db)
    e.storedColumns f.storedColumns :=
  h.columns.imp fun _ _ hcolumn ↦ ⟨hcolumn.1, hcolumn.2.db⟩

theorem indexStatements_of_storedAlike : g.indexStatements e = g.indexStatements f :=
  indexStatements_congr h.name h.table (forall₂_db_of_storedAlike h)

theorem commentStatements_of_storedAlike : g.commentStatements e = g.commentStatements f :=
  commentStatements_congr h.name h.table fun hcomments ↦
    h.columns.imp fun _ _ hcolumn ↦ ⟨hcolumn.1, hcolumn.2.description hcomments⟩

theorem tableStatement?_of_storedAlike : g.tableStatement? e = g.tableStatement? f := by
  have hempty : e.storedColumns.isEmpty = f.storedColumns.isEmpty := by
    rw [Bool.eq_iff_iff, List.isEmpty_iff_length_eq_zero, List.isEmpty_iff_length_eq_zero,
      h.columns.length_eq]
  unfold tableStatement? tableName
  rw [h.name, h.table, hempty, columnDefinitions_congr h.columns,
    primaryKeyClause_congr (forall₂_db_of_storedAlike h)]

theorem statements_of_storedAlike : g.statements e = g.statements f := by
  unfold statements
  rw [tableStatement?_of_storedAlike h, indexStatements_of_storedAlike h,
    commentStatements_of_storedAlike h]

theorem render_of_storedAlike : g.render e = g.render f := by
  unfold render
  rw [h.name, h.table, statements_of_storedAlike h]

end StoredAlike

/-- Entities that are the same to a database have the same statements, the same text and the same
records of it, or fail alike, under every generator.  Which columns are not stored, what these are
and where they stand makes no difference, and neither does what a stored column shows elsewhere. -/
theorem unstored_unseen (g : Generator) {e f : Entity} (h : e.StoredAlike g.includeComments f) :
    g.tableStatement? e = g.tableStatement? f ∧ g.indexStatements e = g.indexStatements f ∧
      g.commentStatements e = g.commentStatements f ∧ g.render e = g.render f ∧
      Recorded.render g e = Recorded.render g f := by
  have hrender := render_of_storedAlike h
  have hrecords : Recorded.render g e = Recorded.render g f := by
    unfold Recorded.render
    rw [hrender, statements_of_storedAlike h, h.name, h.table]
  exact ⟨tableStatement?_of_storedAlike h, indexStatements_of_storedAlike h,
    commentStatements_of_storedAlike h, hrender, hrecords⟩

/-! ## A column beside one that is not stored -/

/-- The description of a table with one column, which may be absent. -/
def plainTable : Value :=
  .ofFields [("name", .text "Book"), ("table", .bool true), ("columns", .ofFields
    [("title", .ofFields [("type", .text "string"), ("optional", .bool true)])])]

/-- The description of a table with one stored column, which is secret and may be null, after a
primary and indexed column of an array type that is not stored. -/
def taggedTable : Value :=
  .ofFields [("name", .text "Book"), ("table", .bool true), ("columns", .ofFields
    [("tags", .ofFields [("type", .ofFields [("arrayOf", .text "string")]), ("stored", .bool false),
      ("description", .text "Labels"),
      ("db", .ofFields [("primary", .bool true), ("index", .bool true)])]),
    ("title", .ofFields [("type", .text "string"), ("nullable", .bool true),
      ("visibility", .text "secret"), ("example", .text "Dune")])])]

/-- What `plainTable` describes. -/
def plainTableSpecification : Specification where
  name := "Book"
  table := true
  columns := [("title", { type := .text "string", optional := true })]

/-- What `taggedTable` describes. -/
def taggedTableSpecification : Specification where
  name := "Book"
  table := true
  columns :=
    [("tags",
      { type := .ofFields [("arrayOf", .text "string")]
        stored := false
        description := some "Labels"
        db := { primary := true, index := true } }),
    ("title",
      { type := .text "string"
        nullable := true
        visibility := .isSecret
        sample := some (.text "Dune") })]

/-- The entity that `plainTable` describes. -/
def plainTableEntity : Entity :=
  plainTableSpecification.freeze [("title", { type := .primitive .string, optional := true })]

/-- The entity that `taggedTable` describes. -/
def taggedTableEntity : Entity :=
  taggedTableSpecification.freeze
    [("tags",
      { type := .arrayOf (.primitive .string)
        stored := false
        description := some "Labels"
        db := { primary := true, index := true } }),
    ("title",
      { type := .primitive .string
        nullable := true
        visibility := .isSecret
        sample := some (.text "Dune") })]

theorem build_plainTable : Entity.build plainTable = .ok plainTableEntity := by
  rfl

theorem build_taggedTable : Entity.build taggedTable = .ok taggedTableEntity := by
  rfl

theorem unstored_unseen_tagged :
    ∃ g text, resolve { jsonArrayFallback := false } (some (.text "mysql")) none = .ok g ∧
      Entity.build plainTable = .ok plainTableEntity ∧
      Entity.build taggedTable = .ok taggedTableEntity ∧
      plainTableEntity.StoredAlike g.includeComments taggedTableEntity ∧
      plainTableEntity.columnNames ≠ taggedTableEntity.columnNames ∧
      g.render plainTableEntity = .ok text ∧ g.render taggedTableEntity = .ok text := by
  have hstored : plainTableEntity.StoredAlike false taggedTableEntity :=
    ⟨rfl, rfl, .cons ⟨rfl, rfl, rfl, rfl, rfl, nofun⟩ .nil⟩
  have hnames : plainTableEntity.columnNames ≠ taggedTableEntity.columnNames := by
    decide
  obtain ⟨g, text, hg, hcomments, htext⟩ : ∃ g text,
      resolve { jsonArrayFallback := false } (some (.text "mysql")) none = .ok g ∧
        g.includeComments = false ∧ g.render plainTableEntity = .ok text :=
    ⟨_, _, rfl, rfl, rfl⟩
  rw [← hcomments] at hstored
  have hsame := (unstored_unseen g hstored).2.2.2.1
  exact ⟨g, text, hg, build_plainTable, build_taggedTable, hstored, hnames, htext, hsame ▸ htext⟩

end Sql.Generator

end EntityCompiler

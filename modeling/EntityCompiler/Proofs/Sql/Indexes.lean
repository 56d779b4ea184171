import EntityCompiler.Proofs.Sql.Entries
import EntityCompiler.Proofs.Sql.Outline

/-!
# Indexes and their names

The name of an index joins the snake-case forms of its table and its column, where the separator also stands
between the words of each form.  Names are global, and a database skips the statement for an index whose name
exists already, so that indexes are lost where two columns have the same words.
-/

namespace EntityCompiler

/-- The columns of an entity that an index is asked for. -/
def Entity.indexedColumns (e : Entity) : List (String × Column) :=
  if e.table then e.storedColumns.filter fun column ↦ column.2.db.index && !column.2.db.primary
  else []

theorem Entity.nodup_indexedColumns {e : Entity} (h : e.columnNames.Nodup) :
    (e.indexedColumns.map (·.1)).Nodup := by
  unfold indexedColumns
  split_ifs
  · exact h.sublist ((List.filter_sublist.trans List.filter_sublist).map _)
  · exact .nil

namespace Sql

/-! ## Databases -/

/-- An index of a database.  Its table is given with the schema, if that is named. -/
structure IndexEntry where
  name : String
  table : List String
  column : String
deriving DecidableEq, Repr

/-- The index that the identifiers in a statement tell. -/
def IndexEntry.ofNames? : List String → Option IndexEntry
  | [] => none
  | name :: rest => rest.getLast?.map fun column ↦ ⟨name, rest.dropLast, column⟩

/-- The index that a statement creates, if it creates one. -/
def readIndex? (statement : String) : Option IndexEntry :=
  if "CREATE INDEX ".toList.isPrefixOf statement.toList then
    (scan statement).bind fun tokens ↦ IndexEntry.ofNames? (quotedNames tokens)
  else none

/-- The indexes of a database after one more is asked for.  A name that exists is skipped. -/
def createIndex (existing : List IndexEntry) (entry : IndexEntry) : List IndexEntry :=
  if existing.any (·.name = entry.name) then existing else existing ++ [entry]

/-- The indexes of a new database after all statements have been executed in their order. -/
def execute (statements : List String) : List IndexEntry :=
  (statements.filterMap readIndex?).foldl createIndex []

section Execution

variable {entries : List IndexEntry} {entry : IndexEntry}

theorem createIndex_eq_keepNew : createIndex = keepNew IndexEntry.name := rfl

theorem mem_of_mem_foldl_createIndex {existing : List IndexEntry}
    (h : entry ∈ entries.foldl createIndex existing) : entry ∈ existing ∨ entry ∈ entries :=
  mem_of_mem_foldl_keepNew (createIndex_eq_keepNew ▸ h)

/-- All of several different indexes exist after the execution exactly when their names are different. -/
theorem subset_foldl_createIndex_iff (h : entries.Nodup) :
    (∀ entry ∈ entries, entry ∈ entries.foldl createIndex []) ↔ (entries.map (·.name)).Nodup := by
  rw [createIndex_eq_keepNew]
  constructor
  · intro hall
    have hnames : ((entries.foldl (keepNew IndexEntry.name) []).map (·.name)).Nodup :=
      nodup_foldl_keepNew List.nodup_nil
    exact h.map_on fun x hx y hy hname ↦
      List.inj_on_of_nodup_map hnames (hall x hx) (hall y hy) hname
  · intro hnames entry hentry
    rwa [foldl_keepNew_of_nodup (by simpa using hnames), List.nil_append]

end Execution

/-! ## Names -/

/-- The words of the snake-case form of a name. -/
def nameWords (name : String) : List (List Char) :=
  (Text.snakeCase name).toList.splitOn '_'

/-- The words of a table, followed by those of a column. -/
def indexWords (table column : String) : List (List Char) :=
  nameWords table ++ nameWords column

theorem splitOn_append (before after : List Char) :
    (before ++ '_' :: after).splitOn '_' = before.splitOn '_' ++ after.splitOn '_' :=
  List.splitOnP_append_cons before after rfl

theorem splitOn_injective {s t : List Char} (h : s.splitOn '_' = t.splitOn '_') : s = t := by
  calc s = ['_'].intercalate (s.splitOn '_') := (List.intercalate_splitOn '_').symm
    _ = ['_'].intercalate (t.splitOn '_') := by rw [h]
    _ = t := List.intercalate_splitOn '_'

/-- The words of all columns that an index is asked for. -/
def indexedWords (es : List Entity) : List (List (List Char)) :=
  es.flatMap fun e ↦ e.indexedColumns.map fun column ↦ indexWords e.name column.1

/-- Two indexes have the same name exactly when the words of their tables and columns are the same. -/
theorem defaultName_eq_iff {table column table' column' : String} :
    Index.defaultName table [column] false = Index.defaultName table' [column'] false ↔
      indexWords table column = indexWords table' column' := by
  have hchars (table column : String) : (Index.defaultName table [column] false).toList =
      "idx_".toList ++ ((Text.snakeCase table).toList ++ '_' :: (Text.snakeCase column).toList) := by
    rw [Index.defaultName, List.map_singleton, String.intercalate_singleton]
    simp only [Bool.false_eq_true, if_false, String.toList_append, List.append_assoc]
    rfl
  rw [← String.toList_inj, hchars, hchars, List.append_cancel_left_eq, indexWords, indexWords,
    nameWords, nameWords, nameWords, nameWords, ← splitOn_append, ← splitOn_append]
  exact ⟨congrArg (List.splitOn '_'), splitOn_injective⟩

/-! ## Statements -/

namespace Generator

variable {g : Generator} {d : Dialect} {e : Entity}

/-- The index of a column. -/
def indexEntry (g : Generator) (e : Entity) (column : String) : IndexEntry where
  name := Index.defaultName (g.tableName e) [column] false
  table := qualifiedName g.profile (g.tableName e) g.schemaName
  column := column

/-- The indexes that are asked for in several entities. -/
def indexEntries (g : Generator) (es : List Entity) : List IndexEntry :=
  es.flatMap fun e ↦ e.indexedColumns.map fun column ↦ g.indexEntry e column.1

theorem mem_indexEntries_iff {es : List Entity} {entry : IndexEntry} : entry ∈ g.indexEntries es ↔
    ∃ e ∈ es, ∃ column ∈ e.indexedColumns, g.indexEntry e column.1 = entry := by
  simp [indexEntries]

theorem readIndex?_statement (hprofile : g.profile = .of d)
    (hdialect : d = .postgres ∨ d = .sqlite) (e : Entity) (column : String) :
    readIndex? (Index.statement g.profile (g.tableName e) [column] none g.schemaName false) =
      some (g.indexEntry e column) := by
  obtain ⟨reference, hreference, -, hspell, hnames⟩ :=
    exists_referenceTokens hprofile hdialect (g.tableName e) g.schemaName
  have hskips : g.profile.indexIfNotExists = true := by
    rw [hprofile]
    rcases hdialect with rfl | rfl <;> rfl
  have hname := spelling_nameToken hprofile hdialect
  generalize htext : Index.statement g.profile (g.tableName e) [column] none g.schemaName false = text
  have hbrackets : Neat false (.char '(' :: ([nameToken column] ++ .char ')' :: unquoted ";")) :=
    .bracket rfl (neat_nameToken column) (.plain rfl .nil)
  have htarget : Neat false (unquoted "ON " ++ (reference ++ .char ' ' :: .char '(' ::
      ([nameToken column] ++ .char ')' :: unquoted ";"))) :=
    (hreference.append (.plain rfl hbrackets)).plain_append (by decide)
  have hneat : Neat false (unquoted "CREATE INDEX IF NOT EXISTS " ++
      ([nameToken (g.indexEntry e column).name] ++ .char ' ' :: (unquoted "ON " ++ (reference ++
        .char ' ' :: .char '(' :: ([nameToken column] ++ .char ')' :: unquoted ";"))))) :=
    ((neat_nameToken _).append (.plain rfl htarget)).plain_append (by decide)
  have hchars : text.toList = "CREATE INDEX IF NOT EXISTS ".toList ++
      ((g.profile.identifier (g.indexEntry e column).name).toList ++ (" ON ".toList ++
        ((g.profile.tableReference (g.tableName e) g.schemaName).toList ++ (" (".toList ++
          ((g.profile.identifier column).toList ++ ");".toList))))) := by
    rw [← htext, Index.statement, hskips]
    simp only [Bool.false_eq_true, if_false, if_true, Option.filter_none, Option.getD_none,
      Profile.identifiers, List.map_singleton, String.intercalate_singleton, String.toList_append,
      List.append_assoc, indexEntry]
    rfl
  have hscan : scan text = some _ := scan_eq_some_of_neat hneat (by
    rw [hchars]
    simp [spell_append, hspell, hname])
  have hbegins : "CREATE INDEX ".toList.isPrefixOf text.toList = true := by
    rw [hchars]
    rfl
  rw [readIndex?, if_pos hbegins, hscan, Option.bind_some]
  simp [hnames, IndexEntry.ofNames?, indexEntry]

/-- Of two beginnings of one text, the shorter one begins the longer one. -/
theorem not_isPrefix_of_isPrefix {text first opening : List Char} (htext : first <+: text)
    (hlength : first.length ≤ opening.length) (hfirst : first.isPrefixOf opening = false) :
    ¬opening <+: text := by
  intro hopening
  have hwithin : first <+: opening := List.prefix_of_prefix_length_le htext hopening hlength
  rw [List.isPrefixOf_iff_prefix.mpr hwithin] at hfirst
  cases hfirst

/-- A statement that begins otherwise creates no index. -/
theorem readIndex?_eq_none {text first : String} (htext : first.toList <+: text.toList)
    (hlength : first.toList.length ≤ 13)
    (hfirst : first.toList.isPrefixOf "CREATE INDEX ".toList = false) : readIndex? text = none := by
  have hother : ¬"CREATE INDEX ".toList <+: text.toList :=
    not_isPrefix_of_isPrefix htext hlength hfirst
  exact if_neg fun hindex ↦ hother (List.isPrefixOf_iff_prefix.mp hindex)

theorem readIndex?_tableText (lines : List String) : readIndex? (g.tableText e lines) = none := by
  have htext : "CREATE T".toList <+: (g.tableText e lines).toList := by
    unfold tableText
    split_ifs <;> simp only [String.toList_append, List.append_assoc] <;> exact ⟨_, rfl⟩
  exact readIndex?_eq_none htext (by decide) (by decide)

theorem isPrefix_of_mem_commentStatements {text : String} (h : text ∈ g.commentStatements e) :
    "CO".toList <+: text.toList := by
  unfold commentStatements at h
  split_ifs at h
  · obtain ⟨column, -, hcomment⟩ := List.mem_filterMap.mp h
    obtain ⟨comment, -, hstatement⟩ := Option.bind_eq_some_iff.mp hcomment
    unfold Comment.statement? at hstatement
    split_ifs at hstatement
    rw [← Option.some.inj hstatement]
    simp only [String.toList_append, List.append_assoc]
    exact ⟨_, rfl⟩
  · exact absurd h List.not_mem_nil

theorem readIndex?_of_mem_commentStatements {text : String} (h : text ∈ g.commentStatements e) :
    readIndex? text = none :=
  readIndex?_eq_none (isPrefix_of_mem_commentStatements h) (by decide) (by decide)

theorem isPrefix_of_mem_schemaStatements {text : String} (h : text ∈ g.schemaStatements) :
    "CREATE S".toList <+: text.toList := by
  unfold schemaStatements at h
  cases hschema : g.schemaName with
  | none => simp [hschema] at h
  | some schema =>
    simp only [hschema] at h
    split_ifs at h
    · exact absurd h List.not_mem_nil
    · rw [Option.mem_toList, createSchema?] at h
      split_ifs at h
      rw [← Option.some.inj h]
      simp only [String.toList_append, List.append_assoc]
      exact ⟨_, rfl⟩

theorem readIndex?_of_mem_schemaStatements {text : String} (h : text ∈ g.schemaStatements) :
    readIndex? text = none :=
  readIndex?_eq_none (isPrefix_of_mem_schemaStatements h) (by decide) (by decide)

theorem indexStatements_eq : g.indexStatements e = e.indexedColumns.map fun column ↦
    Index.statement g.profile (g.tableName e) [column.1] none g.schemaName false := by
  unfold indexStatements Entity.indexedColumns
  split_ifs <;> rfl

theorem indexedColumns_of_tableStatement (h : g.tableStatement? e = .ok none) :
    e.indexedColumns = [] := by
  unfold tableStatement? at h
  by_cases hnone : (!e.table || e.storedColumns.isEmpty) = true
  · unfold Entity.indexedColumns
    split_ifs with htable
    · have hstored : e.storedColumns = [] := by simpa [htable] using hnone
      rw [hstored, List.filter_nil]
    · rfl
  · rw [if_neg hnone] at h
    obtain ⟨definitions, -, htext⟩ := bind_eq_ok_iff.mp h
    exact nomatch htext

/-- Among the statements for an entity, those that create indexes create one for each column that an index
is asked for. -/
theorem readIndexes_statements (hprofile : g.profile = .of d)
    (hdialect : d = .postgres ∨ d = .sqlite) {statements : List String}
    (h : g.statements e = .ok statements) :
    statements.filterMap readIndex? = e.indexedColumns.map fun column ↦ g.indexEntry e column.1 := by
  obtain ⟨table, htable, hstatements⟩ := bind_eq_ok_iff.mp h
  cases table with
  | none =>
    rw [← Except.ok.inj hstatements, indexedColumns_of_tableStatement htable]
    rfl
  | some text =>
    obtain ⟨-, -, definitions, -, rfl⟩ := tableStatement?_eq_ok_some_iff.mp htable
    have hcomments : (g.commentStatements e).filterMap readIndex? = [] :=
      List.filterMap_eq_nil_iff.mpr fun _ hmem ↦ readIndex?_of_mem_commentStatements hmem
    rw [← Except.ok.inj hstatements, List.filterMap_cons, readIndex?_tableText, List.filterMap_append,
      hcomments, List.append_nil, indexStatements_eq, List.filterMap_map]
    simp only [Function.comp_def, readIndex?_statement hprofile hdialect, List.filterMap_eq_map']

theorem readIndexes_renderAll (hprofile : g.profile = .of d)
    (hdialect : d = .postgres ∨ d = .sqlite) {es : List Entity} {statements : List String}
    (h : g.renderAll es = .ok statements) : statements.filterMap readIndex? = g.indexEntries es := by
  obtain ⟨parts, hparts, hstatements⟩ := bind_eq_ok_iff.mp h
  have hschema : g.schemaStatements.filterMap readIndex? = [] :=
    List.filterMap_eq_nil_iff.mpr fun _ hmem ↦ readIndex?_of_mem_schemaStatements hmem
  rw [← Except.ok.inj hstatements, List.filterMap_append, hschema, List.nil_append]
  have hall := mapM_eq_ok_iff.mp hparts
  clear hparts hstatements h
  induction hall with
  | nil => rfl
  | cons hpart _ ih =>
    rw [List.flatten_cons, List.filterMap_append, ih, readIndexes_statements hprofile hdialect hpart,
      indexEntries, indexEntries, List.flatMap_cons]

theorem exists_renderAll_of_rendersIn (hprofile : g.profile = .of d) (hfallback : g.jsonArrayFallback = true)
    {es : List Entity} (hbuilt : ∀ e ∈ es, ∃ v, Entity.build v = .ok e)
    (hrenders : ∀ e ∈ es, e.RendersIn d) : ∃ statements, g.renderAll es = .ok statements := by
  have hall : ∀ e ∈ es, ∃ part, g.statements e = .ok part := by
    intro e he
    obtain ⟨v, hv⟩ := hbuilt e he
    exact (statements_failsWith hprofile hfallback hv).success
      (Entity.renderFailure?_eq_none_iff.mpr (hrenders e he))
  obtain ⟨parts, hparts⟩ := exists_forall₂_iff.mpr hall
  refine ⟨g.schemaStatements ++ parts.flatten, ?_⟩
  rw [renderAll, mapM_eq_ok_iff.mpr hparts]
  rfl

theorem exists_renderAll (hprofile : g.profile = .of d) (hdialect : d = .postgres ∨ d = .sqlite)
    (hfallback : g.jsonArrayFallback = true) {es : List Entity}
    (hbuilt : ∀ e ∈ es, ∃ v, Entity.build v = .ok e) : ∃ statements, g.renderAll es = .ok statements := by
  have hmoves : d ≠ .mysql := by
    rcases hdialect with rfl | rfl <;> decide
  exact exists_renderAll_of_rendersIn hprofile hfallback hbuilt fun _ _ hmysql ↦ absurd hmysql hmoves

theorem getLast?_qualifiedName (p : Profile) (table : String) (schema : Option String) :
    (qualifiedName p table schema).getLast? = some table := by
  unfold qualifiedName
  split
  · split_ifs <;> rfl
  · rfl

theorem tableName_of_entity (hnaming : g.naming = .entity) (e : Entity) : g.tableName e = e.name := by
  rw [tableName, hnaming]
  rfl

theorem indexEntry_table_inj (hnaming : g.naming = .entity) {e f : Entity} {column other : String}
    (h : (g.indexEntry e column).table = (g.indexEntry f other).table) : e.name = f.name := by
  have hlast := congrArg List.getLast? h
  simp only [indexEntry, getLast?_qualifiedName, Option.some.injEq] at hlast
  rwa [tableName_of_entity hnaming, tableName_of_entity hnaming] at hlast

/-- Different columns ask for different indexes. -/
theorem nodup_indexEntries {es : List Entity} (hnaming : g.naming = .entity)
    (hnames : (es.map (·.name)).Nodup) (hcolumns : ∀ e ∈ es, e.columnNames.Nodup) :
    (g.indexEntries es).Nodup := by
  rw [indexEntries, List.nodup_flatMap]
  refine ⟨fun e he ↦ ?_, (List.pairwise_map.mp hnames).imp fun {e f} hname entry hleft hright ↦ ?_⟩
  · have hkeys := Entity.nodup_indexedColumns (hcolumns e he)
    exact List.Nodup.of_map IndexEntry.column (by rwa [List.map_map])
  · obtain ⟨column, -, rfl⟩ := List.mem_map.mp hleft
    obtain ⟨other, -, hsame⟩ := List.mem_map.mp hright
    exact hname (indexEntry_table_inj hnaming (congrArg IndexEntry.table hsame)).symm

/-- The names of indexes are different exactly when the words of their columns are. -/
theorem nodup_indexNames_iff {es : List Entity} (hnaming : g.naming = .entity) :
    ((g.indexEntries es).map (·.name)).Nodup ↔ (indexedWords es).Nodup := by
  have hnames : (g.indexEntries es).map (·.name) =
      (es.flatMap fun e ↦ e.indexedColumns.map fun column ↦ (e.name, column.1)).map
        fun pair ↦ Index.defaultName pair.1 [pair.2] false := by
    simp only [indexEntries, indexEntry, tableName_of_entity hnaming, List.map_flatMap, List.map_map,
      Function.comp_def]
  have hwords : indexedWords es =
      (es.flatMap fun e ↦ e.indexedColumns.map fun column ↦ (e.name, column.1)).map
        fun pair ↦ indexWords pair.1 pair.2 := by
    simp only [indexedWords, List.map_flatMap, List.map_map, Function.comp_def]
  -- Both lists are images of the pairs of table and column under maps that identify the same pairs.
  rw [hnames, hwords, List.Nodup, List.Nodup, List.pairwise_map, List.pairwise_map]
  simp only [ne_eq, defaultName_eq_iff]

/-- Every column gets the index that is asked for exactly when all these indexes are there in the end. -/
theorem kept_iff {es : List Entity} (hnaming : g.naming = .entity) (hnames : (es.map (·.name)).Nodup)
    {existing : List IndexEntry} (hexisting : ∀ entry ∈ existing, entry ∈ g.indexEntries es) :
    (∀ e ∈ es, ∀ column ∈ e.indexedColumns, ∃ entry ∈ existing,
      entry.table = qualifiedName g.profile e.name g.schemaName ∧ entry.column = column.1) ↔
    ∀ entry ∈ g.indexEntries es, entry ∈ existing := by
  have htable (e : Entity) (column : String) :
      (g.indexEntry e column).table = qualifiedName g.profile e.name g.schemaName := by
    rw [indexEntry, tableName_of_entity hnaming]
  constructor
  · intro hall entry hentry
    obtain ⟨e, he, column, hcolumn, rfl⟩ := mem_indexEntries_iff.mp hentry
    obtain ⟨found, hfound, hplace, hname⟩ := hall e he column hcolumn
    obtain ⟨f, hf, other, -, rfl⟩ := mem_indexEntries_iff.mp (hexisting found hfound)
    have hsame : f = e := List.inj_on_of_nodup_map hnames hf he
      (indexEntry_table_inj hnaming (hplace.trans (htable e column.1).symm))
    have hlabel : other.1 = column.1 := hname
    rwa [hsame, hlabel] at hfound
  · intro hall e he column hcolumn
    exact ⟨_, hall _ (mem_indexEntries_iff.mpr ⟨e, he, column, hcolumn, rfl⟩), htable e column.1, rfl⟩

/-- In a dialect where the names of indexes are global, each column that an index is asked for gets its own
exactly when no two of these columns have the same words: those of the table, followed by those of the column.
The statements ask for one index for each column, in their order, and the same condition makes their names
different. -/
theorem indexes_kept_iff {es : List Entity} (hbuilt : ∀ e ∈ es, ∃ v, Entity.build v = .ok e)
    (hcolumns : ∀ e ∈ es, e.columnNames.Nodup) (hnames : (es.map (·.name)).Nodup)
    (hprofile : g.profile = .of d) (hdialect : d = .postgres ∨ d = .sqlite)
    (hnaming : g.naming = .entity) :
    (g.jsonArrayFallback = true → ∃ statements, g.renderAll es = .ok statements) ∧
    ∀ statements, g.renderAll es = .ok statements →
      statements.filterMap readIndex? = g.indexEntries es ∧
      (((statements.filterMap readIndex?).map (·.name)).Nodup ↔ (indexedWords es).Nodup) ∧
      ((∀ e ∈ es, ∀ column ∈ e.indexedColumns, ∃ entry ∈ execute statements,
          entry.table = qualifiedName g.profile e.name g.schemaName ∧ entry.column = column.1) ↔
        (indexedWords es).Nodup) := by
  refine ⟨fun hfallback ↦ exists_renderAll hprofile hdialect hfallback hbuilt,
    fun statements hstatements ↦ ?_⟩
  have hread := readIndexes_renderAll hprofile hdialect hstatements
  have hdistinct := nodup_indexEntries (g := g) hnaming hnames hcolumns
  have hasked : ∀ entry ∈ (g.indexEntries es).foldl createIndex [], entry ∈ g.indexEntries es :=
    fun entry hentry ↦ (mem_of_mem_foldl_createIndex hentry).resolve_left List.not_mem_nil
  refine ⟨hread, by rw [hread, nodup_indexNames_iff hnaming], ?_⟩
  rw [execute, hread, kept_iff hnaming hnames hasked, subset_foldl_createIndex_iff hdistinct,
    nodup_indexNames_iff hnaming]

/-! ### Tables with one index -/

/-- The description of a table with one column that an index is asked for. -/
def indexedTable (name column : String) : Value :=
  .ofFields [("name", .text name), ("table", .bool true), ("columns", .ofFields [(column, .ofFields
    [("type", .text "string"), ("db", .ofFields [("index", .bool true)])])])]

/-- What `indexedTable` describes. -/
def indexedSpecification (name column : String) : Specification where
  name := name
  table := true
  columns := [(column, { type := .text "string", db := { index := true } })]

/-- The entity that `indexedTable` describes. -/
def indexedEntity (name column : String) : Entity :=
  (indexedSpecification name column).freeze
    [(column, { type := .primitive .string, db := { index := true } })]

theorem build_indexedTable {name column : String}
    (hread : Specification.read (indexedTable name column) = .ok (indexedSpecification name column))
    (hname : Naming.isPascalCase name = true) (hcolumn : Naming.isColumnName column = true) :
    Entity.build (indexedTable name column) = .ok (indexedEntity name column) := by
  have hbuilt : ColumnSpecification.build name column
      { type := .text "string", db := { index := true } } =
      .ok { type := .primitive .string, db := { index := true } } :=
    ColumnSpecification.build_eq_ok_iff.mpr ⟨hcolumn, rfl, rfl, rfl, rfl, rfl⟩
  refine Entity.build_eq_ok_iff.mpr ⟨_, hread, Specification.build_eq_ok_iff.mpr
    ⟨hname, List.cons_ne_nil _ _, ?_, rfl, rfl⟩⟩
  exact Specification.buildColumns_eq_ok_iff.mpr (.cons ⟨rfl, hbuilt⟩ .nil)

theorem indexes_kept_iff_separate :
    let es := [indexedEntity "User" "email", indexedEntity "UserRole" "id"]
    let g : Generator := {
      profile := .of .sqlite, naming := .entity, schemaName := none, ifNotExists := true
      jsonArrayFallback := true, includeComments := false, indent := "  " }
    (∀ e ∈ es, ∃ v, Entity.build v = .ok e) ∧ (∀ e ∈ es, e.columnNames.Nodup) ∧
      (es.map (·.name)).Nodup ∧ g.profile = .of .sqlite ∧ g.naming = .entity ∧
      ∃ statements, g.renderAll es = .ok statements ∧
        ∃ entry ∈ execute statements, entry.table = ["UserRole"] ∧ entry.column = "id" := by
  intro es g
  have hbuilt : ∀ e ∈ es, ∃ v, Entity.build v = .ok e :=
    List.forall_mem_cons.mpr ⟨⟨_, build_indexedTable rfl (by decide) (by decide)⟩,
      List.forall_mem_singleton.mpr ⟨_, build_indexedTable rfl (by decide) (by decide)⟩⟩
  have hcolumns : ∀ e ∈ es, e.columnNames.Nodup :=
    List.forall_mem_cons.mpr ⟨List.nodup_singleton _,
      List.forall_mem_singleton.mpr (List.nodup_singleton _)⟩
  have hnames : (es.map (·.name)).Nodup := by
    decide
  obtain ⟨hexists, hall⟩ := indexes_kept_iff hbuilt hcolumns hnames (g := g) (d := .sqlite) rfl
    (.inr rfl) rfl
  obtain ⟨statements, hstatements⟩ := hexists rfl
  have hwords : (indexedWords es).Nodup := by
    decide +kernel
  obtain ⟨-, -, hkept⟩ := hall statements hstatements
  have hrole : indexedEntity "UserRole" "id" ∈ es := List.mem_cons_of_mem _ List.mem_cons_self
  exact ⟨hbuilt, hcolumns, hnames, rfl, rfl, statements, hstatements,
    hkept.mpr hwords _ hrole _ List.mem_cons_self⟩

/-- Where the words of two columns are the same, the second index is lost. -/
theorem not_mem_execute_role :
    let es := [indexedEntity "User" "role_id", indexedEntity "UserRole" "id"]
    let g : Generator := {
      profile := .of .sqlite, naming := .entity, schemaName := none, ifNotExists := true
      jsonArrayFallback := true, includeComments := false, indent := "  " }
    (∀ e ∈ es, ∃ v, Entity.build v = .ok e) ∧ (es.map (·.name)).Nodup ∧
      ∃ statements, g.renderAll es = .ok statements ∧
        (statements.filterMap readIndex?).map (·.name) = ["idx_user_role_id", "idx_user_role_id"] ∧
        execute statements = [⟨"idx_user_role_id", ["User"], "role_id"⟩] := by
  intro es g
  have hbuilt : ∀ e ∈ es, ∃ v, Entity.build v = .ok e :=
    List.forall_mem_cons.mpr ⟨⟨_, build_indexedTable rfl (by decide) (by decide)⟩,
      List.forall_mem_singleton.mpr ⟨_, build_indexedTable rfl (by decide) (by decide)⟩⟩
  obtain ⟨statements, hstatements⟩ := exists_renderAll (g := g) (d := .sqlite) rfl (.inr rfl) rfl hbuilt
  have hread : statements.filterMap readIndex? = [⟨"idx_user_role_id", ["User"], "role_id"⟩,
      ⟨"idx_user_role_id", ["UserRole"], "id"⟩] := by
    rw [readIndexes_renderAll (d := .sqlite) rfl (.inr rfl) hstatements]
    decide +kernel
  refine ⟨hbuilt, by decide, statements, hstatements, by rw [hread]; rfl, ?_⟩
  rw [execute, hread]
  decide +kernel

end Generator

end Sql

end EntityCompiler

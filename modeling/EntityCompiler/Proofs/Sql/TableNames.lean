import EntityCompiler.Proofs.Sql.Indexes
import EntityCompiler.Proofs.Text.SnakeCase

/-!
# Names of tables

The statements for several entities create one table for each of them, under a name that is read off the
statement.  Where tables have the names of their entities, different entities have tables with different
names.  Where tables have names in snake case, two entities share a table exactly when their names have the
same words.
-/

namespace EntityCompiler.Sql

/-! ## Databases -/

/-- The quote around identifiers. -/
def Dialect.quote : Dialect → Char
  | .mysql => '\x60'
  | _ => '\x22'

/-- The identifier before the quote that closes it, and what follows it.  A quote written twice is a quote of
the identifier. -/
def closed? (quote : Char) : List Char → Option (List Char × List Char)
  | [] => none
  | [c] => if c = quote then some ([], []) else none
  | c :: d :: rest =>
    if c = quote then
      if d = quote then (closed? quote rest).map fun (name, after) ↦ (quote :: name, after)
      else some ([], d :: rest)
    else (closed? quote (d :: rest)).map fun (name, after) ↦ (c :: name, after)

/-- The identifier that a text begins with, and what follows it. -/
def identifier? (quote : Char) : List Char → Option (String × List Char)
  | [] => none
  | c :: rest =>
    if c = quote then (closed? quote rest).map fun (name, after) ↦ (String.ofList name, after) else none

/-- The identifier that a text begins with, and the one after a dot if there is one. -/
def reference? (quote : Char) (text : List Char) : Option (List String) := do
  let (name, after) ← identifier? quote text
  match after with
  | '.' :: rest =>
    let (other, _) ← identifier? quote rest
    return [name, other]
  | _ => return [name]

/-- The table that a statement creates, if it creates one.  The table is given with the schema, if that is
named. -/
def readTable? (d : Dialect) (statement : String) : Option (List String) :=
  (("CREATE TABLE IF NOT EXISTS ".toList.isPrefixOf? statement.toList).or
    ("CREATE TABLE ".toList.isPrefixOf? statement.toList)).bind (reference? d.quote)

/-- The name of a table in a database that does not look at the case of ASCII letters in names. -/
def foldCase (name : List String) : List String :=
  name.map String.toLower

/-! ## Identifiers -/

section Identifiers

variable {quote c : Char} {rest : List Char} {d : Dialect}

theorem closed?_cons_of_ne (h : c ≠ quote) (rest : List Char) :
    closed? quote (c :: rest) = (closed? quote rest).map fun (name, after) ↦ (c :: name, after) := by
  cases rest with
  | nil => simp [closed?, h]
  | cons d rest => rw [closed?, if_neg h]

theorem closed?_doubled (hrest : ∀ c ∈ rest.head?, c ≠ quote) (text : List Char) :
    closed? quote (doubled [quote] text ++ quote :: rest) = some (text, rest) := by
  induction text with
  | nil =>
    cases rest with
    | nil => simp [doubled_nil, closed?]
    | cons d rest =>
      have hd : d ≠ quote := hrest d rfl
      simp [doubled_nil, closed?, hd]
  | cons c text ih =>
    by_cases hc : c = quote
    · rw [hc, doubled_cons_self, List.cons_append, List.cons_append, closed?, if_pos rfl, if_pos rfl, ih]
      rfl
    · rw [doubled_cons_of_ne hc, List.cons_append, closed?_cons_of_ne hc, ih]
      rfl

theorem toList_identifier (d : Dialect) (name : String) : ((Profile.of d).identifier name).toList =
    d.quote :: doubled [d.quote] name.toList ++ [d.quote] := by
  cases d <;> exact toList_enclosed rfl name

theorem identifier?_identifier (hrest : ∀ c ∈ rest.head?, c ≠ d.quote) (name : String) :
    identifier? d.quote (((Profile.of d).identifier name).toList ++ rest) = some (name, rest) := by
  rw [toList_identifier, List.cons_append, List.cons_append, List.append_assoc, List.singleton_append,
    identifier?, if_pos rfl, closed?_doubled hrest]
  simp

/-- The reference to a table is read in front of its columns. -/
theorem reference?_tableReference (d : Dialect) (table : String) (schema : Option String)
    (columns : List Char) :
    reference? d.quote (((Profile.of d).tableReference table schema).toList ++ ' ' :: columns) =
      some (Generator.qualifiedName (Profile.of d) table schema) := by
  have hfree {c : Char} (hc : c = ' ' ∨ c = '.') (rest : List Char) :
      ∀ first ∈ (c :: rest).head?, first ≠ d.quote := by
    intro first hfirst
    obtain rfl := Option.some.inj hfirst
    rcases hc with rfl | rfl <;> cases d <;> decide
  have hplain := identifier?_identifier (hfree (.inl rfl) columns) table
  have hsole : reference? d.quote (((Profile.of d).identifier table).toList ++ ' ' :: columns) =
      some [table] := by
    rw [reference?, hplain]
    rfl
  cases schema with
  | none => exact hsole
  | some owner =>
    rw [Profile.tableReference, Generator.qualifiedName]
    split_ifs
    · have howner := identifier?_identifier
        (hfree (.inr rfl) (((Profile.of d).identifier table).toList ++ ' ' :: columns)) owner
      have hchars : ((Profile.of d).identifier owner ++ "." ++ (Profile.of d).identifier table).toList ++
          ' ' :: columns = ((Profile.of d).identifier owner).toList ++
            '.' :: (((Profile.of d).identifier table).toList ++ ' ' :: columns) := by
        simp only [String.toList_append, List.append_assoc]
        rfl
      rw [hchars, reference?, howner]
      change ((identifier? d.quote _).bind fun (other, _) ↦ some [owner, other]) = _
      rw [hplain]
      rfl
    · exact hsole

end Identifiers

/-! ## Statements -/

namespace Generator

variable {g : Generator} {d : Dialect} {e : Entity} {es : List Entity} {statements : List String}

theorem exists_toList_tableReference (d : Dialect) (table : String) (schema : Option String) :
    ∃ rest, ((Profile.of d).tableReference table schema).toList = d.quote :: rest := by
  cases schema with
  | none => exact ⟨_, toList_identifier d table⟩
  | some owner =>
    rw [Profile.tableReference]
    split_ifs
    · rw [String.toList_append, String.toList_append, toList_identifier]
      exact ⟨_, rfl⟩
    · exact ⟨_, toList_identifier d table⟩

theorem readTable?_tableText (hprofile : g.profile = .of d) (e : Entity) (lines : List String) :
    readTable? d (g.tableText e lines) =
      some (qualifiedName g.profile (g.tableName e) g.schemaName) := by
  have hchars : ∃ columns, (g.tableText e lines).toList =
      (if g.ifNotExists then "CREATE TABLE IF NOT EXISTS " else "CREATE TABLE ").toList ++
        ((g.profile.tableReference (g.tableName e) g.schemaName).toList ++ ' ' :: columns) := by
    rw [tableText]
    simp only [String.toList_append, List.append_assoc]
    exact ⟨_, rfl⟩
  obtain ⟨columns, hchars⟩ := hchars
  rw [hprofile] at hchars ⊢
  rw [readTable?, hchars]
  split_ifs
  · rw [List.isPrefixOf?_eq_some_iff_append_eq.mpr rfl, Option.some_or, Option.bind_some,
      reference?_tableReference]
  · have hother : "CREATE TABLE IF NOT EXISTS ".toList.isPrefixOf? ("CREATE TABLE ".toList ++
        (((Profile.of d).tableReference (g.tableName e) g.schemaName).toList ++ ' ' :: columns)) =
          none := by
      obtain ⟨rest, hrest⟩ := exists_toList_tableReference d (g.tableName e) g.schemaName
      rw [hrest]
      cases d <;> rfl
    rw [hother, Option.none_or, List.isPrefixOf?_eq_some_iff_append_eq.mpr rfl, Option.bind_some,
      reference?_tableReference]

/-- A statement that begins otherwise creates no table. -/
theorem readTable?_eq_none {text first : String} (htext : first.toList <+: text.toList)
    (hlength : first.toList.length ≤ 13)
    (hfirst : first.toList.isPrefixOf "CREATE TABLE ".toList = false) : readTable? d text = none := by
  have hother : ¬"CREATE TABLE ".toList <+: text.toList :=
    not_isPrefix_of_isPrefix htext hlength hfirst
  have hneither (opening : String) (hopening : "CREATE TABLE ".toList <+: opening.toList) :
      opening.toList.isPrefixOf? text.toList = none := by
    rw [Option.eq_none_iff_forall_not_mem]
    intro rest hrest
    have hbegins := List.isPrefixOf?_eq_some_iff_append_eq.mp hrest
    exact hother (hopening.trans ⟨rest, hbegins⟩)
  rw [readTable?, hneither _ ⟨"IF NOT EXISTS ".toList, rfl⟩, hneither _ List.prefix_rfl]
  rfl

theorem readTable?_of_mem_indexStatements {text : String} (h : text ∈ g.indexStatements e) :
    readTable? d text = none := by
  rw [indexStatements_eq] at h
  obtain ⟨column, -, rfl⟩ := List.mem_map.mp h
  have htext (g : Generator) (e : Entity) (column : String) : "CREATE I".toList <+: (Index.statement
      g.profile (g.tableName e) [column] none g.schemaName false).toList := by
    rw [Index.statement]
    simp only [Bool.false_eq_true, if_false, String.toList_append, List.append_assoc]
    exact ⟨_, rfl⟩
  exact readTable?_eq_none (htext g e column.1) (by decide) (by decide)

/-- A table with stored columns has a statement if all statements for the entity can be written. -/
theorem readTables_statements (hprofile : g.profile = .of d) (htable : e.table = true)
    (hstored : e.storedColumns ≠ []) (h : g.statements e = .ok statements) :
    statements.filterMap (readTable? d) = [qualifiedName g.profile (g.tableName e) g.schemaName] := by
  obtain ⟨table, hstatement, hstatements⟩ := bind_eq_ok_iff.mp h
  cases table with
  | none =>
    unfold tableStatement? at hstatement
    rw [if_neg (by simp [htable, hstored]), bind_eq_ok_iff] at hstatement
    obtain ⟨definitions, -, htext⟩ := hstatement
    exact nomatch htext
  | some text =>
    obtain ⟨-, -, definitions, -, rfl⟩ := tableStatement?_eq_ok_some_iff.mp hstatement
    have hothers : (g.indexStatements e ++ g.commentStatements e).filterMap (readTable? d) = [] := by
      refine List.filterMap_eq_nil_iff.mpr fun other hmem ↦ ?_
      rcases List.mem_append.mp hmem with hindex | hcomment
      · exact readTable?_of_mem_indexStatements hindex
      · exact readTable?_eq_none (isPrefix_of_mem_commentStatements hcomment) (by decide) (by decide)
    rw [← Except.ok.inj hstatements, List.filterMap_cons, readTable?_tableText hprofile, hothers]

/-- The statements for several tables create one table for each of them, in their order. -/
theorem readTables_renderAll (hprofile : g.profile = .of d)
    (htables : ∀ e ∈ es, e.table = true ∧ e.storedColumns ≠ []) (h : g.renderAll es = .ok statements) :
    statements.filterMap (readTable? d) =
      es.map fun e ↦ qualifiedName g.profile (g.tableName e) g.schemaName := by
  obtain ⟨parts, hparts, hstatements⟩ := bind_eq_ok_iff.mp h
  have hschema : g.schemaStatements.filterMap (readTable? d) = [] :=
    List.filterMap_eq_nil_iff.mpr fun _ hmem ↦
      readTable?_eq_none (isPrefix_of_mem_schemaStatements hmem) (by decide) (by decide)
  rw [← Except.ok.inj hstatements, List.filterMap_append, hschema, List.nil_append]
  have hall := mapM_eq_ok_iff.mp hparts
  clear hparts hstatements h
  induction hall with
  | nil => rfl
  | cons hpart _ ih =>
    obtain ⟨⟨htable, hstored⟩, hrest⟩ := List.forall_mem_cons.mp htables
    rw [List.flatten_cons, List.filterMap_append, ih hrest,
      readTables_statements hprofile htable hstored hpart, List.map_cons]
    rfl

/-! ## Different tables -/

theorem qualifiedName_inj {p : Profile} {table other : String} {schema : Option String} :
    qualifiedName p table schema = qualifiedName p other schema ↔ table = other := by
  constructor
  · intro h
    have hlast := congrArg List.getLast? h
    rw [getLast?_qualifiedName, getLast?_qualifiedName] at hlast
    exact Option.some.inj hlast
  · rintro rfl
    rfl

theorem nodup_qualifiedNames_iff : (es.map fun e ↦ qualifiedName g.profile (g.tableName e)
    g.schemaName).Nodup ↔ es.Pairwise fun e f ↦ g.tableName e ≠ g.tableName f := by
  rw [List.Nodup, List.pairwise_map]
  simp only [ne_eq, qualifiedName_inj]

theorem foldCase_qualifiedName_eq_iff {p : Profile} {table other : String} {schema : Option String} :
    foldCase (qualifiedName p table schema) = foldCase (qualifiedName p other schema) ↔
      table.toLower = other.toLower := by
  unfold qualifiedName
  split
  · split_ifs <;> simp [foldCase]
  · simp [foldCase]

theorem nodup_foldCase_iff : ((es.map fun e ↦ qualifiedName g.profile (g.tableName e)
    g.schemaName).map foldCase).Nodup ↔
      es.Pairwise fun e f ↦ (g.tableName e).toLower ≠ (g.tableName f).toLower := by
  rw [List.map_map, List.Nodup, List.pairwise_map]
  simp only [Function.comp_apply, ne_eq, foldCase_qualifiedName_eq_iff]

theorem tableName_eq_iff_of_entity (hnaming : g.naming = .entity) {e f : Entity} :
    g.tableName e = g.tableName f ↔ e.name = f.name := by
  rw [tableName_of_entity hnaming, tableName_of_entity hnaming]

theorem tableName_eq_iff_of_snakeCase (hnaming : g.naming = .snakeCase) {e f : Entity}
    (he : Naming.isPascalCase e.name = true) (hf : Naming.isPascalCase f.name = true) :
    g.tableName e = g.tableName f ↔ Text.SameWords e.name.toList f.name.toList := by
  rw [tableName, tableName, hnaming]
  exact Naming.snakeCase_eq_iff he hf

theorem toLower_tableName_of_snakeCase (hnaming : g.naming = .snakeCase) {e : Entity}
    (he : Naming.isPascalCase e.name = true) : (g.tableName e).toLower = g.tableName e := by
  rw [tableName, hnaming]
  exact Naming.toLower_snakeCase he

/-- The statements for different entities create one table for each of them.  If tables have the names of
their entities, no two of these names are the same; a database that does not look at the case of letters
takes no two of them for one exactly if the names of the entities differ in lower case.  If tables have names
in snake case, no two of them are the same exactly when no two entities have names with the same words, which
are equal in lower case and end at the same places; to look at the case of letters makes no difference to
them. -/
theorem tableNames_distinct_iff (hbuilt : ∀ e ∈ es, ∃ v, Entity.build v = .ok e)
    (htables : ∀ e ∈ es, e.table = true ∧ e.storedColumns ≠ []) (hnames : (es.map (·.name)).Nodup)
    (hprofile : g.profile = .of d) :
    (g.jsonArrayFallback = true → (∀ e ∈ es, e.RendersIn d) →
      ∃ statements, g.renderAll es = .ok statements) ∧
    ∀ statements, g.renderAll es = .ok statements →
      let tables := statements.filterMap (readTable? d)
      tables = (es.map fun e ↦ qualifiedName g.profile (g.naming.tableName e.name) g.schemaName) ∧
      (g.naming = .entity → tables.Nodup ∧ ((tables.map foldCase).Nodup ↔
        es.Pairwise fun e f ↦ e.name.toLower ≠ f.name.toLower)) ∧
      (g.naming = .snakeCase → (tables.Nodup ↔
        es.Pairwise fun e f ↦ ¬Text.SameWords e.name.toList f.name.toList) ∧
        ((tables.map foldCase).Nodup ↔ tables.Nodup)) := by
  have hpascal : ∀ e ∈ es, Naming.isPascalCase e.name = true := by
    intro e he
    obtain ⟨v, hv⟩ := hbuilt e he
    exact (Entity.wellFormed_of_build hv).name
  refine ⟨fun hfallback ↦ exists_renderAll_of_rendersIn hprofile hfallback hbuilt,
    fun statements hstatements ↦ ?_⟩
  have hread := readTables_renderAll hprofile htables hstatements
  refine ⟨hread, fun hnaming ↦ ⟨?_, ?_⟩, fun hnaming ↦ ⟨?_, ?_⟩⟩
  · rw [hread, nodup_qualifiedNames_iff]
    exact (List.pairwise_map.mp hnames).imp (mt (tableName_eq_iff_of_entity hnaming).mp)
  · rw [hread, nodup_foldCase_iff]
    simp only [tableName_of_entity hnaming]
  · rw [hread, nodup_qualifiedNames_iff]
    apply List.Pairwise.iff_of_mem
    intro e f he hf
    exact not_congr (tableName_eq_iff_of_snakeCase hnaming (hpascal e he) (hpascal f hf))
  · rw [hread, nodup_foldCase_iff, nodup_qualifiedNames_iff]
    apply List.Pairwise.iff_of_mem
    intro e f he hf
    rw [toLower_tableName_of_snakeCase hnaming (hpascal e he),
      toLower_tableName_of_snakeCase hnaming (hpascal f hf)]

/-! ### Tables with one column -/

/-- The description of a table with one column. -/
def soleTable (name : String) : Value :=
  .ofFields [("name", .text name), ("table", .bool true),
    ("columns", .ofFields [("id", .ofFields [("type", .text "string")])])]

/-- The entity that `soleTable` describes. -/
def soleEntity (name : String) : Entity :=
  Specification.freeze { name, table := true, columns := [("id", { type := .text "string" })] }
    [("id", { type := .primitive .string })]

theorem stored_soleEntity (name : String) :
    (soleEntity name).table = true ∧ (soleEntity name).storedColumns ≠ [] :=
  ⟨rfl, List.cons_ne_nil _ _⟩

theorem tableNames_distinct_iff_roles :
    let es := [soleEntity "HTTPServer", soleEntity "UserRole"]
    let g : Generator := {
      profile := .of .mysql, naming := .snakeCase, schemaName := none, ifNotExists := true
      jsonArrayFallback := true, includeComments := false, indent := "  " }
    (∀ e ∈ es, ∃ v, Entity.build v = .ok e) ∧ (∀ e ∈ es, e.table = true ∧ e.storedColumns ≠ []) ∧
      (es.map (·.name)).Nodup ∧ ∃ statements, g.renderAll es = .ok statements ∧
        statements.filterMap (readTable? .mysql) = [["http_server"], ["user_role"]] ∧
        (statements.filterMap (readTable? .mysql)).Nodup ∧
        ((statements.filterMap (readTable? .mysql)).map foldCase).Nodup := by
  intro es g
  have hbuilt : ∀ e ∈ es, ∃ v, Entity.build v = .ok e :=
    List.forall_mem_cons.mpr ⟨⟨soleTable "HTTPServer", rfl⟩,
      List.forall_mem_singleton.mpr ⟨soleTable "UserRole", rfl⟩⟩
  have htables : ∀ e ∈ es, e.table = true ∧ e.storedColumns ≠ [] :=
    List.forall_mem_cons.mpr ⟨stored_soleEntity _, List.forall_mem_singleton.mpr (stored_soleEntity _)⟩
  have hnames : (es.map (·.name)).Nodup := by
    decide
  have hrenders : ∀ e ∈ es, e.RendersIn .mysql := by
    intro e he _ _ column hcolumn value hvalue
    have hnone : ∀ e ∈ es, ∀ column ∈ e.storedColumns, column.2.default = none := by
      decide
    rw [hnone e he column hcolumn] at hvalue
    cases hvalue
  have hwords : es.Pairwise fun e f ↦ ¬Text.SameWords e.name.toList f.name.toList :=
    List.pairwise_pair.mpr fun hsame ↦ absurd hsame.letters (by decide)
  obtain ⟨hexists, hall⟩ := tableNames_distinct_iff hbuilt htables hnames (g := g) (d := .mysql) rfl
  obtain ⟨statements, hstatements⟩ := hexists rfl hrenders
  obtain ⟨hread, -, hsnake⟩ := hall statements hstatements
  obtain ⟨hwritten, hfolded⟩ := hsnake rfl
  have htexts : statements.filterMap (readTable? .mysql) = [["http_server"], ["user_role"]] :=
    hread.trans (by decide +kernel)
  have hdistinct := hwritten.mpr hwords
  exact ⟨hbuilt, htables, hnames, statements, hstatements, htexts, hdistinct, hfolded.mpr hdistinct⟩

/-- Two names with the same words in other capitals give one table to two entities. -/
theorem tableNames_merged_server :
    let es := [soleEntity "HTTPServer", soleEntity "HttpServer"]
    let g : Generator := {
      profile := .of .sqlite, naming := .snakeCase, schemaName := none, ifNotExists := true
      jsonArrayFallback := true, includeComments := false, indent := "  " }
    (∀ e ∈ es, ∃ v, Entity.build v = .ok e) ∧ (∀ e ∈ es, e.table = true ∧ e.storedColumns ≠ []) ∧
      (es.map (·.name)).Nodup ∧ ∃ statements, g.renderAll es = .ok statements ∧
        statements.filterMap (readTable? .sqlite) = [["http_server"], ["http_server"]] ∧
        ¬(statements.filterMap (readTable? .sqlite)).Nodup := by
  intro es g
  have hbuilt : ∀ e ∈ es, ∃ v, Entity.build v = .ok e :=
    List.forall_mem_cons.mpr ⟨⟨soleTable "HTTPServer", rfl⟩,
      List.forall_mem_singleton.mpr ⟨soleTable "HttpServer", rfl⟩⟩
  have htables : ∀ e ∈ es, e.table = true ∧ e.storedColumns ≠ [] :=
    List.forall_mem_cons.mpr ⟨stored_soleEntity _, List.forall_mem_singleton.mpr (stored_soleEntity _)⟩
  obtain ⟨statements, hstatements⟩ := exists_renderAll (g := g) (d := .sqlite) rfl (.inr rfl) rfl hbuilt
  have hread : statements.filterMap (readTable? .sqlite) = [["http_server"], ["http_server"]] :=
    (readTables_renderAll (d := .sqlite) rfl htables hstatements).trans (by decide +kernel)
  refine ⟨hbuilt, htables, by decide, statements, hstatements, hread, ?_⟩
  rw [hread]
  decide

end Generator

end EntityCompiler.Sql

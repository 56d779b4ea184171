import EntityCompiler.Proofs.Sql.Sealed

/-!
# The outline of table statements

No text of a user can change the outline of the statement that creates a table.  Its body is split into
one item for each stored column, which begins with the name of the column, and at most one more for the
primary key, whatever characters there are in names and in defaults.
-/

namespace EntityCompiler.Sql.Generator

variable {g : Generator} {d : Dialect} {e : Entity} {entity text : String}
  {columns : List (String × Column)}

/-! ## Lines -/

/-- The tokens of the clause of a primary key with given names, if there are any. -/
def keyItems : List String → List (List Token)
  | [] => []
  | first :: others => [keyTokens first others]

theorem spell_keyTokens (hprofile : g.profile = .of d) (hdialect : d = .postgres ∨ d = .sqlite)
    (first : String) (others : List String) : spell (keyTokens first others) =
      ("PRIMARY KEY (" ++ g.profile.identifiers (first :: others) ++ ")").toList := by
  have hname := spelling_nameToken hprofile hdialect
  have hpart (name : String) : spell [.char ' ', nameToken name] =
      ' ' :: (g.profile.identifier name).toList := by
    rw [spell_cons, spell_cons, hname, spell_nil, List.append_nil]
    rfl
  have hnames : spell (nameTokens first others) =
      (g.profile.identifiers (first :: others)).toList := by
    calc
      spell (nameTokens first others) = (g.profile.identifier first).toList ++
          others.flatMap fun name ↦ ',' :: ' ' :: (g.profile.identifier name).toList := by
        rw [nameTokens, spell_cons, spell_flatMap, hname, List.flatMap_map]
        simp only [hpart]
      _ = (g.profile.identifiers (first :: others)).toList := by
        rw [Profile.identifiers, List.map_cons, toList_intercalate_comma, List.flatMap_map]
  calc
    spell (keyTokens first others) = "PRIMARY KEY ".toList ++
        '(' :: (spell (nameTokens first others) ++ [')']) := by
      rw [keyTokens, spell_append, spell_unquoted, spell_cons, spell_append]
      rfl
    _ = ("PRIMARY KEY (" ++ g.profile.identifiers (first :: others) ++ ")").toList := by
      rw [hnames, String.toList_append, String.toList_append]
      rfl

theorem spell_keyItems (hprofile : g.profile = .of d) (hdialect : d = .postgres ∨ d = .sqlite)
    (columns : List (String × Column)) :
    (keyItems (primaryNames columns)).map spell = (g.primaryKeyClause columns).map String.toList := by
  rw [primaryKeyClause]
  cases primaryNames columns with
  | nil => rfl
  | cons first others =>
    rw [keyItems, List.map_singleton, List.map_singleton, spell_keyTokens hprofile hdialect]

theorem neat_keyItems {names : List String} : ∀ item ∈ keyItems names, Neat false item := by
  cases names with
  | nil => exact nofun
  | cons first others =>
    intro item hitem
    rw [List.mem_singleton.mp hitem]
    exact neat_keyTokens

/-- The definitions of columns are spelled by neat items that begin with the names of the columns. -/
theorem exists_columnItems (hprofile : g.profile = .of d) (hdialect : d = .postgres ∨ d = .sqlite)
    {definitions : List String} (h : List.Forall₂ (fun column definition ↦
      g.columnDefinition entity column.1 column.2 = .ok definition) columns definitions) :
    ∃ items, List.Forall₂ (fun column item ↦ ∃ rest, item = nameToken column.1 :: rest) columns items ∧
      (∀ item ∈ items, Neat false item) ∧ items.map spell = definitions.map String.toList := by
  induction h with
  | nil => exact ⟨[], .nil, nofun, rfl⟩
  | cons hdefinition _ ih =>
    obtain ⟨rest, hneat, hspell⟩ := exists_tokens_columnDefinition hprofile hdialect hdefinition
    obtain ⟨items, hitems, hneats, hspells⟩ := ih
    refine ⟨_ :: items, .cons ⟨rest, rfl⟩ hitems, List.forall_mem_cons.mpr ⟨hneat, hneats⟩, ?_⟩
    rw [List.map_cons, List.map_cons, hspell, hspells]

/-! ## Statements -/

/-- The name of a table after that of its schema, if one is given and the dialect has schemas. -/
def qualifiedName (p : Profile) (table : String) : Option String → List String
  | some schema => if schema ≠ "" ∧ p.supportsSchemas then [schema, table] else [table]
  | none => [table]

/-- The reference to a table has no parenthesis outside of quotes, and no other names than its own. -/
theorem exists_referenceTokens (hprofile : g.profile = .of d)
    (hdialect : d = .postgres ∨ d = .sqlite) (table : String) (schema : Option String) :
    ∃ tokens, Neat false tokens ∧ (∀ token ∈ tokens, token ≠ .char '(') ∧
      spell tokens = (g.profile.tableReference table schema).toList ∧
      quotedNames tokens = qualifiedName g.profile table schema := by
  have hname := spelling_nameToken hprofile hdialect
  have hplain : ∃ tokens, Neat false tokens ∧ (∀ token ∈ tokens, token ≠ .char '(') ∧
      spell tokens = (g.profile.identifier table).toList ∧ quotedNames tokens = [table] := by
    refine ⟨[nameToken table], neat_nameToken table, fun token htoken ↦ ?_, ?_, ?_⟩
    · rw [List.mem_singleton.mp htoken]
      exact nofun
    · simp [hname]
    · simp
  cases schema with
  | none => exact hplain
  | some owner =>
    rw [Profile.tableReference, qualifiedName]
    split_ifs
    · refine ⟨[nameToken owner, .char '.', nameToken table],
        (neat_nameToken owner).append (.plain rfl (neat_nameToken table)), fun token htoken ↦ ?_, ?_, ?_⟩
      · simp only [List.mem_cons, List.not_mem_nil, or_false] at htoken
        rcases htoken with rfl | rfl | rfl <;> simp [nameToken]
      · simp [hname]
      · simp
    · exact hplain

/-- What stands before the body of a statement has no parenthesis outside of quotes. -/
theorem exists_headingTokens (hprofile : g.profile = .of d) (hdialect : d = .postgres ∨ d = .sqlite)
    (e : Entity) :
    ∃ heading, Neat false heading ∧ (∀ token ∈ heading, token ≠ .char '(') ∧
      spell heading = ((if g.ifNotExists then "CREATE TABLE IF NOT EXISTS " else "CREATE TABLE ") ++
        g.profile.tableReference (g.tableName e) g.schemaName ++ " ").toList := by
  obtain ⟨reference, hneat, hnone, hspell, -⟩ :=
    exists_referenceTokens hprofile hdialect (g.tableName e) g.schemaName
  have hstart : (if g.ifNotExists then "CREATE TABLE IF NOT EXISTS " else
      "CREATE TABLE ").toList.all isPlain = true := by
    split_ifs <;> decide
  refine ⟨unquoted _ ++ (reference ++ [.char ' ']),
    (hneat.append (.plain rfl .nil)).plain_append hstart, fun token htoken ↦ ?_, ?_⟩
  · simp only [List.mem_append, List.mem_singleton] at htoken
    rcases htoken with hunquoted | hmem | rfl
    · exact ne_of_mem_unquoted hstart hunquoted
    · exact hnone token hmem
    · decide
  · simp only [spell_append, spell_unquoted, hspell, String.toList_append, List.append_assoc]
    rfl

section Body

variable {indent line : String} {lines : List String} {first : List Token}
  {others : List (List Token)}

/-- The tokens of a body with given items, each of them on a line of its own. -/
def bodyTokens (indent : String) (first : List Token) (others : List (List Token)) : List Token :=
  unquoted ("\n" ++ indent) ++ first ++
    ((others.map (unquoted ("\n" ++ indent) ++ ·)).flatMap (.char ',' :: ·) ++ [.char '\n'])

theorem isBlank_of_mem_break (hindent : ∀ c ∈ indent.toList, Text.isBlank c = true) {c : Char}
    (hc : c ∈ ("\n" ++ indent).toList) : Text.isBlank c = true := by
  rw [String.toList_append] at hc
  rcases List.mem_append.mp hc with hnewline | hmem
  · rw [List.mem_singleton.mp hnewline]
    decide
  · exact hindent c hmem

theorem neat_indented (hindent : ∀ c ∈ indent.toList, Text.isBlank c = true) {item : List Token}
    (hitem : Neat false item) : Neat false (unquoted ("\n" ++ indent) ++ item) := by
  apply hitem.plain_append
  apply List.all_eq_true.mpr
  intro c hc
  exact isPlain_of_isBlank (isBlank_of_mem_break hindent hc)

theorem neat_bodyTokens (hindent : ∀ c ∈ indent.toList, Text.isBlank c = true)
    (hitems : ∀ item ∈ first :: others, Neat false item) : Neat true (bodyTokens indent first others) := by
  rw [List.forall_mem_cons] at hitems
  have hparts : ∀ item ∈ others.map (unquoted ("\n" ++ indent) ++ ·), Neat true (.char ',' :: item) :=
    List.forall_mem_map.mpr fun item hitem ↦
      .comma (neat_indented hindent (hitems.2 item hitem)).with_commas
  have hlines := (neat_indented hindent hitems.1).with_commas.joined hparts
  rw [bodyTokens, ← List.append_assoc]
  exact hlines.append (.plain rfl .nil)

/-- Each item takes the line break and the indent before it; the last one takes a line break after it. -/
theorem splitBody_bodyTokens (hindent : ∀ c ∈ indent.toList, Text.isBlank c = true)
    (hitems : ∀ item ∈ first :: others, Neat false item) (after : List Token) :
    ∃ body, splitBody [] (bodyTokens indent first others ++ .char ')' :: after) = some body ∧
      List.Forall₂ (fun item found ↦ ∃ more, found = unquoted ("\n" ++ indent) ++ (item ++ more))
        (first :: others) body.items ∧
      body.after = after := by
  rw [List.forall_mem_cons] at hitems
  have hparts : ∀ item ∈ others.map (unquoted ("\n" ++ indent) ++ ·), Neat false item :=
    List.forall_mem_map.mpr fun item hitem ↦ neat_indented hindent (hitems.2 item hitem)
  have hbreak : Neat false [.char '\n'] := .plain rfl .nil
  obtain ⟨body, hsplit, hfound, hafter⟩ :=
    splitBody_items (neat_indented hindent hitems.1) hparts hbreak after
  refine ⟨body, ?_, ?_, hafter⟩
  · rw [← hsplit, bodyTokens]
    simp only [List.append_assoc]
  · rw [← List.map_cons, List.forall₂_map_left_iff] at hfound
    refine hfound.imp fun item found hitem ↦ ?_
    rcases hitem with rfl | rfl
    · exact ⟨[], by rw [List.append_nil]⟩
    · exact ⟨[.char '\n'], List.append_assoc _ _ _⟩

theorem spell_bodyTokens (hline : spell first = line.toList)
    (hlines : others.map spell = lines.map String.toList) : spell (bodyTokens indent first others) =
      ("\n" ++ ",\n".intercalate ((line :: lines).map (indent ++ ·)) ++ "\n").toList := by
  have hrest : spell ((others.map (unquoted ("\n" ++ indent) ++ ·)).flatMap (.char ',' :: ·)) =
      lines.flatMap fun part ↦ ",\n".toList ++ (indent ++ part).toList := by
    rw [spell_flatMap, List.flatMap_map]
    simp only [spell_append, spell_unquoted]
    rw [flatMap_spell hlines fun chars ↦ ',' :: (("\n" ++ indent).toList ++ chars)]
    simp only [String.toList_append]
    rfl
  have hjoined : (",\n".intercalate ((line :: lines).map (indent ++ ·))).toList =
      (indent ++ line).toList ++ lines.flatMap fun part ↦ ",\n".toList ++ (indent ++ part).toList := by
    rw [String.toList_intercalate, List.map_cons, List.map_cons, Json.intercalate_cons,
      List.flatMap_map, List.flatMap_map]
  calc
    spell (bodyTokens indent first others) = ("\n" ++ indent).toList ++ line.toList ++
        ((lines.flatMap fun part ↦ ",\n".toList ++ (indent ++ part).toList) ++ ['\n']) := by
      rw [bodyTokens, spell_append, spell_append, spell_append, spell_unquoted, hline, hrest]
      rfl
    _ = ("\n" ++ ",\n".intercalate ((line :: lines).map (indent ++ ·)) ++ "\n").toList := by
      simp only [String.toList_append, hjoined, List.append_assoc]
      rfl

theorem isBlank_of_mem_indent (hindent : ∀ c ∈ indent.toList, Text.isBlank c = true) :
    ∀ token ∈ unquoted ("\n" ++ indent), token.isBlank = true := by
  intro token htoken
  obtain ⟨c, hc, rfl⟩ := List.mem_map.mp htoken
  exact isBlank_of_mem_break hindent hc

/-- The items of columns begin with the names of the columns, also where they stand in a body. -/
theorem leadingNames_of_found {columns : List (String × Column)} {items found : List (List Token)}
    (hindent : ∀ c ∈ indent.toList, Text.isBlank c = true)
    (hitems : List.Forall₂ (fun column item ↦ ∃ rest, item = nameToken column.1 :: rest) columns items)
    (hfound : List.Forall₂ (fun item found ↦ ∃ more, found = unquoted ("\n" ++ indent) ++ (item ++ more))
      items found) :
    List.Forall₂ (fun column item ↦ leadingName? item = some column.1) columns found := by
  apply forall₂_trans _ hitems hfound
  intro column item place hcolumn hplace
  obtain ⟨rest, rfl⟩ := hcolumn
  obtain ⟨more, rfl⟩ := hplace
  exact leadingName?_nameToken (isBlank_of_mem_indent hindent) (rest ++ more)

/-- The item of a primary key has the names of its columns, also where it stands in a body. -/
theorem keyNames_of_found {names : List String} {found : List (List Token)}
    (hindent : ∀ c ∈ indent.toList, Text.isBlank c = true)
    (hfound : List.Forall₂ (fun item found ↦ ∃ more, found = unquoted ("\n" ++ indent) ++ (item ++ more))
      (keyItems names) found) :
    found.map keyNames? = if names = [] then [] else [some names] := by
  cases names with
  | nil =>
    rw [keyItems, List.forall₂_nil_left_iff] at hfound
    rw [hfound, if_pos rfl, List.map_nil]
  | cons first others =>
    rw [keyItems, List.forall₂_cons_left_iff] at hfound
    obtain ⟨place, rest, hplace, hrest, rfl⟩ := hfound
    obtain ⟨more, rfl⟩ := hplace
    rw [List.forall₂_nil_left_iff.mp hrest, List.map_singleton,
      keyNames?_keyTokens (isBlank_of_mem_indent hindent), if_neg (List.cons_ne_nil first others)]

end Body

/-- The lines of a statement are found again as the items of its body, whatever they are, as long as
they are spelled by neat tokens. -/
theorem scan_tableText (hprofile : g.profile = .of d) (hdialect : d = .postgres ∨ d = .sqlite)
    (hindent : ∀ c ∈ g.indent.toList, Text.isBlank c = true) {lines : List String}
    {items : List (List Token)} (hitems : ∀ item ∈ items, Neat false item) (hsome : items ≠ [])
    (hspells : items.map spell = lines.map String.toList) :
    ∃ tokens body, scan (g.tableText e lines) = some tokens ∧ body? tokens = some body ∧
      List.Forall₂ (fun item found ↦ ∃ more, found = unquoted ("\n" ++ g.indent) ++ (item ++ more)) items
        body.items ∧
      body.after = unquoted ";" := by
  obtain ⟨first, others, rfl⟩ := List.exists_cons_of_ne_nil hsome
  obtain ⟨line, rest, rfl⟩ : ∃ line rest, lines = line :: rest := by
    cases lines with
    | nil => exact nomatch hspells
    | cons line rest => exact ⟨line, rest, rfl⟩
  obtain ⟨hline, hrest⟩ := List.cons.inj hspells
  obtain ⟨heading, hheading, hnone, hstart⟩ := exists_headingTokens hprofile hdialect e
  obtain ⟨body, hsplit, hfound, hafter⟩ := splitBody_bodyTokens hindent hitems (unquoted ";")
  have hneat : Neat false (heading ++ .char '(' ::
      (bodyTokens g.indent first others ++ .char ')' :: unquoted ";")) :=
    hheading.append (.bracket rfl (neat_bodyTokens hindent hitems) (.plain rfl .nil))
  refine ⟨_, body, scan_eq_some_of_neat hneat ?_, ?_, hfound, hafter⟩
  · rw [spell_append, spell_cons, spell_append, spell_cons, spell_bodyTokens hline hrest, hstart,
      spell_unquoted, tableText]
    simp [String.toList_append]
  · rw [body?_append hnone, hsplit]

/-! ## Tables -/

/-- With arrays kept as JSON where a dialect has none, a table with stored columns has a statement in
every dialect that does not move dates. -/
theorem exists_tableStatement {v : Value} (hbuild : Entity.build v = .ok e)
    (hprofile : g.profile = .of d) (hdialect : d ≠ .mysql) (hfallback : g.jsonArrayFallback = true)
    (htable : e.table = true) (hstored : e.storedColumns ≠ []) :
    ∃ text, g.tableStatement? e = .ok (some text) :=
  exists_tableStatement_of_rendersIn hprofile hfallback hbuild
    (fun hmysql ↦ absurd hmysql hdialect) htable hstored

/-- Whatever characters names and defaults have, the body of the statement that creates a table has one
item for each stored column, in their order, which begins with the name of the column, and after these
one item with the names of the primary columns if there are any.  The statement ends after its body. -/
theorem outline_tableStatement {v : Value} (hbuild : Entity.build v = .ok e)
    (hprofile : g.profile = .of d) (hdialect : d = .postgres ∨ d = .sqlite)
    (hindent : ∀ c ∈ g.indent.toList, Text.isBlank c = true) (htable : e.table = true)
    (hstored : e.storedColumns ≠ []) :
    (g.jsonArrayFallback = true → ∃ text, g.tableStatement? e = .ok (some text)) ∧
    ∀ text, g.tableStatement? e = .ok (some text) →
      ∃ tokens body items keys, scan text = some tokens ∧ body? tokens = some body ∧
        body.items = items ++ keys ∧ body.after = unquoted ";" ∧
        List.Forall₂ (fun column item ↦ leadingName? item = some column.1) e.storedColumns items ∧
        keys.map keyNames? = if primaryNames e.storedColumns = [] then [] else
          [some (primaryNames e.storedColumns)] := by
  have hmoves : d ≠ .mysql := by
    rcases hdialect with rfl | rfl <;> decide
  refine ⟨fun hfallback ↦ exists_tableStatement hbuild hprofile hmoves hfallback htable hstored,
    fun text htext ↦ ?_⟩
  obtain ⟨-, -, definitions, hdefinitions, rfl⟩ := tableStatement?_eq_ok_some_iff.mp htext
  obtain ⟨columnItems, hcolumns, hneats, hspells⟩ :=
    exists_columnItems hprofile hdialect hdefinitions
  have hitems : ∀ item ∈ columnItems ++ keyItems (primaryNames e.storedColumns), Neat false item :=
    List.forall_mem_append.mpr ⟨hneats, neat_keyItems⟩
  have hsome : columnItems ++ keyItems (primaryNames e.storedColumns) ≠ [] := by
    intro hnone
    rw [(List.append_eq_nil_iff.mp hnone).1, List.forall₂_nil_right_iff] at hcolumns
    exact hstored hcolumns
  have hlines : (columnItems ++ keyItems (primaryNames e.storedColumns)).map spell =
      (definitions ++ g.primaryKeyClause e.storedColumns).map String.toList := by
    rw [List.map_append, List.map_append, hspells, spell_keyItems hprofile hdialect]
  obtain ⟨tokens, body, hscan, hbody, hfound, hafter⟩ :=
    scan_tableText (e := e) hprofile hdialect hindent hitems hsome hlines
  obtain ⟨items, keys, hsplit, hfirst, hlast⟩ := exists_append_of_forall₂ hfound
  exact ⟨tokens, body, items, keys, hscan, hbody, hsplit, hafter,
    leadingNames_of_found hindent hcolumns hfirst, keyNames_of_found hindent hlast⟩

/-- A default with quotes, commas and brackets. -/
def tangled : String :=
  "it\x27s, \x22)], ("

theorem outline_tableStatement_tangled :
    let e := tableEntity .string (.text tangled) (.text tangled)
    let g : Generator := {
      profile := .of .sqlite, naming := .entity, schemaName := some tangled, ifNotExists := true
      jsonArrayFallback := true, includeComments := true, indent := "  " }
    Entity.build (tableColumn .string (.text tangled)) = .ok e ∧ g.profile = .of .sqlite ∧
      (∀ c ∈ g.indent.toList, Text.isBlank c = true) ∧ e.table = true ∧ e.storedColumns ≠ [] ∧
      ∃ text tokens body, g.tableStatement? e = .ok (some text) ∧ scan text = some tokens ∧
        body? tokens = some body ∧ body.items.map leadingName? = [some "data"] := by
  intro e g
  have hbuild : Entity.build (tableColumn .string (.text tangled)) = .ok e :=
    build_tableColumn rfl (by simp) rfl
  have hindent : ∀ c ∈ g.indent.toList, Text.isBlank c = true := by
    apply List.all_eq_true.mp
    decide
  have hstored : e.storedColumns ≠ [] := List.cons_ne_nil _ _
  obtain ⟨hexists, hall⟩ :=
    outline_tableStatement (g := g) (d := .sqlite) hbuild rfl (.inr rfl) hindent rfl hstored
  obtain ⟨text, htext⟩ := hexists rfl
  obtain ⟨tokens, body, items, keys, hscan, hbody, hsplit, -, hitems, hkeys⟩ := hall text htext
  refine ⟨hbuild, rfl, hindent, rfl, hstored, text, tokens, body, htext, hscan, hbody, ?_⟩
  have hnone : keys = [] := List.map_eq_nil_iff.mp hkeys
  cases hitems with
  | cons hfirst hrest =>
    cases hrest
    rw [hsplit, hnone, List.append_nil, List.map_singleton, hfirst]

end EntityCompiler.Sql.Generator

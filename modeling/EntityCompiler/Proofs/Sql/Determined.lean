import EntityCompiler.Proofs.Entity.Respelled
import EntityCompiler.Proofs.Sql.Literal
import EntityCompiler.Proofs.Sql.Stored

/-!
# What DDL texts show

Equal entities have literals that may differ in the order of members, and a DDL text shows that order.
The DDL texts of equal entities are the same in all dialects and under all settings exactly when the
defaults of their stored columns are the same in every detail.
-/

namespace EntityCompiler

/-- Columns with the same default are the same to a database if they are equal up to the order of
members. -/
theorem Column.Same.storedAlike {c d : Column} (h : c.Same d) (hdefault : c.default = d.default)
    (commented : Bool) : c.StoredAlike commented d where
  type := h.type
  acceptsNull := by rw [acceptsNull, acceptsNull, h.nullable, h.optional]
  default := hdefault
  db := h.db
  description _ := h.description

namespace Sql

/-! ## Columns -/

namespace Generator

variable {g : Generator} {c d : Column}

/-- The default clauses of columns that are equal up to the order of members have parts of one length,
which are equal only if the defaults are. -/
theorem defaultClause_sqlite (hprofile : g.profile = .of .sqlite) (h : c.Same d)
    (hnow : c.db.defaultNow = true → c.default = none) (entity name : String) :
    ∃ parts others, g.defaultClause entity name c = .ok parts ∧
      g.defaultClause entity name d = .ok others ∧ List.Forall₂ SameLength parts others ∧
      (parts = others → c.default = d.default) := by
  unfold defaultClause
  rw [← h.type, ← h.db, hprofile]
  by_cases hclock : c.db.defaultNow = true ∧ c.type = .primitive .date
  · have hdefault : c.default = d.default := by
      have hrel := h.default
      rw [hnow hclock.1] at hrel ⊢
      generalize d.default = other at hrel
      cases hrel with
      | none => rfl
    rw [if_pos hclock, if_pos hclock]
    exact ⟨_, _, rfl, rfl, forall₂_sameLength_refl _, fun _ ↦ hdefault⟩
  · have hrel := h.default
    rw [if_neg hclock, if_neg hclock]
    generalize c.default = first at hrel
    generalize d.default = second at hrel
    cases hrel with
    | none => exact ⟨[], [], rfl, rfl, .nil, fun _ ↦ rfl⟩
    | @some a b hvalue =>
      obtain ⟨s, t, hs, ht, hlength, htells⟩ :=
        tells_renderDefault hvalue ⟨some entity, name⟩ c.type
      refine ⟨["DEFAULT " ++ s], ["DEFAULT " ++ t], ?_, ?_, ?_, fun heq ↦ ?_⟩
      · exact congrArg (Except.map _) hs
      · exact congrArg (Except.map _) ht
      · exact .cons (.append rfl hlength) .nil
      · have hliteral := (String.append_right_inj _).mp (List.cons.inj heq).1
        rw [htells hliteral]

theorem tells_columnDefinition (hprofile : g.profile = .of .sqlite)
    (hfallback : g.jsonArrayFallback = true) (h : c.Same d)
    (hnow : c.db.defaultNow = true → c.default = none) (entity name : String) :
    Tells (c.default = d.default) (g.columnDefinition entity name c)
      (g.columnDefinition entity name d) := by
  obtain ⟨parts, others, hparts, hothers, hlengths, htells⟩ :=
    defaultClause_sqlite hprofile h hnow entity name
  obtain ⟨type, htype⟩ := exists_renderType .sqlite c.type
  have haccepts : d.acceptsNull = c.acceptsNull := by
    rw [Column.acceptsNull, Column.acceptsNull, h.nullable, h.optional]
  have hcomment : g.commentClause d = g.commentClause c :=
    commentClause_congr fun _ ↦ h.description.symm
  unfold columnDefinition
  rw [hparts, hothers, haccepts, hcomment, ← h.type, ← h.db, hprofile, hfallback, htype]
  refine ⟨_, _, rfl, rfl, sameLength_intercalate ?_, fun heq ↦ htells ?_⟩
  all_goals
    have hall (first last last' : List String) :
        List.Forall₂ SameLength (first ++ parts ++ last ++ last')
          (first ++ others ++ last ++ last') :=
      List.rel_append (List.rel_append (List.rel_append (forall₂_sameLength_refl first) hlengths)
        (forall₂_sameLength_refl last)) (forall₂_sameLength_refl last')
  · exact hall _ _ _
  · have hjoined := intercalate_inj (hall _ _ _) heq
    exact List.append_cancel_left (List.append_cancel_right (List.append_cancel_right hjoined))

/-! ## Statements -/

variable {columns others : List (String × Column)}

/-- The lines of the statement that creates a table, without their indent. -/
def tableLines (g : Generator) (columns : List (String × Column)) (definitions : List String) :
    List String :=
  definitions ++ g.primaryKeyClause columns

/-- The DDL text of an entity whose columns have given definitions. -/
def script (g : Generator) (e : Entity) (definitions : List String) : String :=
  "\n".intercalate
    (((if g.ifNotExists then "CREATE TABLE IF NOT EXISTS " else "CREATE TABLE ") ++
      g.profile.tableReference (g.tableName e) g.schemaName ++ " (\n" ++
      ",\n".intercalate ((g.tableLines e.storedColumns definitions).map (g.indent ++ ·)) ++
      "\n);") :: (g.indexStatements e ++ g.commentStatements e))

/-- The DDL text of an entity is made from the definitions of its stored columns. -/
theorem render_eq_map_script {e : Entity} (htable : e.table = true) (hstored : e.storedColumns ≠ []) :
    g.render e = (g.columnDefinitions e.name e.storedColumns).map (g.script e) := by
  have hsome : (!e.table || e.storedColumns.isEmpty) = false := by simp [htable, hstored]
  have hmapped : (!e.table) = false := by rw [htable]; rfl
  unfold render statements tableStatement?
  rw [hsome, hmapped]
  cases g.columnDefinitions e.name e.storedColumns <;> rfl

section SameContent

variable {e f : Entity}

theorem forall₂_storedColumns (h : e.SameContent f) :
    List.Forall₂ (fun c d ↦ c.1 = d.1 ∧ c.2.Same d.2) e.storedColumns f.storedColumns := by
  refine List.rel_filter (fun c d hcolumn ↦ ?_) h.columns
  exact iff_of_eq (congrArg (· = true) hcolumn.2.stored)

/-- Apart from the definitions of columns, entities with the same content have the same text. -/
theorem script_congr (h : e.SameContent f) : g.script e = g.script f := by
  have hcolumns := forall₂_storedColumns h
  have hflags : List.Forall₂ (fun c d ↦ c.1 = d.1 ∧ c.2.db = d.2.db) e.storedColumns
      f.storedColumns := hcolumns.imp fun _ _ hcolumn ↦ ⟨hcolumn.1, hcolumn.2.db⟩
  have hcomments : g.commentStatements e = g.commentStatements f :=
    commentStatements_congr h.name h.table fun _ ↦
      hcolumns.imp fun _ _ hcolumn ↦ ⟨hcolumn.1, hcolumn.2.description⟩
  funext definitions
  simp only [script, tableLines, tableName, h.name, primaryKeyClause_congr hflags,
    indexStatements_congr h.name h.table hflags, hcomments]

/-- Texts with definitions of one length are equal only if all definitions are. -/
theorem script_inj {definitions others : List String}
    (hlengths : List.Forall₂ SameLength definitions others)
    (h : g.script e definitions = g.script e others) : definitions = others := by
  have hlines : List.Forall₂ SameLength
      ((g.tableLines e.storedColumns definitions).map (g.indent ++ ·))
      ((g.tableLines e.storedColumns others).map (g.indent ++ ·)) := by
    rw [List.forall₂_map_left_iff, List.forall₂_map_right_iff]
    exact (List.rel_append hlengths (forall₂_sameLength_refl _)).imp fun s t hst ↦ .append rfl hst
  have hstatements := intercalate_inj (.cons
    (.append (.append rfl (sameLength_intercalate hlines)) rfl) (forall₂_sameLength_refl _)) h
  have htable := (String.append_left_inj _).mp (List.cons.inj hstatements).1
  have hjoined := intercalate_inj hlines ((String.append_right_inj _).mp htable)
  have hindent : Function.Injective (g.indent ++ ·) := fun s t hst ↦
    (String.append_right_inj g.indent).mp hst
  exact List.append_cancel_right (List.map_injective_iff.mpr hindent hjoined)

end SameContent

end Generator

end Sql

/-! ## Equal entities -/

/-- The defaults of the columns that are kept in the database. -/
def Entity.storedDefaults (e : Entity) : List (Option Json) :=
  e.storedColumns.map fun column ↦ column.2.default

namespace Sql

namespace Generator

variable {g : Generator} {e f : Entity} {columns others : List (String × Column)}

theorem forall₂_storedAlike
    (h : List.Forall₂ (fun c d ↦ c.1 = d.1 ∧ c.2.Same d.2) columns others)
    (hdefaults : columns.map (·.2.default) = others.map (·.2.default)) (commented : Bool) :
    List.Forall₂ (fun c d ↦ c.1 = d.1 ∧ c.2.StoredAlike commented d.2) columns others := by
  induction h with
  | nil => exact .nil
  | cons hcolumn _ ih =>
    rw [List.map_cons, List.map_cons, List.cons.injEq] at hdefaults
    exact .cons ⟨hcolumn.1, hcolumn.2.storedAlike hdefaults.1 commented⟩ (ih hdefaults.2)

theorem render_of_noTable (htable : e.table = false) :
    g.render e = .ok ("-- Entity " ++ e.name ++ " is not mapped to a table.") := by
  have hmapped : (!e.table) = true := by rw [htable]; rfl
  unfold render
  rw [hmapped]
  rfl

theorem storedColumns_eq_nil_iff (h : e.SameContent f) :
    e.storedColumns = [] ↔ f.storedColumns = [] := by
  have hcolumns := forall₂_storedColumns h
  refine ⟨fun hnil ↦ ?_, fun hnil ↦ ?_⟩
  · rw [hnil] at hcolumns
    exact List.forall₂_nil_left_iff.mp hcolumns
  · rw [hnil] at hcolumns
    exact List.forall₂_nil_right_iff.mp hcolumns

theorem render_congr (h : e.SameContent f)
    (hdefaults : e.table = true → e.storedDefaults = f.storedDefaults) : g.render e = g.render f := by
  cases htable : e.table with
  | false => rw [render_of_noTable htable, render_of_noTable (h.table ▸ htable), h.name]
  | true =>
    apply render_of_storedAlike
    exact ⟨h.name, h.table, forall₂_storedAlike (forall₂_storedColumns h) (hdefaults htable) _⟩

theorem columnDefinitions_sqlite (hprofile : g.profile = .of .sqlite)
    (hfallback : g.jsonArrayFallback = true)
    (h : List.Forall₂ (fun c d ↦ c.1 = d.1 ∧ c.2.Same d.2) columns others)
    (hnow : ∀ column ∈ columns, column.2.db.defaultNow = true → column.2.default = none)
    (entity : String) :
    ∃ definitions rest, g.columnDefinitions entity columns = .ok definitions ∧
      g.columnDefinitions entity others = .ok rest ∧ List.Forall₂ SameLength definitions rest ∧
      (definitions = rest → columns.map (·.2.default) = others.map (·.2.default)) := by
  induction h with
  | nil => exact ⟨[], [], rfl, rfl, .nil, fun _ ↦ rfl⟩
  | cons hcolumn _ ih =>
    rw [List.forall_mem_cons] at hnow
    obtain ⟨s, t, hs, ht, hlength, htells⟩ :=
      tells_columnDefinition hprofile hfallback hcolumn.2 hnow.1 entity _
    obtain ⟨definitions, rest, hdefinitions, hrest, hlengths, htell⟩ := ih hnow.2
    refine ⟨s :: definitions, t :: rest, ?_, ?_, .cons hlength hlengths, fun heq ↦ ?_⟩
    · rw [columnDefinitions_cons, hs, hdefinitions]
      rfl
    · rw [columnDefinitions_cons, ← hcolumn.1, ht, hrest]
      rfl
    · obtain ⟨hfirst, hothers⟩ := List.cons.inj heq
      rw [List.map_cons, List.map_cons, htells hfirst, htell hothers]

/-- The text for the dialect without arrays shows the defaults of all stored columns. -/
theorem storedDefaults_eq_of_render_eq (hprofile : g.profile = .of .sqlite)
    (hfallback : g.jsonArrayFallback = true) (h : e.SameContent f) (htable : e.table = true)
    (hnow : ∀ column ∈ e.columns, column.2.db.defaultNow = true → column.2.default = none)
    (hrender : g.render e = g.render f) : e.storedDefaults = f.storedDefaults := by
  by_cases hstored : e.storedColumns = []
  · rw [Entity.storedDefaults, Entity.storedDefaults, hstored,
      (storedColumns_eq_nil_iff h).mp hstored]
  · obtain ⟨definitions, rest, hdefinitions, hrest, hlengths, htell⟩ :=
      columnDefinitions_sqlite hprofile hfallback (forall₂_storedColumns h)
        (fun column hmem ↦ hnow column (List.mem_of_mem_filter hmem)) e.name
    rw [render_eq_map_script htable hstored, render_eq_map_script (h.table ▸ htable)
      (mt (storedColumns_eq_nil_iff h).mpr hstored), ← h.name, hdefinitions, hrest,
      ← script_congr h] at hrender
    exact htell (script_inj hlengths (Except.ok.inj hrender))

end Generator

/-! ## Two orders of the same members -/

/-- A default with two members, in one order. -/
def inOrder : Value := .ofFields [("first", .int 1), ("second", .int 2)]

/-- The same default in the other order. -/
def outOfOrder : Value := .ofFields [("second", .int 2), ("first", .int 1)]

def inOrderJson : Json := .object [("first", .int 1), ("second", .int 2)]

def outOfOrderJson : Json := .object [("second", .int 2), ("first", .int 1)]

theorem build_inOrder :
    Entity.build (tableColumn .json inOrder) = .ok (tableEntity .json inOrder inOrderJson) :=
  build_tableColumn rfl nofun rfl

theorem build_outOfOrder : Entity.build (tableColumn .json outOfOrder) =
    .ok (tableEntity .json outOfOrder outOfOrderJson) :=
  build_tableColumn rfl nofun rfl

theorem same_outOfOrder : List.Forall₂ (fun c d : String × Column ↦ c.1 = d.1 ∧ c.2.Same d.2)
    (tableEntity .json inOrder inOrderJson).columns
    (tableEntity .json outOfOrder outOfOrderJson).columns :=
  .cons ⟨rfl, rfl, rfl, rfl, .some (.permutation (.swap _ _ _)), rfl, rfl, rfl, rfl, .none, rfl⟩ .nil

theorem payloadOf_outOfOrder : Entity.payloadOf (tableColumn .json inOrder) =
    Entity.payloadOf (tableColumn .json outOfOrder) := by
  have hspec : (tableSpecification .json inOrder).Holds Value.Keyed := by
    refine ⟨⟨fun column hmem value hvalue ↦ ?_, fun column hmem value hvalue ↦ ?_⟩,
      fun docs hdocs ↦ ?_⟩
    · obtain rfl := List.mem_singleton.mp hmem
      obtain rfl := Option.some.inj hvalue
      simp [inOrder, Value.ofFields, Value.keyed_dict, Value.Keyed]
    · obtain rfl := List.mem_singleton.mp hmem
      cases hvalue
    · cases hdocs
  have hbuild : (tableSpecification .json inOrder).build =
      .ok (tableEntity .json inOrder inOrderJson) :=
    Validation.build_single rfl rfl rfl rfl (by simp [inOrder, Value.ofFields]) rfl
  have hother : (tableSpecification .json outOfOrder).build =
      .ok (tableEntity .json outOfOrder outOfOrderJson) :=
    Validation.build_single rfl rfl rfl rfl (by simp [outOfOrder, Value.ofFields]) rfl
  have hreordered := Specification.reordered_canonical
    (.refl (tableSpecification .json inOrder)) same_outOfOrder
  have hsorted := Json.sortKeys_eq_of_reordered hreordered
    (Specification.keyed_canonical hspec hbuild)
  rw [Entity.payloadOf_eq_ok (by rfl) hbuild, Entity.payloadOf_eq_ok (by rfl) hother]
  exact congrArg (fun value : Json ↦ Except.ok (String.ofList (value.chars .ascii))) hsorted

theorem agrees_outOfOrder : (tableEntity .json inOrder inOrderJson).Agrees
    (tableEntity .json outOfOrder outOfOrderJson) where
  content := ⟨rfl, rfl, same_outOfOrder, rfl, rfl, rfl, rfl, rfl⟩
  fingerprint :=
    Entity.fingerprint_eq_of_payloadOf_eq build_inOrder build_outOfOrder payloadOf_outOfOrder
  examples := .refl _

theorem alike_outOfOrder : (tableEntity .json inOrder inOrderJson).alike
    (tableEntity .json outOfOrder outOfOrderJson) = true :=
  Entity.alike_of_agrees agrees_outOfOrder trivial

theorem storedDefaults_outOfOrder : (tableEntity .json inOrder inOrderJson).storedDefaults ≠
    (tableEntity .json outOfOrder outOfOrderJson).storedDefaults := by
  simp [Entity.storedDefaults, Entity.storedColumns, tableEntity, Specification.freeze, inOrderJson,
    outOfOrderJson]

/-! ## Equal texts -/

/-- Equal entities have the same DDL text, or the same failure, in all dialects and under all settings
exactly when the members in the defaults of their stored columns are in the same order, provided that
they have a table at all. -/
theorem toDdl_eq_iff_of_alike {S : Set Value} (hfree : CollisionFree S) {v w : Value}
    {e f : Entity} (hvmem : v ∈ S) (hwmem : w ∈ S) (hv : Entity.build v = .ok e)
    (hw : Entity.build w = .ok f) (halike : e.alike f = true) :
    (∀ settings dialect, toDdl settings dialect e = toDdl settings dialect f) ↔
      (e.table = true → e.storedDefaults = f.storedDefaults) := by
  have hfingerprint : e.fingerprint = f.fingerprint :=
    of_decide_eq_true (Bool.and_eq_true_iff.mp halike).2
  have hpayload := Entity.payloadOf_eq_of_fingerprint_eq hfree hvmem hwmem hv hw hfingerprint
  have hsame := Entity.sameContent_of_payloadOf_eq hv hw hpayload
  refine ⟨fun htexts htable ↦ ?_, fun hdefaults settings dialect ↦ ?_⟩
  · have hdialect : Dialect.resolve (.text "sqlite") = .ok .sqlite := rfl
    obtain ⟨g, hg, hprofile, hkept⟩ := Generator.exists_resolve_named hdialect
    have hnow (column : String × Column) (hmem : column ∈ e.columns)
        (hclock : column.2.db.defaultNow = true) : column.2.default = none :=
      (((Entity.wellFormed_of_build hv).columns column hmem).defaultNow hclock).2
    have htext := htexts {} (some (.text "sqlite"))
    rw [toDdl, toDdl, hg] at htext
    exact Generator.storedDefaults_eq_of_render_eq hprofile hkept hsame htable hnow htext
  · unfold toDdl
    exact congrArg _ (funext fun g ↦ Generator.render_congr hsame hdefaults)

theorem toDdl_eq_iff_of_alike_outOfOrder :
    let v := tableColumn .json inOrder
    let w := tableColumn .json outOfOrder
    let e := tableEntity .json inOrder inOrderJson
    let f := tableEntity .json outOfOrder outOfOrderJson
    CollisionFree {v, w} ∧ v ∈ ({v, w} : Set Value) ∧ w ∈ ({v, w} : Set Value) ∧
      Entity.build v = .ok e ∧ Entity.build w = .ok f ∧ e.alike f = true ∧
      ¬∀ settings dialect, toDdl settings dialect e = toDdl settings dialect f := by
  intro v w e f
  have hfree : CollisionFree {v, w} := collisionFree_pair payloadOf_outOfOrder
  have hvmem : v ∈ ({v, w} : Set Value) := Set.mem_insert v {w}
  have hwmem : w ∈ ({v, w} : Set Value) := Set.mem_insert_of_mem v rfl
  refine ⟨hfree, hvmem, hwmem, build_inOrder, build_outOfOrder, alike_outOfOrder, fun htexts ↦ ?_⟩
  have hdefaults := (toDdl_eq_iff_of_alike hfree hvmem hwmem build_inOrder build_outOfOrder
    alike_outOfOrder).mp htexts rfl
  exact storedDefaults_outOfOrder hdefaults

/-- Equal entities with different DDL texts. -/
theorem toDdl_ne_outOfOrder :
    let e := tableEntity .json inOrder inOrderJson
    let f := tableEntity .json outOfOrder outOfOrderJson
    Entity.build (tableColumn .json inOrder) = .ok e ∧
      Entity.build (tableColumn .json outOfOrder) = .ok f ∧ e.alike f = true ∧
      toDdl {} (some (.text "sqlite")) e ≠ toDdl {} (some (.text "sqlite")) f := by
  intro e f
  refine ⟨build_inOrder, build_outOfOrder, alike_outOfOrder, fun htext ↦ ?_⟩
  have hdialect : Dialect.resolve (.text "sqlite") = .ok .sqlite := rfl
  obtain ⟨g, hg, hprofile, hkept⟩ := Generator.exists_resolve_named hdialect
  have hnow (column : String × Column) (hmem : column ∈ e.columns)
      (hclock : column.2.db.defaultNow = true) : column.2.default = none := by
    obtain rfl := List.mem_singleton.mp hmem
    cases hclock
  rw [toDdl, toDdl, hg] at htext
  exact storedDefaults_outOfOrder (Generator.storedDefaults_eq_of_render_eq hprofile hkept
    agrees_outOfOrder.content rfl hnow htext)

end Sql

end EntityCompiler

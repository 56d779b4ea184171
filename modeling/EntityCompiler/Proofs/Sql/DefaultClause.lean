import EntityCompiler.Proofs.Sql.Lossless
import EntityCompiler.Proofs.Sql.Sealed

/-!
# Defaults in tables

The definition of a column has one default clause if the column has a default or is filled with the current
time, and none otherwise; whatever stands in names, defaults and comments is no clause.  The literal in the
clause determines the default.
-/

namespace EntityCompiler.Sql

namespace Generator

variable {g : Generator} {d : Dialect} {e : Entity} {v : Value} {column : String × Column}

/-! ## Identifiers -/

theorem toList_identifier_mysql {name : String} (hname : '\x60' ∉ name.toList) :
    ((Profile.of .mysql).identifier name).toList = '\x60' :: name.toList ++ ['\x60'] := by
  have hquoted : ((Profile.of .mysql).identifier name).toList =
      Token.spelling (.quoted '\x60' name.toList) := toList_enclosed rfl name
  rw [hquoted, Token.spelling, doubled_of_notMem hname]

/-- The characters of the names of columns are parts of words. -/
theorem inWord_of_isColumnName {name : String} (h : Naming.isColumnName name = true) :
    ∀ c ∈ name.toList, isWordChar c = true := by
  unfold Naming.isColumnName at h
  cases hchars : name.toList with
  | nil => exact nofun
  | cons first rest =>
    rw [hchars, Bool.and_eq_true, List.all_eq_true] at h
    refine List.forall_mem_cons.mpr ⟨?_, h.2⟩
    rw [isWordChar, h.1]
    rfl

/-- An identifier is spelled by neat tokens among which the keyword does not occur, also if it is the name. -/
theorem exists_identifierTokens (hprofile : g.profile = .of d) {name : String}
    (hname : Naming.isColumnName name = true) :
    ∃ tokens, Neat false tokens ∧ spell tokens = (g.profile.identifier name).toList ∧
      countDefault tokens = 0 := by
  by_cases hdialect : d = .postgres ∨ d = .sqlite
  · refine ⟨[nameToken name], neat_nameToken name, ?_, countDefault_cons rfl []⟩
    rw [spell_cons, spell_nil, List.append_nil, spelling_nameToken hprofile hdialect]
  · obtain rfl : d = .mysql := by cases d <;> simp at hdialect ⊢
    have hkind := inWord_of_isColumnName hname
    have hquote : '\x60' ∉ name.toList := fun hmem ↦ absurd (hkind _ hmem) (by decide)
    have hchars := toList_identifier_mysql hquote
    rw [hprofile]
    generalize (Profile.of .mysql).identifier name = identifier at hchars
    have hall : ∀ c ∈ identifier.toList, c = '\x60' ∨ c ∈ name.toList := by
      intro c hc
      simpa [hchars, or_comm, or_assoc] using hc
    refine ⟨unquoted identifier, ?_, spell_unquoted identifier, countDefault_word ?_ ?_⟩
    · have hneat : Neat false (unquoted identifier ++ []) := by
        refine .plain_append (List.all_eq_true.mpr fun c hc ↦ ?_) .nil
        rcases hall c hc with rfl | hmem
        · decide
        · exact isPlain_of_kind (by decide) (hkind c hmem)
      rwa [List.append_nil] at hneat
    · intro token htoken
      obtain ⟨c, hc, rfl⟩ := List.mem_map.mp htoken
      rcases hall c hc with rfl | hmem
      · decide
      · rw [Token.inWord, hkind c hmem]
        rfl
    · rw [unquoted, hchars]
      exact fun heq ↦ absurd (List.cons.inj heq).1 (by decide)

/-! ## Clauses -/

theorem length_defaultClause (hbuild : Entity.build v = .ok e) (hmem : column ∈ e.columns)
    {entity name : String} {default : List String}
    (h : g.defaultClause entity name column.2 = .ok default) :
    default.length = if column.2.default.isSome || column.2.db.defaultNow then 1 else 0 := by
  have hwell := (Entity.wellFormed_of_build hbuild).columns column hmem
  unfold defaultClause at h
  by_cases hnow : column.2.db.defaultNow = true
  · rw [if_pos ⟨hnow, (hwell.defaultNow hnow).1⟩] at h
    rw [← Except.ok.inj h, hnow, Bool.or_true]
    rfl
  · rw [if_neg fun hboth ↦ hnow hboth.1] at h
    cases hdefault : column.2.default with
    | none =>
      rw [hdefault] at h
      rw [← Except.ok.inj h]
      simp [hnow]
    | some value =>
      rw [hdefault] at h
      obtain ⟨literal, -, rfl⟩ := map_eq_ok_iff.mp h
      rfl

/-- The definition of a column of an accepted entity has one default clause or none. -/
theorem countDefault_columnDefinition (hprofile : g.profile = .of d)
    (hbuild : Entity.build v = .ok e) (hmem : column ∈ e.columns) {entity definition : String}
    (h : g.columnDefinition entity column.1 column.2 = .ok definition) :
    ∃ tokens, scan definition = some tokens ∧ countDefault tokens =
      if column.2.default.isSome || column.2.db.defaultNow then 1 else 0 := by
  have hname := (Entity.wellFormed_of_build hbuild).columnNames column hmem
  obtain ⟨first, hfirst, hspell, hnone⟩ := exists_identifierTokens hprofile hname
  obtain ⟨rest, default, hneat, hall, hdefault, hcount⟩ :=
    exists_tokens_of_name hprofile hfirst hspell h
  refine ⟨first ++ rest, scan_eq_some_of_neat hneat hall, ?_⟩
  rw [hcount, hnone, Nat.zero_add, length_defaultClause hbuild hmem hdefault]

end Generator

/-! ## Defaults -/

variable {v w : Value} {e f : Entity} {d : Dialect}

/-- Rendering defaults loses nothing.  The defaults of two columns of one type have literals, and these are
the same text only if the defaults are the same value, unless the dialect moves dates to universal time and
the columns are dates.  Where arrays are kept as JSON if need be and no date leaves the calendar, a table
with stored columns has a statement; in the definition of each column there, the keyword of a default clause
stands once outside of quotes if the column has a default or is filled with the current time, and nowhere
otherwise. -/
theorem defaults_lossless (he : Entity.build v = .ok e) (hf : Entity.build w = .ok f) (d : Dialect) :
    (∀ column ∈ e.columns, ∀ other ∈ f.columns, column.2.type = other.2.type →
      (d = .mysql → column.2.type ≠ .primitive .date) →
      ∀ a b, column.2.default = some a → other.2.default = some b → ∀ subject subject',
        ∃ text, renderDefault (.of d) subject column.2.type a = .ok text ∧
          (renderDefault (.of d) subject' other.2.type b = .ok text → a = b)) ∧
    ∀ g : Generator, g.profile = .of d →
      (g.jsonArrayFallback = true → e.RendersIn d → e.table = true → e.storedColumns ≠ [] →
        ∃ text, g.tableStatement? e = .ok (some text)) ∧
      ∀ text, g.tableStatement? e = .ok (some text) → ∃ definitions,
        text = g.tableText e (definitions ++ g.primaryKeyClause e.storedColumns) ∧
        List.Forall₂ (fun column definition ↦
          g.columnDefinition e.name column.1 column.2 = .ok definition ∧
          ∃ tokens, scan definition = some tokens ∧ countDefault tokens =
            if column.2.default.isSome || column.2.db.defaultNow then 1 else 0)
          e.storedColumns definitions := by
  refine ⟨fun column hcolumn other hother htype hdate a b ha hb subject subject' ↦ ?_,
    fun g hprofile ↦ ⟨fun hfallback hrenders htable hstored ↦ ?_, fun text htext ↦ ?_⟩⟩
  · obtain ⟨_, spec, hspec⟩ := Validation.exists_build_of_mem he hcolumn
    obtain ⟨_, spec', hspec'⟩ := Validation.exists_build_of_mem hf hother
    have hforma := (ColumnSpecification.form_default hspec ha).imp_left And.left
    have hformb := (ColumnSpecification.form_default hspec' hb).imp_left And.left
    have hfails : FailsWith (defaultFailure? d column.2.type a)
        (renderDefault (.of d) subject column.2.type a) :=
      renderDefault_failsWith (hforma.imp_right And.right)
    obtain ⟨text, htext⟩ := hfails.success (defaultFailure?_eq_none_iff.mpr fun hd hdated ↦
      absurd hdated (hdate hd))
    rw [← htype] at hformb ⊢
    exact ⟨text, htext, fun htext' ↦ renderDefault_inj hdate hforma hformb htext htext'⟩
  · exact Generator.exists_tableStatement_of_rendersIn hprofile hfallback he hrenders htable hstored
  · obtain ⟨-, -, definitions, hdefinitions, hlines⟩ :=
      Generator.tableStatement?_eq_ok_some_iff.mp htext
    refine ⟨definitions, hlines, (forall₂_and_mem hdefinitions).imp fun column definition hcolumn ↦ ?_⟩
    exact ⟨hcolumn.2, Generator.countDefault_columnDefinition hprofile he
      (List.mem_of_mem_filter hcolumn.1.1) hcolumn.2⟩

/-- The floating-point number that equals one. -/
def floatOne : Finite64 := ⟨false, ⟨1023, by decide⟩, ⟨0, by decide⟩⟩

theorem defaults_lossless_one :
    let e := tableEntity .number (.int 1) (.int 1)
    let f := tableEntity .number (.float (.finite floatOne)) (.float floatOne)
    let g : Generator := {
      profile := .of .mysql, naming := .entity, schemaName := none, ifNotExists := true
      jsonArrayFallback := true, includeComments := true, indent := "  " }
    let subject : Subject := ⟨some "Book", "data"⟩
    Entity.build (tableColumn .number (.int 1)) = .ok e ∧
      Entity.build (tableColumn .number (.float (.finite floatOne))) = .ok f ∧
      (∃ text, renderDefault (.of .mysql) subject (.primitive .number) (.int 1) = .ok text ∧
        renderDefault (.of .mysql) subject (.primitive .number) (.float floatOne) ≠ .ok text) ∧
      ∃ text definition tokens, g.tableStatement? e = .ok (some text) ∧
        text = g.tableText e [definition] ∧ scan definition = some tokens ∧ countDefault tokens = 1 := by
  intro e f g subject
  have he : Entity.build (tableColumn .number (.int 1)) = .ok e := build_tableColumn rfl (by simp) rfl
  have hf : Entity.build (tableColumn .number (.float (.finite floatOne))) = .ok f :=
    build_tableColumn rfl (by simp) rfl
  have hrenders : e.RendersIn .mysql := by
    rintro - - column hmem value - htype
    obtain rfl := List.mem_singleton.mp hmem
    exact nomatch htype
  obtain ⟨hliterals, hclauses⟩ := defaults_lossless he hf .mysql
  obtain ⟨text, htext, hsame⟩ := hliterals _ List.mem_cons_self _ List.mem_cons_self rfl nofun
    (.int 1) (.float floatOne) rfl rfl subject subject
  obtain ⟨hexists, hall⟩ := hclauses g rfl
  obtain ⟨statement, hstatement⟩ := hexists rfl hrenders rfl (List.cons_ne_nil _ _)
  obtain ⟨definitions, hlines, hdefinitions⟩ := hall statement hstatement
  refine ⟨he, hf, ⟨text, htext, fun hother ↦ nomatch hsame hother⟩, ?_⟩
  cases hdefinitions with
  | @cons _ definition _ _ hfirst hrest =>
    cases hrest
    obtain ⟨-, tokens, hscan, hcount⟩ := hfirst
    exact ⟨statement, definition, tokens, hstatement, hlines, hscan, hcount⟩

end EntityCompiler.Sql

import EntityCompiler.Entity.Build
import EntityCompiler.Proofs.Column.Respelled
import EntityCompiler.Proofs.Entity.Canonical
import EntityCompiler.Proofs.Specification.Entries
import EntityCompiler.Proofs.Value.Dump

/-!
# Spellings of specifications

A specification may be written in many ways: with its entries in any order, with or without the
settings that have their defaults, and with either spelling of a key.  Reading gives the same for all
of them, up to what columns keep of their literals.
-/

namespace EntityCompiler

open Checked Shape Value

/-- A change in the spelling of a dictionary. -/
inductive DictStep (defaults : List (String × Value)) (spelled : Option (String × String))
    (part : List (Value × Value) → String → Value → Value → Prop) : Value → Value → Prop
  | dict {entries others : List (Value × Value)} :
      EntriesStep defaults spelled (part entries) entries others →
      DictStep defaults spelled part (.dict entries) (.dict others)

section Entries

variable {defaults : List (String × Value)} {spelled : Option (String × String)}
  {part : String → Value → Value → Prop} {entries others : List (Value × Value)}

/-- Parts of dictionaries with distinct textual keys have such keys themselves. -/
theorem entriesStep_keyed (h : EntriesStep defaults spelled part entries others)
    (hentries : (Value.dict entries).Keyed) (hothers : (Value.dict others).Keyed) :
    EntriesStep defaults spelled (fun key v w ↦ part key v w ∧ v.Keyed ∧ w.Keyed) entries others := by
  cases h with
  | permutation hperm => exact .permutation hperm
  | unset _ hdefault hunspelled => exact .unset _ hdefault hunspelled
  | part before after hpart =>
    exact .part before after ⟨hpart, keyed_middle hentries, keyed_middle hothers⟩
  | rename v before after hspelled => exact .rename v before after hspelled

/-- A setting that no change bears on but the one that gives its default. -/
theorem agree_setting {α : Type} {absent : α} {key : String} {read : Value → Checked α}
    (h : EntriesStep defaults spelled part entries others) (hentries : (Value.dict entries).Keyed)
    (hothers : (Value.dict others).Keyed)
    (hkey : ∀ label other, spelled = some (label, other) → key ≠ label ∧ key ≠ other)
    (hunset : ∀ value, (key, value) ∈ defaults → Agree Eq (.accepted absent) (read value))
    (hpart : ∀ v w, ¬part key v w) :
    Agree Eq (optional absent key read entries) (optional absent key read others) :=
  agree_optional Eq.refl
    (partRel_of_step h hentries.distinctTexts hothers.distinctTexts key hkey) hunset
    fun v w hvw ↦ absurd hvw (hpart v w)

end Entries

/-! ## Storage flags -/

namespace StorageFlags

/-- The settings of storage flags that may be left out. -/
def defaults : List (String × Value) :=
  [("primary", .bool false), ("unique", .bool false), ("index", .bool false),
    ("default_now", .bool false)]

/-- One change in the spelling of storage flags. -/
def Step : Value → Value → Prop :=
  DictStep defaults (some ("default_now", "defaultNow")) fun _ _ _ _ ↦ False

theorem agree_of_step {v w : Value} (h : Step v w) (hv : v.Keyed) (hw : w.Keyed) :
    Agree Eq (ofValue v) (ofValue w) := by
  obtain @⟨entries, others, hstep⟩ := h
  have hflag {key : String} (hkey : key ∈ ["primary", "unique", "index"]) :
      Agree Eq (Shape.optional false key flag entries) (Shape.optional false key flag others) := by
    refine agree_setting hstep hv hw ?_ ?_ (by simp)
    · rintro _ _ ⟨⟩
      constructor <;> rintro rfl <;> simp at hkey
    · intro value hdefault
      obtain rfl : value = .bool false := by
        simp only [defaults, List.mem_cons, Prod.mk.injEq] at hdefault
        grind
      exact agree_accepted.mpr rfl
  have hspelling := spellingRel_of_step hstep hv.distinctTexts hw.distinctTexts
    (by decide) (by simp [defaults])
  have hnow : Agree Eq
      (Shape.optional false (spelling "default_now" ["defaultNow"] entries) flag entries)
      (Shape.optional false (spelling "default_now" ["defaultNow"] others) flag others) :=
    agree_optional Eq.refl (partRel_spelling hspelling (by simp) (by simp [defaults]))
      (by simp [defaults, flag]) (by simp)
  have hothers := toOption_noOthers_spelling hstep hv hw (by decide) (by simp [defaults])
    (fun now ↦ ["primary", "unique", "index", now]) ["primary", "unique", "index"]
    (by simp; grind) (by simp [defaults]; grind)
  refine agree_seqLeft (agree_seq (R := Eq) (agree_seq (R := Eq) (agree_seq (R := Eq)
    (agree_map (R := Eq) ?_ (hflag (by simp))) (hflag (by simp))) (hflag (by simp))) hnow) hothers
  rintro primary _ rfl unique _ rfl index _ rfl now _ rfl
  rfl

end StorageFlags

/-! ## Columns -/

namespace ColumnSpecification

/-- The settings of a column that may be left out. -/
def defaults : List (String × Value) :=
  [("optional", .bool false), ("nullable", .bool false), ("description", .null),
    ("visibility", .text "public"), ("immutable", .bool false), ("stored", .bool true),
    ("db", .dict [])]

/-- Whether the entries of a column say that it has a given type. -/
def HasType (entries : List (Value × Value)) (type : ColumnType) : Prop :=
  ∃ raw, lookup? "type" entries = some raw ∧ ColumnType.parse raw = .ok type

/-- One change in the spelling of a part of a column. -/
inductive PartStep (entries : List (Value × Value)) : String → Value → Value → Prop
  | type {v w : Value} : ColumnType.TypeStep v w → PartStep entries "type" v w
  | literal {key : String} {v w : Value} :
      key ∈ ["default", "example"] → LiteralStep v w → PartStep entries key v w
  | date {key : String} {type : ColumnType} {v w : Value} :
      key ∈ ["default", "example"] → HasType entries type → Literal.DateStep type v w →
      PartStep entries key v w
  | db {v w : Value} : StorageFlags.Step v w → PartStep entries "db" v w

theorem PartStep.key_mem {entries : List (Value × Value)} {key : String} {v w : Value}
    (h : PartStep entries key v w) : key ∈ ["type", "default", "example", "db"] := by
  cases h with
  | type _ => simp
  | literal hkey _ => simp at hkey ⊢; tauto
  | date hkey _ _ => simp at hkey ⊢; tauto
  | db _ => simp

theorem PartStep.typeStep {entries : List (Value × Value)} {key : String} {v w : Value}
    (h : PartStep entries key v w) (hkey : key = "type") : ColumnType.TypeStep v w := by
  cases h with
  | type htype => exact htype
  | literal hliteral _ => simp [hkey] at hliteral
  | date hliteral _ _ => simp [hkey] at hliteral
  | db _ => simp at hkey

theorem PartStep.flagsStep {entries : List (Value × Value)} {key : String} {v w : Value}
    (h : PartStep entries key v w) (hkey : key = "db") : StorageFlags.Step v w := by
  cases h with
  | type _ => simp at hkey
  | literal hliteral _ => simp [hkey] at hliteral
  | date hliteral _ _ => simp [hkey] at hliteral
  | db hflags => exact hflags

/-- One change in the spelling of a column. -/
def Step : Value → Value → Prop :=
  DictStep defaults none PartStep

/-- Columns that are built alike: the literals agree for the type that both have. -/
structure Alike (c d : ColumnSpecification) : Prop where
  type : (ColumnType.parse c.type).toOption = (ColumnType.parse d.type).toOption
  default : ∀ type, ColumnType.parse c.type = .ok type →
    Option.Rel (Literal.Alike type) c.default d.default
  sample : ∀ type, ColumnType.parse c.type = .ok type →
    Option.Rel (Literal.Alike type) c.sample d.sample
  settings : c.freeze = d.freeze

theorem Alike.refl (c : ColumnSpecification) : Alike c c :=
  ⟨rfl, fun type _ ↦ rel_of_eq (Literal.Alike.refl type) rfl,
    fun type _ ↦ rel_of_eq (Literal.Alike.refl type) rfl, rfl⟩

theorem Alike.parse_eq_ok_iff {c d : ColumnSpecification} (h : Alike c d) {type : ColumnType} :
    ColumnType.parse c.type = .ok type ↔ ColumnType.parse d.type = .ok type := by
  rw [← toOption_eq_some_iff, ← toOption_eq_some_iff, h.type]

theorem Alike.symm {c d : ColumnSpecification} (h : Alike c d) : Alike d c :=
  ⟨h.type.symm,
    fun type htype ↦ rel_symm (fun _ _ hvalue ↦ hvalue.symm) (h.default type (h.parse_eq_ok_iff.mpr htype)),
    fun type htype ↦ rel_symm (fun _ _ hvalue ↦ hvalue.symm) (h.sample type (h.parse_eq_ok_iff.mpr htype)),
    h.settings.symm⟩

theorem Alike.trans {b c d : ColumnSpecification} (hbc : Alike b c) (hcd : Alike c d) : Alike b d :=
  ⟨hbc.type.trans hcd.type,
    fun type htype ↦ rel_trans (fun _ _ _ h h' ↦ h.trans h') (hbc.default type htype)
      (hcd.default type (hbc.parse_eq_ok_iff.mp htype)),
    fun type htype ↦ rel_trans (fun _ _ _ h h' ↦ h.trans h') (hbc.sample type htype)
      (hcd.sample type (hbc.parse_eq_ok_iff.mp htype)),
    hbc.settings.trans hcd.settings⟩

variable {entries others : List (Value × Value)}

theorem rel_literal_of_step (h : EntriesStep defaults none (PartStep entries) entries others)
    (hentries : (Value.dict entries).Keyed) (hothers : (Value.dict others).Keyed) {key : String}
    (hkey : key ∈ ["default", "example"]) {type : ColumnType} (htype : HasType entries type) :
    Option.Rel (Literal.Alike type) (lookup? key entries) (lookup? key others) := by
  have hpart := partRel_of_step h hentries.distinctTexts hothers.distinctTexts key (by simp)
  refine hpart.rel (Literal.Alike.refl type) ?_ fun v w hvw ↦ ?_
  · intro value hdefault
    simp only [defaults, List.mem_cons, Prod.mk.injEq] at hdefault
    grind
  · cases hvw with
    | type _ => simp at hkey
    | literal _ hstep => exact Literal.alike_of_literalStep hstep type
    | date _ hother hstep =>
      obtain ⟨raw, hraw, hparse⟩ := htype
      obtain ⟨other, hothertype, hotherparse⟩ := hother
      obtain rfl := Option.some.inj (hraw.symm.trans hothertype)
      obtain rfl := Except.ok.inj (hparse.symm.trans hotherparse)
      exact Literal.alike_of_dateStep hstep
    | db _ => simp at hkey

/-- A column reads alike in all its spellings. -/
theorem agree_of_step {v w : Value} (h : Step v w) (hv : v.Keyed) (hw : w.Keyed) :
    Agree Alike (ofValue v) (ofValue w) := by
  obtain @⟨entries, others, hstep⟩ := h
  have hpart := fun key ↦ partRel_of_step (entriesStep_keyed hstep hv hw) hv.distinctTexts
    hw.distinctTexts key (by simp)
  have hsetting {α : Type} (absent : α) (key : String) (read : Value → Checked α)
      (hkey : key ∉ ["type", "default", "example", "db"])
      (hunset : ∀ value, (key, value) ∈ defaults → Agree Eq (.accepted absent) (read value)) :
      Agree Eq (Shape.optional absent key read entries) (Shape.optional absent key read others) := by
    exact agree_setting hstep hv hw (by simp) hunset fun v w hvw ↦ hkey hvw.key_mem
  have htype : Agree (fun a b ↦ lookup? "type" entries = some a ∧
        (ColumnType.parse a).toOption = (ColumnType.parse b).toOption)
      (Shape.required "type" Shape.any entries) (Shape.required "type" Shape.any others) := by
    refine agree_required (hpart "type") (by simp [defaults]) ?_ ?_
    · exact fun v hv ↦ agree_accepted.mpr ⟨hv, rfl⟩
    · rintro v w hv ⟨hvw, -⟩
      exact agree_accepted.mpr ⟨hv, ColumnType.toOption_parse_of_step (hvw.typeStep rfl)⟩
  have hdb : Agree Eq (Shape.optional {} "db" StorageFlags.ofValue entries)
      (Shape.optional {} "db" StorageFlags.ofValue others) := by
    refine agree_optional Eq.refl (hpart "db") ?_ ?_
    · intro value hdefault
      obtain rfl : value = .dict [] := by simpa [defaults] using hdefault
      exact agree_accepted.mpr rfl
    · rintro v w ⟨hvw, hkeyed, hother⟩
      exact StorageFlags.agree_of_step (hvw.flagsStep rfl) hkeyed hother
  have hliteral {key : String} (hkey : key ∈ ["default", "example"]) :
      Agree (fun x y ↦ ∀ type, HasType entries type → Option.Rel (Literal.Alike type) x y)
        (.accepted (lookup? key entries)) (.accepted (lookup? key others)) :=
    agree_accepted.mpr fun type htype ↦ rel_literal_of_step hstep hv hw hkey htype
  have hothers := toOption_noOthers_of_step hstep hv hw
    ["type", "optional", "nullable", "default", "description", "visibility",
        "immutable", "stored", "example", "db"] (by simp [defaults]; grind)
  refine agree_seqLeft (agree_seq (R := Eq) (agree_seq (agree_seq (R := Eq) (agree_seq (R := Eq)
    (agree_seq (R := Eq) (agree_seq (R := Eq) (agree_seq (agree_seq (R := Eq) (agree_seq (R := Eq)
    (agree_map ?_ htype)
    (hsetting _ _ _ (by simp) ?_)) (hsetting _ _ _ (by simp) ?_)) (hliteral (by simp)))
    (hsetting _ _ _ (by simp) ?_)) (hsetting _ _ _ (by simp) ?_)) (hsetting _ _ _ (by simp) ?_))
    (hsetting _ _ _ (by simp) ?_)) (hliteral (by simp))) hdb) hothers
  · rintro type other ⟨hraw, htype⟩ optional _ rfl nullable _ rfl default otherDefault hdefault
      description _ rfl visibility _ rfl immutable _ rfl stored _ rfl sample otherSample hsample
      db _ rfl
    exact ⟨htype, fun type hparse ↦ hdefault type ⟨_, hraw, hparse⟩,
      fun type hparse ↦ hsample type ⟨_, hraw, hparse⟩, rfl⟩
  all_goals
    intro value hdefault
    simp [defaults] at hdefault
    subst hdefault
    exact agree_accepted.mpr rfl

end ColumnSpecification

/-! ## API settings and documentation -/

namespace ApiSettings

/-- The API settings that may be left out. -/
def defaults : List (String × Value) :=
  [("enabled", .bool true), ("tags", .list []), ("summary", .null), ("description", .null)]

/-- One change in the spelling of API settings. -/
def Step : Value → Value → Prop :=
  DictStep defaults none fun _ _ _ _ ↦ False

theorem agree_of_step {v w : Value} (h : Step v w) (hv : v.Keyed) (hw : w.Keyed) :
    Agree Eq (ofValue v) (ofValue w) := by
  obtain @⟨entries, others, hstep⟩ := h
  have hsetting {α : Type} (absent : α) (key : String) (read : Value → Checked α)
      (hunset : ∀ value, (key, value) ∈ defaults → Agree Eq (.accepted absent) (read value)) :
      Agree Eq (Shape.optional absent key read entries) (Shape.optional absent key read others) :=
    agree_setting hstep hv hw (by simp) hunset fun v w hvw ↦ hvw
  have hothers := toOption_noOthers_of_step hstep hv hw
    ["enabled", "tags", "summary", "description"] (by simp [defaults]; grind)
  refine agree_seqLeft (agree_seq (R := Eq) (agree_seq (R := Eq) (agree_seq (R := Eq)
    (agree_map (R := Eq) ?_ (hsetting _ _ _ ?_)) (hsetting _ _ _ ?_)) (hsetting _ _ _ ?_))
    (hsetting _ _ _ ?_)) hothers
  · rintro enabled _ rfl tags _ rfl summary _ rfl description _ rfl
    rfl
  all_goals
    intro value hdefault
    simp [defaults] at hdefault
    subst hdefault
    exact agree_accepted.mpr rfl

end ApiSettings

/-- Under textual keys, the members are what the entries are read as. -/
theorem Shape.toOption_mapping_of_keyed {α : Type} {read : Value → Checked α}
    {entries : List (Value × Value)} (h : (Value.dict entries).Keyed) :
    (mapping read (.dict entries)).toOption = entries.mapM (readMember? read) := by
  have htexts : ∀ key ∈ entries.map (·.1), ∃ name, key = .text name :=
    List.forall_mem_map.mpr fun entry hentry ↦ ((keyed_dict.mp h).2 entry hentry).1
  rw [toOption_mapping]
  cases entries.mapM (readMember? read) with
  | none => rfl
  | some members => rw [Option.map_some, membersUnder_of_texts htexts]

theorem Shape.toOption_mapping_any (fields : List (String × Value)) :
    (mapping any (.ofFields fields)).toOption = some fields :=
  Checked.toOption_eq_some_iff.mpr <| mapping_eq_accepted_iff.mpr ⟨_, fields, rfl,
    List.forall₂_map_left_iff.mpr (List.forall₂_same.mpr fun _ _ ↦ ⟨rfl, rfl⟩),
    membersUnder_of_texts (List.forall_mem_map.mpr <| List.forall_mem_map.mpr fun field _ ↦
      ⟨field.1, rfl⟩) fields⟩

theorem Value.exists_ofFields {entries : List (Value × Value)} (h : (Value.dict entries).Keyed) :
    ∃ fields, Value.dict entries = .ofFields fields := by
  obtain ⟨-, hentries⟩ := keyed_dict.mp h
  refine ⟨entries.map fun entry ↦ (keyText entry.1, entry.2), ?_⟩
  rw [Value.ofFields, List.map_map]
  congr 1
  refine (List.map_id _).symm.trans (List.map_congr_left ?_)
  rintro ⟨key, v⟩ hentry
  obtain ⟨⟨name, hname⟩, -⟩ := hentries _ hentry
  obtain rfl : key = .text name := hname
  rfl

namespace DocsSettings

/-- The documentation that may be left out. -/
def defaults : List (String × Value) :=
  [("description", .null), ("examples", .dict [])]

/-- One change in the spelling of a documentation. -/
def Step : Value → Value → Prop :=
  DictStep defaults none fun _ key v w ↦ key = "examples" ∧ LiteralStep v w

/-- Documentations with the same description and with examples that are the same without tuples. -/
structure Alike (docs others : DocsSettings) : Prop where
  plain : docs.SamePlain others
  untupled : (Value.ofFields docs.examples).untupled.Reordered
    (Value.ofFields others.examples).untupled
  fault : ∀ levels, (Value.ofFields docs.examples).dumpFault? levels = none ↔
    (Value.ofFields others.examples).dumpFault? levels = none

theorem Alike.refl (docs : DocsSettings) : Alike docs docs :=
  ⟨⟨rfl, .refl _⟩, .refl _, fun _ ↦ .rfl⟩

theorem Alike.symm {docs others : DocsSettings} (h : Alike docs others) : Alike others docs :=
  ⟨⟨h.plain.1.symm, h.plain.2.symm⟩, h.untupled.symm, fun levels ↦ (h.fault levels).symm⟩

theorem Alike.trans {docs others third : DocsSettings} (h : Alike docs others)
    (h' : Alike others third) : Alike docs third :=
  ⟨⟨h.plain.1.trans h'.plain.1, h.plain.2.trans h'.plain.2⟩, h.untupled.trans h'.untupled,
    fun levels ↦ (h.fault levels).trans (h'.fault levels)⟩

theorem plain_ofFields (docs : DocsSettings) (h : (Value.ofFields docs.examples).Keyed) :
    (Value.ofFields docs.examples).plain = .object docs.plainExamples := by
  rw [Value.ofFields, plain_dict_of_keyed h, List.map_map]
  rfl

theorem alike_of_literalStep {description : Option String} {examples others : List (String × Value)}
    (h : LiteralStep (.ofFields examples) (.ofFields others))
    (hkeyed : (Value.ofFields examples).Keyed) :
    Alike ⟨description, examples⟩ ⟨description, others⟩ := by
  have hplain := reordered_plain_of_step h hkeyed
  refine ⟨⟨rfl, ?_⟩, reordered_untupled_of_step h, dumpFault?_eq_none_iff_of_step h⟩
  rwa [plain_ofFields ⟨description, examples⟩ hkeyed,
    plain_ofFields ⟨description, others⟩ ((keyed_iff_of_step h).mp hkeyed)] at hplain

theorem agree_examples {v w : Value} (h : LiteralStep v w) (hv : v.Keyed) (hw : w.Keyed) :
    Agree (fun examples others ↦ ∀ description,
        Alike ⟨description, examples⟩ ⟨description, others⟩)
      (Shape.mapping Shape.any v) (Shape.mapping Shape.any w) := by
  cases v with
  | dict entries =>
    obtain ⟨others, rfl⟩ : ∃ others, w = .dict others := by cases h <;> exact ⟨_, rfl⟩
    obtain ⟨examples, hexamples⟩ := exists_ofFields hv
    obtain ⟨shown, hshown⟩ := exists_ofFields hw
    rw [hexamples] at h hv ⊢
    rw [hshown] at h ⊢
    rw [Agree, toOption_mapping_any, toOption_mapping_any]
    exact .some fun description ↦ alike_of_literalStep h hv
  | _ => cases h <;> exact .none

/-- A documentation reads alike in all its spellings. -/
theorem agree_of_step {v w : Value} (h : Step v w) (hv : v.Keyed) (hw : w.Keyed) :
    Agree Alike (ofValue v) (ofValue w) := by
  obtain @⟨entries, others, hstep⟩ := h
  have hdescription : Agree Eq
      (Shape.optional none "description" (Shape.orNull Shape.text) entries)
      (Shape.optional none "description" (Shape.orNull Shape.text) others) := by
    refine agree_setting hstep hv hw (by simp) (fun value hdefault ↦ ?_) (by simp)
    obtain rfl : value = .null := by simpa [defaults] using hdefault
    exact agree_accepted.mpr rfl
  have hexamples : Agree (fun examples others ↦ ∀ description,
        Alike ⟨description, examples⟩ ⟨description, others⟩)
      (Shape.optional [] "examples" (Shape.mapping Shape.any) entries)
      (Shape.optional [] "examples" (Shape.mapping Shape.any) others) := by
    refine agree_optional (fun examples description ↦ .refl _)
      (partRel_of_step (entriesStep_keyed hstep hv hw) hv.distinctTexts hw.distinctTexts
        "examples" (by simp)) (fun value hdefault ↦ ?_) ?_
    · obtain rfl : value = .dict [] := by simpa [defaults] using hdefault
      exact agree_accepted.mpr fun description ↦ .refl _
    · rintro v w ⟨⟨-, hvw⟩, hkeyed, hother⟩
      exact agree_examples hvw hkeyed hother
  have hothers := toOption_noOthers_of_step hstep hv hw
    ["description", "examples"] (by simp [defaults]; grind)
  refine agree_seqLeft (agree_seq (agree_map (R := Eq) ?_ hdescription) hexamples) hothers
  rintro description _ rfl examples shown hshown
  exact hshown description

end DocsSettings

/-! ## Specifications -/

namespace Specification

/-- The settings of an entity that may be left out. -/
def defaults : List (String × Value) :=
  [("table", .bool false), ("doc", .bool false), ("test", .null), ("active", .bool true),
    ("openapi", .null), ("docs", .null)]

/-- One change in the spelling of a part of a specification.  The columns keep their order. -/
inductive PartStep : String → Value → Value → Prop
  | column {key name : String} {v w : Value} (before after : List (Value × Value)) :
      key ∈ ["columns", "fields"] → ColumnSpecification.Step v w →
      PartStep key (.dict (before ++ (.text name, v) :: after))
        (.dict (before ++ (.text name, w) :: after))
  | test : PartStep "test" (.bool false) .null
  | openapi {v w : Value} : ApiSettings.Step v w → PartStep "openapi" v w
  | docs {v w : Value} : DocsSettings.Step v w → PartStep "docs" v w

theorem PartStep.key_mem {key : String} {v w : Value} (h : PartStep key v w) :
    key ∈ ["columns", "fields", "test", "openapi", "docs"] := by
  cases h with
  | column before after hkey _ => simp at hkey ⊢; tauto
  | test => simp
  | openapi _ => simp
  | docs _ => simp

/-- One change in the spelling of a specification. -/
def Step : Value → Value → Prop :=
  DictStep defaults (some ("columns", "fields")) fun _ ↦ PartStep

/-- Columns by name with the same names and with descriptions that are built alike. -/
def ColumnsAlike : List (String × ColumnSpecification) → List (String × ColumnSpecification) → Prop :=
  List.Forall₂ fun c d ↦ c.1 = d.1 ∧ c.2.Alike d.2

/-- Specifications that are built alike. -/
structure Alike (spec other : Specification) : Prop where
  name : spec.name = other.name
  table : spec.table = other.table
  columns : ColumnsAlike spec.columns other.columns
  doc : spec.doc = other.doc
  test : spec.test = other.test
  active : spec.active = other.active
  openapi : spec.openapi = other.openapi
  docs : Option.Rel DocsSettings.Alike spec.docs other.docs

theorem ColumnsAlike.refl (columns : List (String × ColumnSpecification)) :
    ColumnsAlike columns columns :=
  List.forall₂_same.mpr fun column _ ↦ ⟨rfl, .refl column.2⟩

theorem ColumnsAlike.symm {columns others : List (String × ColumnSpecification)}
    (h : ColumnsAlike columns others) : ColumnsAlike others columns :=
  h.flip.imp fun _ _ hcolumn ↦ ⟨hcolumn.1.symm, hcolumn.2.symm⟩

theorem Alike.refl (spec : Specification) : Alike spec spec :=
  ⟨rfl, rfl, .refl _, rfl, rfl, rfl, rfl, rel_of_eq .refl rfl⟩

theorem Alike.symm {spec other : Specification} (h : Alike spec other) : Alike other spec :=
  ⟨h.name.symm, h.table.symm, h.columns.symm, h.doc.symm, h.test.symm, h.active.symm,
    h.openapi.symm, rel_symm (fun _ _ hdocs ↦ hdocs.symm) h.docs⟩

theorem ColumnsAlike.trans {first second third : List (String × ColumnSpecification)}
    (h : ColumnsAlike first second) (h' : ColumnsAlike second third) : ColumnsAlike first third := by
  induction h generalizing third with
  | nil => cases h'; exact .nil
  | cons hcolumn _ ih =>
    obtain _ | ⟨hother, hothers⟩ := h'
    exact .cons ⟨hcolumn.1.trans hother.1, hcolumn.2.trans hother.2⟩ (ih hothers)

theorem Alike.trans {first second third : Specification} (h : Alike first second)
    (h' : Alike second third) : Alike first third :=
  ⟨h.name.trans h'.name, h.table.trans h'.table, h.columns.trans h'.columns, h.doc.trans h'.doc,
    h.test.trans h'.test, h.active.trans h'.active, h.openapi.trans h'.openapi,
    rel_trans (fun _ _ _ hdocs hdocs' ↦ hdocs.trans hdocs') h.docs h'.docs⟩

/-- What happens under one spelling of the key of the columns may happen under the other. -/
theorem PartStep.under_columns {key : String} {v w : Value} (h : PartStep key v w)
    (hkey : key ∈ ["columns", "fields"]) : PartStep "columns" v w := by
  cases h with
  | column before after _ hcolumn => exact .column before after (by simp) hcolumn
  | test => simp at hkey
  | openapi _ => simp at hkey
  | docs _ => simp at hkey

theorem PartStep.agree_columns {key : String} {v w : Value} (h : PartStep key v w)
    (hkey : key ∈ ["columns", "fields"]) (hv : v.Keyed) (hw : w.Keyed) :
    Agree ColumnsAlike (Shape.mapping ColumnSpecification.ofValue v)
      (Shape.mapping ColumnSpecification.ofValue w) := by
  cases h with
  | column before after _ hcolumn =>
    rw [Agree, toOption_mapping_of_keyed hv, toOption_mapping_of_keyed hw]
    refine rel_mapM (forall₂_replace (fun entry ↦ ?_) before after ?_)
    · exact rel_of_eq (fun column ↦ ⟨rfl, .refl column.2⟩) rfl
    · exact rel_map (fun _ _ hspec ↦ ⟨rfl, hspec⟩)
        (ColumnSpecification.agree_of_step hcolumn (keyed_middle hv) (keyed_middle hw))
  | test => simp at hkey
  | openapi _ => simp at hkey
  | docs _ => simp at hkey

theorem PartStep.agree_test {key : String} {v w : Value} (h : PartStep key v w)
    (hkey : key = "test") : Agree Eq (TestMode.ofValue v) (TestMode.ofValue w) := by
  cases h with
  | column before after hcolumns _ => simp [hkey] at hcolumns
  | test => exact agree_accepted.mpr rfl
  | openapi _ => simp at hkey
  | docs _ => simp at hkey

theorem PartStep.agree_openapi {key : String} {v w : Value} (h : PartStep key v w)
    (hkey : key = "openapi") (hv : v.Keyed) (hw : w.Keyed) :
    Agree Eq (Shape.orNull ApiSettings.ofValue v) (Shape.orNull ApiSettings.ofValue w) := by
  cases h with
  | column before after hcolumns _ => simp [hkey] at hcolumns
  | test => simp at hkey
  | openapi hstep =>
    have hsettings := ApiSettings.agree_of_step hstep hv hw
    obtain @⟨entries, others, -⟩ := hstep
    exact agree_map (fun _ _ ↦ congrArg some) hsettings
  | docs _ => simp at hkey

theorem PartStep.agree_docs {key : String} {v w : Value} (h : PartStep key v w)
    (hkey : key = "docs") (hv : v.Keyed) (hw : w.Keyed) :
    Agree (Option.Rel DocsSettings.Alike) (Shape.orNull DocsSettings.ofValue v)
      (Shape.orNull DocsSettings.ofValue w) := by
  cases h with
  | column before after hcolumns _ => simp [hkey] at hcolumns
  | test => simp at hkey
  | openapi _ => simp at hkey
  | docs hstep =>
    have hdocs := DocsSettings.agree_of_step hstep hv hw
    obtain @⟨entries, others, -⟩ := hstep
    exact agree_map (fun _ _ ↦ .some) hdocs

section
variable {entries others : List (Value × Value)}
  (h : EntriesStep defaults (some ("columns", "fields")) PartStep entries others)
  (hentries : (Value.dict entries).Keyed) (hothers : (Value.dict others).Keyed)
include h hentries hothers

/-- The columns read alike in all spellings, also under the other spelling of their key. -/
theorem agree_columns_of_step : Agree ColumnsAlike
    (Shape.required (spelling "columns" ["fields"] entries)
      (Shape.mapping ColumnSpecification.ofValue) entries)
    (Shape.required (spelling "columns" ["fields"] others)
      (Shape.mapping ColumnSpecification.ofValue) others) := by
  have hspelling := spellingRel_of_step (entriesStep_keyed h hentries hothers)
    hentries.distinctTexts hothers.distinctTexts (by decide) (by simp [defaults])
  refine agree_required (partRel_spelling hspelling (fun v w hvw ↦ ?_) (by simp [defaults]))
    (by simp [defaults]) (fun v _ ↦ agree_of_eq .refl rfl)
    fun v w _ hvw ↦ hvw.1.agree_columns (by simp) hvw.2.1 hvw.2.2
  exact ⟨hvw.1.under_columns (by simp), hvw.2⟩

/-- A setting that is null where it is absent reads alike in all spellings, if it does where it is
given. -/
theorem agree_nullable_of_step {α : Type} {R : Option α → Option α → Prop} (hrefl : ∀ a, R a a)
    {key : String} (hkey : key ∈ ["test", "openapi", "docs"]) (read : Value → Checked (Option α))
    (hnull : read .null = .accepted none)
    (hgiven : ∀ v w, PartStep key v w → v.Keyed → w.Keyed → Agree R (read v) (read w)) :
    Agree R (Shape.optional none key read entries) (Shape.optional none key read others) := by
  refine agree_optional hrefl (partRel_of_step (entriesStep_keyed h hentries hothers)
    hentries.distinctTexts hothers.distinctTexts key (by grind)) (fun value hdefault ↦ ?_)
    fun v w hvw ↦ hgiven v w hvw.1 hvw.2.1 hvw.2.2
  obtain rfl : value = .null := by
    simp [defaults] at hdefault
    grind
  exact agree_of_eq hrefl (congrArg Checked.toOption hnull.symm)

end

/-- A specification reads alike in all its spellings. -/
theorem agree_of_step {v w : Value} (h : Step v w) (hv : v.Keyed) (hw : w.Keyed) :
    Agree Alike (ofValue v) (ofValue w) := by
  obtain @⟨entries, others, hstep⟩ := h
  have hkeyed := entriesStep_keyed hstep hv hw
  have hkeys := hv.distinctTexts
  have hnodup := hw.distinctTexts
  have hpart {key : String} (hkey : key ∉ ["columns", "fields"]) :=
    partRel_of_step hkeyed hkeys hnodup key (by grind)
  have hsetting {key : String} {absent : Bool} (hkey : key ∈ ["table", "doc", "active"])
      (hunset : ∀ value, (key, value) ∈ defaults → Agree Eq (.accepted absent) (flag value)) :
      Agree Eq (Shape.optional absent key flag entries) (Shape.optional absent key flag others) := by
    refine agree_optional Eq.refl (hpart (by grind)) hunset fun v w hvw ↦ ?_
    have hmem := hvw.1.key_mem
    grind
  have hname : Agree Eq (Shape.required "name" Shape.text entries)
      (Shape.required "name" Shape.text others) := by
    refine agree_required (hpart (by simp)) (by simp [defaults])
      (fun v _ ↦ agree_of_eq Eq.refl rfl) fun v w _ hvw ↦ ?_
    have hmem := hvw.1.key_mem
    simp at hmem
  have hcolumns := agree_columns_of_step hstep hv hw
  have htest := agree_nullable_of_step hstep hv hw Eq.refl (by simp) TestMode.ofValue rfl
    fun v w hvw _ _ ↦ hvw.agree_test rfl
  have hopenapi := agree_nullable_of_step hstep hv hw Eq.refl (by simp)
    (Shape.orNull ApiSettings.ofValue) rfl fun v w hvw ↦ hvw.agree_openapi rfl
  have hdocs := agree_nullable_of_step hstep hv hw (fun docs ↦ rel_of_eq DocsSettings.Alike.refl rfl)
    (by simp) (Shape.orNull DocsSettings.ofValue) rfl fun v w hvw ↦ hvw.agree_docs rfl
  have hothers := toOption_noOthers_spelling hstep hv hw (by decide) (by simp [defaults])
    (fun columns ↦ ["name", "table", columns, "doc", "test", "active", "openapi", "docs"])
    ["name", "table", "doc", "test", "active", "openapi", "docs"]
    (by simp; grind) (by simp [defaults]; grind)
  refine agree_seqLeft (agree_seq (agree_seq (R := Eq) (agree_seq (R := Eq) (agree_seq (R := Eq)
    (agree_seq (R := Eq) (agree_seq (agree_seq (R := Eq) (agree_map (R := Eq) ?_ hname)
    (hsetting (by simp) ?_)) hcolumns) (hsetting (by simp) ?_)) htest) (hsetting (by simp) ?_))
    hopenapi) hdocs) hothers
  · rintro name _ rfl table _ rfl columns others hcolumns doc _ rfl test _ rfl active _ rfl
      openapi _ rfl docs shown hdocs
    exact ⟨rfl, rfl, hcolumns, rfl, rfl, rfl, rfl, hdocs⟩
  all_goals
    intro value hdefault
    simp [defaults] at hdefault
    subst hdefault
    exact agree_accepted.mpr rfl

/-- The name that is checked first is the same in all spellings. -/
theorem lookup?_name_of_step {entries others : List (Value × Value)}
    (h : EntriesStep defaults (some ("columns", "fields")) PartStep entries others)
    (hentries : (Value.dict entries).Keyed) (hothers : (Value.dict others).Keyed) :
    lookup? "name" entries = lookup? "name" others := by
  have hpart := partRel_of_step h hentries.distinctTexts hothers.distinctTexts "name"
    (by simp)
  have hrel := hpart.rel Eq.refl (by simp [defaults]) fun v w hvw ↦ absurd hvw.key_mem (by simp)
  cases hname : lookup? "name" entries <;> cases hother : lookup? "name" others <;>
    simp_all

/-- Whether a name that is given as a text is in Pascal case. -/
def NameAccepted (entries : List (Value × Value)) : Prop :=
  checkName ((lookup? "name" entries).getD .null) = .ok ()

/-- A value whose name is accepted is read as its shape says, and another one is refused. -/
theorem read_eq_ok_iff {entries : List (Value × Value)} {spec : Specification} :
    read (.dict entries) = .ok spec ↔
      NameAccepted entries ∧ ofValue (.dict entries) = .accepted spec := by
  rw [read, NameAccepted, bind_eq_ok_iff]
  cases ofValue (.dict entries) <;> simp [Unique.exists_iff]

theorem ofValue_of_read {v : Value} {spec : Specification} (h : read v = .ok spec) :
    ofValue v = .accepted spec := by
  cases v with
  | dict entries => exact (read_eq_ok_iff.mp h).2
  | _ => simp [read] at h

/-- A specification is read alike or refused in all its spellings. -/
theorem rel_read_of_step {v w : Value} (h : Step v w) (hv : v.Keyed) (hw : w.Keyed) :
    Option.Rel Alike (read v).toOption (read w).toOption := by
  have hagree := agree_of_step h hv hw
  obtain @⟨entries, others, hstep⟩ := h
  have hname : NameAccepted entries ↔ NameAccepted others := by
    rw [NameAccepted, NameAccepted, lookup?_name_of_step hstep hv hw]
  have hread {entries : List (Value × Value)} (haccepted : NameAccepted entries) :
      (read (.dict entries)).toOption = (ofValue (.dict entries)).toOption := by
    ext spec
    rw [toOption_eq_some_iff, Checked.toOption_eq_some_iff, read_eq_ok_iff,
      and_iff_right haccepted]
  by_cases haccepted : NameAccepted entries
  · rw [hread haccepted, hread (hname.mp haccepted)]
    exact hagree
  · have hrefused {entries : List (Value × Value)} (hnot : ¬NameAccepted entries) :
        (read (.dict entries)).toOption = none := by
      refine Option.eq_none_iff_forall_not_mem.mpr fun spec hspec ↦ hnot ?_
      exact (read_eq_ok_iff.mp (toOption_eq_some_iff.mp hspec)).1
    rw [hrefused haccepted, hrefused (mt hname.mpr haccepted)]
    exact .none

/-- Values that differ by any number of changes in spelling, none of which leads to a dictionary with a
key twice or with a key that is not a text. -/
def Respelled : Value → Value → Prop :=
  Relation.EqvGen fun v w ↦ v.Keyed ∧ w.Keyed ∧ Step v w

/-- All spellings of a specification are read alike or refused. -/
theorem rel_read_of_respelled {v w : Value} (h : Respelled v w) :
    Option.Rel Alike (read v).toOption (read w).toOption := by
  induction h with
  | rel v w hstep => exact rel_read_of_step hstep.2.2 hstep.1 hstep.2.1
  | refl v => exact rel_of_eq Alike.refl rfl
  | symm v w _ ih => exact rel_symm (fun _ _ halike ↦ halike.symm) ih
  | trans u v w _ _ ihuv ihvw => exact rel_trans (fun _ _ _ h h' ↦ h.trans h') ihuv ihvw

end Specification

end EntityCompiler

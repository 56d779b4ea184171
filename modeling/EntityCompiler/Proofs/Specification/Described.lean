import EntityCompiler.Proofs.Entity.Canonical
import EntityCompiler.Proofs.Specification.Entries

/-!
# Described specifications

Which specification the entries of a dictionary describe, told by what stands under each key and
not by how it is read.  A dictionary is read as a specification exactly if it describes it.
-/

namespace EntityCompiler

open Checked Shape Value

/-! ## Settings -/

namespace Value

/-- What a dictionary gives for a key that may be left out. -/
def setting (key : String) (absent : Value) (entries : List (Value × Value)) : Value :=
  (lookup? key entries).getD absent

/-- Whether all keys of a dictionary are known texts. -/
def HasOnly (known : List String) (entries : List (Value × Value)) : Prop :=
  ∀ entry ∈ entries, ∃ key ∈ known, entry.1.text? = some key

/-- Whether a value is a given text, or null where there is none. -/
def IsText? (v : Value) : Option String → Prop
  | none => v = .null
  | some s => v.text? = some s

end Value

/-- A part that is null or a dictionary of its own. -/
inductive Shape.OrNull {α : Type} (given : α → List (Value × Value) → Prop) :
    Option α → Value → Prop
  | null : OrNull given none .null
  | dict {a : α} {entries : List (Value × Value)} :
      given a entries → OrNull given (some a) (.dict entries)

/-! ## Descriptions -/

/-- Storage flags as a dictionary gives them. -/
structure StorageFlags.GivenBy (db : StorageFlags) (entries : List (Value × Value)) : Prop where
  primary : setting "primary" (.bool false) entries = .bool db.primary
  unique : setting "unique" (.bool false) entries = .bool db.unique
  index : setting "index" (.bool false) entries = .bool db.index
  /-- The current time is asked for in one of two spellings, and there are no other keys. -/
  defaultNow : ∃ used ∈ ["default_now", "defaultNow"],
    setting used (.bool false) entries = .bool db.defaultNow ∧
      HasOnly ["primary", "unique", "index", used] entries

/-- A column specification as a dictionary gives it.  A default or example of null is one that is
given. -/
structure ColumnSpecification.GivenBy (spec : ColumnSpecification)
    (entries : List (Value × Value)) : Prop where
  type : lookup? "type" entries = some spec.type
  optional : setting "optional" (.bool false) entries = .bool spec.optional
  nullable : setting "nullable" (.bool false) entries = .bool spec.nullable
  default : lookup? "default" entries = spec.default
  description : (setting "description" .null entries).IsText? spec.description
  described : spec.description ≠ some ""
  visibility : (setting "visibility" (.text "public") entries).text? = some spec.visibility.name
  immutable : setting "immutable" (.bool false) entries = .bool spec.immutable
  stored : setting "stored" (.bool true) entries = .bool spec.stored
  sample : lookup? "example" entries = spec.sample
  db : ∃ flags, setting "db" (.dict []) entries = .dict flags ∧ spec.db.GivenBy flags
  only : HasOnly ["type", "optional", "nullable", "default", "description", "visibility",
    "immutable", "stored", "example", "db"] entries

/-- API settings as a dictionary gives them. -/
structure ApiSettings.GivenBy (api : ApiSettings) (entries : List (Value × Value)) : Prop where
  enabled : setting "enabled" (.bool true) entries = .bool api.enabled
  /-- The tags are texts in a collection of any kind. -/
  tags : ∃ items, (setting "tags" (.list []) entries).elements? = some items ∧
    items.map text? = api.tags.map some
  summary : (setting "summary" .null entries).IsText? api.summary
  description : (setting "description" .null entries).IsText? api.description
  only : HasOnly ["enabled", "tags", "summary", "description"] entries

/-- Documentation as a dictionary gives it. -/
structure DocsSettings.GivenBy (docs : DocsSettings) (entries : List (Value × Value)) : Prop where
  description : (setting "description" .null entries).IsText? docs.description
  /-- The examples stand under names, of which the last value counts if one is there twice. -/
  examples : ∃ given parts, setting "examples" (.dict []) entries = .dict given ∧
    List.Forall₂ (fun entry part ↦ entry.1.name? = some part.1 ∧ entry.2 = part.2) given parts ∧
    membersUnder (given.map (·.1)) parts = docs.examples
  only : HasOnly ["description", "examples"] entries

/-- A test mode given by its name, or none, given by null or false. -/
inductive TestMode.GivenBy : Option TestMode → Value → Prop
  | null : GivenBy none .null
  | disabled : GivenBy none (.bool false)
  | named {mode : TestMode} {v : Value} : v.text? = some mode.name → GivenBy (some mode) v

/-- A named column as an entry of a dictionary gives it. -/
def ColumnSpecification.MemberGivenBy (member : String × ColumnSpecification)
    (entry : Value × Value) : Prop :=
  entry.1.name? = some member.1 ∧ ∃ parts, entry.2 = .dict parts ∧ member.2.GivenBy parts

/-- The columns as a dictionary gives them.  Of several columns under one name the last counts. -/
def ColumnSpecification.ColumnsGivenBy (columns : List (String × ColumnSpecification))
    (given : List (Value × Value)) : Prop :=
  ∃ members, List.Forall₂ MemberGivenBy members given ∧
    membersUnder (given.map (·.1)) members = columns

/-- A specification as a dictionary gives it. -/
structure Specification.GivenBy (spec : Specification) (entries : List (Value × Value)) : Prop where
  name : (lookup? "name" entries).bind text? = some spec.name
  table : setting "table" (.bool false) entries = .bool spec.table
  /-- The columns are given under one of two keys, and there are no other keys. -/
  columns : ∃ used ∈ ["columns", "fields"],
    (∃ given, lookup? used entries = some (.dict given) ∧
      ColumnSpecification.ColumnsGivenBy spec.columns given) ∧
    HasOnly ["name", "table", used, "doc", "test", "active", "openapi", "docs"] entries
  doc : setting "doc" (.bool false) entries = .bool spec.doc
  test : TestMode.GivenBy spec.test (setting "test" .null entries)
  active : setting "active" (.bool true) entries = .bool spec.active
  openapi : OrNull ApiSettings.GivenBy spec.openapi (setting "openapi" .null entries)
  docs : OrNull DocsSettings.GivenBy spec.docs (setting "docs" .null entries)

/-! ## Reading what is described -/

namespace Shape

variable {α : Type}

/-- A part that may be left out is read as the value that stands for it. -/
theorem optional_eq_accepted_iff_setting {absent : α} {key : String} {read : Value → Checked α}
    {w : Value} (hw : read w = .accepted absent) {entries : List (Value × Value)} {a : α} :
    optional absent key read entries = .accepted a ↔
      read (setting key w entries) = .accepted a := by
  rw [optional, setting]
  cases lookup? key entries with
  | none => rw [Option.getD_none, hw]
  | some v => rw [Option.getD_some, below_eq_accepted_iff]

theorem flag_eq_accepted_iff {v : Value} {b : Bool} : flag v = .accepted b ↔ v = .bool b := by
  cases v <;> simp [flag, fail]

theorem nonempty_eq_accepted_iff {v : Value} {s : String} :
    nonempty v = .accepted s ↔ v.text? = some s ∧ s ≠ "" := by
  rw [nonempty]
  cases v.text? with
  | none => simp [fail]
  | some t => by_cases ht : t = "" <;> grind [fail]

theorem orNull_eq_accepted_iff {read : Value → Checked α} {v : Value} {x : Option α} :
    orNull read v = .accepted x ↔
      (v = .null ∧ x = none) ∨ ∃ a, x = some a ∧ v ≠ .null ∧ read v = .accepted a := by
  cases x with
  | none => cases v <;> simp [orNull, map_eq_accepted_iff]
  | some a => simp [orNull_eq_accepted_some_iff]

/-- Null is no text. -/
theorem ne_null_of_text? {v : Value} {s : String} (h : v.text? = some s) : v ≠ .null := by
  rintro rfl
  exact nomatch h

theorem orNull_text_eq_accepted_iff {v : Value} {x : Option String} :
    orNull text v = .accepted x ↔ v.IsText? x := by
  rw [orNull_eq_accepted_iff]
  cases x with
  | none => simp [IsText?]
  | some s => simpa [IsText?, text_eq_accepted_iff] using ne_null_of_text?

theorem orNull_nonempty_eq_accepted_iff {v : Value} {x : Option String} :
    orNull nonempty v = .accepted x ↔ v.IsText? x ∧ x ≠ some "" := by
  rw [orNull_eq_accepted_iff]
  cases x with
  | none => simp [IsText?]
  | some s =>
    simp only [IsText?, nonempty_eq_accepted_iff]
    constructor
    · rintro (⟨-, hnone⟩ | ⟨t, hsome, -, htext, hne⟩)
      · cases hnone
      · obtain rfl := Option.some.inj hsome
        exact ⟨htext, by simpa using hne⟩
    · rintro ⟨htext, hne⟩
      exact .inr ⟨s, rfl, ne_null_of_text? htext, htext, by simpa using hne⟩

/-- A section that may be left out is read as null or as what its dictionary gives. -/
theorem optional_section_eq_accepted_iff {read : Value → Checked α}
    {given : α → List (Value × Value) → Prop}
    (hread : ∀ {v a}, read v = .accepted a ↔ ∃ entries, v = .dict entries ∧ given a entries)
    {key : String} {entries : List (Value × Value)} {x : Option α} :
    Shape.optional none key (orNull read) entries = .accepted x ↔
      OrNull given x (setting key .null entries) := by
  have habsent : orNull read .null = .accepted none := rfl
  rw [optional_eq_accepted_iff_setting habsent, orNull_eq_accepted_iff]
  generalize setting key .null entries = v
  constructor
  · rintro (⟨rfl, rfl⟩ | ⟨a, rfl, -, hv⟩)
    · exact .null
    · obtain ⟨entries, rfl, hgiven⟩ := hread.mp hv
      exact .dict hgiven
  · rintro (_ | hgiven)
    · exact .inl ⟨rfl, rfl⟩
    · exact .inr ⟨_, rfl, nofun, hread.mpr ⟨_, rfl, hgiven⟩⟩

/-- One of a closed set of values is read from its name. -/
theorem oneOf_eq_accepted_iff {all : List α} {name : α → String} (hall : ∀ a, a ∈ all)
    (hname : Function.Injective name) {v : Value} {a : α} :
    oneOf all name v = .accepted a ↔ v.text? = some (name a) := by
  rw [oneOf]
  cases v.text? with
  | none => simp [fail]
  | some s =>
    dsimp only
    rw [Option.some.injEq]
    cases hfound : all.find? fun x ↦ name x = s with
    | none => 
      have hnone := List.find?_eq_none.mp hfound a (hall a)
      simp [fail, eq_comm] at hnone ⊢
      exact hnone
    | some x =>
      obtain rfl : name x = s := by simpa using List.find?_some hfound
      simp [hname.eq_iff]

theorem list_text_eq_accepted_iff {v : Value} {texts : List String} :
    list text v = .accepted texts ↔
      ∃ items, v.elements? = some items ∧ items.map text? = texts.map some := by
  simp only [list_eq_accepted_iff, text_eq_accepted_iff]
  refine exists_congr fun items ↦ and_congr_right fun _ ↦ ?_
  rw [← List.forall₂_eq_eq_eq, List.forall₂_map_left_iff, List.forall₂_map_right_iff]

theorem mapping_any_eq_accepted_iff {v : Value} {members : List (String × Value)} :
    mapping any v = .accepted members ↔ ∃ given parts, v = .dict given ∧
      List.Forall₂ (fun entry part ↦ entry.1.name? = some part.1 ∧ entry.2 = part.2) given parts ∧
      membersUnder (given.map (·.1)) parts = members := by
  simp [mapping_eq_accepted_iff, Members, Shape.any]

/-! ## Two spellings of a key -/

theorem lookup?_eq_none_of_hasOnly {known : List String} {entries : List (Value × Value)}
    (h : HasOnly known entries) {key : String} (hkey : key ∉ known) :
    lookup? key entries = none := by
  cases hfound : lookup? key entries with
  | none => rfl
  | some v =>
    obtain ⟨label, hlabel, hmem⟩ := mem_of_lookup? hfound
    obtain ⟨k, hk, hentry⟩ := h _ hmem
    obtain rfl : key = k := Option.some.inj (hlabel.symm.trans hentry)
    exact absurd hk hkey

section Spelling

variable {key other : String} {entries : List (Value × Value)}

theorem spelling_mem_pair (key other : String) (entries : List (Value × Value)) :
    spelling key [other] entries ∈ [key, other] := by
  rcases spelling_mem key other entries with h | h <;> simp [h]

/-- Of two spellings the one that is found while the other is not is in use. -/
theorem spelling_eq_of_isSome {used : String} (hused : used ∈ [key, other])
    (hfound : (lookup? used entries).isSome = true)
    (hunused : ∀ label ∈ [key, other], label ≠ used → lookup? label entries = none) :
    spelling key [other] entries = used := by
  by_cases hkey : used = key
  · subst hkey
    exact spelling_eq_key fun _ ↦ hfound
  · obtain rfl : used = other := by simpa [hkey] using hused
    exact spelling_eq_other (hunused key List.mem_cons_self (Ne.symm hkey)) hfound

variable {known : String → List String} {rest : List String}

/-- Of two spellings of a key the one in use is the one that is found, and the other is not among
the known keys. -/
theorem spelling_iff (hkey : key ∉ rest) (hother : other ∉ rest)
    (hknown : ∀ used k, k ∈ known used ↔ k = used ∨ k ∈ rest) {P : Option Value → Prop} :
    (P (lookup? (spelling key [other] entries) entries) ∧
        HasOnly (known (spelling key [other] entries)) entries) ↔
      ∃ used ∈ [key, other], P (lookup? used entries) ∧ HasOnly (known used) entries := by
  constructor
  · rintro ⟨hP, honly⟩
    exact ⟨_, spelling_mem_pair key other entries, hP, honly⟩
  · rintro ⟨used, hused, hP, honly⟩
    have hunused (label : String) (hlabel : label ∈ [key, other]) (hne : label ≠ used) :
        lookup? label entries = none := by
      refine lookup?_eq_none_of_hasOnly honly fun hmem ↦ ?_
      have hrest := ((hknown used label).mp hmem).resolve_left hne
      rcases List.mem_pair.mp hlabel with rfl | rfl
      · exact hkey hrest
      · exact hother hrest
    by_cases hspelling : spelling key [other] entries = used
    · rw [hspelling]
      exact ⟨hP, honly⟩
    · -- Neither spelling is there: one is not used, and the other would be the one in use.
      have hnone := hunused _ (spelling_mem_pair key other entries) hspelling
      have husednone : lookup? used entries = none := by
        by_contra hsome
        have hfound := Option.isSome_iff_ne_none.mpr hsome
        exact hspelling (spelling_eq_of_isSome hused hfound hunused)
      refine ⟨hnone ▸ husednone ▸ hP, fun entry hentry ↦ ?_⟩
      obtain ⟨k, hk, hlabel⟩ := honly entry hentry
      refine ⟨k, (hknown _ k).mpr (.inr ?_), hlabel⟩
      rcases (hknown used k).mp hk with rfl | hrest
      · exact absurd hlabel (lookup?_eq_none_iff.mp husednone entry hentry)
      · exact hrest

end Spelling

end Shape

/-! ## Storage flags and columns -/

theorem Visibility.mem_all (visibility : Visibility) : visibility ∈ all := by
  cases visibility <;> decide

theorem TestMode.mem_all (mode : TestMode) : mode ∈ all := by
  cases mode <;> decide

theorem optional_flag_eq_accepted_iff {absent : Bool} {key : String}
    {entries : List (Value × Value)} {b : Bool} :
    Shape.optional absent key flag entries = .accepted b ↔
      setting key (.bool absent) entries = .bool b := by
  have habsent : flag (.bool absent) = .accepted absent := rfl
  rw [optional_eq_accepted_iff_setting habsent, flag_eq_accepted_iff]

theorem StorageFlags.ofValue_eq_accepted_iff {v : Value} {db : StorageFlags} :
    ofValue v = .accepted db ↔ ∃ entries, v = .dict entries ∧ db.GivenBy entries := by
  cases v with
  | dict entries =>
    have hnow := @spelling_iff "default_now" "defaultNow" entries
      (fun used ↦ ["primary", "unique", "index", used]) ["primary", "unique", "index"] (by simp)
      (by simp) (by simp; grind) (fun found ↦ found.getD (.bool false) = .bool db.defaultNow)
    simp only [ofValue, seqLeft_eq_accepted_iff, seq_eq_accepted_iff, functorMap_eq_accepted_iff,
      optional_flag_eq_accepted_iff, noOthers_eq_accepted_iff, Value.dict.injEq, exists_eq_left']
    constructor
    · rintro ⟨⟨_, defaultNow, ⟨_, index, ⟨_, unique, ⟨primary, hprimary, rfl⟩, hunique, rfl⟩,
        hindex, rfl⟩, hspelled, rfl⟩, honly⟩
      exact ⟨hprimary, hunique, hindex, hnow.mp ⟨hspelled, honly⟩⟩
    · rintro ⟨hprimary, hunique, hindex, hdefaultNow⟩
      obtain ⟨hspelled, honly⟩ := hnow.mpr hdefaultNow
      exact ⟨⟨_, _, ⟨_, _, ⟨_, _, ⟨_, hprimary, rfl⟩, hunique, rfl⟩, hindex, rfl⟩, hspelled, rfl⟩,
        honly⟩
  | _ => simp [ofValue, fail]

section ColumnParts

variable {entries : List (Value × Value)}

theorem required_any_eq_accepted_iff {key : String} {v : Value} :
    required key Shape.any entries = .accepted v ↔ lookup? key entries = some v := by
  simp [required_eq_accepted_iff, Shape.any]

theorem optional_description_eq_accepted_iff {description : Option String} :
    Shape.optional none "description" (orNull nonempty) entries = .accepted description ↔
      (setting "description" .null entries).IsText? description ∧ description ≠ some "" := by
  have habsent : orNull nonempty .null = .accepted none := rfl
  rw [optional_eq_accepted_iff_setting habsent, orNull_nonempty_eq_accepted_iff]

theorem optional_visibility_eq_accepted_iff {visibility : Visibility} :
    Shape.optional .isPublic "visibility" (oneOf Visibility.all Visibility.name) entries =
        .accepted visibility ↔
      (setting "visibility" (.text "public") entries).text? = some visibility.name := by
  have habsent : oneOf Visibility.all Visibility.name (.text "public") = .accepted .isPublic := rfl
  rw [optional_eq_accepted_iff_setting habsent,
    oneOf_eq_accepted_iff Visibility.mem_all Visibility.name_injective]

theorem optional_db_eq_accepted_iff {db : StorageFlags} :
    Shape.optional {} "db" StorageFlags.ofValue entries = .accepted db ↔
      ∃ flags, setting "db" (.dict []) entries = .dict flags ∧ db.GivenBy flags := by
  have habsent : StorageFlags.ofValue (.dict []) = .accepted {} := rfl
  rw [optional_eq_accepted_iff_setting habsent, StorageFlags.ofValue_eq_accepted_iff]

end ColumnParts

theorem ColumnSpecification.ofValue_eq_accepted_iff {v : Value} {spec : ColumnSpecification} :
    ofValue v = .accepted spec ↔ ∃ entries, v = .dict entries ∧ spec.GivenBy entries := by
  cases v with
  | dict entries =>
    simp only [ofValue, seqLeft_eq_accepted_iff, seq_eq_accepted_iff, functorMap_eq_accepted_iff,
      required_any_eq_accepted_iff, optional_flag_eq_accepted_iff,
      optional_description_eq_accepted_iff, optional_visibility_eq_accepted_iff,
      optional_db_eq_accepted_iff, noOthers_eq_accepted_iff, accepted.injEq, Value.dict.injEq,
      exists_eq_left']
    constructor
    · rintro ⟨⟨_, db, ⟨_, _, ⟨_, stored, ⟨_, immutable, ⟨_, visibility, ⟨_, description, ⟨_, _,
        ⟨_, nullable, ⟨_, optional, ⟨type, hraw, rfl⟩, hoptional, rfl⟩, hnullable, rfl⟩, rfl, rfl⟩,
        ⟨hdescription, hdescribed⟩, rfl⟩, hvisibility, rfl⟩, himmutable, rfl⟩, hstored, rfl⟩, rfl,
        rfl⟩, hdb, rfl⟩, honly⟩
      exact ⟨hraw, hoptional, hnullable, rfl, hdescription, hdescribed, hvisibility,
        himmutable, hstored, rfl, hdb, honly⟩
    · rintro ⟨hraw, hoptional, hnullable, hdefault, hdescription, hdescribed, hvisibility,
        himmutable, hstored, hsample, hdb, honly⟩
      rw [hdefault, hsample]
      exact ⟨⟨_, _, ⟨_, _, ⟨_, _, ⟨_, _, ⟨_, _, ⟨_, _, ⟨_, _, ⟨_, _, ⟨_, _, ⟨_, hraw, rfl⟩,
        hoptional, rfl⟩, hnullable, rfl⟩, rfl, rfl⟩, ⟨hdescription, hdescribed⟩, rfl⟩, hvisibility,
        rfl⟩, himmutable, rfl⟩, hstored, rfl⟩, rfl, rfl⟩, hdb, rfl⟩, honly⟩
  | _ => simp [ofValue, fail]

/-! ## Sections -/

/-- A text that may be left out or be null. -/
theorem optional_text_eq_accepted_iff {key : String} {entries : List (Value × Value)}
    {x : Option String} :
    Shape.optional none key (orNull text) entries = .accepted x ↔
      (setting key .null entries).IsText? x := by
  have habsent : orNull text .null = .accepted none := rfl
  rw [optional_eq_accepted_iff_setting habsent, orNull_text_eq_accepted_iff]

theorem ApiSettings.ofValue_eq_accepted_iff {v : Value} {api : ApiSettings} :
    ofValue v = .accepted api ↔ ∃ entries, v = .dict entries ∧ api.GivenBy entries := by
  cases v with
  | dict entries =>
    have htags : ∀ tags, Shape.optional [] "tags" (list text) entries = .accepted tags ↔
        ∃ items, (setting "tags" (.list []) entries).elements? = some items ∧
          items.map text? = tags.map some := by
      have habsent : list text (.list []) = .accepted [] := rfl
      simp only [optional_eq_accepted_iff_setting habsent, list_text_eq_accepted_iff, implies_true]
    simp only [ofValue, seqLeft_eq_accepted_iff, seq_eq_accepted_iff, functorMap_eq_accepted_iff,
      optional_flag_eq_accepted_iff, optional_text_eq_accepted_iff, noOthers_eq_accepted_iff, htags,
      Value.dict.injEq, exists_eq_left']
    constructor
    · rintro ⟨⟨_, description, ⟨_, summary, ⟨_, tags, ⟨enabled, henabled, rfl⟩, htags, rfl⟩,
        hsummary, rfl⟩, hdescription, rfl⟩, honly⟩
      exact ⟨henabled, htags, hsummary, hdescription, honly⟩
    · rintro ⟨henabled, htags, hsummary, hdescription, honly⟩
      exact ⟨⟨_, _, ⟨_, _, ⟨_, _, ⟨_, henabled, rfl⟩, htags, rfl⟩, hsummary, rfl⟩,
        hdescription, rfl⟩, honly⟩
  | _ => simp [ofValue, fail]

theorem DocsSettings.ofValue_eq_accepted_iff {v : Value} {docs : DocsSettings} :
    ofValue v = .accepted docs ↔ ∃ entries, v = .dict entries ∧ docs.GivenBy entries := by
  cases v with
  | dict entries =>
    have hexamples : ∀ examples,
        Shape.optional [] "examples" (mapping Shape.any) entries = .accepted examples ↔
          ∃ given parts, setting "examples" (.dict []) entries = .dict given ∧
            List.Forall₂ (fun entry part ↦ entry.1.name? = some part.1 ∧ entry.2 = part.2)
              given parts ∧ membersUnder (given.map (·.1)) parts = examples := by
      have habsent : mapping Shape.any (.dict []) = .accepted [] := rfl
      simp only [optional_eq_accepted_iff_setting habsent, mapping_any_eq_accepted_iff,
        implies_true]
    simp only [ofValue, seqLeft_eq_accepted_iff, seq_eq_accepted_iff, functorMap_eq_accepted_iff,
      optional_text_eq_accepted_iff, noOthers_eq_accepted_iff, hexamples, Value.dict.injEq,
      exists_eq_left']
    constructor
    · rintro ⟨⟨_, examples, ⟨description, hdescription, rfl⟩, hexamples, rfl⟩, honly⟩
      exact ⟨hdescription, hexamples, honly⟩
    · rintro ⟨hdescription, hexamples, honly⟩
      exact ⟨⟨_, _, ⟨_, hdescription, rfl⟩, hexamples, rfl⟩, honly⟩
  | _ => simp [ofValue, fail]

theorem TestMode.ofValue_eq_accepted_iff {v : Value} {mode : Option TestMode} :
    ofValue v = .accepted mode ↔ GivenBy mode v := by
  have hname : ∀ v mode, oneOf all name v = .accepted mode ↔ v.text? = some mode.name :=
    fun v mode ↦ oneOf_eq_accepted_iff mem_all name_injective
  constructor
  · intro h
    unfold ofValue at h
    split at h
    · obtain rfl := accepted.inj h
      exact .disabled
    · rcases orNull_eq_accepted_iff.mp h with ⟨rfl, rfl⟩ | ⟨mode, rfl, -, hmode⟩
      · exact .null
      · exact .named ((hname _ _).mp hmode)
  · intro h
    cases h with
    | null => rfl
    | disabled => rfl
    | @named mode v htext =>
      have hread : ofValue v = orNull (oneOf all name) v := by
        unfold ofValue
        split
        · exact nomatch htext
        · rfl
      rw [hread]
      exact orNull_eq_accepted_some_iff.mpr ⟨ne_null_of_text? htext, (hname v mode).mpr htext⟩

theorem optional_test_eq_accepted_iff {entries : List (Value × Value)} {mode : Option TestMode} :
    Shape.optional none "test" TestMode.ofValue entries = .accepted mode ↔
      TestMode.GivenBy mode (setting "test" .null entries) := by
  have habsent : TestMode.ofValue .null = .accepted none := rfl
  rw [optional_eq_accepted_iff_setting habsent, TestMode.ofValue_eq_accepted_iff]

/-! ## Specifications -/

/-- The columns that have to be there. -/
theorem required_columns_eq_accepted_iff {used : String} {entries : List (Value × Value)}
    {columns : List (String × ColumnSpecification)} :
    required used (mapping ColumnSpecification.ofValue) entries = .accepted columns ↔
      ∃ given, lookup? used entries = some (.dict given) ∧
        ColumnSpecification.ColumnsGivenBy columns given := by
  simp only [required_eq_accepted_iff, mapping_eq_accepted_iff, Members,
    ColumnSpecification.ofValue_eq_accepted_iff]
  constructor
  · rintro ⟨_, hfound, given, members, rfl, hgiven, hcolumns⟩
    exact ⟨given, hfound, members, hgiven.flip, hcolumns⟩
  · rintro ⟨given, hfound, members, hgiven, hcolumns⟩
    exact ⟨_, hfound, given, members, rfl, hgiven.flip, hcolumns⟩

/-- A dictionary is read as a specification exactly if it describes it. -/
theorem Specification.ofValue_eq_accepted_iff {entries : List (Value × Value)}
    {spec : Specification} :
    ofValue (.dict entries) = .accepted spec ↔ spec.GivenBy entries := by
  have hspelling := @spelling_iff "columns" "fields" entries
    (fun used ↦ ["name", "table", used, "doc", "test", "active", "openapi", "docs"])
    ["name", "table", "doc", "test", "active", "openapi", "docs"] (by simp) (by simp)
    (by simp; grind) (fun found ↦ ∃ given, found = some (.dict given) ∧
      ColumnSpecification.ColumnsGivenBy spec.columns given)
  have hname : ∀ name, required "name" text entries = .accepted name ↔
      (lookup? "name" entries).bind text? = some name := by
    simp [required_eq_accepted_iff, text_eq_accepted_iff, Option.bind_eq_some_iff]
  simp only [ofValue, seqLeft_eq_accepted_iff, seq_eq_accepted_iff, functorMap_eq_accepted_iff,
    optional_flag_eq_accepted_iff, noOthers_eq_accepted_iff, hname,
    required_columns_eq_accepted_iff, optional_test_eq_accepted_iff,
    optional_section_eq_accepted_iff ApiSettings.ofValue_eq_accepted_iff,
    optional_section_eq_accepted_iff DocsSettings.ofValue_eq_accepted_iff]
  constructor
  · rintro ⟨⟨_, docs, ⟨_, openapi, ⟨_, active, ⟨_, test, ⟨_, doc, ⟨_, columns, ⟨_, table,
      ⟨name, hgiven, rfl⟩, htable, rfl⟩, hspelled, rfl⟩, hdoc, rfl⟩, htest, rfl⟩, hactive, rfl⟩,
      hopenapi, rfl⟩, hdocs, rfl⟩, honly⟩
    exact ⟨hgiven, htable, hspelling.mp ⟨hspelled, honly⟩, hdoc, htest, hactive, hopenapi,
      hdocs⟩
  · rintro ⟨hgiven, htable, hcolumns, hdoc, htest, hactive, hopenapi, hdocs⟩
    obtain ⟨hspelled, honly⟩ := hspelling.mpr hcolumns
    exact ⟨⟨_, _, ⟨_, _, ⟨_, _, ⟨_, _, ⟨_, _, ⟨_, _, ⟨_, _, ⟨_, hgiven, rfl⟩, htable, rfl⟩,
      hspelled, rfl⟩, hdoc, rfl⟩, htest, rfl⟩, hactive, rfl⟩, hopenapi, rfl⟩, hdocs, rfl⟩, honly⟩

end EntityCompiler

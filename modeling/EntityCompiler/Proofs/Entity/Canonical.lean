import EntityCompiler.Proofs.Entity.Build
import EntityCompiler.Proofs.Json.Order
import EntityCompiler.Proofs.Json.Text

/-!
# Canonical forms determine definitions

Two specifications with the same payload, the text that is digested to the fingerprint, describe the
same entity: the payload is the text of a value, that value determines each of its members, and the
members are all there is to an entity except for the examples of its documentation.
-/

namespace EntityCompiler

/-- The text whose digest is the fingerprint of the entity that a value describes. -/
def Entity.payloadOf (v : Value) : Except EntityError String := do
  let spec ← Specification.read v
  let e ← spec.build
  return (spec.canonical e.columns).canonicalText

theorem Entity.payloadOf_eq_ok {v : Value} {spec : Specification} {e : Entity}
    (hread : Specification.read v = .ok spec) (hbuild : spec.build = .ok e) :
    payloadOf v = .ok (spec.canonical e.columns).canonicalText :=
  bind_eq_ok_iff.mpr ⟨spec, hread, bind_eq_ok_iff.mpr ⟨e, hbuild, rfl⟩⟩

/-- The fingerprint of a built entity is the digest of its payload. -/
theorem Entity.fingerprint_of_build {v : Value} {e : Entity} (h : Entity.build v = .ok e) :
    ∃ payload, payloadOf v = .ok payload ∧ e.fingerprint = Sha256.digest payload.toUTF8.toList := by
  obtain ⟨spec, hread, hbuild⟩ := build_eq_ok_iff.mp h
  obtain ⟨-, -, -, -, hentity⟩ := Specification.build_eq_ok_iff.mp hbuild
  exact ⟨_, payloadOf_eq_ok hread hbuild, congrArg Entity.fingerprint hentity⟩

/-! ## Members -/

namespace Json

theorem canonicalText_injective {a b : Json} (h : a.canonicalText = b.canonicalText) :
    a.sortKeys = b.sortKeys :=
  chars_injective .ascii (String.ofList_injective h)

/-- Objects with one sorted form have the same members up to order. -/
theorem member?_eq_of_sortKeys_eq {members others : List (String × Json)}
    (hmembers : (members.map (·.1)).Nodup) (hothers : (others.map (·.1)).Nodup)
    (h : (Json.object members).sortKeys = (Json.object others).sortKeys) (key : String) :
    ((Json.object members).member? key).map sortKeys =
      ((Json.object others).member? key).map sortKeys := by
  rw [← member?_sortKeys hmembers, ← member?_sortKeys hothers, h]

theorem ofText?_inj {s t : Option String} (h : (ofText? s).sortKeys = (ofText? t).sortKeys) :
    s = t := by
  cases s <;> cases t <;> simp_all [ofText?, sortKeys]

theorem ofTexts_inj {s t : List String} (h : (ofTexts s).sortKeys = (ofTexts t).sortKeys) :
    s = t := by
  simp only [ofTexts, sortKeys_array, List.map_map, array.injEq] at h
  exact List.map_injective_iff.mpr (fun a b hab ↦ by simpa [sortKeys] using hab) h

theorem rel_reordered_of_map_eq {a b : Option Json} (h : a.map sortKeys = b.map sortKeys) :
    Option.Rel Reordered a b := by
  cases a with
  | none =>
    cases b with
    | none => exact .none
    | some b => simp at h
  | some a =>
    cases b with
    | none => simp at h
    | some b => exact .some (reordered_of_sortKeys_eq (Option.some.inj h))

end Json

open Json

/-! ## Columns -/

theorem ColumnType.sortKeys_toJson (t : ColumnType) : t.toJson.sortKeys = t.toJson := by
  induction t with
  | primitive p => rfl
  | arrayOf element ih => simp [ColumnType.toJson, sortKeys_object, sortedMember, ih]

theorem ColumnType.toJson_injective : Function.Injective ColumnType.toJson := by
  intro s t h
  induction s generalizing t with
  | primitive p =>
    cases t with
    | primitive q =>
      have hname : p.name = q.name := by simpa [ColumnType.toJson] using h
      have hsame : some p = some q := by
        rw [← Primitive.ofName?_name p, hname, Primitive.ofName?_name]
      rw [Option.some.inj hsame]
    | arrayOf element => simp [ColumnType.toJson] at h
  | arrayOf element ih =>
    cases t with
    | primitive q => simp [ColumnType.toJson] at h
    | arrayOf other => rw [ih (t := other) (by simpa [ColumnType.toJson] using h)]

theorem Visibility.name_injective : Function.Injective Visibility.name := by
  intro v w h
  cases v <;> cases w <;> simp_all [Visibility.name]

theorem TestMode.name_injective : Function.Injective TestMode.name := by
  intro m n h
  cases m <;> cases n <;> simp_all [TestMode.name]

theorem StorageFlags.toJson_inj {flags others : StorageFlags}
    (h : flags.toJson.sortKeys = others.toJson.sortKeys) : flags = others := by
  have hmember := member?_eq_of_sortKeys_eq (by simp) (by simp) h
  have hprimary := hmember "primary"
  have hunique := hmember "unique"
  have hindex := hmember "index"
  have hnow := hmember "default_now"
  simp [member?, sortKeys] at hprimary hunique hindex hnow
  cases flags
  cases others
  simp_all

/-- Columns that are equal up to the order of members in their literals. -/
structure Column.Same (c d : Column) : Prop where
  type : c.type = d.type
  optional : c.optional = d.optional
  nullable : c.nullable = d.nullable
  default : Option.Rel Reordered c.default d.default
  description : c.description = d.description
  visibility : c.visibility = d.visibility
  immutable : c.immutable = d.immutable
  stored : c.stored = d.stored
  sample : Option.Rel Reordered c.sample d.sample
  db : c.db = d.db

/-- The members of a column that are always there. -/
def Column.settings (c : Column) : List (String × Json) :=
  [("type", c.type.toJson), ("optional", .bool c.optional), ("nullable", .bool c.nullable),
    ("description", ofText? c.description), ("visibility", .text c.visibility.name),
    ("immutable", .bool c.immutable), ("stored", .bool c.stored), ("db", c.db.toJson)]

/-- The members of a column. -/
def Column.members (c : Column) : List (String × Json) :=
  c.settings ++ optionalMember "default" c.default ++ optionalMember "example" c.sample

theorem Column.toJson_eq (c : Column) : c.toJson = .object c.members :=
  rfl

theorem Column.nodup_members (c : Column) : (c.members.map (·.1)).Nodup := by
  unfold Column.members Column.settings
  cases c.default <;> cases c.sample <;> simp [optionalMember]

theorem Column.member?_default (c : Column) : (Json.object c.members).member? "default" = c.default := by
  unfold Column.members Column.settings
  cases c.default <;> cases c.sample <;> simp [member?, optionalMember]

theorem Column.member?_example (c : Column) : (Json.object c.members).member? "example" = c.sample := by
  unfold Column.members Column.settings
  cases c.default <;> cases c.sample <;> simp [member?, optionalMember]

/-- What the canonical form of a column has under the key of a setting. -/
theorem Column.member?_setting (c : Column) {setting : String × Json} (h : setting ∈ c.settings) :
    (Json.object c.members).member? setting.1 = some setting.2 := by
  refine (member?_eq_some_iff c.nodup_members).mpr ?_
  exact List.mem_append_left _ (List.mem_append_left _ h)

theorem Column.same_of_sortKeys_eq {c d : Column} (h : c.toJson.sortKeys = d.toJson.sortKeys) :
    c.Same d := by
  have hmember := member?_eq_of_sortKeys_eq c.nodup_members d.nodup_members h
  have hsetting (key : String) (a b : Json) (ha : (key, a) ∈ c.settings)
      (hb : (key, b) ∈ d.settings) : a.sortKeys = b.sortKeys := by
    have hkey := hmember key
    rw [c.member?_setting ha, d.member?_setting hb] at hkey
    exact Option.some.inj hkey
  have hflag (key : String) (a b : Bool) (ha : (key, Json.bool a) ∈ c.settings)
      (hb : (key, Json.bool b) ∈ d.settings) : a = b := by
    simpa [sortKeys] using hsetting key _ _ ha hb
  have htype := hsetting "type" c.type.toJson d.type.toJson (by simp [settings]) (by simp [settings])
  have hdescription := hsetting "description" (ofText? c.description) (ofText? d.description)
    (by simp [settings]) (by simp [settings])
  have hvisibility := hsetting "visibility" (.text c.visibility.name) (.text d.visibility.name)
    (by simp [settings]) (by simp [settings])
  have hdb := hsetting "db" c.db.toJson d.db.toJson (by simp [settings]) (by simp [settings])
  have hdefault := hmember "default"
  rw [c.member?_default, d.member?_default] at hdefault
  have hsample := hmember "example"
  rw [c.member?_example, d.member?_example] at hsample
  rw [ColumnType.sortKeys_toJson, ColumnType.sortKeys_toJson] at htype
  exact {
    type := ColumnType.toJson_injective htype
    optional := hflag "optional" _ _ (by simp [settings]) (by simp [settings])
    nullable := hflag "nullable" _ _ (by simp [settings]) (by simp [settings])
    default := rel_reordered_of_map_eq hdefault
    description := ofText?_inj hdescription
    visibility := Visibility.name_injective (by simpa [sortKeys] using hvisibility)
    immutable := hflag "immutable" _ _ (by simp [settings]) (by simp [settings])
    stored := hflag "stored" _ _ (by simp [settings]) (by simp [settings])
    sample := rel_reordered_of_map_eq hsample
    db := StorageFlags.toJson_inj hdb }

/-! ## Settings of an entity -/

theorem ApiSettings.toJson_inj {settings others : ApiSettings}
    (h : settings.toJson.sortKeys = others.toJson.sortKeys) : settings = others := by
  have hmember := member?_eq_of_sortKeys_eq (by simp) (by simp) h
  have henabled := hmember "enabled"
  have htags := hmember "tags"
  have hsummary := hmember "summary"
  have hdescription := hmember "description"
  simp only [member?, List.find?, decide_true, decide_false, Option.map_some, Option.some.injEq,
    String.reduceEq] at henabled htags hsummary hdescription
  cases settings
  cases others
  congr 1
  · simpa [sortKeys] using henabled
  · exact ofTexts_inj htags
  · exact ofText?_inj hsummary
  · exact ofText?_inj hdescription

/-- The examples of a documentation as members of an object, in their plain forms. -/
def DocsSettings.plainExamples (docs : DocsSettings) : List (String × Json) :=
  docs.examples.map fun shown ↦ (shown.1, shown.2.plain)

/-- Documentations with the same description whose examples have the same plain forms. -/
def DocsSettings.SamePlain (docs others : DocsSettings) : Prop :=
  docs.description = others.description ∧
    Reordered (.object docs.plainExamples) (.object others.plainExamples)

/-- The description of a documentation is determined by its canonical form, and so are the plain
forms of its examples. -/
theorem DocsSettings.toJson_inj {docs others : DocsSettings}
    (h : docs.toJson.sortKeys = others.toJson.sortKeys) :
    docs.SamePlain others := by
  have hmember := member?_eq_of_sortKeys_eq (by simp) (by simp) h
  have hdescription := hmember "description"
  have hexamples := hmember "examples"
  simp only [member?, List.find?, decide_true, decide_false, Option.map_some, Option.some.injEq,
    String.reduceEq] at hdescription hexamples
  exact ⟨ofText?_inj hdescription, reordered_of_sortKeys_eq hexamples⟩

/-- A part that may be absent is there in both values with one sorted form or in none. -/
theorem Json.ofOption_inj {α : Type} {toJson : α → Json} {x y : Option α} {R : α → α → Prop}
    (hnull : ∀ x, (toJson x).sortKeys ≠ .null)
    (hinj : ∀ x y, (toJson x).sortKeys = (toJson y).sortKeys → R x y)
    (h : (ofOption toJson x).sortKeys = (ofOption toJson y).sortKeys) : Option.Rel R x y := by
  cases x with
  | none =>
    cases y with
    | none => exact .none
    | some y => exact absurd h.symm (hnull y)
  | some x =>
    cases y with
    | none => exact absurd h (hnull x)
    | some y => exact .some (hinj x y h)

/-! ## Entities -/

/-- Entities that are equal up to the order of members in literals and to the examples of their
documentation.  Columns are in the same order. -/
structure Entity.SameContent (e f : Entity) : Prop where
  name : e.name = f.name
  table : e.table = f.table
  columns : List.Forall₂ (fun c d ↦ c.1 = d.1 ∧ c.2.Same d.2) e.columns f.columns
  doc : e.metadata.doc = f.metadata.doc
  test : e.metadata.test = f.metadata.test
  active : e.metadata.active = f.metadata.active
  openapi : e.metadata.openapi = f.metadata.openapi
  description : e.metadata.docs.description = f.metadata.docs.description

theorem Specification.metadata_docs_description (spec : Specification) :
    spec.metadata.docs.description = (spec.docs.getD {}).description := by
  unfold metadata
  cases spec.docs <;> rfl

theorem Column.forall₂_same_of_map_eq {columns others : List (String × Column)}
    (h : columns.map (sortKeys ∘ fun column ↦ .array [.text column.1, column.2.toJson]) =
      others.map (sortKeys ∘ fun column ↦ .array [.text column.1, column.2.toJson])) :
    List.Forall₂ (fun c d ↦ c.1 = d.1 ∧ c.2.Same d.2) columns others := by
  induction columns generalizing others with
  | nil =>
    cases others with
    | nil => exact .nil
    | cons other others => simp at h
  | cons column columns ih =>
    cases others with
    | nil => simp at h
    | cons other others =>
      simp only [List.map_cons, List.cons.injEq, Function.comp_apply, sortKeys_array, List.map_nil,
        array.injEq, and_true] at h
      obtain ⟨⟨hname, hcolumn⟩, hrest⟩ := h
      exact .cons ⟨by simpa [sortKeys] using hname, same_of_sortKeys_eq hcolumn⟩ (ih hrest)

/-- Everything that a canonical form is made of is determined by its sorted form. -/
theorem Specification.canonical_inj {spec other : Specification}
    {columns others : List (String × Column)}
    (h : (spec.canonical columns).sortKeys = (other.canonical others).sortKeys) :
    (spec.freeze columns).SameContent (other.freeze others) ∧
      Option.Rel DocsSettings.SamePlain spec.docs other.docs := by
  have hmember := member?_eq_of_sortKeys_eq (by simp) (by simp) h
  have hname := hmember "name"
  have htable := hmember "table"
  have hdoc := hmember "doc"
  have htest := hmember "test"
  have hactive := hmember "active"
  have hopenapi := hmember "openapi"
  have hdocs := hmember "docs"
  have hcolumns := hmember "columns"
  simp only [member?, List.find?, decide_true, decide_false, Option.map_some, Option.some.injEq,
    String.reduceEq] at hname htable hdoc htest hactive hopenapi hdocs hcolumns
  have hsettings : Option.Rel Eq spec.openapi other.openapi :=
    ofOption_inj (fun x ↦ by simp [ApiSettings.toJson, sortKeys])
      (fun x y ↦ ApiSettings.toJson_inj) hopenapi
  have hsame : Option.Rel DocsSettings.SamePlain spec.docs other.docs :=
    ofOption_inj (fun x ↦ by simp [DocsSettings.toJson, sortKeys])
      (fun x y ↦ DocsSettings.toJson_inj) hdocs
  have hmode : spec.test.map TestMode.name = other.test.map TestMode.name := ofText?_inj htest
  simp only [sortKeys_array, List.map_map, array.injEq] at hcolumns
  simp only [sortKeys, text.injEq, bool.injEq] at hname htable hdoc hactive
  refine ⟨⟨hname, htable, Column.forall₂_same_of_map_eq hcolumns, hdoc, ?_, hactive, ?_, ?_⟩, hsame⟩
  · exact Option.map_injective TestMode.name_injective hmode
  · exact rel_getD hsettings rfl
  · calc spec.metadata.docs.description
        = (spec.docs.getD {}).description := spec.metadata_docs_description
      _ = (other.docs.getD {}).description := (rel_getD hsame ⟨rfl, .refl _⟩).1
      _ = other.metadata.docs.description := other.metadata_docs_description.symm

/-- Values with the same payload give specifications whose canonical forms have one sorted form. -/
theorem Entity.sortKeys_canonical_of_payloadOf_eq {v w : Value} {e f : Entity}
    (hv : Entity.build v = .ok e) (hw : Entity.build w = .ok f) (h : payloadOf v = payloadOf w) :
    ∃ spec other : Specification, e = spec.freeze e.columns ∧ f = other.freeze f.columns ∧
      (spec.canonical e.columns).sortKeys = (other.canonical f.columns).sortKeys := by
  obtain ⟨spec, hread, hbuild⟩ := build_eq_ok_iff.mp hv
  obtain ⟨other, hother, hbuilt⟩ := build_eq_ok_iff.mp hw
  rw [payloadOf_eq_ok hread hbuild, payloadOf_eq_ok hother hbuilt] at h
  obtain ⟨-, -, -, -, he⟩ := Specification.build_eq_ok_iff.mp hbuild
  obtain ⟨-, -, -, -, hf⟩ := Specification.build_eq_ok_iff.mp hbuilt
  exact ⟨spec, other, he, hf, canonicalText_injective (Except.ok.inj h)⟩

/-- Accepted specifications with the same payload describe the same definition.  Texts are made of characters
here: halves of a surrogate pair, which have the escapes of the character that they stand for, are none. -/
theorem Entity.sameContent_of_payloadOf_eq {v w : Value} {e f : Entity}
    (hv : Entity.build v = .ok e) (hw : Entity.build w = .ok f) (h : payloadOf v = payloadOf w) :
    e.SameContent f := by
  obtain ⟨spec, other, he, hf, hsorted⟩ := sortKeys_canonical_of_payloadOf_eq hv hw h
  rw [he, hf]
  exact (Specification.canonical_inj hsorted).1

/-- The description of an entity with one textual column, its columns being given under `key`. -/
def Entity.titled (key : String) : Value :=
  .ofFields [("name", .text "Book"), (key, .ofFields [("title", .ofFields [("type", .text "string")])])]

/-- What `Entity.titled` describes under either of the two keys for columns. -/
def Specification.titled : Specification where
  name := "Book"
  columns := [("title", { type := .text "string" })]

end EntityCompiler

import EntityCompiler.Proofs.Api.Shown
import EntityCompiler.Proofs.Entity.Respelled
import EntityCompiler.Proofs.Validation.Defaults
import EntityCompiler.Proofs.Validation.Equality

/-!
# Hidden columns

Internal and secret columns do not show in the API.  Entities with the same public columns have the
same component, the same public schema and the same documents, whatever other columns they have and
wherever these stand, and no record that the public schema accepts has a hidden column.
-/

namespace EntityCompiler

open Json

/-! ## Keys of built entities -/

namespace Entity

variable {v : Value} {e : Entity}

theorem literalsKeyed_of_build (hv : v.DistinctKeys) (hbuild : build v = .ok e)
    {column : String × Column} (hmem : column ∈ e.columns) : column.2.LiteralsKeyed := by
  obtain ⟨spec, hread, hspec⟩ := build_eq_ok_iff.mp hbuild
  obtain ⟨entries, rfl, hgiven⟩ := Specification.exists_givenBy_of_read hread
  have hkeys : spec.LiteralsHold Value.DistinctKeys := Specification.literalsHold_of_givenBy
    (fun entries hentries ↦ (Value.distinctKeys_dict.mp hentries).2) hv hgiven
  exact Specification.literalsKeyed_of_build hkeys hspec hmem

/-- Columns that are described by a dictionary without repeated keys have distinct names. -/
theorem nodup_columnNames_of_distinctKeys (hv : v.DistinctKeys) (hbuild : build v = .ok e) :
    e.columnNames.Nodup := by
  cases v with
  | dict entries =>
    refine nodup_columnNames_of_build hbuild fun key given hfound ↦ ?_
    obtain ⟨label, -, hentry⟩ := Value.mem_of_lookup? hfound
    have hgiven := (Value.distinctKeys_dict.mp hv).2 _ hentry
    exact (Value.distinctKeys_dict.mp hgiven).1
  | _ => exact nomatch hbuild

end Entity

/-! ## The same public columns -/

namespace Json

theorem shownAlike_of_alike {a b : Json} (ha : a.Keyed) (hb : b.Keyed) (h : a.alike b = true) :
    ShownAlike (fun a b ↦ a.alike b = true) a b where
  related := h
  null := by
    constructor
    · rintro rfl
      exact null_alike_iff.mp h
    · rintro rfl
      exact alike_null_iff.mp h
  depth := levelsKept a b ha hb h

theorem rel_shownAlike_of_alike? {x y : Option Json} (hx : ∀ value, x = some value → value.Keyed)
    (hy : ∀ value, y = some value → value.Keyed) (h : alike? x y = true) :
    Option.Rel (ShownAlike fun a b ↦ a.alike b = true) x y := by
  cases x with
  | none => cases y with
    | none => exact .none
    | some b => cases h
  | some a => cases y with
    | none => cases h
    | some b => exact .some (shownAlike_of_alike (hx a rfl) (hy b rfl) h)

end Json

theorem Column.shownAlike_of_alike {c d : Column} (hc : c.LiteralsKeyed) (hd : d.LiteralsKeyed)
    (h : c.alike d = true) : c.ShownAlike (fun a b ↦ a.alike b = true) d := by
  obtain ⟨htype, hoptional, hnullable, hdefault, hdescription, -, himmutable, -, hsample, -⟩ :=
    alike_iff.mp h
  exact {
    type := htype
    required := by rw [required, required, hoptional]
    acceptsNull := by rw [acceptsNull, acceptsNull, hoptional, hnullable]
    description := hdescription
    immutable := himmutable
    default := rel_shownAlike_of_alike? (fun value h ↦ hc value (.inl h))
      (fun value h ↦ hd value (.inl h)) hdefault
    sample := rel_shownAlike_of_alike? (fun value h ↦ hc value (.inr h))
      (fun value h ↦ hd value (.inr h)) hsample }

/-- Entities with the same name, the same metadata and the same public columns in the same order.
They may have any other columns, in any places. -/
structure Entity.SamePublic (e f : Entity) : Prop where
  name : e.name = f.name
  metadata : e.metadata.alike f.metadata = true
  columns : List.Forall₂ (fun c d ↦ c.1 = d.1 ∧ c.2.alike d.2 = true) e.publicColumns f.publicColumns

/-- What the API shows of two entities is related: their components, the schemas of what is shown, their
documents, and the documents of projects that differ in these entities only. -/
structure Entity.Indistinct (R : Json → Json → Prop)
    (S : Validation.Schema → Validation.Schema → Prop) (e f : Entity) : Prop where
  component : Corresponds R (Api.component e) (Api.component f)
  schema : S (.shown e) (.shown f)
  document (options : Api.DocumentOptions) :
    Corresponds R (Api.entityDocument e options) (Api.entityDocument f options)
  project (before after : List Entity) (options : Api.DocumentOptions) :
    Corresponds R (Api.projectDocument (before ++ e :: after) options)
      (Api.projectDocument (before ++ f :: after) options)

namespace Entity

variable {e f : Entity}

theorem ShownAlike.indistinct {R : Json → Json → Prop} (hR : Congruence R) (h : e.ShownAlike R f)
    {S : Validation.Schema → Validation.Schema → Prop} (hschema : S (.shown e) (.shown f)) :
    e.Indistinct R S f where
  component := Api.corresponds_component hR h
  schema := hschema
  document := Api.corresponds_entityDocument hR h
  project before after :=
    Api.corresponds_projectDocument hR (forall₂_replace (shownAlike_refl hR) before after h)

end Entity

namespace Validation

theorem Schema.alike_shown {e f : Entity} (h : e.SamePublic f) :
    (Schema.shown e).alike (Schema.shown f) = true :=
  Schema.alike_ofColumns (congrArg (· ++ "Public") h.name) h.columns

/-- A record that the public schema accepts has no hidden column. -/
theorem notMem_of_validate_shown {e : Entity} (hnames : e.columnNames.Nodup)
    {record : List (Value × Value)} {result : List (String × Value)}
    (h : (Schema.shown e).validate record = .ok result) {column : String × Column}
    (hmem : column ∈ e.columns) (hhidden : column.2.isPublic = false) :
    ∀ entry ∈ record, entry.1.text? ≠ some column.1 := by
  intro entry hentry hnamed
  -- The key is the name of a public column too, but names are distinct.
  obtain ⟨name, hname, hkey⟩ := ((Schema.validate_eq_ok_iff rfl).mp h).1 _ hentry
  obtain ⟨field, hfield, rfl⟩ := List.mem_map.mp hname
  obtain ⟨shown, hshown, rfl⟩ := List.mem_map.mp hfield
  obtain ⟨hcolumn, hpublic⟩ := List.mem_filter.mp hshown
  have hsame : shown = column :=
    List.inj_on_of_nodup_map hnames hcolumn hmem (Option.some.inj (hkey.symm.trans hnamed))
  rw [hsame, hhidden] at hpublic
  cases hpublic

end Validation

namespace Entity

open Validation

variable {v w : Value} {e f : Entity}

theorem SamePublic.shownAlike (h : e.SamePublic f) (hv : v.DistinctKeys) (hw : w.DistinctKeys)
    (he : build v = .ok e) (hf : build w = .ok f) :
    e.ShownAlike (fun a b ↦ a.alike b = true) f := by
  have hmetadata := h.metadata
  simp only [Metadata.alike, Bool.and_eq_true, decide_eq_true_eq] at hmetadata
  obtain ⟨⟨⟨⟨⟨-, -⟩, hactive⟩, hopenapi⟩, hdescription⟩, -⟩ := hmetadata
  refine ⟨h.name, hactive, hopenapi, hdescription, ?_⟩
  have hcolumns : List.Forall₂ (fun c d ↦ (c ∈ e.publicColumns ∧ d ∈ f.publicColumns) ∧
      c.1 = d.1 ∧ c.2.alike d.2 = true) e.publicColumns f.publicColumns :=
    forall₂_and_mem h.columns
  exact hcolumns.imp fun c d hcd ↦ ⟨hcd.2.1, Column.shownAlike_of_alike
    (literalsKeyed_of_build hv he (List.mem_of_mem_filter hcd.1.1))
    (literalsKeyed_of_build hw hf (List.mem_of_mem_filter hcd.1.2)) hcd.2.2⟩

/-- Entities with the same name, the same metadata and the same public columns in the same order cannot
be told apart by their components, their public schemas, their documents and the documents of projects
that they are part of, whatever hidden columns they have.  Where literals are the same in every detail,
so is all that is shown.  No record that the public schema accepts has the name of a hidden column as
a key.  Keys are distinct in each dictionary of a description, as those of a dictionary always are. -/
theorem hidden_unseen (hv : v.DistinctKeys) (hw : w.DistinctKeys) (he : build v = .ok e)
    (hf : build w = .ok f) :
    (e.SamePublic f →
      e.Indistinct (fun a b ↦ a.alike b = true) (fun s t ↦ s.alike t = true) f) ∧
    (e.name = f.name → e.metadata = f.metadata → e.publicColumns = f.publicColumns →
      e.Indistinct (· = ·) (· = ·) f) ∧
    ∀ record result, (Schema.shown e).validate record = .ok result →
      ∀ column ∈ e.columns, column.2.isPublic = false →
        ∀ entry ∈ record, entry.1.text? ≠ some column.1 := by
  refine ⟨fun h ↦ ?_, fun hname hmetadata hcolumns ↦ ?_, fun record result hresult column hmem ↦ ?_⟩
  · exact (h.shownAlike hv hw he hf).indistinct congruence_alike (Schema.alike_shown h)
  · have hshown : e.ShownAlike (· = ·) f := by
      refine ⟨hname, by rw [hmetadata], by rw [hmetadata], by rw [hmetadata], ?_⟩
      rw [← hcolumns]
      exact (shownAlike_refl congruence_eq e).columns
    have hschema : Schema.shown e = Schema.shown f := by
      rw [Schema.shown, Schema.shown, hname, hcolumns]
    exact hshown.indistinct congruence_eq hschema
  · exact notMem_of_validate_shown (nodup_columnNames_of_distinctKeys hv he) hresult hmem

/-- The description of an entity with a secret column, which has a default, before a public one. -/
def guarded (secret default : String) : Value :=
  .ofFields [("name", .text "Book"), ("columns", .ofFields
    [(secret, .ofFields [("type", .text "string"), ("visibility", .text "secret"),
      ("default", .text default)]), ("title", .ofFields [("type", .text "string")])])]

/-- What `guarded` describes. -/
def guardedSpecification (secret default : String) : Specification where
  name := "Book"
  columns := [(secret, { type := .text "string", default := some (.text default), visibility := .isSecret }),
    ("title", { type := .text "string" })]

/-- The entity that `guarded` describes. -/
def guardedEntity (secret default : String) : Entity :=
  (guardedSpecification secret default).freeze
    [(secret, { type := .primitive .string, default := some (.text default), visibility := .isSecret }),
      ("title", { type := .primitive .string })]

theorem build_guarded {secret default : String}
    (hread : Specification.read (guarded secret default) = .ok (guardedSpecification secret default))
    (hsecret : Naming.isColumnName secret = true) :
    build (guarded secret default) = .ok (guardedEntity secret default) := by
  have hname : Naming.isPascalCase "Book" = true := by
    decide
  refine build_eq_ok_iff.mpr ⟨_, hread, Specification.build_eq_ok_iff.mpr
    ⟨hname, List.cons_ne_nil _ _, ?_, rfl, rfl⟩⟩
  exact Specification.buildColumns_eq_ok_iff.mpr
    (.cons ⟨rfl, ColumnSpecification.build_eq_ok_iff.mpr ⟨hsecret, rfl, rfl, rfl, rfl, rfl⟩⟩
      (.cons ⟨rfl, ColumnSpecification.build_eq_ok_iff.mpr ⟨by decide, rfl, rfl, rfl, rfl, rfl⟩⟩ .nil))

theorem distinctKeys_guarded {secret : String} (default : String) (h : secret ≠ "title") :
    (guarded secret default).DistinctKeys := by
  simp [guarded, Value.ofFields, Value.DistinctKeys, Value.EntriesDistinctKeys, h]

theorem hidden_unseen_guarded :
    let v := guarded "token" "first"
    let w := guarded "key" "second"
    let e := guardedEntity "token" "first"
    let f := guardedEntity "key" "second"
    let record : List (Value × Value) := [(.text "title", .text "Dune")]
    v.DistinctKeys ∧ w.DistinctKeys ∧ build v = .ok e ∧ build w = .ok f ∧ e.columnNames ≠ f.columnNames ∧
      Api.component e = Api.component f ∧ (Schema.shown e).alike (Schema.shown f) = true ∧
      (∃ result, (Schema.shown e).validate record = .ok result) ∧
      ∀ entry ∈ record, entry.1.text? ≠ some "token" := by
  intro v w e f record
  have hv : v.DistinctKeys := distinctKeys_guarded _ (by decide)
  have hw : w.DistinctKeys := distinctKeys_guarded _ (by decide)
  have he : build v = .ok e := build_guarded rfl (by decide)
  have hf : build w = .ok f := build_guarded rfl (by decide)
  obtain ⟨result, hrecord⟩ : ∃ result, (Schema.shown e).validate record = .ok result := ⟨_, rfl⟩
  obtain ⟨halike, hequal, hhidden⟩ := hidden_unseen hv hw he hf
  have hsame : e.SamePublic f := ⟨rfl, rfl, .cons ⟨rfl, rfl⟩ .nil⟩
  exact ⟨hv, hw, he, hf, by decide, (hequal rfl rfl rfl).component.eq, (halike hsame).schema,
    ⟨result, hrecord⟩, hhidden record result hrecord _ List.mem_cons_self rfl⟩

end Entity

end EntityCompiler

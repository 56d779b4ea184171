import EntityCompiler.Proofs.Api.Property
import EntityCompiler.Proofs.Json.Alike
import EntityCompiler.Proofs.Project.Run

/-!
# Entities of a project by name

Under a name, the document of a project has the component of the last entity with that name whose
API is enabled, and the artifacts of the first entity with it are given out.  So both are those of the
entity itself where names are distinct, and where they are not, only if the components happen to be
equal.
-/

namespace EntityCompiler

variable {settings : Sql.Settings} {dialect : Option Value} {options : Api.DocumentOptions}
  {workers : Option Int} {store : Store} {sources : List Source} {es : List Entity}
  {a found last : Artifacts} {p : Project} {name : String}

/-- Whether an entity is to be part of API documents. -/
def Artifacts.enabled (a : Artifacts) : Bool :=
  a.entity.metadata.openapi.enabled

namespace Project

/-- Whether a project has the component of an entity under its name, in the document as well as
among the artifacts. -/
structure Describes (p : Project) (a : Artifacts) : Prop where
  document : Api.schema? p.document a.name = some a.component
  artifacts : ∃ found, p.get a.name = .ok found ∧ found.component = a.component

/-! ## Artifacts by name -/

theorem get_eq_ok_iff :
    p.get name = .ok found ↔ p.entities.find? (fun a ↦ a.name = name) = some found := by
  unfold get
  cases p.entities.find? fun a ↦ a.name = name <;> simp

theorem exists_get (hmem : a ∈ p.entities) : ∃ found, p.get a.name = .ok found := by
  have hsome : (p.entities.find? fun b ↦ b.name = a.name).isSome := by
    rw [List.find?_isSome]
    exact ⟨a, hmem, decide_eq_true rfl⟩
  obtain ⟨found, hfound⟩ := Option.isSome_iff_exists.mp hsome
  exact ⟨found, get_eq_ok_iff.mpr hfound⟩

theorem name_of_get (h : p.get name = .ok found) : found ∈ p.entities ∧ found.name = name := by
  have hfound := get_eq_ok_iff.mp h
  exact ⟨List.mem_of_find?_eq_some hfound, by simpa using List.find?_some hfound⟩

/-- The last entity with a given name whose API is enabled. -/
def lastEnabled? (p : Project) (name : String) : Option Artifacts :=
  p.entities.reverse.find? fun a ↦ a.enabled && a.name = name

theorem exists_lastEnabled? (hmem : a ∈ p.entities) (henabled : a.enabled = true) :
    ∃ last, p.lastEnabled? a.name = some last := by
  apply Option.isSome_iff_exists.mp
  rw [lastEnabled?, List.find?_isSome]
  exact ⟨a, List.mem_reverse.mpr hmem, by simp [henabled]⟩

theorem name_of_lastEnabled? (h : p.lastEnabled? name = some last) :
    last ∈ p.entities ∧ last.name = name := by
  have hlast := List.find?_some h
  rw [Bool.and_eq_true, decide_eq_true_eq] at hlast
  exact ⟨List.mem_reverse.mp (List.mem_of_find?_eq_some h), hlast.2⟩

/-! ## Components in the document -/

section Covers

variable (h : p.Covers settings dialect options es)
include h

theorem Covers.component (hmem : a ∈ p.entities) : Api.component a.entity = .ok a.component := by
  obtain ⟨g, hg, hrest⟩ := bind_eq_ok_iff.mp (h.alone a hmem (.ofCapacity 0))
  exact Artifacts.component_of_ofEntity hrest

theorem Covers.active_entity (hmem : a ∈ p.entities) : a.entity.metadata.active = true := by
  have hentity : a.entity ∈ es.filter (·.metadata.active) :=
    h.active ▸ List.mem_map_of_mem hmem
  exact (List.mem_filter.mp hentity).2

theorem Covers.lastDocumented? (name : String) :
    Api.lastDocumented? (es.filter (·.metadata.active)) name =
      (p.lastEnabled? name).map (·.entity) := by
  rw [← h.active, Api.lastDocumented?, lastEnabled?, ← List.map_reverse, List.find?_map]
  congr 1
  apply List.find?_congr
  intro a hmem
  have hactive := h.active_entity (List.mem_reverse.mp hmem)
  rw [Function.comp_apply, Entity.isDocumented, hactive, Bool.true_and]
  rfl

/-- The document has the component of the last enabled entity with a name. -/
theorem Covers.schema? (name : String) :
    Api.schema? p.document name = (p.lastEnabled? name).map (·.component) := by
  ext component
  rw [Api.schema?_projectDocument h.document, h.lastDocumented?]
  cases hlast : p.lastEnabled? name with
  | none => simp
  | some last => simp [h.component (name_of_lastEnabled? hlast).1]

end Covers

theorem describes_iff (h : p.Covers settings dialect options es)
    (hlast : p.lastEnabled? a.name = some last) (hfound : p.get a.name = .ok found) :
    p.Describes a ↔ last.component = a.component ∧ found.component = a.component := by
  have hdocument : Api.schema? p.document a.name = some last.component := by
    rw [h.schema?, hlast, Option.map_some]
  constructor
  · rintro ⟨hschema, other, hother, hcomponent⟩
    obtain rfl := Except.ok.inj (hfound.symm.trans hother)
    exact ⟨Option.some.inj (hdocument.symm.trans hschema), hcomponent⟩
  · rintro ⟨hlastComponent, hcomponent⟩
    exact ⟨hlastComponent ▸ hdocument, found, hfound, hcomponent⟩

/-- An entity whose API is enabled has a component in the document of its project, namely that of
the last such entity with its name, and its name gives the first entity with that name.  The project
describes the entity under its name exactly when the components of both are its own, and so it always
does if the names in the project are distinct. -/
theorem describes_iff_of_build
    (h : build settings dialect options workers store sources = .ok p) (hmem : a ∈ p.entities)
    (henabled : a.enabled = true) :
    (∃ last found, p.lastEnabled? a.name = some last ∧
      Api.schema? p.document a.name = some last.component ∧ p.get a.name = .ok found ∧
      (p.Describes a ↔ last.component = a.component ∧ found.component = a.component)) ∧
    ((p.entities.map (·.name)).Nodup → p.Describes a) := by
  obtain ⟨es, -, hcovers⟩ := covers_of_build h
  obtain ⟨last, hlast⟩ := exists_lastEnabled? hmem henabled
  obtain ⟨found, hfound⟩ := exists_get hmem
  have hiff := describes_iff hcovers hlast hfound
  have hschema : Api.schema? p.document a.name = some last.component := by
    rw [hcovers.schema?, hlast, Option.map_some]
  refine ⟨⟨last, found, hlast, hschema, hfound, hiff⟩, fun hnames ↦ hiff.mpr ?_⟩
  have hsame {b : Artifacts} (hb : b ∈ p.entities ∧ b.name = a.name) : b = a :=
    List.inj_on_of_nodup_map hnames hb.1 hmem hb.2
  rw [hsame (name_of_lastEnabled? hlast), hsame (name_of_get hfound)]
  exact ⟨rfl, rfl⟩

/-! ## Entities that share a name -/

/-- The description of an entity with one column, whose API may be disabled. -/
def described (name column type : String) (enabled : Bool) : Value :=
  .ofFields [("name", .text name),
    ("columns", .ofFields [(column, .ofFields [("type", .text type)])]),
    ("openapi", .ofFields [("enabled", .bool enabled)])]

/-- A book without an API. -/
def hiddenBook : Entity :=
  ({ name := "Book", columns := [("title", { type := .text "string" })],
     openapi := some { enabled := false } } : Specification).freeze
    [("title", { type := .primitive .string })]

/-- An entity with a price and an API. -/
def priced (name : String) : Entity :=
  ({ name, columns := [("price", { type := .text "number" })],
     openapi := some { enabled := true } } : Specification).freeze
    [("price", { type := .primitive .number })]

theorem build_described :
    Entity.build (described "Book" "title" "string" false) = .ok hiddenBook ∧
      Entity.build (described "Book" "price" "number" true) = .ok (priced "Book") :=
  ⟨rfl, rfl⟩

theorem alike_hiddenBook :
    (Api.schemaObject hiddenBook).alike (Api.schemaObject (priced "Book")) = false := by
  rfl

theorem enabled_of_priced (h : a.entity = priced name) : a.enabled = true := by
  rw [Artifacts.enabled, h]
  rfl

theorem exists_build_priced (name : String) : ∃ p first last,
    build {} none {} none (.ofCapacity 1) [.definition hiddenBook, .definition (priced name)] =
      .ok p ∧
    p.entities = [first, last] ∧ first.entity = hiddenBook ∧ last.entity = priced name ∧
      first.component = Api.schemaObject hiddenBook ∧
      last.component = Api.schemaObject (priced name) :=
  ⟨_, _, _, rfl, rfl, rfl, rfl, rfl, rfl⟩

theorem describes_iff_of_build_priced : ∃ p first last,
    build {} none {} none (.ofCapacity 1) [.definition hiddenBook, .definition (priced "Paper")] =
      .ok p ∧
    p.entities = [first, last] ∧ last ∈ p.entities ∧ last.enabled = true ∧
      (p.entities.map (·.name)).Nodup ∧ p.Describes last := by
  obtain ⟨p, first, last, hp, hentities, hfirst, hlast, -, -⟩ := exists_build_priced "Paper"
  have hmem : last ∈ p.entities := by simp [hentities]
  have henabled : last.enabled = true := enabled_of_priced hlast
  have hnames : (p.entities.map (·.name)).Nodup := by
    rw [hentities, List.map_cons, List.map_cons, Artifacts.name, Artifacts.name, hfirst, hlast]
    decide
  exact ⟨p, first, last, hp, hentities, hmem, henabled, hnames,
    (describes_iff_of_build hp hmem henabled).2 hnames⟩

/-- Two entities with one name.  The document has the component of the second one, whose API is
enabled, but its name gives the first one. -/
theorem not_describes_priced : ∃ p first last,
    Entity.build (described "Book" "title" "string" false) = .ok hiddenBook ∧
      Entity.build (described "Book" "price" "number" true) = .ok (priced "Book") ∧
      build {} none {} none (.ofCapacity 1)
        [.definition hiddenBook, .definition (priced "Book")] = .ok p ∧
      p.entities = [first, last] ∧ last.enabled = true ∧
      Api.schema? p.document last.name = some last.component ∧ p.get last.name = .ok first ∧
      first.component.alike last.component = false ∧ ¬p.Describes last := by
  obtain ⟨p, first, last, hp, hentities, hfirst, hlast, hfirstComponent, hlastComponent⟩ :=
    exists_build_priced "Book"
  have henabled : last.enabled = true := enabled_of_priced hlast
  have hget : p.get last.name = .ok first := by
    rw [get_eq_ok_iff, hentities, List.find?_cons, Artifacts.name, Artifacts.name, hfirst, hlast]
    rfl
  have hlastEnabled : p.lastEnabled? last.name = some last := by
    simp [lastEnabled?, hentities, henabled]
  have hschema : Api.schema? p.document last.name = some last.component := by
    obtain ⟨es, -, hcovers⟩ := covers_of_build hp
    rw [hcovers.schema?, hlastEnabled, Option.map_some]
  have halike : first.component.alike last.component = false := by
    rw [hfirstComponent, hlastComponent]
    exact alike_hiddenBook
  refine ⟨p, first, last, build_described.1, build_described.2, hp, hentities, henabled, hschema,
    hget, halike, fun hdescribes ↦ ?_⟩
  obtain ⟨found, hfound, hcomponent⟩ := hdescribes.artifacts
  obtain rfl := Except.ok.inj (hget.symm.trans hfound)
  rw [hcomponent, Json.alike_refl] at halike
  cases halike

end Project

end EntityCompiler

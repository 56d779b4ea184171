import EntityCompiler.Api.Document
import EntityCompiler.Proofs.Api.Model

/-!
# What API documents show

Components and documents are made from the name, the metadata and the public columns of an entity.
Wherever literals are related by a relation that passes on to arrays and objects, the components and
documents made from them are related as well.
-/

namespace EntityCompiler

open Json

variable {R : Json → Json → Prop}

/-! ## Entities that show the same -/

/-- Literals that are related and for which a property has the same members. -/
structure Json.ShownAlike (R : Json → Json → Prop) (a b : Json) : Prop where
  related : R a b
  null : a = .null ↔ b = .null
  depth : a.depth = b.depth

/-- Columns that show the same, apart from related literals. -/
structure Column.ShownAlike (R : Json → Json → Prop) (c d : Column) : Prop where
  type : c.type = d.type
  required : c.required = d.required
  acceptsNull : c.acceptsNull = d.acceptsNull
  description : c.description = d.description
  immutable : c.immutable = d.immutable
  default : Option.Rel (Json.ShownAlike R) c.default d.default
  sample : Option.Rel (Json.ShownAlike R) c.sample d.sample

/-- Entities that show the same, apart from related literals.  Nothing is asked of the columns that
are not public. -/
structure Entity.ShownAlike (R : Json → Json → Prop) (e f : Entity) : Prop where
  name : e.name = f.name
  active : e.metadata.active = f.metadata.active
  openapi : e.metadata.openapi = f.metadata.openapi
  description : e.metadata.docs.description = f.metadata.docs.description
  columns : List.Forall₂ (fun c d ↦ c.1 = d.1 ∧ c.2.ShownAlike R d.2) e.publicColumns f.publicColumns

theorem Column.shownAlike_refl (hR : Congruence R) (c : Column) : c.ShownAlike R c :=
  have hliteral (x : Option Json) : Option.Rel (Json.ShownAlike R) x x :=
    rel_of_eq (fun value ↦ ⟨hR.refl value, Iff.rfl, rfl⟩) rfl
  ⟨rfl, rfl, rfl, rfl, rfl, hliteral c.default, hliteral c.sample⟩

theorem Entity.shownAlike_refl (hR : Congruence R) (e : Entity) : e.ShownAlike R e :=
  ⟨rfl, rfl, rfl, rfl, List.forall₂_same.mpr fun column _ ↦
    ⟨rfl, Column.shownAlike_refl hR column.2⟩⟩

theorem Entity.ShownAlike.isDocumented {e f : Entity} (h : e.ShownAlike R f) :
    e.isDocumented = f.isDocumented := by
  rw [Entity.isDocumented, Entity.isDocumented, h.active, h.openapi]

namespace Api

/-! ## Components -/

theorem alike_default (hR : Congruence R) {x y : Option Json}
    (h : Option.Rel (Json.ShownAlike R) x y) :
    (Model.plain (x.getD .null)).Alike R (.plain (y.getD .null)) := by
  cases h with
  | none => exact Model.alike_refl hR _
  | some hab => exact Model.alike_plain hab.null hab.related

theorem alike_examples (hR : Congruence R) {x y : Option Json}
    (h : Option.Rel (Json.ShownAlike R) x y) :
    (Model.plain ((x.map fun value ↦ .array [value]).getD .null)).Alike R
      (.plain ((y.map fun value ↦ .array [value]).getD .null)) := by
  cases h with
  | none => exact Model.alike_refl hR _
  | some hab => exact Model.alike_plain (iff_of_false nofun nofun) (hR.array (.cons hab.related .nil))

theorem alike_columnModel (hR : Congruence R) {c d : Column} (h : c.ShownAlike R d) :
    (columnModel c).Alike R (columnModel d) := by
  have hsame (members : List (String × Model)) :
      List.Forall₂ (fun m n ↦ m.1 = n.1 ∧ m.2.Alike R n.2) members members :=
    List.forall₂_same.mpr fun member _ ↦ ⟨rfl, Model.alike_refl hR member.2⟩
  rw [columnModel, columnModel, columnFields, columnFields, h.type, h.acceptsNull, h.description,
    h.immutable]
  exact Model.alike_fields hR (List.rel_append (hsame _) (.cons ⟨rfl, Model.alike_refl hR _⟩
    (.cons ⟨rfl, Model.alike_refl hR _⟩ (.cons ⟨rfl, Model.alike_refl hR _⟩
    (.cons ⟨rfl, alike_default hR h.default⟩ (.cons ⟨rfl, alike_examples hR h.sample⟩ .nil))))))

/-- Literals of the same depth both fit into a property or both do not. -/
theorem all_fits_congr {x y : Option Json} (h : Option.Rel (Json.ShownAlike R) x y) :
    x.all (fun value ↦ decide (value.depth + 2 ≤ depthLimit)) =
      y.all fun value ↦ decide (value.depth + 2 ≤ depthLimit) := by
  cases h with
  | none => rfl
  | some hab => rw [Option.all_some, Option.all_some, hab.depth]

theorem propertyFits_congr {c d : Column} (h : c.ShownAlike R d) :
    propertyFits c = propertyFits d := by
  simp only [propertyFits, h.type, all_fits_congr h.default, all_fits_congr h.sample]

section Entity

variable {e f : Entity}

theorem fits_congr (h : e.ShownAlike R f) : fits e = fits f := by
  have hfits : e.publicColumns.map (fun column ↦ propertyFits column.2) =
      f.publicColumns.map fun column ↦ propertyFits column.2 :=
    map_eq_of_forall₂ (h.columns.imp fun c d hcolumn ↦ propertyFits_congr hcolumn.2)
  have hall := congrArg (List.all · id) hfits
  rwa [List.all_map, List.all_map] at hall

theorem requiredNames_congr (h : e.ShownAlike R f) : requiredNames e = requiredNames f := by
  have hrequired : List.Forall₂ (fun c d ↦ c.1 = d.1 ∧ c.2.ShownAlike R d.2)
      (e.publicColumns.filter fun column ↦ column.2.required)
      (f.publicColumns.filter fun column ↦ column.2.required) :=
    List.rel_filter (fun c d hcolumn ↦
      iff_of_eq (congrArg (· = true) hcolumn.2.required)) h.columns
  exact map_eq_of_forall₂ (hrequired.imp fun c d hcolumn ↦ hcolumn.1)

theorem componentDescription_congr (h : e.ShownAlike R f) :
    componentDescription e = componentDescription f := by
  rw [componentDescription, componentDescription, h.openapi, h.description, h.name]

theorem alike_componentModel (hR : Congruence R) (h : e.ShownAlike R f) :
    (componentModel e).Alike R (componentModel f) := by
  have hproperties : (Model.entries (e.publicColumns.map fun c ↦ (c.1, columnModel c.2))).Alike R
      (.entries (f.publicColumns.map fun c ↦ (c.1, columnModel c.2))) := by
    refine Model.alike_entries hR ?_
    rw [List.forall₂_map_left_iff, List.forall₂_map_right_iff]
    exact h.columns.imp fun c d hcolumn ↦ ⟨hcolumn.1, alike_columnModel hR hcolumn.2⟩
  rw [componentModel, componentModel, h.name, componentDescription_congr h, requiredNames_congr h]
  have hsame (m : Model) : m.Alike R m := Model.alike_refl hR m
  exact Model.alike_fields hR (.cons ⟨rfl, hsame _⟩ (.cons ⟨rfl, hsame _⟩ (.cons ⟨rfl, hsame _⟩
    (.cons ⟨rfl, hproperties⟩ (.cons ⟨rfl, hsame _⟩ (.cons ⟨rfl, hsame _⟩ .nil))))))

theorem corresponds_checkedModel (hR : Congruence R) (h : e.ShownAlike R f) :
    Corresponds (Model.Alike R) (checkedModel e) (checkedModel f) := by
  unfold checkedModel
  rw [fits_congr h]
  by_cases hfits : fits f = true
  · rw [if_pos hfits, if_pos hfits]
    exact .ok (alike_componentModel hR h)
  · rw [if_neg hfits, if_neg hfits]
    exact .error EntityError.tooDeep

theorem corresponds_component (hR : Congruence R) (h : e.ShownAlike R f) :
    Corresponds R (component e) (component f) :=
  (corresponds_checkedModel hR h).map fun _ _ halike ↦ halike.dump

end Entity

/-! ## Documents -/

section Documents

variable {es fs : List Entity}

theorem corresponds_components (hR : Congruence R) (h : List.Forall₂ (Entity.ShownAlike R) es fs) :
    Corresponds (List.Forall₂ fun m n ↦ m.1 = n.1 ∧ m.2.Alike R n.2) (components es) (components fs) :=
  Corresponds.mapM (h.imp fun _ _ hef ↦
    (corresponds_checkedModel hR hef).map fun _ _ halike ↦ ⟨hef.name, halike⟩)

theorem rel_document (hR : Congruence R) {schemas others : List (String × Model)}
    (h : List.Forall₂ (fun m n ↦ m.1 = n.1 ∧ m.2.Alike R n.2) schemas others)
    (options : DocumentOptions) (tags : List String) :
    R (document schemas options tags) (document others options tags) := by
  have hcomponents : (Model.fields [("schemas", .entries schemas)]).Alike R
      (.fields [("schemas", .entries others)]) :=
    Model.alike_fields hR (.cons ⟨rfl, Model.alike_entries hR h⟩ .nil)
  have hsame (m : Model) : m.Alike R m := Model.alike_refl hR m
  refine (Model.alike_fields hR ?_).dump
  exact .cons ⟨rfl, hsame _⟩ (.cons ⟨rfl, hsame _⟩ (.cons ⟨rfl, hsame _⟩
    (.cons ⟨rfl, hcomponents⟩ (.cons ⟨rfl, hsame _⟩ .nil))))

theorem corresponds_entityDocument (hR : Congruence R) {e f : Entity} (h : e.ShownAlike R f)
    (options : DocumentOptions) :
    Corresponds R (entityDocument e options) (entityDocument f options) := by
  rw [entityDocument, entityDocument, h.openapi]
  exact (corresponds_components hR (.cons h .nil)).map fun _ _ hschemas ↦
    rel_document hR hschemas options _

/-- An entity takes the same place among entities that show the same. -/
theorem forall₂_putEntity {e f : Entity} (hef : e.ShownAlike R f)
    (h : List.Forall₂ (Entity.ShownAlike R) es fs) :
    List.Forall₂ (Entity.ShownAlike R) (putEntity e es) (putEntity f fs) := by
  induction h with
  | nil => exact .cons hef .nil
  | @cons first other _ _ hfirst hrest ih =>
    rw [putEntity, putEntity, ← hfirst.name, ← hef.name]
    by_cases hname : first.name = e.name
    · rw [if_pos hname, if_pos hname]
      exact .cons hef hrest
    · rw [if_neg hname, if_neg hname]
      exact .cons hfirst ih

theorem forall₂_filter_isDocumented (h : List.Forall₂ (Entity.ShownAlike R) es fs) :
    List.Forall₂ (Entity.ShownAlike R) (es.filter (·.isDocumented)) (fs.filter (·.isDocumented)) :=
  List.rel_filter (fun _ _ hef ↦ iff_of_eq (congrArg (· = true) hef.isDocumented)) h

theorem forall₂_documented (h : List.Forall₂ (Entity.ShownAlike R) es fs) :
    List.Forall₂ (Entity.ShownAlike R) (documented es) (documented fs) := by
  have hfoldl := List.rel_foldl (R := Entity.ShownAlike R) (P := List.Forall₂ (Entity.ShownAlike R))
    (fun _ _ hshown _ _ hef ↦ forall₂_putEntity hef hshown)
  exact hfoldl .nil (forall₂_filter_isDocumented h)

theorem documentTags_congr (h : List.Forall₂ (Entity.ShownAlike R) es fs) :
    documentTags es = documentTags fs := by
  have htags : (es.filter (·.isDocumented)).map (·.metadata.openapi.tags) =
      (fs.filter (·.isDocumented)).map (·.metadata.openapi.tags) :=
    map_eq_of_forall₂ ((forall₂_filter_isDocumented h).imp fun _ _ hef ↦
      congrArg ApiSettings.tags hef.openapi)
  rw [documentTags, documentTags, List.flatMap_def, List.flatMap_def, htags]

theorem corresponds_projectDocument (hR : Congruence R)
    (h : List.Forall₂ (Entity.ShownAlike R) es fs) (options : DocumentOptions) :
    Corresponds R (projectDocument es options) (projectDocument fs options) := by
  rw [projectDocument, projectDocument, documentTags_congr h]
  exact (corresponds_components hR (forall₂_documented h)).map fun _ _ hschemas ↦
    rel_document hR hschemas options _

end Documents

end Api

end EntityCompiler

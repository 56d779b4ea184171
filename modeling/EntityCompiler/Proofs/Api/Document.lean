import EntityCompiler.Proofs.Api.Model
import EntityCompiler.Proofs.Artifacts

/-!
# Components in documents

A document holds, under each name of a documented entity, the component of the last one with that
name.  There is a document exactly if these components exist.
-/

namespace EntityCompiler.Api

variable {e other : Entity} {es shown : List Entity} {name : String} {component document : Json}

/-! ## Documented entities -/

theorem mem_putEntity (h : other ∈ putEntity e shown) : other = e ∨ other ∈ shown := by
  induction shown with
  | nil => exact .inl (List.mem_singleton.mp h)
  | cons first rest ih =>
    rw [putEntity] at h
    split at h
    · exact (List.mem_cons.mp h).imp_right (List.mem_cons_of_mem first)
    · rcases List.mem_cons.mp h with hfirst | hrest
      · exact .inr (List.mem_cons.mpr (.inl hfirst))
      · exact (ih hrest).imp_right (List.mem_cons_of_mem first)

theorem find?_putEntity (e : Entity) (shown : List Entity) (name : String) :
    (putEntity e shown).find? (fun other ↦ other.name = name) =
      if e.name = name then some e else shown.find? fun other ↦ other.name = name := by
  induction shown with
  | nil =>
    rw [putEntity, List.find?_cons]
    by_cases hname : e.name = name <;> simp [hname]
  | cons first rest ih =>
    rw [putEntity]
    by_cases hsame : first.name = e.name
    · rw [if_pos hsame, List.find?_cons, List.find?_cons, hsame]
      by_cases hname : e.name = name <;> simp [hname]
    · rw [if_neg hsame, List.find?_cons, List.find?_cons, ih]
      by_cases hname : e.name = name
      · have hother : first.name ≠ name := fun hfirst ↦ hsame (hfirst.trans hname.symm)
        simp [hname, hother]
      · simp [hname]

theorem documented_append (es : List Entity) (e : Entity) : documented (es ++ [e]) =
    if e.isDocumented then putEntity e (documented es) else documented es := by
  unfold documented
  rw [List.filter_append, List.foldl_append, List.filter_singleton]
  cases e.isDocumented <;> rfl

theorem mem_documented (h : e ∈ documented es) : e ∈ es ∧ e.isDocumented = true := by
  induction es using List.reverseRecOn with
  | nil => exact absurd h List.not_mem_nil
  | append_singleton es last ih =>
    rw [documented_append] at h
    have hkept (hmem : e ∈ documented es) : e ∈ es ++ [last] ∧ e.isDocumented = true :=
      (ih hmem).imp_left (List.mem_append_left [last])
    cases hlast : last.isDocumented with
    | false =>
      rw [hlast] at h
      exact hkept h
    | true =>
      rw [hlast, if_pos rfl] at h
      rcases mem_putEntity h with rfl | hmem
      · exact ⟨List.mem_append_right es List.mem_cons_self, hlast⟩
      · exact hkept hmem

/-- The last documented entity with a given name. -/
def lastDocumented? (es : List Entity) (name : String) : Option Entity :=
  es.reverse.find? fun e ↦ e.isDocumented && e.name = name

theorem find?_documented (es : List Entity) (name : String) :
    (documented es).find? (fun e ↦ e.name = name) = lastDocumented? es name := by
  unfold lastDocumented?
  induction es using List.reverseRecOn with
  | nil => rfl
  | append_singleton es last ih =>
    rw [documented_append, List.reverse_append, List.reverse_singleton, List.singleton_append,
      List.find?_cons, ← ih]
    cases hlast : last.isDocumented with
    | false => rfl
    | true =>
      rw [if_pos rfl, find?_putEntity]
      by_cases hname : last.name = name <;> simp [hname]

/-! ## Schemas of documents -/

/-- The component that a document has under a name. -/
def schema? (document : Json) (name : String) : Option Json :=
  ((document.member? "components").bind (·.member? "schemas")).bind (·.member? name)

theorem schema?_document (schemas : List (String × Model)) (options : DocumentOptions)
    (tags : List String) (name : String) : schema? (Api.document schemas options tags) name =
      (Model.entries schemas).dump.member? name :=
  rfl

theorem member?_components {schemas : List (String × Model)} (h : components es = .ok schemas) :
    (Model.entries schemas).dump.member? name = some component ↔
      ∃ e, es.find? (fun e ↦ e.name = name) = some e ∧ Api.component e = .ok component := by
  have hschemas : List.Forall₂ (fun e schema ↦ Api.component e = .ok schema.2.dump ∧ schema.1 = e.name)
      es schemas := by
    apply (mapM_eq_ok_iff.mp h).imp
    intro e schema hschema
    obtain ⟨value, hvalue, rfl⟩ := map_eq_ok_iff.mp hschema
    exact ⟨map_eq_ok_iff.mpr ⟨value, hvalue, rfl⟩, rfl⟩
  rw [Model.dump, Model.dumpEntries_eq_map, Json.member?]
  clear h
  induction hschemas with
  | nil => simp
  | @cons e schema es schemas hfirst _ ih =>
    rw [List.map_cons, List.find?_cons, List.find?_cons, hfirst.2]
    by_cases hname : e.name = name
    · simp [hname, hfirst.1]
    · simpa [hname] using ih

/-- The component under a name is that of the last documented entity with the name. -/
theorem schema?_projectDocument {options : DocumentOptions}
    (h : projectDocument es options = .ok document) :
    schema? document name = some component ↔
      ∃ e, lastDocumented? es name = some e ∧ Api.component e = .ok component := by
  obtain ⟨schemas, hschemas, rfl⟩ := map_eq_ok_iff.mp h
  rw [schema?_document, member?_components hschemas, find?_documented]

/-- Entities that have components have a document. -/
theorem exists_projectDocument (h : ∀ e ∈ es, ∃ component, Api.component e = .ok component)
    (options : DocumentOptions) : ∃ document, projectDocument es options = .ok document := by
  have hschemas : ∃ schemas, components (documented es) = .ok schemas := by
    simp only [components, mapM_eq_ok_iff]
    refine exists_forall₂_iff.mpr fun e hmem ↦ ?_
    obtain ⟨component, hcomponent⟩ := h e (mem_documented hmem).1
    obtain ⟨model, hmodel, -⟩ := map_eq_ok_iff.mp hcomponent
    exact ⟨(e.name, model), by rw [hmodel]; rfl⟩
  obtain ⟨schemas, hschemas⟩ := hschemas
  exact ⟨_, by rw [projectDocument, hschemas]; rfl⟩

end EntityCompiler.Api

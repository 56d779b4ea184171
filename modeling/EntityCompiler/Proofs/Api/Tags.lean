import EntityCompiler.Proofs.Api.Document
import EntityCompiler.Proofs.Api.Property
import EntityCompiler.Proofs.Sql.Entries

/-!
# Tags of documents

A common document lists each tag of its entities once, while the document of one entity lists the tags of the
entity as they are given.  The two documents of an entity have everything else in common, so that they are the
same exactly if the entity has no tag twice.
-/

namespace EntityCompiler.Api

variable {e : Entity} {es : List Entity} {options : DocumentOptions} {document other : Json}
  {tags others : List String} {tag : String}

/-! ## Tags of several entities -/

/-- Tags are collected like entries of a database that are their own keys. -/
theorem documentTags_eq_foldl (es : List Entity) : documentTags es =
    ((es.filter (·.isDocumented)).flatMap (·.metadata.openapi.tags)).foldl (Sql.keepNew id) [] := by
  have hstep : (fun (tags : List String) tag ↦ if tags.contains tag then tags else tags ++ [tag]) =
      Sql.keepNew id := by
    funext tags tag
    simp [Sql.keepNew]
  rw [documentTags, hstep]

theorem nodup_documentTags (es : List Entity) : (documentTags es).Nodup := by
  have hnodup : ((documentTags es).map id).Nodup := by
    rw [documentTags_eq_foldl]
    exact Sql.nodup_foldl_keepNew List.nodup_nil
  rwa [List.map_id] at hnodup

theorem mem_documentTags_iff : tag ∈ documentTags es ↔
    ∃ e ∈ es, e.isDocumented = true ∧ tag ∈ e.metadata.openapi.tags := by
  have hmem : tag ∈ (documentTags es).map id ↔
      tag ∈ ((es.filter (·.isDocumented)).flatMap (·.metadata.openapi.tags)).map id := by
    rw [documentTags_eq_foldl, Sql.mem_map_foldl_keepNew, List.nil_append]
  rw [List.map_id, List.map_id] at hmem
  simp only [hmem, List.mem_flatMap, List.mem_filter, and_assoc]

theorem documentTags_singleton_eq_iff (h : e.isDocumented = true) :
    documentTags [e] = e.metadata.openapi.tags ↔ e.metadata.openapi.tags.Nodup := by
  have htags : documentTags [e] = e.metadata.openapi.tags.foldl (Sql.keepNew id) [] := by
    rw [documentTags_eq_foldl, List.filter_singleton, h]
    simp
  constructor
  · intro hsame
    exact hsame ▸ nodup_documentTags [e]
  · intro hnodup
    rw [htags]
    exact Sql.foldl_keepNew_of_nodup (by simpa using hnodup)

/-! ## Tags of a document -/

/-- The name of a tag object. -/
def tagName? (tag : Json) : Option String :=
  match tag.member? "name" with
  | some (.text name) => some name
  | _ => none

/-- The names of the tags that a document lists. -/
def tagNames (document : Json) : List String :=
  match document.member? "tags" with
  | some (.array tags) => tags.filterMap tagName?
  | _ => []

theorem tagNames_document (schemas : List (String × Model)) (options : DocumentOptions)
    (tags : List String) : tagNames (Api.document schemas options tags) = tags := by
  cases tags with
  | nil => rfl
  | cons tag tags =>
    have hmember : (Api.document schemas options (tag :: tags)).member? "tags" = some (.array
        (Model.dumpItems ((tag :: tags).map fun tag ↦ .fields [("name", .text tag)]))) := rfl
    have hname : (tagName? ∘ Model.dump) ∘ (fun tag ↦ Model.fields [("name", .text tag)]) = some := rfl
    rw [tagNames, hmember, Model.dumpItems_eq_map]
    simp only [List.filterMap_map, hname, List.filterMap_some]

theorem document_inj {schemas : List (String × Model)} :
    Api.document schemas options tags = Api.document schemas options others ↔ tags = others := by
  constructor
  · intro h
    have hnames := congrArg tagNames h
    rwa [tagNames_document, tagNames_document] at hnames
  · rintro rfl
    rfl

/-- The fields of a document that do not depend on its tags. -/
def untagged (schemas : List (String × Model)) (options : DocumentOptions) : List (String × Model) :=
  [("openapi", .text options.openapiVersion),
    ("info", .fields [("title", .text options.title), ("version", .text options.version),
      ("description", .text? (nonempty? options.description))]),
    ("paths", .entries []), ("components", .fields [("schemas", .entries schemas)])]

theorem document_eq (schemas : List (String × Model)) (options : DocumentOptions) (tags : List String) :
    Api.document schemas options tags = Model.dump (.fields (untagged schemas options ++
      [("tags", if tags.isEmpty then .plain .null
        else .items (tags.map fun tag ↦ .fields [("name", .text tag)]))])) :=
  rfl

/-- Nothing but the list of tags depends on the tags. -/
theorem member?_document {schemas : List (String × Model)} {key : String} (h : key ≠ "tags") :
    (Api.document schemas options tags).member? key = (Api.document schemas options others).member? key := by
  rw [document_eq, document_eq, Model.member?_dump_append_singleton h,
    Model.member?_dump_append_singleton h]

/-! ## Documents of one entity -/

theorem components_singleton (e : Entity) :
    components [e] = (checkedModel e).map fun schema ↦ [(e.name, schema)] := by
  unfold components
  rw [List.mapM_cons, List.mapM_nil]
  cases checkedModel e <;> rfl

theorem entityDocument_eq (e : Entity) (options : DocumentOptions) : entityDocument e options =
    (checkedModel e).map fun schema ↦
      Api.document [(e.name, schema)] options e.metadata.openapi.tags := by
  rw [entityDocument, components_singleton]
  cases checkedModel e <;> rfl

theorem projectDocument_singleton (h : e.isDocumented = true) (options : DocumentOptions) :
    projectDocument [e] options = (checkedModel e).map fun schema ↦
      Api.document [(e.name, schema)] options (documentTags [e]) := by
  have hdocumented : documented [e] = [e] := by
    rw [documented, List.filter_singleton, h]
    rfl
  rw [projectDocument, hdocumented, components_singleton]
  cases checkedModel e <;> rfl

/-- The tags of the document of an entity are those of the entity. -/
theorem tagNames_entityDocument (h : entityDocument e options = .ok document) :
    tagNames document = e.metadata.openapi.tags := by
  obtain ⟨schemas, -, rfl⟩ := map_eq_ok_iff.mp h
  exact tagNames_document _ _ _

/-- The tags of a common document are those of its entities, each once. -/
theorem tagNames_projectDocument (h : projectDocument es options = .ok document) :
    tagNames document = documentTags es := by
  obtain ⟨schemas, -, rfl⟩ := map_eq_ok_iff.mp h
  exact tagNames_document _ _ _

/-- An entity that is documented has the same document on its own and as the only entity of a project exactly
if there is none or the entity has no tag twice.  In any case there are both documents or neither, and they have
everything but their tags in common.  The document of an entity lists its tags as they are given, so that they
are distinct exactly if those are, and a common document lists each tag of its documented entities once. -/
theorem documents_agree_iff (h : e.isDocumented = true) (options : DocumentOptions) :
    (entityDocument e options = projectDocument [e] options ↔
      (e.FitsComponent → e.metadata.openapi.tags.Nodup)) ∧
    SucceedsIff e.FitsComponent .tooDeep (entityDocument e options) ∧
    SucceedsIff e.FitsComponent .tooDeep (projectDocument [e] options) ∧
    (∀ document other, entityDocument e options = .ok document → projectDocument [e] options = .ok other →
      ∀ key, key ≠ "tags" → document.member? key = other.member? key) ∧
    (∀ e options document, entityDocument e options = .ok document →
      tagNames document = e.metadata.openapi.tags) ∧
    ∀ es options document, projectDocument es options = .ok document → (tagNames document).Nodup ∧
      ∀ tag, tag ∈ tagNames document ↔ ∃ e ∈ es, e.isDocumented = true ∧ tag ∈ e.metadata.openapi.tags := by
  have hcomponent := checkedModel_succeedsIff e
  refine ⟨?_, ?_, ?_, fun document other hdocument hother key hkey ↦ ?_,
    fun e options document ↦ tagNames_entityDocument, fun es options document hdocument ↦ ?_⟩
  · rw [entityDocument_eq, projectDocument_singleton h]
    by_cases hfits : e.FitsComponent
    · obtain ⟨schema, hschema⟩ := hcomponent.success hfits
      have hsame : e.metadata.openapi.tags = documentTags [e] ↔ e.metadata.openapi.tags.Nodup :=
        eq_comm.trans (documentTags_singleton_eq_iff h)
      rw [hschema, Except.map, Except.map, Except.ok.injEq, document_inj, hsame]
      exact ⟨fun hnodup _ ↦ hnodup, fun hnodup ↦ hnodup hfits⟩
    · rw [hcomponent.failure hfits]
      exact ⟨fun _ hdeep ↦ absurd hdeep hfits, fun _ ↦ rfl⟩
  · rw [entityDocument_eq]
    exact hcomponent.map _
  · rw [projectDocument_singleton h]
    exact hcomponent.map _
  · rw [entityDocument_eq] at hdocument
    rw [projectDocument_singleton h] at hother
    obtain ⟨schema, hschema, rfl⟩ := map_eq_ok_iff.mp hdocument
    obtain ⟨found, hfound, rfl⟩ := map_eq_ok_iff.mp hother
    obtain rfl := Except.ok.inj (hschema.symm.trans hfound)
    exact member?_document hkey
  · rw [tagNames_projectDocument hdocument]
    exact ⟨nodup_documentTags es, fun tag ↦ mem_documentTags_iff⟩

/-- The description of an entity with given tags. -/
def labelled (tags : List String) : Value :=
  .ofFields [("name", .text "Book"), ("columns", .ofFields [("title", .ofFields [("type", .text "string")])]),
    ("openapi", .ofFields [("tags", .list (tags.map .text))])]

/-- The entity that `labelled` describes. -/
def labelledEntity (tags : List String) : Entity :=
  Specification.freeze
    { name := "Book", columns := [("title", { type := .text "string" })], openapi := some { tags } }
    [("title", { type := .primitive .string })]

theorem fitsComponent_labelledEntity (tags : List String) : (labelledEntity tags).FitsComponent := by
  intro column hmem
  obtain rfl := List.mem_singleton.mp hmem
  exact ⟨by decide, fun value hvalue ↦ by rcases hvalue with h | h <;> cases h⟩

theorem documents_agree_iff_labelled :
    let e := labelledEntity ["books", "shop"]
    Entity.build (labelled ["books", "shop"]) = .ok e ∧ e.isDocumented = true ∧
      ∃ document, entityDocument e {} = .ok document ∧ projectDocument [e] {} = .ok document ∧
        tagNames document = ["books", "shop"] := by
  intro e
  obtain ⟨hsame, hentity, -, -, htags, -⟩ := documents_agree_iff (e := e) rfl {}
  obtain ⟨document, hdocument⟩ := hentity.success (fitsComponent_labelledEntity _)
  have hproject := hsame.mpr fun _ ↦ by decide
  exact ⟨rfl, rfl, document, hdocument, hproject ▸ hdocument, htags e {} document hdocument⟩

/-- An entity with a tag that is given twice has a document that lists it twice, which is not the document of
the project that consists of the entity. -/
theorem documents_differ_twice :
    let e := labelledEntity ["books", "books"]
    Entity.build (labelled ["books", "books"]) = .ok e ∧ e.isDocumented = true ∧
      entityDocument e {} ≠ projectDocument [e] {} ∧
      ∃ document, entityDocument e {} = .ok document ∧ ¬(tagNames document).Nodup := by
  intro e
  have hschema : checkedModel e = .ok (componentModel e) :=
    checkedModel_eq_ok_iff.mpr ⟨fitsComponent_labelledEntity _, rfl⟩
  have htwice : ¬e.metadata.openapi.tags.Nodup := by decide
  have hdocument : entityDocument e {} =
      .ok (Api.document [(e.name, componentModel e)] {} e.metadata.openapi.tags) := by
    rw [entityDocument_eq, hschema]
    rfl
  refine ⟨rfl, rfl, fun hsame ↦ htwice ?_, _, hdocument, ?_⟩
  · rw [hdocument] at hsame
    rw [← tagNames_entityDocument hdocument, tagNames_projectDocument hsame.symm]
    exact nodup_documentTags [e]
  · rwa [tagNames_document]

end EntityCompiler.Api

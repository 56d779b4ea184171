import EntityCompiler.Hashing
import EntityCompiler.Proofs.Api.Hidden
import EntityCompiler.Proofs.Api.Property
import EntityCompiler.Proofs.Presence
import EntityCompiler.Proofs.Sql.Determined
import EntityCompiler.Proofs.Validation.Equality

/-!
# Equal entities

Equality of entities does not look at the order of columns.  Built entities that are equal have their
columns in the same order all the same, since their fingerprints are digests of texts that show it.
Their schemas and components are then equal, in the same order, and whatever is equal has the same hash.
-/

namespace EntityCompiler

open Json

/-! ## Members of a set -/

/-- Whether a set takes two items for one, for whatever hash is made of what their hashes are taken of. -/
structure Collapses {α κ : Type} (key : α → κ) (alike : α → α → Bool) (x y : α) : Prop where
  sameKey : key x = key y
  distinct (hash : κ → Nat) : distinctBy (fun item ↦ hash (key item)) alike [x, y] = [x]

theorem collapses_of_alike {α κ : Type} {key : α → κ} {alike : α → α → Bool} {x y : α}
    (hkey : key x = key y) (halike : alike x y = true) : Collapses key alike x y where
  sameKey := hkey
  distinct hash := by simp [distinctBy, hkey, halike]

theorem Column.collapses {c d : Column} (h : c.alike d = true) :
    Collapses Column.hashKey Column.alike c d := by
  refine collapses_of_alike ?_ h
  obtain ⟨htype, hoptional, hnullable, -, hdescription, hvisibility, himmutable, hstored, -, hdb⟩ :=
    Column.alike_iff.mp h
  rw [hashKey, hashKey, htype, hoptional, hnullable, hdescription, hvisibility, himmutable, hstored,
    hdb]

theorem Metadata.collapses {m n : Metadata} (h : m.alike n = true) :
    Collapses Metadata.hashKey Metadata.alike m n := by
  refine collapses_of_alike ?_ h
  simp only [alike, Bool.and_eq_true, decide_eq_true_eq] at h
  obtain ⟨⟨⟨⟨⟨hdoc, htest⟩, hactive⟩, hopenapi⟩, hdescription⟩, -⟩ := h
  rw [hashKey, hashKey, hdoc, htest, hactive, hopenapi, hdescription]

theorem Entity.alike_iff {e f : Entity} : e.alike f = true ↔ e.name = f.name ∧ e.table = f.table ∧
    Column.mapAlike e.columns f.columns = true ∧ e.metadata.alike f.metadata = true ∧
      e.fingerprint = f.fingerprint := by
  simp only [alike, Bool.and_eq_true, decide_eq_true_eq, and_assoc]

theorem Entity.collapses {e f : Entity} (h : e.alike f = true) :
    Collapses Entity.hashKey Entity.alike e f := by
  refine collapses_of_alike ?_ h
  obtain ⟨hname, -, -, -, hfingerprint⟩ := alike_iff.mp h
  rw [hashKey, hashKey, hname, hfingerprint]

/-! ## Schemas -/

namespace Validation

namespace Schema

variable {s t : Schema}

/-- Equal schemas, with the same fields in the same order, that a set takes for one. -/
structure Interchangeable (s t : Schema) : Prop where
  alike : s.alike t = true
  fieldNames : s.fieldNames = t.fieldNames
  requiredFields : s.requiredFields = t.requiredFields
  collapses : Collapses Schema.hashKey Schema.alike s t

/-- Equality of schemas looks at the order of fields. -/
theorem interchangeable (h : s.alike t = true) : s.Interchangeable t := by
  obtain ⟨hname, hfields, hstrict⟩ := alike_iff.mp h
  have hnames : s.fieldNames = t.fieldNames :=
    map_eq_of_forall₂ (hfields.imp fun f g hfield ↦ (Field.alike_iff.mp hfield).1)
  have hkeys : s.fields.map Field.hashKey = t.fields.map Field.hashKey := by
    refine map_eq_of_forall₂ (hfields.imp fun f g hfield ↦ ?_)
    obtain ⟨hname, hnode, hrequired, hnullable, -, hdescription⟩ := Field.alike_iff.mp hfield
    rw [Field.hashKey, Field.hashKey, hname, hnode, hrequired, hnullable, hdescription]
  have hrequired : List.Forall₂ (fun f g ↦ f.alike g = true) (s.fields.filter (·.required))
      (t.fields.filter (·.required)) :=
    List.rel_filter (fun (f g : Field) (hfield : f.alike g = true) ↦
      iff_of_eq (congrArg (· = true) (Field.alike_iff.mp hfield).2.2.1)) hfields
  refine ⟨h, hnames, ?_, collapses_of_alike ?_ h⟩
  · exact map_eq_of_forall₂ (hrequired.imp fun f g hfield ↦ (Field.alike_iff.mp hfield).1)
  · rw [hashKey, hashKey, hname, hkeys, hstrict]

end Schema

end Validation

/-! ## Components -/

theorem Json.shownAlike_of_reordered {a b : Json} (h : a.Reordered b) :
    ShownAlike (fun a b ↦ a.alike b = true) a b where
  related := alike_of_reordered h
  null := by
    have halike : a.alike b = true := alike_of_reordered h
    constructor
    · rintro rfl
      exact null_alike_iff.mp halike
    · rintro rfl
      exact alike_null_iff.mp halike
  depth := Value.depth_eq_of_reordered (Value.reordered_toValue h)

theorem Json.rel_shownAlike_of_reordered {x y : Option Json} (h : Option.Rel Reordered x y) :
    Option.Rel (ShownAlike fun a b ↦ a.alike b = true) x y := by
  cases h with
  | none => exact .none
  | some hvalue => exact .some (shownAlike_of_reordered hvalue)

theorem Column.Same.shownAlike {c d : Column} (h : c.Same d) :
    c.ShownAlike (fun a b ↦ a.alike b = true) d where
  type := h.type
  required := by rw [required, required, h.optional]
  acceptsNull := by rw [acceptsNull, acceptsNull, h.optional, h.nullable]
  description := h.description
  immutable := h.immutable
  default := rel_shownAlike_of_reordered h.default
  sample := rel_shownAlike_of_reordered h.sample

namespace Api

/-- The names of the properties of a schema object, in their order. -/
def propertyNames (schema : Json) : List String :=
  match schema.member? "properties" with
  | some (.object properties) => properties.map (·.1)
  | _ => []

/-- Equal schema objects with the same order of properties and the same list of required ones. -/
structure SameOutline (schema other : Json) : Prop where
  alike : schema.alike other = true
  properties : propertyNames schema = propertyNames other
  required : schema.member? "required" = other.member? "required"

theorem sameOutline_schemaObject {e f : Entity}
    (h : e.ShownAlike (fun a b ↦ a.alike b = true) f) :
    SameOutline (schemaObject e) (schemaObject f) where
  alike := (alike_componentModel congruence_alike h).dump
  properties := by
    simp only [propertyNames, member?_properties_schemaObject, properties, List.map_map]
    exact map_eq_of_forall₂ (h.columns.imp fun _ _ hcolumn ↦ hcolumn.1)
  required := by
    rw [member?_required_schemaObject, member?_required_schemaObject, requiredNames_congr h]

/-- Entities that show the same have components with the same outline, or none. -/
theorem corresponds_sameOutline {e f : Entity} (h : e.ShownAlike (fun a b ↦ a.alike b = true) f) :
    Corresponds SameOutline (component e) (component f) := by
  unfold component checkedModel
  rw [fits_congr h]
  by_cases hfits : fits f = true
  · rw [if_pos hfits, if_pos hfits]
    exact .ok (sameOutline_schemaObject h)
  · rw [if_neg hfits, if_neg hfits]
    exact .error EntityError.tooDeep

end Api

/-! ## Entities -/

open Validation

/-- Entities with equal schemas and components, in the same order, that a set takes for one, as it does
with their columns and their metadata. -/
structure Entity.Interchangeable (e f : Entity) : Prop where
  columnNames : e.columnNames = f.columnNames
  full : (Schema.full e).Interchangeable (Schema.full f)
  shown : (Schema.shown e).Interchangeable (Schema.shown f)
  create : (Schema.create e).Interchangeable (Schema.create f)
  update : (Schema.update e).Interchangeable (Schema.update f)
  component : Corresponds Api.SameOutline (Api.component e) (Api.component f)
  collapses : Collapses Entity.hashKey Entity.alike e f
  columns : List.Forall₂
    (fun c d ↦ c.1 = d.1 ∧ c.2.alike d.2 = true ∧ Collapses Column.hashKey Column.alike c.2 d.2)
    e.columns f.columns
  metadata : Collapses Metadata.hashKey Metadata.alike e.metadata f.metadata

namespace Entity

variable {e f : Entity}

theorem SameContent.forall₂_publicColumns (h : e.SameContent f) :
    List.Forall₂ (fun c d ↦ c.1 = d.1 ∧ c.2.Same d.2) e.publicColumns f.publicColumns := by
  refine List.rel_filter (fun (c d : String × Column) hcolumn ↦ ?_) h.columns
  have hpublic : c.2.isPublic = d.2.isPublic := by
    rw [Column.isPublic, Column.isPublic, hcolumn.2.visibility]
  exact iff_of_eq (congrArg (· = true) hpublic)

theorem SameContent.forall₂_writableColumns (h : e.SameContent f) :
    List.Forall₂ (fun c d ↦ c.1 = d.1 ∧ c.2.Same d.2) (Schema.writableColumns e)
      (Schema.writableColumns f) := by
  refine List.rel_filter (fun (c d : String × Column) hcolumn ↦ ?_) h.columns
  have hmanaged : Schema.isServerManaged c.1 c.2 = Schema.isServerManaged d.1 d.2 := by
    rw [Schema.isServerManaged, Schema.isServerManaged, hcolumn.1, hcolumn.2.immutable,
      hcolumn.2.db]
  exact iff_of_eq (congrArg (fun managed ↦ (!managed) = true) hmanaged)

theorem SameContent.shownAlike (h : e.SameContent f) :
    e.ShownAlike (fun a b ↦ a.alike b = true) f where
  name := h.name
  active := h.active
  openapi := h.openapi
  description := h.description
  columns := h.forall₂_publicColumns.imp fun _ _ hcolumn ↦ ⟨hcolumn.1, hcolumn.2.shownAlike⟩

/-- Columns with the same content are equal. -/
theorem alike_of_same {columns others : List (String × Column)}
    (h : List.Forall₂ (fun c d ↦ c.1 = d.1 ∧ c.2.Same d.2) columns others) :
    List.Forall₂ (fun c d ↦ c.1 = d.1 ∧ c.2.alike d.2 = true) columns others :=
  h.imp fun _ _ hcolumn ↦ ⟨hcolumn.1, hcolumn.2.alike⟩

/-- Equal entities with the same content, whose columns are in the same order, are interchangeable. -/
theorem SameContent.interchangeable (h : e.SameContent f) (halike : e.alike f = true) :
    e.Interchangeable f := by
  have hsuffixed (suffix : String) : e.name ++ suffix = f.name ++ suffix :=
    congrArg (· ++ suffix) h.name
  have hwritable := alike_of_same h.forall₂_writableColumns
  have hpatch (name : String) (c d : Column) (hcolumn : c.alike d = true) :
      (Field.ofPatch name c).alike (Field.ofPatch name d) = true := Field.alike_ofPatch hcolumn
  exact {
    columnNames := map_eq_of_forall₂ (h.columns.imp fun _ _ hcolumn ↦ hcolumn.1)
    full := Schema.interchangeable (Schema.alike_ofColumns h.name (alike_of_same h.columns))
    shown := Schema.interchangeable
      (Schema.alike_ofColumns (hsuffixed _) (alike_of_same h.forall₂_publicColumns))
    create := Schema.interchangeable (Schema.alike_ofColumns (hsuffixed _) hwritable)
    update := Schema.interchangeable
      (Schema.alike_of_forall₂ hpatch hwritable (hsuffixed _) rfl rfl rfl)
    component := Api.corresponds_sameOutline h.shownAlike
    collapses := Entity.collapses halike
    columns := (alike_of_same h.columns).imp fun _ _ hcolumn ↦
      ⟨hcolumn.1, hcolumn.2, Column.collapses hcolumn.2⟩
    metadata := Metadata.collapses (alike_iff.mp halike).2.2.2.1 }

/-- Built entities that are equal are interchangeable, where digests do not collide. -/
theorem interchangeable_of_alike {S : Set Value} (hfree : CollisionFree S) {v w : Value}
    (hvmem : v ∈ S) (hwmem : w ∈ S) (hv : build v = .ok e) (hw : build w = .ok f)
    (halike : e.alike f = true) : e.Interchangeable f := by
  -- Equality alone leaves the order of columns open; the text behind the fingerprint does not.
  have hpayload : payloadOf v = payloadOf w :=
    payloadOf_eq_of_fingerprint_eq hfree hvmem hwmem hv hw (alike_iff.mp halike).2.2.2.2
  exact (sameContent_of_payloadOf_eq hv hw hpayload).interchangeable halike

theorem interchangeable_of_alike_outOfOrder :
    let v := Sql.tableColumn .json Sql.inOrder
    let w := Sql.tableColumn .json Sql.outOfOrder
    let e := Sql.tableEntity .json Sql.inOrder Sql.inOrderJson
    let f := Sql.tableEntity .json Sql.outOfOrder Sql.outOfOrderJson
    CollisionFree {v, w} ∧ build v = .ok e ∧ build w = .ok f ∧ e.alike f = true ∧
      (∃ schema other, Api.component e = .ok schema ∧ Api.component f = .ok other ∧
        Api.SameOutline schema other) ∧ e.Interchangeable f := by
  intro v w e f
  have hfree : CollisionFree {v, w} := collisionFree_pair Sql.payloadOf_outOfOrder
  have hvmem : v ∈ ({v, w} : Set Value) := Set.mem_insert v {w}
  have hwmem : w ∈ ({v, w} : Set Value) := Set.mem_insert_of_mem v rfl
  have hsame : e.Interchangeable f := interchangeable_of_alike hfree hvmem hwmem Sql.build_inOrder
    Sql.build_outOfOrder Sql.alike_outOfOrder
  obtain ⟨schema, hschema⟩ : ∃ schema, Api.component e = .ok schema := ⟨_, rfl⟩
  obtain ⟨other, hother⟩ : ∃ other, Api.component f = .ok other := ⟨_, rfl⟩
  have hcomponents := hsame.component
  rw [hschema, hother] at hcomponents
  cases hcomponents with
  | ok houtline =>
    exact ⟨hfree, Sql.build_inOrder, Sql.build_outOfOrder, Sql.alike_outOfOrder,
      ⟨schema, other, hschema, hother, houtline⟩, hsame⟩

end Entity

end EntityCompiler

import EntityCompiler.Validation.Schema
import Mathlib.Data.List.Forall2

/-!
# Equality of schemas

Columns, fields and schemas are the same when their parts are.  Columns that are the same give fields
that are the same, and so schemas that are.
-/

namespace EntityCompiler

open Json

theorem Column.alike_iff {c d : Column} : c.alike d = true ↔
    c.type = d.type ∧ c.optional = d.optional ∧ c.nullable = d.nullable ∧
      alike? c.default d.default = true ∧ c.description = d.description ∧
      c.visibility = d.visibility ∧ c.immutable = d.immutable ∧ c.stored = d.stored ∧
      alike? c.sample d.sample = true ∧ c.db = d.db := by
  simp only [alike, Bool.and_eq_true, decide_eq_true_eq, and_assoc]

namespace Validation

namespace Field

theorem alike_iff {f g : Field} : f.alike g = true ↔ f.name = g.name ∧ f.node = g.node ∧
    f.required = g.required ∧ f.nullable = g.nullable ∧ alike? f.default g.default = true ∧
      f.description = g.description := by
  simp only [alike, Bool.and_eq_true, decide_eq_true_eq, and_assoc]

theorem listAlike_iff {fs gs : List Field} :
    listAlike fs gs = true ↔ List.Forall₂ (fun f g ↦ f.alike g = true) fs gs := by
  induction fs generalizing gs with
  | nil => cases gs <;> simp [listAlike]
  | cons f fs ih =>
    cases gs with
    | nil => simp [listAlike]
    | cons g gs => rw [listAlike, Bool.and_eq_true, ih, List.forall₂_cons]

theorem alike_of_alike {name : String} {c d : Column} (h : c.alike d = true) :
    (of name c).alike (of name d) = true := by
  obtain ⟨htype, hoptional, hnullable, hdefault, hdescription, -⟩ := Column.alike_iff.mp h
  simp [alike, of, htype, hdefault, hdescription, Column.required, Column.acceptsNull, hoptional,
    hnullable]

theorem alike_ofPatch {name : String} {c d : Column} (h : c.alike d = true) :
    (ofPatch name c).alike (ofPatch name d) = true := by
  obtain ⟨htype, hoptional, hnullable, -, hdescription, -⟩ := Column.alike_iff.mp h
  simp [alike, ofPatch, htype, hdescription, Column.acceptsNull, hoptional, hnullable, alike?]

end Field

namespace Schema

variable {s t : Schema}

theorem alike_iff : s.alike t = true ↔ s.name = t.name ∧
    List.Forall₂ (fun f g ↦ f.alike g = true) s.fields t.fields ∧ s.strict = t.strict := by
  simp only [alike, Bool.and_eq_true, decide_eq_true_eq, Field.listAlike_iff, and_assoc]

/-- Schemas with a field for each of columns that are the same are the same, however fields are made. -/
theorem alike_of_forall₂ {field : String → Column → Field}
    (hfield : ∀ name c d, c.alike d = true → (field name c).alike (field name d) = true)
    {columns others : List (String × Column)}
    (h : List.Forall₂ (fun c d ↦ c.1 = d.1 ∧ c.2.alike d.2 = true) columns others)
    (hname : s.name = t.name) (hstrict : s.strict = t.strict)
    (hs : s.fields = columns.map fun column ↦ field column.1 column.2)
    (ht : t.fields = others.map fun column ↦ field column.1 column.2) : s.alike t = true := by
  refine alike_iff.mpr ⟨hname, ?_, hstrict⟩
  rw [hs, ht, List.forall₂_map_left_iff, List.forall₂_map_right_iff]
  exact h.imp fun c d hcolumn ↦ hcolumn.1 ▸ hfield c.1 c.2 d.2 hcolumn.2

/-- Schemas with the fields of columns that are the same are the same. -/
theorem alike_ofColumns {name other : String} {columns others : List (String × Column)}
    (hname : name = other)
    (h : List.Forall₂ (fun c d ↦ c.1 = d.1 ∧ c.2.alike d.2 = true) columns others) :
    (ofColumns name columns).alike (ofColumns other others) = true := by
  have hof (label : String) (c d : Column) (hcolumn : c.alike d = true) :
      (Field.of label c).alike (Field.of label d) = true := Field.alike_of_alike hcolumn
  exact alike_of_forall₂ hof h hname rfl rfl rfl

end Schema

end Validation

end EntityCompiler

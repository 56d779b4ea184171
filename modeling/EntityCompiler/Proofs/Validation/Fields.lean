import EntityCompiler.Proofs.Shape
import EntityCompiler.Validation.Check

/-!
# Fields of validated records

What any schema makes of a record: it accepts a record without unknown keys that each of its fields
accepts, and the result has what each field keeps, in the order of the fields.
-/

namespace EntityCompiler.Validation

open Checked

/-! ## Fields -/

namespace Field

/-- Whether a field does not keep a record from being accepted. -/
def Accepts (f : Field) (record : List (Value × Value)) : Prop :=
  match Value.lookup? f.name record with
  | some v => ∃ w, f.check v = .accepted w
  | none => f.required = false ∧ ∀ value, f.default = some value → ∃ w, f.check value.toValue = .accepted w

/-- What a validated record has for a field: what the check makes of the value that is there, or else of
the default. -/
def kept? (f : Field) (record : List (Value × Value)) : Option Value :=
  match Value.lookup? f.name record with
  | some v => (f.check v).toOption
  | none => f.default.bind fun value ↦ (f.check value.toValue).toOption

theorem found_eq_accepted_iff {name label : String} {check : Checked Value}
    {found : Option (String × Value)} :
    ((check.below (.key label)).map fun v ↦ some (name, v)) = .accepted found ↔
      (∃ w, check = .accepted w) ∧ check.toOption.map (name, ·) = found := by
  rw [map_eq_accepted_iff]
  cases check with
  | accepted w => simp [below_eq_accepted_iff, toOption]
  | rejected issues => simp [below_eq_accepted_iff]

theorem value?_eq_accepted_iff {f : Field} {place : String} {record : List (Value × Value)}
    {found : Option (String × Value)} :
    f.value? place record = .accepted found ↔
      f.Accepts record ∧ (f.kept? record).map (f.name, ·) = found := by
  unfold value? Accepts kept?
  cases Value.lookup? f.name record with
  | some v => exact found_eq_accepted_iff
  | none =>
    cases f.required with
    | true => simp
    | false =>
      cases f.default with
      | none => simp
      | some value => simp [found_eq_accepted_iff]

end Field

/-! ## Schemas -/

namespace Schema

/-- The fields of a validated record. -/
def kept (s : Schema) (record : List (Value × Value)) : List (String × Value) :=
  s.fields.filterMap fun f ↦ (f.kept? record).map (f.name, ·)

theorem forall₂_zipIdx_fst_iff {α β : Type} {R : α → β → Prop} {xs : List α} {ys : List β} :
    List.Forall₂ (fun place y ↦ R place.1 y) xs.zipIdx ys ↔ List.Forall₂ R xs ys := by
  rw [← List.forall₂_map_left_iff (f := Prod.fst), List.zipIdx_map_fst]

/-- A strict schema accepts the records without unknown keys that all of its fields accept. -/
theorem validate_eq_ok_iff {s : Schema} (hstrict : s.strict = true)
    {record : List (Value × Value)} {result : List (String × Value)} :
    s.validate record = .ok result ↔
      (∀ entry ∈ record, ∃ name ∈ s.fieldNames, entry.1.text? = some name) ∧
        (∀ f ∈ s.fields, f.Accepts record) ∧ result = s.kept record := by
  have hvalues (found : List (Option (String × Value))) :
      List.Forall₂ (fun place found ↦ place.1.value? (placeName place.2) record = .accepted found)
          s.fields.zipIdx found ↔
        (∀ f ∈ s.fields, f.Accepts record) ∧
          s.fields.map (fun f ↦ (f.kept? record).map (f.name, ·)) = found := by
    simp only [Field.value?_eq_accepted_iff]
    rw [forall₂_zipIdx_fst_iff (R := fun (f : Field) (found : Option (String × Value)) ↦
      f.Accepts record ∧ (f.kept? record).map (f.name, ·) = found), List.forall₂_and_left,
      ← List.forall₂_eq_eq_eq, List.forall₂_map_left_iff]
  have hkept : s.kept record =
      (s.fields.map fun f ↦ (f.kept? record).map (f.name, ·)).filterMap id := by
    rw [List.filterMap_map]
    rfl
  simp only [validate, toExcept_eq_ok_iff, check, hstrict, if_true, seqLeft_eq_accepted_iff,
    map_eq_accepted_iff, all_eq_accepted_iff, List.forall₂_map_left_iff, hvalues,
    Shape.noOthers_eq_accepted_iff]
  constructor
  · rintro ⟨⟨_, ⟨haccepts, rfl⟩, rfl⟩, hknown⟩
    exact ⟨hknown, haccepts, hkept.symm⟩
  · rintro ⟨hknown, haccepts, rfl⟩
    exact ⟨⟨_, ⟨haccepts, rfl⟩, hkept.symm⟩, hknown⟩

/-! ## Values under a key -/

section Lookup

variable {α β : Type} {name : α → String} {value? : α → Option β} {xs : List α}

theorem lookup_filterMap_eq_none {key : String} (hkey : key ∉ xs.map name) :
    (xs.filterMap fun x ↦ (value? x).map (name x, ·)).lookup key = none := by
  rw [List.lookup_eq_none_iff]
  rintro ⟨label, b⟩ hentry
  obtain ⟨x, hx, hsome⟩ := List.mem_filterMap.mp hentry
  obtain ⟨found, -, hpair⟩ := Option.map_eq_some_iff.mp hsome
  obtain ⟨rfl, -⟩ := Prod.mk.inj hpair
  exact bne_iff_ne.mpr fun hname ↦ hkey (hname ▸ List.mem_map_of_mem hx)

/-- Of items with distinct names, each has its own value under its name. -/
theorem lookup_filterMap (hnames : (xs.map name).Nodup) {x : α} (hmem : x ∈ xs) :
    (xs.filterMap fun x ↦ (value? x).map (name x, ·)).lookup (name x) = value? x := by
  induction xs with
  | nil => exact absurd hmem List.not_mem_nil
  | cons first rest ih =>
    rw [List.map_cons, List.nodup_cons] at hnames
    rcases List.mem_cons.mp hmem with rfl | hrest
    · cases hvalue : value? x with
      | none =>
        rw [List.filterMap_cons_none (by rw [hvalue]; rfl)]
        exact lookup_filterMap_eq_none hnames.1
      | some b =>
        rw [List.filterMap_cons_some (by rw [hvalue]; rfl)]
        exact List.lookup_cons_self
    · have hother : (name x == name first) = false := beq_false_of_ne fun hname ↦
        hnames.1 (hname ▸ List.mem_map_of_mem hrest)
      cases hvalue : value? first with
      | none =>
        rw [List.filterMap_cons_none (by rw [hvalue]; rfl)]
        exact ih hnames.2 hrest
      | some b =>
        rw [List.filterMap_cons_some (by rw [hvalue]; rfl), List.lookup_cons, hother]
        exact ih hnames.2 hrest

end Lookup

/-- Of fields with distinct names, a validated record has under each name what its field keeps. -/
theorem lookup_kept {s : Schema} (hnames : s.fieldNames.Nodup) {f : Field} (hmem : f ∈ s.fields)
    (record : List (Value × Value)) : (s.kept record).lookup f.name = f.kept? record :=
  lookup_filterMap hnames hmem

theorem lookup_kept_eq_none {s : Schema} {key : String} (hkey : key ∉ s.fieldNames)
    (record : List (Value × Value)) : (s.kept record).lookup key = none :=
  lookup_filterMap_eq_none hkey

end Schema

end EntityCompiler.Validation

import EntityCompiler.Proofs.Number.Digits
import EntityCompiler.Proofs.Shape
import EntityCompiler.Validation.Check

/-!
# Compiled schemas

A schema in the form in which it is run.  Every field has a place whose name is made from the index of
the field alone; the name of the field is the key under which records have it, and only the issues of a
default are found under the name of the place.  Running the compiled form
gives the same record, or the same issues, as the check of the schema, so that no field name can clash
with another name.
-/

namespace EntityCompiler.Validation

open Checked

/-! ## Places -/

/-- The place of a field in a compiled schema. -/
structure Place where
  name : String
  field : Field

/-- A record in compiled form: what each place holds, and the names of the places that the record
filled. -/
structure Instance where
  values : List (String × Value)
  given : List String

namespace Place

/-- Whether a record has a value for a place. -/
def isGiven (p : Place) (record : List (Value × Value)) : Bool :=
  (Value.lookup? p.field.name record).isSome

/-- What a place holds for a record.  A place that nothing fills holds null. -/
def value (p : Place) (record : List (Value × Value)) : Checked Value :=
  let found (label : String) (v : Value) : Checked Value := (p.field.check v).below (.key label)
  match Value.lookup? p.field.name record with
  | some v => found p.field.name v
  | none =>
    if p.field.required then .rejected [⟨[.key p.field.name], .missing⟩]
    else
      match p.field.default with
      | some value => found p.name value.toValue
      | none => .accepted .null

/-- Whether what a place holds is part of the result. -/
def isShown (p : Place) (record : List (Value × Value)) : Bool :=
  p.isGiven record || p.field.default.isSome

/-- The part of the result for a place. -/
def shown? (p : Place) (record : List (Value × Value)) (v : Value) : Option (String × Value) :=
  if p.isShown record then some (p.field.name, v) else none

end Place

namespace Schema

/-- The places of the fields of a schema. -/
def places (s : Schema) : List Place :=
  s.fields.zipIdx.map fun (f, index) ↦ ⟨placeName index, f⟩

/-- The compiled form of a record.  A strict schema refuses the keys that are the name of no field. -/
def instantiate (s : Schema) (record : List (Value × Value)) : Checked Instance :=
  let values := Checked.all (s.places.map fun p ↦ (p.value record).map fun v ↦ (p.name, v))
  let given := (s.places.filter fun p ↦ p.isGiven record).map (·.name)
  let found := values.map fun values ↦ Instance.mk values given
  if s.strict then found <* Shape.noOthers (s.places.map (·.field.name)) record else found

/-- The validated record that an instance holds: what was given and what has a default. -/
def dump (s : Schema) (i : Instance) : List (String × Value) :=
  s.places.filterMap fun p ↦
    if i.given.contains p.name || p.field.default.isSome then
      (i.values.lookup p.name).map fun v ↦ (p.field.name, v)
    else none

/-- The outcome of running the compiled form of a schema. -/
def run (s : Schema) (record : List (Value × Value)) : Except (List Issue) (List (String × Value)) :=
  ((s.instantiate record).map s.dump).toExcept

end Schema

/-! ## Names of places -/

theorem placeName_injective : Function.Injective placeName := by
  intro m n h
  have hchars := congrArg String.toList h
  simp only [placeName, Numeral.ofNat, String.toList_append, String.toList_ofList,
    List.append_cancel_left_eq] at hchars
  exact Numeral.toDigits_injective hchars

theorem map_name_places (s : Schema) :
    s.places.map (·.name) = (List.range' 0 s.fields.length).map placeName := by
  rw [← List.zipIdx_map_snd 0 s.fields, Schema.places, List.map_map, List.map_map]
  rfl

theorem map_field_places (s : Schema) : s.places.map (·.field) = s.fields := by
  rw [Schema.places, List.map_map]
  exact List.zipIdx_map_fst 0 s.fields

theorem nodup_places (s : Schema) : (s.places.map (·.name)).Nodup := by
  rw [map_name_places]
  exact List.Nodup.map placeName_injective List.nodup_range'

/-- The places that a record fills can be told by their names. -/
theorem contains_given {s : Schema} {p : Place} (hp : p ∈ s.places) (record : List (Value × Value)) :
    ((s.places.filter fun q ↦ q.isGiven record).map (·.name)).contains p.name = p.isGiven record := by
  rw [Bool.eq_iff_iff, List.contains_iff_mem, List.mem_map]
  constructor
  · rintro ⟨q, hq, hname⟩
    obtain ⟨hmem, hgiven⟩ := List.mem_filter.mp hq
    rwa [← List.inj_on_of_nodup_map (nodup_places s) hmem hp hname]
  · intro hgiven
    exact ⟨p, List.mem_filter.mpr ⟨hp, hgiven⟩, rfl⟩

/-! ## Outcomes -/

/-- What a field contributes to a validated record is what its place holds, if that is shown. -/
theorem value?_field (p : Place) (record : List (Value × Value)) :
    p.field.value? p.name record = (p.value record).map (p.shown? record) := by
  unfold Field.value? Place.value Place.shown? Place.isShown Place.isGiven
  cases Value.lookup? p.field.name record with
  | some v => rfl
  | none =>
    cases p.field.required with
    | true => rfl
    | false => cases p.field.default <;> rfl

theorem all_map_map {α β γ : Type} (check : α → Checked β) (f : α → β → γ) (xs : List α) :
    all (xs.map fun x ↦ (check x).map (f x)) =
      (all (xs.map check)).map fun values ↦ List.zipWith f xs values := by
  induction xs with
  | nil => rfl
  | cons x xs ih =>
    rw [List.map_cons, List.map_cons, all, all, ih]
    cases check x <;> cases all (xs.map check) <;> rfl

theorem map_seqLeft {α β : Type} (f : α → β) (c : Checked α) (d : Checked Unit) :
    (c <* d).map f = c.map f <* d := by
  cases c <;> cases d <;> rfl

theorem map_map {α β γ : Type} (f : α → β) (g : β → γ) (c : Checked α) :
    (c.map f).map g = c.map fun a ↦ g (f a) := by
  cases c <;> rfl

/-- What is looked up for the places in their order is what they hold in that order. -/
theorem filterMap_lookup_zipWith {ps : List Place} (hnames : (ps.map (·.name)).Nodup)
    (record : List (Value × Value)) (values : List Value) :
    ps.filterMap (fun p ↦ ((List.zipWith (fun p v ↦ (p.name, v)) ps values).lookup p.name).bind
        (p.shown? record)) =
      (List.zipWith (fun p v ↦ p.shown? record v) ps values).filterMap id := by
  induction ps generalizing values with
  | nil => rfl
  | cons p ps ih =>
    cases values with
    | nil => simp
    | cons v values =>
      rw [List.map_cons, List.nodup_cons] at hnames
      have hfirst : (List.zipWith (fun p v ↦ (p.name, v)) (p :: ps) (v :: values)).lookup p.name =
          some v := by
        simp
      have hothers : ∀ q ∈ ps,
          (List.zipWith (fun p v ↦ (p.name, v)) (p :: ps) (v :: values)).lookup q.name =
            (List.zipWith (fun p v ↦ (p.name, v)) ps values).lookup q.name := by
        intro q hq
        have hne : q.name ≠ p.name := fun heq ↦ hnames.1 (heq ▸ List.mem_map_of_mem hq)
        have hskip : (q.name == p.name) = false := by simpa using hne
        rw [List.zipWith_cons_cons, List.lookup_cons, hskip]
      have hrest := List.filterMap_congr fun q hq ↦
        congrArg (Option.bind · (q.shown? record)) (hothers q hq)
      rw [List.filterMap_cons, hfirst, hrest, ih hnames.2, List.zipWith_cons_cons,
        List.filterMap_cons, Option.bind_some]
      rfl

/-- The result has what the places hold, as far as it is shown. -/
theorem dump_instance (s : Schema) (record : List (Value × Value)) (values : List Value) :
    s.dump ⟨List.zipWith (fun p v ↦ (p.name, v)) s.places values,
        (s.places.filter fun p ↦ p.isGiven record).map (·.name)⟩ =
      (List.zipWith (fun p v ↦ p.shown? record v) s.places values).filterMap id := by
  rw [← filterMap_lookup_zipWith (nodup_places s), Schema.dump]
  apply List.filterMap_congr
  intro p hp
  have hshown : (((s.places.filter fun q ↦ q.isGiven record).map (·.name)).contains p.name ||
      p.field.default.isSome) = p.isShown record := by
    rw [contains_given hp, Place.isShown]
  rw [hshown]
  unfold Place.shown?
  cases p.isShown record <;> simp [Option.map_eq_bind]

theorem map_dump_instantiate (s : Schema) (record : List (Value × Value)) :
    (s.instantiate record).map s.dump = s.check record := by
  have hfields : all (s.fields.zipIdx.map fun (f, index) ↦ f.value? (placeName index) record) =
      (all (s.places.map fun p ↦ p.value record)).map
        fun values ↦ List.zipWith (fun p v ↦ p.shown? record v) s.places values := by
    rw [← all_map_map, Schema.places, List.map_map]
    exact congrArg (fun value ↦ all (s.fields.zipIdx.map value))
      (funext fun (f, index) ↦ value?_field ⟨placeName index, f⟩ record)
  have hnames : s.places.map (·.field.name) = s.fieldNames := by
    rw [Schema.fieldNames, ← map_field_places s, List.map_map]
    rfl
  have hfound : ((all (s.places.map fun p ↦ (p.value record).map fun v ↦ (p.name, v))).map
      fun values ↦ Instance.mk values
        ((s.places.filter fun p ↦ p.isGiven record).map (·.name))).map s.dump =
      (all (s.fields.zipIdx.map fun (f, index) ↦ f.value? (placeName index) record)).map
        (·.filterMap id) := by
    rw [all_map_map, hfields]
    simp only [map_map, dump_instance]
  rw [Schema.instantiate, Schema.check, ← hnames, ← hfound]
  cases s.strict with
  | true => exact map_seqLeft _ _ _
  | false => rfl

/-- Running the compiled form of a schema gives what the check of the schema gives, whatever the fields
are called. -/
theorem run_eq_validate (s : Schema) (record : List (Value × Value)) :
    s.run record = s.validate record := by
  rw [Schema.run, Schema.validate, map_dump_instantiate]

end EntityCompiler.Validation

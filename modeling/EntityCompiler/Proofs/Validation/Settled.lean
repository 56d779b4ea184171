import EntityCompiler.Proofs.Validation.Patch

/-!
# Settled values

The values that validation gives: dates are moments and arrays are lists.  They are exactly the values
that the check of a node accepts and leaves as they are, so that a validated record is accepted again and
stays the same.
-/

namespace EntityCompiler.Validation

open Checked

/-- A record with textual keys. -/
def textual (record : List (String × Value)) : List (Value × Value) :=
  record.map fun (key, value) ↦ (.text key, value)

/-! ## Nodes -/

/-- The values that a node gives: those that conform to it, with moments for dates, lists for arrays and
texts for the keys of JSON values. -/
inductive Node.Settled : Node → Value → Prop
  | string (s : String) : Settled (.scalar .string) (.text s)
  | int (n : Int) : Settled (.scalar .number) (.int n)
  | float (x : Binary64) : Settled (.scalar .number) (.float x)
  | integer (n : Int) : Settled (.scalar .integer) (.int n)
  | boolean (b : Bool) : Settled (.scalar .boolean) (.bool b)
  | moment (t : Moment) : Settled (.scalar .date) (.moment t)
  | json {v : Value} : JsonLike v → jsonForm v = v → Settled (.scalar .json) v
  | sequence {element : Node} {items : List Value} : (∀ item ∈ items, Settled element item) →
      Settled (.sequence element) (.list items)

theorem settled_of_checkScalar {p : Primitive} {v w : Value} (h : checkScalar p v = .accepted w) :
    (Node.scalar p).Settled w ∧ (Node.scalar p).fits w = true := by
  cases checkScalar_eq_accepted_iff.mp h with
  | @string _ s _ => exact ⟨.string s, rfl⟩
  | int n => exact ⟨.int n, rfl⟩
  | float x => exact ⟨.float x, rfl⟩
  | integer n => exact ⟨.integer n, rfl⟩
  | boolean b => exact ⟨.boolean b, rfl⟩
  | moment t => exact ⟨.moment t, rfl⟩
  | @instant s t _ => exact ⟨.moment t, rfl⟩
  | json hlike hlevels =>
    obtain ⟨hform, hsame, hdepth⟩ := hlike.form
    exact ⟨.json hform hsame, decide_eq_true (hdepth.trans hlevels)⟩

/-- What the check of a node gives is settled. -/
theorem settled_of_check {node : Node} {v w : Value} (h : node.check v = .accepted w) :
    node.Settled w ∧ node.fits w = true := by
  induction node generalizing v w with
  | scalar p => exact settled_of_checkScalar h
  | sequence element ih =>
    obtain ⟨values, hvalues, rfl⟩ := map_eq_accepted_iff.mp h
    obtain ⟨items, -, hall⟩ := Shape.list_eq_accepted_iff.mp hvalues
    have hsettled (item : Value) (hmem : item ∈ values) :
        element.Settled item ∧ element.fits item = true := by
      obtain ⟨_, -, hitem⟩ := exists_of_forall₂_of_mem hall hmem
      exact ih hitem
    exact ⟨.sequence fun item hmem ↦ (hsettled item hmem).1,
      List.all_eq_true.mpr fun item hmem ↦ (hsettled item hmem).2⟩

/-- Settled values are left as they are, unless their JSON values have too many levels. -/
theorem check_of_settled {node : Node} {w : Value} (h : node.Settled w) (hfits : node.fits w = true) :
    node.check w = .accepted w := by
  induction h with
  | json hlike hform => exact checkJson_eq_accepted_iff.mpr ⟨hform, hlike, of_decide_eq_true hfits⟩
  | @sequence element items _ ih =>
    have hitems : List.Forall₂ (fun item value ↦ element.check item = .accepted value) items items :=
      List.forall₂_same.mpr fun item hmem ↦ ih item hmem (List.all_eq_true.mp hfits item hmem)
    exact map_eq_accepted_iff.mpr ⟨items, Shape.list_eq_accepted_iff.mpr ⟨items, rfl, hitems⟩, rfl⟩
  | _ => rfl

/-! ## Fields -/

/-- The values that a field gives: null where it is allowed, or a settled value. -/
def Field.Settled (f : Field) (w : Value) : Prop :=
  (w = .null ∧ f.nullable = true) ∨ (w ≠ .null ∧ f.node.Settled w)

theorem check_null_eq_accepted {f : Field} {w : Value} (h : f.check .null = .accepted w) :
    w = .null ∧ f.nullable = true := by
  rcases (exists_field_check_iff.mp ⟨w, h⟩).1 with ⟨-, hnullable⟩ | ⟨hnull, -⟩
  · rw [Field.check, if_pos hnullable] at h
    exact ⟨(accepted.inj h).symm, hnullable⟩
  · exact absurd rfl hnull

theorem jsonForm_eq_null_iff {v : Value} : jsonForm v = .null ↔ v = .null := by
  cases v with
  | columnType t => cases t <;> simp [jsonForm]
  | _ => simp [jsonForm, Value.ofFields]

/-- A value other than null is not made null. -/
theorem ne_null_of_check {node : Node} {v w : Value} (hv : v ≠ .null)
    (h : node.check v = .accepted w) : w ≠ .null := by
  by_cases hjson : node = .scalar .json
  · rw [hjson] at h
    obtain ⟨rfl, -⟩ := checkJson_eq_accepted_iff.mp h
    exact mt jsonForm_eq_null_iff.mp hv
  · rintro rfl
    cases (settled_of_check h).1 with
    | json _ _ => exact hjson rfl

/-- The check of a field gives a settled value, which it leaves as it is. -/
theorem field_check_idempotent {f : Field} {v w : Value} (h : f.check v = .accepted w) :
    f.Settled w ∧ f.check w = .accepted w := by
  by_cases hv : v = .null
  · subst hv
    obtain ⟨rfl, hnullable⟩ := check_null_eq_accepted h
    exact ⟨.inl ⟨rfl, hnullable⟩, h⟩
  · rw [check_eq_check_of_ne_null hv] at h
    have hw := ne_null_of_check hv h
    obtain ⟨hsettled, hfits⟩ := settled_of_check h
    exact ⟨.inr ⟨hw, hsettled⟩,
      (check_eq_check_of_ne_null hw).trans (check_of_settled hsettled hfits)⟩

/-! ## Validated records -/

section Kept

variable {f : Field} {record validated : List (Value × Value)}

theorem exists_check_of_kept? {w : Value} (h : f.kept? record = some w) :
    ∃ v, f.check v = .accepted w := by
  rw [Field.kept?] at h
  cases hfound : Value.lookup? f.name record with
  | some v =>
    rw [hfound] at h
    exact ⟨v, Checked.toOption_eq_some_iff.mp h⟩
  | none =>
    rw [hfound] at h
    obtain ⟨value, -, hvalue⟩ := Option.bind_eq_some_iff.mp h
    exact ⟨value.toValue, Checked.toOption_eq_some_iff.mp hvalue⟩

/-- A field keeps nothing of an accepted record only if it may be absent and has no default. -/
theorem absent_of_kept?_eq_none (haccepts : f.Accepts record) (h : f.kept? record = none) :
    f.required = false ∧ f.default = none := by
  rw [Field.Accepts] at haccepts
  rw [Field.kept?] at h
  cases hfound : Value.lookup? f.name record with
  | some v =>
    rw [hfound] at haccepts h
    obtain ⟨w, hw⟩ := haccepts
    simp [hw, toOption] at h
  | none =>
    rw [hfound] at haccepts h
    refine ⟨haccepts.1, Option.eq_none_iff_forall_ne_some.mpr fun value hdefault ↦ ?_⟩
    obtain ⟨w, hw⟩ := haccepts.2 value hdefault
    simp [hdefault, hw, toOption] at h

/-- A record that has for a field what the field keeps of an accepted record is accepted by it, and the
field keeps the same of it. -/
theorem accepts_of_lookup?_eq_kept? (haccepts : f.Accepts record)
    (h : Value.lookup? f.name validated = f.kept? record) :
    f.Accepts validated ∧ f.kept? validated = f.kept? record := by
  rw [Field.Accepts, Field.kept?, h]
  cases hkept : f.kept? record with
  | some w =>
    obtain ⟨v, hv⟩ := exists_check_of_kept? hkept
    obtain ⟨-, hw⟩ := field_check_idempotent hv
    exact ⟨⟨w, hw⟩, Checked.toOption_eq_some_iff.mpr hw⟩
  | none =>
    obtain ⟨hrequired, hdefault⟩ := absent_of_kept?_eq_none haccepts hkept
    rw [hdefault]
    exact ⟨⟨hrequired, fun _ hvalue ↦ absurd hvalue (by simp)⟩, rfl⟩

end Kept

theorem lookup?_textual (name : String) (record : List (String × Value)) :
    Value.lookup? name (textual record) = record.lookup name := by
  induction record with
  | nil => rfl
  | cons entry record ih =>
    obtain ⟨key, value⟩ := entry
    rw [textual, List.map_cons, Value.lookup?_text_cons, List.lookup_cons]
    by_cases hkey : key = name
    · simp [hkey]
    · have hother : (name == key) = false := by simpa using Ne.symm hkey
      rw [if_neg hkey, hother]
      exact ih

/-- Validating a validated record changes nothing, where the fields have distinct names. -/
theorem validate_validated {s : Schema} (hstrict : s.strict = true) (hnames : s.fieldNames.Nodup)
    {record : List (Value × Value)} {result : List (String × Value)}
    (h : s.validate record = .ok result) : s.validate (textual result) = .ok result := by
  obtain ⟨-, haccepts, rfl⟩ := (Schema.validate_eq_ok_iff hstrict).mp h
  have hfield (f : Field) (hmem : f ∈ s.fields) :=
    accepts_of_lookup?_eq_kept? (haccepts f hmem)
      ((lookup?_textual f.name _).trans (Schema.lookup_kept hnames hmem record))
  refine (Schema.validate_eq_ok_iff hstrict).mpr ⟨?_, fun f hmem ↦ (hfield f hmem).1, ?_⟩
  · rw [textual, List.forall_mem_map]
    intro entry hentry
    obtain ⟨f, hmem, hkept⟩ := List.mem_filterMap.mp hentry
    obtain ⟨w, -, rfl⟩ := Option.map_eq_some_iff.mp hkept
    exact ⟨f.name, List.mem_map_of_mem hmem, rfl⟩
  · exact List.filterMap_congr fun f hmem ↦ by rw [(hfield f hmem).2]

/-- The entries of a validated record are settled values of its fields. -/
theorem settled_of_validate {s : Schema} (hstrict : s.strict = true) {record : List (Value × Value)}
    {result : List (String × Value)} (h : s.validate record = .ok result) :
    ∀ entry ∈ result, ∃ f ∈ s.fields, entry.1 = f.name ∧ f.Settled entry.2 := by
  obtain ⟨-, -, rfl⟩ := (Schema.validate_eq_ok_iff hstrict).mp h
  intro entry hentry
  obtain ⟨f, hmem, hkept⟩ := List.mem_filterMap.mp hentry
  obtain ⟨w, hw, rfl⟩ := Option.map_eq_some_iff.mp hkept
  obtain ⟨v, hv⟩ := exists_check_of_kept? hw
  exact ⟨f, hmem, rfl, (field_check_idempotent hv).1⟩

/-! ## Schemas of an entity -/

/-- The schemas of an entity: of all columns, of what the API shows, and of what clients send. -/
def schemas (e : Entity) : List Schema :=
  [.full e, .shown e, .create e, .update e]

theorem strict_of_mem_schemas {e : Entity} {s : Schema} (h : s ∈ schemas e) : s.strict = true := by
  simp only [schemas, List.mem_cons, List.not_mem_nil, or_false] at h
  rcases h with rfl | rfl | rfl | rfl <;> rfl

theorem fieldNames_ofColumns (name : String) (columns : List (String × Column)) :
    (Schema.ofColumns name columns).fieldNames = columns.map (·.1) := by
  simp only [Schema.fieldNames, Schema.ofColumns, List.map_map]
  rfl

/-- The fields of a schema of an entity have names of columns, in their order. -/
theorem fieldNames_sublist {e : Entity} {s : Schema} (h : s ∈ schemas e) :
    s.fieldNames.Sublist e.columnNames := by
  simp only [schemas, List.mem_cons, List.not_mem_nil, or_false] at h
  rcases h with rfl | rfl | rfl | rfl
  · exact (fieldNames_full e).symm ▸ List.Sublist.refl _
  · exact (fieldNames_ofColumns _ _).symm ▸ List.filter_sublist.map _
  · exact (fieldNames_ofColumns _ _).symm ▸ List.filter_sublist.map _
  · exact (fieldNames_update e).symm ▸ List.filter_sublist.map _

/-- Validation is idempotent.  For each schema of an entity, a validated record is accepted again and its
validated form is the record itself, with the same keys in the same order and the same values, which have
moments for dates and lists for arrays.  Names of columns are distinct, as those described by a dictionary
always are. -/
theorem validate_idempotent {e : Entity} (hnames : e.columnNames.Nodup) {s : Schema}
    (hs : s ∈ schemas e) {record : List (Value × Value)} {result : List (String × Value)}
    (h : s.validate record = .ok result) :
    s.validate (textual result) = .ok result ∧
      ∀ entry ∈ result, ∃ f ∈ s.fields, entry.1 = f.name ∧ f.Settled entry.2 :=
  ⟨validate_validated (strict_of_mem_schemas hs) (hnames.sublist (fieldNames_sublist hs)) h,
    settled_of_validate (strict_of_mem_schemas hs) h⟩

theorem validate_idempotent_reminder :
    let e := reminderEntity
    let s := Schema.full e
    let record : List (Value × Value) := [(.text "due", .text "2027-01-01"), (.text "id", .int 7)]
    Entity.build reminder = .ok e ∧ e.columnNames.Nodup ∧ s ∈ schemas e ∧
      ∃ result, s.validate record = .ok result ∧ s.validate (textual result) = .ok result ∧
        result.map (·.1) = ["id", "due"] := by
  intro e s record
  have hnames : e.columnNames.Nodup := by decide
  have hs : s ∈ schemas e := List.mem_cons_self
  obtain ⟨result, hrecord, hkeys⟩ : ∃ result, s.validate record = .ok result ∧
      result.map (·.1) = ["id", "due"] := ⟨_, rfl, rfl⟩
  exact ⟨build_reminder, hnames, hs, result, hrecord, (validate_idempotent hnames hs hrecord).1, hkeys⟩

end EntityCompiler.Validation

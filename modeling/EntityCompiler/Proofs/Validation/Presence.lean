import EntityCompiler.Proofs.Validation.Records
import EntityCompiler.Proofs.Value.Keyed
import EntityCompiler.Proofs.Value.Respelled

/-!
# Null and absence in records

What the schema of an entity says about a column that is null or absent, told by the records that it
accepts.  A column refuses null, or absence, if no accepted record stays accepted when the column is set
to null, or is taken out.
-/

namespace EntityCompiler

/-! ## Setting one key -/

namespace Value

variable {record : List (Value × Value)} {name key : String} {label v : Value}

/-- A key equals a text exactly if it is that text. -/
theorem alike_iff_of_text? (h : label.text? = some name) {key : Value} :
    key.alike label = true ↔ key.text? = some name := by
  rcases text?_eq_some_iff.mp h with rfl | ⟨p, rfl, rfl⟩
  · cases key with
    | columnType t => cases t <;> simp [alike, scalarAlike, integral?, text?]
    | _ => simp [alike, scalarAlike, integral?, text?]
  · cases key with
    | columnType t =>
      cases t with
      | primitive q => simp [alike, scalarAlike, Primitive.name_injective.eq_iff]
      | arrayOf element => simp [alike, scalarAlike, text?]
    | _ => simp [alike, scalarAlike, integral?, text?]

/-- Only texts equal texts. -/
theorem text?_eq_of_alike {a b : Value} (h : a.alike b = true) : a.text? = b.text? := by
  cases hb : b.text? with
  | some s => exact (alike_iff_of_text? hb).mp h
  | none =>
    cases ha : a.text? with
    | none => rfl
    | some s =>
      rcases text?_eq_some_iff.mp ha with rfl | ⟨p, rfl, rfl⟩ <;> cases b with
      | columnType t => cases t <;> simp_all [alike, scalarAlike, integral?, text?]
      | _ => simp_all [alike, scalarAlike, integral?]

theorem lookup?_putEntry (h : label.text? = some name) : lookup? key (putEntry label v record) =
    if key = name then some v else lookup? key record := by
  induction record with
  | nil => simp [putEntry, lookup?, h, eq_comm]
  | cons entry record ih =>
    obtain ⟨other, value⟩ := entry
    by_cases hother : other.text? = some name
    · rw [putEntry, if_pos ((alike_iff_of_text? h).mpr hother)]
      by_cases hkey : name = key
      · simp [lookup?, hother, hkey]
      · simp [lookup?, hother, hkey, Ne.symm hkey]
    · rw [putEntry, if_neg (mt (alike_iff_of_text? h).mp hother), lookup?, lookup?, ih]
      by_cases hkey : other.text? = some key
      · have hdiffers : key ≠ name := fun hname ↦ hother (hname ▸ hkey)
        rw [if_pos hkey, if_neg hdiffers, if_pos hkey]
      · rw [if_neg hkey, if_neg hkey]

theorem mem_putEntry (h : label.text? = some name) {entry : Value × Value}
    (hentry : entry ∈ putEntry label v record) : entry.1.text? = some name ∨ entry ∈ record := by
  induction record with
  | nil =>
    rw [List.mem_singleton.mp hentry]
    exact .inl h
  | cons first record ih =>
    obtain ⟨other, value⟩ := first
    by_cases halike : other.alike label = true
    · rw [putEntry, if_pos halike] at hentry
      rcases List.mem_cons.mp hentry with rfl | hrest
      · exact .inl ((alike_iff_of_text? h).mp halike)
      · exact .inr (List.mem_cons_of_mem _ hrest)
    · rw [putEntry, if_neg halike] at hentry
      rcases List.mem_cons.mp hentry with rfl | hrest
      · exact .inr List.mem_cons_self
      · exact (ih hrest).imp_right (List.mem_cons_of_mem _)

end Value

/-! ## Levels of defaults -/

theorem Json.depth_le_of_mem {items : List Json} {item : Json} (h : item ∈ items) :
    item.depth ≤ (Json.array items).depth := by
  have hitems : item.depth ≤ Value.itemsDepth (items.map Json.toValue) :=
    Value.itemsDepth_le_iff.mp le_rfl _ (List.mem_map_of_mem h)
  have hdepth : (Json.array items).depth = Value.itemsDepth (items.map Json.toValue) + 1 := by
    rw [Json.depth, Json.toValue, Value.jsonItems_eq_map, Value.depth]
  omega

/-- A literal without too many levels has no JSON value with too many. -/
theorem Literal.fits_of_depth_le {type : ColumnType} {value : Json} (h : value.depth ≤ depthLimit) :
    fits type value = true := by
  induction type generalizing value with
  | primitive p =>
    cases p with
    | json => exact decide_eq_true h
    | _ => rfl
  | arrayOf element ih =>
    cases value with
    | array items =>
      refine List.all_eq_true.mpr fun item hmem ↦ ih ?_
      exact (Json.depth_le_of_mem hmem).trans h
    | _ => rfl

namespace Validation

open Checked

/-! ## A record with all columns -/

/-- A value that a required column of a given type accepts. -/
def inhabitant : ColumnType → Value
  | .primitive .string => .text ""
  | .primitive .number => .int 0
  | .primitive .integer => .int 0
  | .primitive .boolean => .bool true
  | .primitive .date => .moment newYear
  | .primitive .json => .bool true
  | .arrayOf _ => .list []

theorem exists_check_inhabitant (name : String) (c : Column) :
    ∃ w, (Field.of name c).check (inhabitant c.type) = .accepted w := by
  have hnull : inhabitant c.type ≠ .null := by
    cases c.type with
    | primitive p => cases p <;> exact nofun
    | arrayOf element => exact nofun
  rw [check_eq_check_of_ne_null hnull, Field.of]
  cases c.type with
  | primitive p => cases p <;> exact ⟨_, rfl⟩
  | arrayOf element => exact ⟨_, rfl⟩

/-- A record that has every column of an entity. -/
def inhabitants (e : Entity) : List (Value × Value) :=
  e.columns.map fun column ↦ (.text column.1, inhabitant column.2.type)

variable {v : Value} {e : Entity} {column : String × Column} {record : List (Value × Value)}

theorem texts_inhabitants (e : Entity) : ∀ entry ∈ inhabitants e, ∃ name, entry.1 = .text name :=
  List.forall_mem_map.mpr fun column _ ↦ ⟨column.1, rfl⟩

theorem nodup_inhabitants (hnames : e.columnNames.Nodup) :
    ((inhabitants e).map (·.1)).Nodup := by
  have hkeys : (inhabitants e).map (·.1) = e.columnNames.map .text := by
    rw [inhabitants, Entity.columnNames, List.map_map, List.map_map]
    rfl
  rw [hkeys]
  exact hnames.map fun _ _ h ↦ Value.text.inj h

theorem exists_validate_inhabitants (hbuild : Entity.build v = .ok e)
    (hnames : e.columnNames.Nodup) :
    ∃ result, (Schema.full e).validate (inhabitants e) = .ok result := by
  refine ⟨_, (validate_full_eq_ok_iff hbuild).mpr ⟨fun entry hentry ↦ ?_, fun column hmem ↦ ?_, rfl⟩⟩
  · obtain ⟨column, hmem, rfl⟩ := List.mem_map.mp hentry
    exact ⟨column, hmem, rfl⟩
  · have hlookup : Value.lookup? column.1 (inhabitants e) = some (inhabitant column.2.type) :=
      (Value.lookup?_eq_some_iff ⟨nodup_inhabitants hnames, texts_inhabitants e⟩).mpr
        (List.mem_map.mpr ⟨column, hmem, rfl⟩)
    rw [Admits, hlookup]
    exact exists_check_inhabitant column.1 column.2

/-! ## Changing one column -/

/-- An accepted record that is changed under one key stays accepted exactly when the column admits the
change. -/
theorem exists_validate_changed_iff (hbuild : Entity.build v = .ok e)
    (hnames : e.columnNames.Nodup) (hmem : column ∈ e.columns)
    (hrecord : ∃ result, (Schema.full e).validate record = .ok result)
    {changed : List (Value × Value)}
    (hkeys : ∀ entry ∈ changed, entry.1.text? = some column.1 ∨ entry ∈ record)
    (hothers : ∀ key, key ≠ column.1 → Value.lookup? key changed = Value.lookup? key record) :
    (∃ result, (Schema.full e).validate changed = .ok result) ↔
      Admits column.1 column.2 changed := by
  obtain ⟨result, hresult⟩ := hrecord
  obtain ⟨hknown, hadmits, -⟩ := (validate_full_eq_ok_iff hbuild).mp hresult
  constructor
  · rintro ⟨other, hother⟩
    exact ((validate_full_eq_ok_iff hbuild).mp hother).2.1 column hmem
  · intro hcolumn
    refine ⟨_, (validate_full_eq_ok_iff hbuild).mpr ⟨fun entry hentry ↦ ?_, fun other hother ↦ ?_, rfl⟩⟩
    · rcases hkeys entry hentry with hkey | hkept
      · exact ⟨column, hmem, hkey⟩
      · exact hknown entry hkept
    · by_cases hname : other.1 = column.1
      · have hsame : other = column := List.inj_on_of_nodup_map hnames hother hmem hname
        rwa [hsame]
      · rw [Admits, hothers other.1 hname]
        exact hadmits other hother

/-- A column can be set to null in an accepted record exactly when it accepts null. -/
theorem exists_validate_putEntry_null_iff (hbuild : Entity.build v = .ok e)
    (hnames : e.columnNames.Nodup) (hmem : column ∈ e.columns)
    (hrecord : ∃ result, (Schema.full e).validate record = .ok result) :
    (∃ result, (Schema.full e).validate (Value.putEntry (.text column.1) .null record) = .ok result) ↔
      column.2.acceptsNull = true := by
  rw [exists_validate_changed_iff hbuild hnames hmem hrecord (fun _ ↦ Value.mem_putEntry rfl)
    fun key hkey ↦ by rw [Value.lookup?_putEntry (Value.text?_text _), if_neg hkey]]
  have hlookup : Value.lookup? column.1 (Value.putEntry (.text column.1) .null record) =
      some .null := by
    rw [Value.lookup?_putEntry (Value.text?_text _), if_pos rfl]
  have hcheck : (∃ w, (Field.of column.1 column.2).check .null = .accepted w) ↔
      column.2.acceptsNull = true := by
    constructor
    · intro haccepted
      rcases (exists_field_check_iff.mp haccepted).1 with ⟨-, hnullable⟩ | ⟨hnull, -⟩
      · exact hnullable
      · exact absurd rfl hnull
    · intro haccepts
      exact ⟨.null, if_pos haccepts⟩
  rw [Admits, hlookup]
  exact hcheck

/-- A column can be taken out of an accepted record exactly when it is optional and its default has no
more levels than validation looks into. -/
theorem exists_validate_without_iff (hbuild : Entity.build v = .ok e)
    (hnames : e.columnNames.Nodup) (hmem : column ∈ e.columns)
    (hrecord : ∃ result, (Schema.full e).validate record = .ok result) :
    (∃ result, (Schema.full e).validate (without (· = column.1) record) = .ok result) ↔
      column.2.optional = true ∧ column.2.defaultFits = true := by
  have hlookup (key : String) : Value.lookup? key (without (· = column.1) record) =
      if key = column.1 then none else Value.lookup? key record := by
    simp [lookup?_without]
  rw [exists_validate_changed_iff hbuild hnames hmem hrecord
    (fun _ hentry ↦ .inr (mem_of_mem_without hentry))
    fun key hkey ↦ (hlookup key).trans (if_neg hkey)]
  rw [Admits, hlookup, if_pos rfl]

/-! ## Refusals -/

/-- Whether no record, a dictionary, that a schema accepts stays accepted after a change. -/
def Schema.Refuses (s : Schema) (change : List (Value × Value) → List (Value × Value)) : Prop :=
  ∀ record, (record.map (·.1.asText)).Nodup → (∃ result, s.validate record = .ok result) →
    ¬∃ result, s.validate (change record) = .ok result

/-- Whether no accepted record stays accepted when it gets null under a name. -/
def Schema.RefusesNull (s : Schema) (name : String) : Prop :=
  s.Refuses (Value.putEntry (.text name) .null)

/-- Whether no accepted record stays accepted without what it has under a name. -/
def Schema.RefusesAbsence (s : Schema) (name : String) : Prop :=
  s.Refuses (without (· = name))

/-- A change after which acceptance does not depend on the record is refused exactly if it is not
accepted. -/
theorem refuses_iff (hbuild : Entity.build v = .ok e) (hnames : e.columnNames.Nodup)
    {change : List (Value × Value) → List (Value × Value)} {condition : Prop}
    (hchange : ∀ record, (∃ result, (Schema.full e).validate record = .ok result) →
      ((∃ result, (Schema.full e).validate (change record) = .ok result) ↔ condition)) :
    (Schema.full e).Refuses change ↔ ¬condition := by
  have hfull := exists_validate_inhabitants hbuild hnames
  constructor
  · intro hrefuses hcondition
    have hkeys : ((inhabitants e).map (·.1.asText)).Nodup := by
      rw [Value.map_asText_of_texts (texts_inhabitants e)]
      exact nodup_inhabitants hnames
    exact hrefuses _ hkeys hfull ((hchange _ hfull).mpr hcondition)
  · intro hnot record _ hrecord haccepted
    exact hnot ((hchange record hrecord).mp haccepted)

theorem refusesNull_iff (hbuild : Entity.build v = .ok e) (hnames : e.columnNames.Nodup)
    (hmem : column ∈ e.columns) :
    (Schema.full e).RefusesNull column.1 ↔ column.2.acceptsNull = false := by
  rw [← Bool.not_eq_true]
  exact refuses_iff hbuild hnames fun _ ↦ exists_validate_putEntry_null_iff hbuild hnames hmem

theorem refusesAbsence_iff (hbuild : Entity.build v = .ok e) (hnames : e.columnNames.Nodup)
    (hmem : column ∈ e.columns) :
    (Schema.full e).RefusesAbsence column.1 ↔
      ¬(column.2.optional = true ∧ column.2.defaultFits = true) :=
  refuses_iff hbuild hnames fun _ ↦ exists_validate_without_iff hbuild hnames hmem

end Validation

end EntityCompiler

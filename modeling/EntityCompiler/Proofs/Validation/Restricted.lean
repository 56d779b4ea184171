import EntityCompiler.Proofs.Validation.Settled

/-!
# Restricted schemas

Schemas with some of the columns of another schema.  A record that the larger schema accepts is accepted by
the smaller one once it is restricted to its columns, and the validated form of the restricted record is
that of the whole record, restricted to the same columns.
-/

namespace EntityCompiler.Validation

/-- A record without its entries under other names. -/
def restrict (names : List String) (record : List (Value × Value)) : List (Value × Value) :=
  without (fun key ↦ !names.contains key) record

/-- A validated record without its entries under other names. -/
def restrictFields (names : List String) (result : List (String × Value)) : List (String × Value) :=
  result.filter fun entry ↦ names.contains entry.1

theorem lookup?_restrict_of_mem {names : List String} {key : String} (h : key ∈ names)
    (record : List (Value × Value)) :
    Value.lookup? key (restrict names record) = Value.lookup? key record := by
  rw [restrict, lookup?_without, if_neg (by simpa using h)]

/-- The entries of a restricted record with textual keys are those under the given names. -/
theorem mem_restrict_iff {names : List String} {record : List (Value × Value)} {key : String}
    {entry : Value × Value} (h : entry.1.text? = some key) :
    entry ∈ restrict names record ↔ key ∈ names ∧ entry ∈ record := by
  simp [restrict, without, h, and_comm]

/-! ## Fields and the values that they see -/

section Congr

variable {record other : List (Value × Value)}

theorem accepts_congr {f : Field} (h : Value.lookup? f.name record = Value.lookup? f.name other) :
    f.Accepts record ↔ f.Accepts other := by
  rw [Field.Accepts, Field.Accepts, h]

theorem kept?_congr {f : Field} (h : Value.lookup? f.name record = Value.lookup? f.name other) :
    f.kept? record = f.kept? other := by
  rw [Field.kept?, Field.kept?, h]

/-- A validated record depends on the values under the names of the fields only. -/
theorem kept_congr {s : Schema}
    (h : ∀ name ∈ s.fieldNames, Value.lookup? name record = Value.lookup? name other) :
    s.kept record = s.kept other :=
  List.filterMap_congr fun f hmem ↦ by rw [kept?_congr (h f.name (List.mem_map_of_mem hmem))]

end Congr

/-! ## Schemas of columns -/

section Columns

variable {columns : List (String × Column)} {keep : String × Column → Bool}

theorem kept_ofColumns (name : String) (columns : List (String × Column))
    (record : List (Value × Value)) :
    (Schema.ofColumns name columns).kept record = columns.filterMap fun column ↦
      ((Field.of column.1 column.2).kept? record).map (column.1, ·) := by
  simp only [Schema.kept, Schema.ofColumns, List.filterMap_map]
  rfl

/-- An entry is kept or not by its key. -/
theorem filter_map_key (keep : String → Bool) (key : String) (found : Option Value) :
    (found.map (key, ·)).filter (fun entry ↦ keep entry.1) =
      if keep key then found.map (key, ·) else none := by
  cases found <;> simp [Option.filter_some]

/-- Columns with distinct names that are kept can be told by their names. -/
theorem contains_map_filter (hnames : (columns.map (·.1)).Nodup) {column : String × Column}
    (hmem : column ∈ columns) :
    ((columns.filter keep).map (·.1)).contains column.1 = keep column := by
  rw [Bool.eq_iff_iff, List.contains_iff_mem, List.mem_map]
  constructor
  · rintro ⟨other, hother, hname⟩
    obtain ⟨hcolumn, hkeep⟩ := List.mem_filter.mp hother
    rwa [← List.inj_on_of_nodup_map hnames hcolumn hmem hname]
  · intro hkeep
    exact ⟨column, List.mem_filter.mpr ⟨hmem, hkeep⟩, rfl⟩

/-- What the columns that are kept make of a record is what all columns make of it, restricted. -/
theorem restrictFields_kept (hnames : (columns.map (·.1)).Nodup) (name other : String)
    (record : List (Value × Value)) :
    restrictFields ((columns.filter keep).map (·.1)) ((Schema.ofColumns name columns).kept record) =
      (Schema.ofColumns other (columns.filter keep)).kept record := by
  rw [kept_ofColumns, kept_ofColumns, restrictFields, List.filter_filterMap, List.filterMap_filter]
  refine List.filterMap_congr fun column hmem ↦ ?_
  have hkeep : ((columns.filter keep).map (·.1)).contains column.1 = keep column :=
    contains_map_filter hnames hmem
  rw [filter_map_key ((columns.filter keep).map (·.1)).contains, hkeep]

/-- Validation commutes with the restriction to some of the columns, whatever the schemas are called. -/
theorem validate_restrict (hnames : (columns.map (·.1)).Nodup) {name : String} (other : String)
    {record : List (Value × Value)} {result : List (String × Value)}
    (h : (Schema.ofColumns name columns).validate record = .ok result) :
    (Schema.ofColumns other (columns.filter keep)).validate
        (restrict ((columns.filter keep).map (·.1)) record) =
      .ok (restrictFields ((columns.filter keep).map (·.1)) result) := by
  obtain ⟨hknown, haccepts, rfl⟩ := (Schema.validate_eq_ok_iff rfl).mp h
  have hlookup (key : String) (hkey : key ∈ (Schema.ofColumns other (columns.filter keep)).fieldNames) :
      Value.lookup? key (restrict ((columns.filter keep).map (·.1)) record) =
        Value.lookup? key record :=
    lookup?_restrict_of_mem (fieldNames_ofColumns _ _ ▸ hkey) record
  refine (Schema.validate_eq_ok_iff rfl).mpr ⟨fun entry hentry ↦ ?_, fun f hf ↦ ?_, ?_⟩
  · obtain ⟨key, -, htext⟩ := hknown entry (mem_of_mem_without hentry)
    exact ⟨key, fieldNames_ofColumns _ _ ▸ ((mem_restrict_iff htext).mp hentry).1, htext⟩
  · obtain ⟨column, hcolumn, rfl⟩ := List.mem_map.mp hf
    refine (accepts_congr (hlookup _ (List.mem_map_of_mem hf))).mpr ?_
    exact haccepts _ (List.mem_map_of_mem (List.mem_of_mem_filter hcolumn))
  · rw [restrictFields_kept hnames name other, kept_congr hlookup]

end Columns

end EntityCompiler.Validation

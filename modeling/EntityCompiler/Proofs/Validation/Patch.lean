import EntityCompiler.Proofs.Specification.Entries
import EntityCompiler.Proofs.Validation.Fields
import EntityCompiler.Proofs.Validation.Presence

/-!
# Patches of validated records

A record that the schema of an entity accepts stays accepted when it is overridden by a patch that the
update schema accepts.  It then has the validated values of the patch, and otherwise those it had before.
No patch has a column that the server manages.
-/

namespace EntityCompiler

/-! ## Overridden entries -/

namespace Value

variable {patch record : List (Value × Value)}

/-- Entries overridden by others with distinct textual keys have under a key what the others have there,
or else what they had before. -/
theorem lookup?_putEntries (htexts : ∀ entry ∈ patch, ∃ name, entry.1.text? = some name)
    (hkeys : (patch.map (·.1.asText)).Nodup) (key : String) :
    lookup? key (putEntries patch record) = (lookup? key patch).or (lookup? key record) := by
  -- Each entry is put into what the entries before it have made of the record.
  induction patch generalizing record with
  | nil => rfl
  | cons entry patch ih =>
    obtain ⟨label, v⟩ := entry
    obtain ⟨name, hlabel⟩ : ∃ name, label.text? = some name := htexts (label, v) List.mem_cons_self
    rw [List.map_cons, List.nodup_cons] at hkeys
    have hput : putEntries ((label, v) :: patch) record =
        putEntries patch (putEntry label v record) := rfl
    rw [hput, ih (fun other hother ↦ htexts other (List.mem_cons_of_mem _ hother)) hkeys.2,
      lookup?_putEntry hlabel, lookup?, hlabel]
    by_cases hname : key = name
    · -- No later entry has the key again.
      have hrest : lookup? name patch = none := by
        rw [lookup?_eq_none_iff]
        refine fun other hother hsame ↦ hkeys.1 (List.mem_map.mpr ⟨other, hother, ?_⟩)
        rw [asText_of_text? hsame, asText_of_text? hlabel]
      rw [if_pos hname, hname, hrest, if_pos rfl]
      rfl
    · rw [if_neg hname, if_neg fun hsome ↦ hname (Option.some.inj hsome).symm]

theorem mem_putEntries (htexts : ∀ entry ∈ patch, ∃ name, entry.1.text? = some name)
    {entry : Value × Value} (h : entry ∈ putEntries patch record) :
    (∃ other ∈ patch, entry.1.text? = other.1.text?) ∨ entry ∈ record := by
  induction patch generalizing record with
  | nil => exact .inr h
  | cons first patch ih =>
    obtain ⟨label, v⟩ := first
    obtain ⟨name, hlabel⟩ : ∃ name, label.text? = some name := htexts (label, v) List.mem_cons_self
    rcases ih (fun other hother ↦ htexts other (List.mem_cons_of_mem _ hother)) h with
      ⟨other, hother, hkey⟩ | hput
    · exact .inl ⟨other, List.mem_cons_of_mem _ hother, hkey⟩
    · exact (mem_putEntry hlabel hput).imp_left fun hkey ↦
        ⟨_, List.mem_cons_self, hkey.trans hlabel.symm⟩

end Value

namespace Validation

/-! ## Update schemas -/

variable {e : Entity} {column : String × Column} {record patch : List (Value × Value)}

/-- A column takes the same values in a patch as in a record. -/
theorem check_ofPatch (name : String) (c : Column) (v : Value) :
    (Field.ofPatch name c).check v = (Field.of name c).check v := by
  cases v <;> rfl

/-- A column that is absent from a patch does not keep it from being accepted. -/
theorem accepts_ofPatch_iff {name : String} {c : Column} :
    (Field.ofPatch name c).Accepts patch ↔
      ∀ v, Value.lookup? name patch = some v → ∃ w, (Field.of name c).check v = .accepted w := by
  have hname : (Field.ofPatch name c).name = name := rfl
  rw [Field.Accepts, hname]
  cases hfound : Value.lookup? name patch with
  | none => simp [Field.ofPatch]
  | some v => simp [check_ofPatch]

/-- A patch is never filled in. -/
theorem kept?_ofPatch (name : String) (c : Column) (patch : List (Value × Value)) :
    (Field.ofPatch name c).kept? patch =
      (Value.lookup? name patch).bind fun v ↦ ((Field.of name c).check v).toOption := by
  have hname : (Field.ofPatch name c).name = name := rfl
  rw [Field.kept?, hname]
  cases hfound : Value.lookup? name patch with
  | none => rfl
  | some v => exact congrArg Checked.toOption (check_ofPatch name c v)

theorem mem_writableColumns_iff : column ∈ Schema.writableColumns e ↔
    column ∈ e.columns ∧ Schema.isServerManaged column.1 column.2 = false := by
  simp [Schema.writableColumns]

theorem isServerManaged_eq_false_iff {name : String} {c : Column} :
    Schema.isServerManaged name c = false ↔
      name ≠ "id" ∧ c.immutable = false ∧ c.db.defaultNow = false := by
  simp [Schema.isServerManaged, and_assoc]

theorem fieldNames_update (e : Entity) :
    (Schema.update e).fieldNames = (Schema.writableColumns e).map (·.1) := by
  simp only [Schema.fieldNames, Schema.update, List.map_map]
  rfl

theorem nodup_fieldNames_update (hnames : e.columnNames.Nodup) :
    (Schema.update e).fieldNames.Nodup := by
  rw [fieldNames_update]
  exact hnames.sublist (List.filter_sublist.map _)

/-- The columns of an accepted patch are columns of the entity that the server does not manage. -/
theorem exists_column_of_mem_patch {changes : List (String × Value)}
    (hpatch : (Schema.update e).validate patch = .ok changes) {entry : Value × Value}
    (hentry : entry ∈ patch) :
    ∃ column ∈ Schema.writableColumns e, entry.1.text? = some column.1 := by
  obtain ⟨name, hname, hkey⟩ := ((Schema.validate_eq_ok_iff rfl).mp hpatch).1 entry hentry
  rw [fieldNames_update] at hname
  obtain ⟨column, hcolumn, rfl⟩ := List.mem_map.mp hname
  exact ⟨column, hcolumn, hkey⟩

theorem text_of_mem_patch {changes : List (String × Value)}
    (hpatch : (Schema.update e).validate patch = .ok changes) :
    ∀ entry ∈ patch, ∃ name, entry.1.text? = some name := fun _ hentry ↦ by
  obtain ⟨column, -, hkey⟩ := exists_column_of_mem_patch hpatch hentry
  exact ⟨column.1, hkey⟩

theorem exists_column_of_lookup? {changes : List (String × Value)}
    (hpatch : (Schema.update e).validate patch = .ok changes) {key : String} {v : Value}
    (hfound : Value.lookup? key patch = some v) :
    ∃ column ∈ Schema.writableColumns e, column.1 = key := by
  obtain ⟨label, hlabel, hentry⟩ := Value.mem_of_lookup? hfound
  obtain ⟨column, hcolumn, hkey⟩ := exists_column_of_mem_patch hpatch hentry
  exact ⟨column, hcolumn, Option.some.inj (hkey.symm.trans hlabel)⟩

/-- A column that an accepted patch has is not managed by the server. -/
theorem mem_writableColumns_of_patch (hnames : e.columnNames.Nodup) {changes : List (String × Value)}
    (hpatch : (Schema.update e).validate patch = .ok changes) (hmem : column ∈ e.columns) {v : Value}
    (hfound : Value.lookup? column.1 patch = some v) : column ∈ Schema.writableColumns e := by
  obtain ⟨other, hother, hname⟩ := exists_column_of_lookup? hpatch hfound
  have hsame : column = other := List.inj_on_of_nodup_map hnames hmem
    (mem_writableColumns_iff.mp hother).1 hname.symm
  exact hsame ▸ hother

/-! ## Overridden records -/

section Overridden

variable {name : String} {c : Column} {merged : List (Value × Value)}

theorem accepts_overridden
    (hmerged : Value.lookup? name merged = (Value.lookup? name patch).or (Value.lookup? name record))
    (hpatch : ∀ v, Value.lookup? name patch = some v → ∃ w, (Field.of name c).check v = .accepted w)
    (hrecord : (Field.of name c).Accepts record) : (Field.of name c).Accepts merged := by
  have hname : (Field.of name c).name = name := rfl
  rw [Field.Accepts, hname] at hrecord ⊢
  rw [hmerged]
  cases hfound : Value.lookup? name patch with
  | none => exact hrecord
  | some v => exact hpatch v hfound

/-- What is kept of an overridden record is what is kept of the patch, or else of the record. -/
theorem kept?_overridden
    (hmerged : Value.lookup? name merged = (Value.lookup? name patch).or (Value.lookup? name record)) :
    (Field.of name c).kept? merged =
      if (Value.lookup? name patch).isSome then (Field.ofPatch name c).kept? patch
      else (Field.of name c).kept? record := by
  have hname : (Field.of name c).name = name := rfl
  rw [kept?_ofPatch, Field.kept?, Field.kept?, hname, hmerged]
  cases Value.lookup? name patch <;> rfl

end Overridden

theorem lookup_kept_full (hnames : e.columnNames.Nodup) (hmem : column ∈ e.columns)
    (record : List (Value × Value)) :
    ((Schema.full e).kept record).lookup column.1 = (Field.of column.1 column.2).kept? record :=
  Schema.lookup_kept ((fieldNames_full e).symm ▸ hnames) (List.mem_map_of_mem hmem) record

theorem lookup_kept_update (hnames : e.columnNames.Nodup) (hmem : column ∈ Schema.writableColumns e)
    (patch : List (Value × Value)) :
    ((Schema.update e).kept patch).lookup column.1 = (Field.ofPatch column.1 column.2).kept? patch :=
  Schema.lookup_kept (nodup_fieldNames_update hnames) (List.mem_map_of_mem hmem) patch

section Validated

variable {before changes : List (String × Value)}

/-- A validated record that is overridden by a validated patch is valid. -/
theorem validate_putEntries (hnames : e.columnNames.Nodup) (hkeys : (patch.map (·.1.asText)).Nodup)
    (hrecord : (Schema.full e).validate record = .ok before)
    (hpatch : (Schema.update e).validate patch = .ok changes) :
    (Schema.full e).validate (Value.putEntries patch record) =
      .ok ((Schema.full e).kept (Value.putEntries patch record)) := by
  obtain ⟨hknown, haccepts, -⟩ := (Schema.validate_eq_ok_iff rfl).mp hrecord
  obtain ⟨-, hchanges, -⟩ := (Schema.validate_eq_ok_iff rfl).mp hpatch
  have htexts := text_of_mem_patch hpatch
  refine (Schema.validate_eq_ok_iff rfl).mpr ⟨fun entry hentry ↦ ?_, fun f hf ↦ ?_, rfl⟩
  · rcases Value.mem_putEntries htexts hentry with ⟨other, hother, hkey⟩ | hkept
    · -- What a client may change is a column of the full schema too.
      obtain ⟨column, hcolumn, htext⟩ := exists_column_of_mem_patch hpatch hother
      rw [fieldNames_full]
      exact ⟨column.1, List.mem_map_of_mem (mem_writableColumns_iff.mp hcolumn).1, hkey.trans htext⟩
    · exact hknown entry hkept
  · obtain ⟨column, hmem, rfl⟩ := List.mem_map.mp hf
    refine accepts_overridden (Value.lookup?_putEntries htexts hkeys column.1) (fun v hfound ↦ ?_)
      (haccepts _ hf)
    have hwritable := mem_writableColumns_of_patch hnames hpatch hmem hfound
    exact accepts_ofPatch_iff.mp (hchanges _ (List.mem_map_of_mem hwritable)) v hfound

/-- Under a key of the patch, the overridden record has what is validated of the patch. -/
theorem lookup_kept_putEntries (hnames : e.columnNames.Nodup) (hkeys : (patch.map (·.1.asText)).Nodup)
    (hpatch : (Schema.update e).validate patch = .ok changes) {key : String} {v : Value}
    (hfound : Value.lookup? key patch = some v) :
    ∃ w, changes.lookup key = some w ∧
      ((Schema.full e).kept (Value.putEntries patch record)).lookup key = some w := by
  obtain ⟨-, hchanges, rfl⟩ := (Schema.validate_eq_ok_iff rfl).mp hpatch
  obtain ⟨column, hwritable, rfl⟩ := exists_column_of_lookup? hpatch hfound
  obtain ⟨w, hw⟩ :=
    accepts_ofPatch_iff.mp (hchanges _ (List.mem_map_of_mem hwritable)) v hfound
  have hkept : (Field.ofPatch column.1 column.2).kept? patch = some w := by
    rw [kept?_ofPatch, hfound, Option.bind_some, hw, Checked.toOption]
  refine ⟨w, (lookup_kept_update hnames hwritable patch).trans hkept, ?_⟩
  rw [lookup_kept_full hnames (mem_writableColumns_iff.mp hwritable).1,
    kept?_overridden (Value.lookup?_putEntries (text_of_mem_patch hpatch) hkeys column.1), hfound]
  exact hkept

/-- Under any other key, the overridden record has what it had before. -/
theorem lookup_kept_putEntries_of_none (hnames : e.columnNames.Nodup)
    (hkeys : (patch.map (·.1.asText)).Nodup) (hpatch : (Schema.update e).validate patch = .ok changes)
    {key : String} (habsent : Value.lookup? key patch = none) :
    ((Schema.full e).kept (Value.putEntries patch record)).lookup key =
      ((Schema.full e).kept record).lookup key := by
  by_cases hkey : key ∈ (Schema.full e).fieldNames
  · rw [fieldNames_full] at hkey
    obtain ⟨column, hmem, rfl⟩ := List.mem_map.mp hkey
    rw [lookup_kept_full hnames hmem, lookup_kept_full hnames hmem,
      kept?_overridden (Value.lookup?_putEntries (text_of_mem_patch hpatch) hkeys column.1), habsent]
    rfl
  · rw [Schema.lookup_kept_eq_none hkey, Schema.lookup_kept_eq_none hkey]

/-- No accepted patch has a column that the server manages. -/
theorem lookup?_eq_none_of_isServerManaged (hnames : e.columnNames.Nodup)
    (hpatch : (Schema.update e).validate patch = .ok changes) (hmem : column ∈ e.columns)
    (hmanaged : Schema.isServerManaged column.1 column.2 = true) :
    Value.lookup? column.1 patch = none := by
  cases hfound : Value.lookup? column.1 patch with
  | none => rfl
  | some v =>
    have hwritable := mem_writableColumns_of_patch hnames hpatch hmem hfound
    rw [(mem_writableColumns_iff.mp hwritable).2] at hmanaged
    cases hmanaged

/-- What a patch makes of a validated record: its own validated values under its keys, and what there was
before under all others.  It has no key of a column that the server manages. -/
structure Patched (e : Entity) (patch : List (Value × Value))
    (before changes after : List (String × Value)) : Prop where
  changed (key : String) (h : (Value.lookup? key patch).isSome) :
    ∃ w, changes.lookup key = some w ∧ after.lookup key = some w
  unchanged (key : String) (h : Value.lookup? key patch = none) :
    after.lookup key = before.lookup key
  writable : ∀ entry ∈ patch, ∃ column ∈ e.columns, entry.1.text? = some column.1 ∧
    column.1 ≠ "id" ∧ column.2.immutable = false ∧ column.2.db.defaultNow = false
  managed : ∀ column ∈ e.columns,
    column.1 = "id" ∨ column.2.immutable = true ∨ column.2.db.defaultNow = true →
      after.lookup column.1 = before.lookup column.1

/-- A validated record that is overridden by a validated patch is valid, and differs from what it was in
the validated values of the patch only.  Columns that the server manages keep their values.  Names of
columns are distinct, and so are keys of a patch, since both are keys of dictionaries. -/
theorem validate_patched (hnames : e.columnNames.Nodup) (hkeys : (patch.map (·.1.asText)).Nodup)
    (hrecord : (Schema.full e).validate record = .ok before)
    (hpatch : (Schema.update e).validate patch = .ok changes) :
    ∃ after, (Schema.full e).validate (Value.putEntries patch record) = .ok after ∧
      Patched e patch before changes after := by
  obtain ⟨-, -, rfl⟩ := (Schema.validate_eq_ok_iff rfl).mp hrecord
  refine ⟨_, validate_putEntries hnames hkeys hrecord hpatch, fun key hkey ↦ ?_, fun key habsent ↦ ?_,
    fun entry hentry ↦ ?_, fun column hmem hmanaged ↦ ?_⟩
  · obtain ⟨v, hfound⟩ := Option.isSome_iff_exists.mp hkey
    exact lookup_kept_putEntries hnames hkeys hpatch hfound
  · exact lookup_kept_putEntries_of_none hnames hkeys hpatch habsent
  · obtain ⟨column, hwritable, hkey⟩ := exists_column_of_mem_patch hpatch hentry
    obtain ⟨hmem, hclient⟩ := mem_writableColumns_iff.mp hwritable
    exact ⟨column, hmem, hkey, isServerManaged_eq_false_iff.mp hclient⟩
  · refine lookup_kept_putEntries_of_none hnames hkeys hpatch
      (lookup?_eq_none_of_isServerManaged hnames hpatch hmem ?_)
    simpa [Schema.isServerManaged, or_assoc] using hmanaged

end Validated

/-- The description of an entity with a column that the server manages and a date that has a default. -/
def reminder : Value :=
  .ofFields [("name", .text "Task"), ("columns", .ofFields
    [("id", .ofFields [("type", .text "integer")]),
      ("due", .ofFields [("type", .text "date"), ("optional", .bool true),
        ("default", .moment newYear)])])]

/-- What `reminder` describes. -/
def reminderSpecification : Specification where
  name := "Task"
  columns := [("id", { type := .text "integer" }),
    ("due", { type := .text "date", optional := true, default := some (.moment newYear) })]

/-- The entity that `reminder` describes. -/
def reminderEntity : Entity :=
  reminderSpecification.freeze [("id", { type := .primitive .integer }),
    ("due", { type := .primitive .date, optional := true, default := some (.text newYear.isoText) })]

theorem build_reminder : Entity.build reminder = .ok reminderEntity := by
  have hname : Naming.isPascalCase "Task" = true := by
    decide
  refine Entity.build_eq_ok_iff.mpr ⟨reminderSpecification, rfl, Specification.build_eq_ok_iff.mpr
    ⟨hname, List.cons_ne_nil _ _, ?_, rfl, rfl⟩⟩
  exact Specification.buildColumns_eq_ok_iff.mpr
    (.cons ⟨rfl, ColumnSpecification.build_eq_ok_iff.mpr ⟨by decide, rfl, rfl, rfl, rfl, rfl⟩⟩
      (.cons ⟨rfl, ColumnSpecification.build_eq_ok_iff.mpr ⟨by decide, rfl, rfl, rfl, rfl, rfl⟩⟩ .nil))

theorem validate_patched_reminder :
    let e := reminderEntity
    let record : List (Value × Value) := [(.text "id", .int 7)]
    let patch : List (Value × Value) := [(.text "due", .text "2027-01-01T00:00:00Z")]
    ∃ before changes after w,
      Entity.build reminder = .ok e ∧ (Schema.full e).validate record = .ok before ∧
        (Schema.update e).validate patch = .ok changes ∧
        (Schema.full e).validate [(.text "id", .int 7), (.text "due", .text "2027-01-01T00:00:00Z")] =
          .ok after ∧
        before.lookup "due" = some (.moment newYear) ∧ changes.lookup "due" = some w ∧
        after.lookup "due" = some w ∧ after.lookup "id" = before.lookup "id" := by
  intro e record patch
  have hnames : e.columnNames.Nodup := by decide
  have hkeys : (patch.map (·.1.asText)).Nodup := List.nodup_singleton (Value.text "due")
  obtain ⟨before, hrecord, hdue⟩ : ∃ before, (Schema.full e).validate record = .ok before ∧
      before.lookup "due" = some (.moment newYear) := ⟨_, rfl, rfl⟩
  obtain ⟨changes, hpatch⟩ : ∃ changes, (Schema.update e).validate patch = .ok changes := ⟨_, rfl⟩
  obtain ⟨after, hafter, hpatched⟩ :=
    validate_patched hnames hkeys hrecord hpatch
  obtain ⟨w, hchanges, hvalue⟩ := hpatched.changed "due" rfl
  exact ⟨before, changes, after, w, build_reminder, hrecord, hpatch, hafter, hdue, hchanges, hvalue,
    hpatched.managed _ List.mem_cons_self (.inl rfl)⟩

end Validation

end EntityCompiler

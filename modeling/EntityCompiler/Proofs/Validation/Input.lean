import EntityCompiler.Proofs.Validation.Restricted

/-!
# Records and what clients send

A record consists of what a client sends to create it and of the values of the columns that the server
manages.  The schemas of the two parts and of the whole fit together, and what creates a record may also
be sent to update one.
-/

namespace EntityCompiler.Validation

variable {v : Value} {e : Entity} {payload server record : List (Value × Value)}
  {created : List (String × Value)}

/-! ## Creating and updating -/

theorem fieldNames_create (e : Entity) :
    (Schema.create e).fieldNames = (Schema.writableColumns e).map (·.1) :=
  fieldNames_ofColumns _ _

/-- What the update schema keeps of a payload is what the create schema keeps of it, without the defaults
that it fills in. -/
theorem kept_update (e : Entity) (payload : List (Value × Value)) :
    (Schema.update e).kept payload = ((Schema.create e).kept payload).filter fun entry ↦
      (Value.lookup? entry.1 payload).isSome := by
  have hupdate : (Schema.update e).kept payload = (Schema.writableColumns e).filterMap fun column ↦
      ((Field.ofPatch column.1 column.2).kept? payload).map (column.1, ·) := by
    simp only [Schema.kept, Schema.update, List.filterMap_map]
    rfl
  rw [hupdate, Schema.create, kept_ofColumns, List.filter_filterMap]
  refine List.filterMap_congr fun column _ ↦ ?_
  have hname : (Field.of column.1 column.2).name = column.1 := rfl
  rw [filter_map_key (Value.lookup? · payload |>.isSome), kept?_ofPatch, Field.kept?, hname]
  cases Value.lookup? column.1 payload <;> rfl

/-- A payload that creates a record is accepted as an update too, and then nothing is filled in. -/
theorem validate_update_of_create (h : (Schema.create e).validate payload = .ok created) :
    (Schema.update e).validate payload =
      .ok (created.filter fun entry ↦ (Value.lookup? entry.1 payload).isSome) := by
  obtain ⟨hknown, haccepts, rfl⟩ := (Schema.validate_eq_ok_iff rfl).mp h
  refine (Schema.validate_eq_ok_iff rfl).mpr ⟨?_, fun f hf ↦ ?_, (kept_update e payload).symm⟩
  · rwa [fieldNames_update, ← fieldNames_create]
  · obtain ⟨column, hcolumn, rfl⟩ := List.mem_map.mp hf
    have hname : (Field.of column.1 column.2).name = column.1 := rfl
    have hcreate := haccepts _ (List.mem_map_of_mem hcolumn)
    refine accepts_ofPatch_iff.mpr fun v hfound ↦ ?_
    rwa [Field.Accepts, hname, hfound] at hcreate

/-! ## Values of the server -/

/-- Values for columns that the server manages: for all that are required, and only such that the fields of
these columns accept. -/
structure ServerValues (e : Entity) (server : List (Value × Value)) : Prop where
  distinct : (server.map (·.1.asText)).Nodup
  managed : ∀ entry ∈ server, ∃ column ∈ e.columns,
    Schema.isServerManaged column.1 column.2 = true ∧ entry.1.text? = some column.1
  complete : ∀ column ∈ e.columns, Schema.isServerManaged column.1 column.2 = true →
    column.2.required = true → (Value.lookup? column.1 server).isSome
  accepted : ∀ column ∈ e.columns, Schema.isServerManaged column.1 column.2 = true →
    ∀ v, Value.lookup? column.1 server = some v →
      ∃ w, (Field.of column.1 column.2).check v = .accepted w

section Whole

variable (hnames : e.columnNames.Nodup) {column : String × Column}

include hnames

/-- The server gives nothing for a column that clients send. -/
theorem ServerValues.lookup?_eq_none (hserver : ServerValues e server)
    (hmem : column ∈ Schema.writableColumns e) : Value.lookup? column.1 server = none := by
  cases hfound : Value.lookup? column.1 server with
  | none => rfl
  | some v =>
    obtain ⟨hcolumn, hwritable⟩ := mem_writableColumns_iff.mp hmem
    obtain ⟨label, hlabel, hentry⟩ := Value.mem_of_lookup? hfound
    obtain ⟨other, hother, hmanaged, hkey⟩ := hserver.managed _ hentry
    have hsame : other = column := List.inj_on_of_nodup_map hnames hother hcolumn
      (Option.some.inj (hkey.symm.trans hlabel))
    rw [hsame, hwritable] at hmanaged
    cases hmanaged

/-- A client sends nothing for a column that the server manages. -/
theorem lookup?_payload_eq_none (h : (Schema.create e).validate payload = .ok created)
    (hmem : column ∈ e.columns) (hmanaged : Schema.isServerManaged column.1 column.2 = true) :
    Value.lookup? column.1 payload = none :=
  lookup?_eq_none_of_isServerManaged hnames (validate_update_of_create h) hmem hmanaged

end Whole

theorem ServerValues.text_of_mem (hserver : ServerValues e server) :
    ∀ entry ∈ server, ∃ name, entry.1.text? = some name := fun entry hentry ↦ by
  obtain ⟨column, -, -, hkey⟩ := hserver.managed entry hentry
  exact ⟨column.1, hkey⟩

theorem ServerValues.lookup?_putEntries (hserver : ServerValues e server) (key : String) :
    Value.lookup? key (Value.putEntries server payload) =
      (Value.lookup? key server).or (Value.lookup? key payload) :=
  Value.lookup?_putEntries hserver.text_of_mem hserver.distinct key

/-- A column that the server manages admits the whole record unless the server leaves it to a default
that does not fit. -/
theorem ServerValues.admits_iff (hserver : ServerValues e server) {column : String × Column}
    (hmem : column ∈ e.columns) (hmanaged : Schema.isServerManaged column.1 column.2 = true)
    (hlookup : Value.lookup? column.1 record = Value.lookup? column.1 server) :
    Admits column.1 column.2 record ↔
      (Value.lookup? column.1 server = none → column.2.defaultFits = true) := by
  rw [Admits, hlookup]
  cases hfound : Value.lookup? column.1 server with
  | some v => simpa using hserver.accepted column hmem hmanaged v hfound
  | none =>
    have hoptional : column.2.optional = true := by
      have hcomplete := hserver.complete column hmem hmanaged
      simpa [hfound, Column.required] using hcomplete
    simp [hoptional]

section Together

variable (hnames : e.columnNames.Nodup) (hserver : ServerValues e server)

include hnames hserver

/-- For a column that clients send, the whole record has what the client has sent. -/
theorem lookup?_together (payload : List (Value × Value)) {column : String × Column}
    (hmem : column ∈ Schema.writableColumns e) :
    Value.lookup? column.1 (Value.putEntries server payload) = Value.lookup? column.1 payload := by
  rw [hserver.lookup?_putEntries, hserver.lookup?_eq_none hnames hmem, Option.none_or]

/-- What a client sends and what the server gives make a record that is accepted exactly when the defaults
fit of the columns that the server leaves out. -/
theorem exists_validate_together_iff (hbuild : Entity.build v = .ok e)
    (hpayload : (Schema.create e).validate payload = .ok created) :
    (∃ after, (Schema.full e).validate (Value.putEntries server payload) = .ok after) ↔
      ∀ column ∈ e.columns, Schema.isServerManaged column.1 column.2 = true →
        Value.lookup? column.1 server = none → column.2.defaultFits = true := by
  obtain ⟨hknown, haccepts, -⟩ := (Schema.validate_eq_ok_iff rfl).mp hpayload
  have hmanaged {column : String × Column} (hmem : column ∈ e.columns)
      (h : Schema.isServerManaged column.1 column.2 = true) :
      Admits column.1 column.2 (Value.putEntries server payload) ↔
        (Value.lookup? column.1 server = none → column.2.defaultFits = true) :=
    hserver.admits_iff hmem h <| by
      rw [hserver.lookup?_putEntries, lookup?_payload_eq_none hnames hpayload hmem h, Option.or_none]
  constructor
  · rintro ⟨after, hafter⟩ column hmem h
    exact (hmanaged hmem h).mp (((validate_full_eq_ok_iff hbuild).mp hafter).2.1 column hmem)
  · intro hfits
    refine ⟨_, (validate_full_eq_ok_iff hbuild).mpr ⟨fun entry hentry ↦ ?_, fun column hmem ↦ ?_, rfl⟩⟩
    · rcases Value.mem_putEntries hserver.text_of_mem hentry with ⟨other, hother, hkey⟩ | hsent
      · obtain ⟨column, hmem, -, htext⟩ := hserver.managed other hother
        exact ⟨column, hmem, hkey.trans htext⟩
      · obtain ⟨name, hname, hkey⟩ := hknown entry hsent
        obtain ⟨column, hcolumn, rfl⟩ := List.mem_map.mp (fieldNames_create e ▸ hname)
        exact ⟨column, (mem_writableColumns_iff.mp hcolumn).1, hkey⟩
    · cases hclient : Schema.isServerManaged column.1 column.2 with
      | true => exact (hmanaged hmem hclient).mpr (hfits column hmem hclient)
      | false =>
        -- The field of the column is that of the create schema, which has accepted the payload.
        have hwritable := mem_writableColumns_iff.mpr ⟨hmem, hclient⟩
        obtain ⟨entity, spec, hcolumn⟩ := exists_build_of_mem hbuild hmem
        refine (accepts_iff_admits hcolumn).mp ((accepts_congr ?_).mpr
          (haccepts _ (List.mem_map_of_mem hwritable)))
        exact lookup?_together hnames hserver payload hwritable

/-- Of the columns that clients send, the whole record has what the create schema makes of the payload. -/
theorem restrictFields_together (hpayload : (Schema.create e).validate payload = .ok created)
    {after : List (String × Value)}
    (hafter : (Schema.full e).validate (Value.putEntries server payload) = .ok after) :
    restrictFields ((Schema.writableColumns e).map (·.1)) after = created := by
  obtain ⟨-, -, rfl⟩ := (Schema.validate_eq_ok_iff rfl).mp hpayload
  obtain ⟨-, -, rfl⟩ := (Schema.validate_eq_ok_iff rfl).mp hafter
  refine (restrictFields_kept hnames _ (Schema.create e).name _).trans (kept_congr fun name hname ↦ ?_)
  obtain ⟨column, hcolumn, rfl⟩ := List.mem_map.mp (fieldNames_create e ▸ hname)
  exact lookup?_together hnames hserver payload hcolumn

end Together

/-! ## Create, update and full schemas -/

/-- What the schemas of an entity for creating, for updating and for whole records have to do with one
another. -/
structure InputSchemasFit (e : Entity) : Prop where
  update_of_create {payload : List (Value × Value)} {created : List (String × Value)}
    (h : (Schema.create e).validate payload = .ok created) :
    (Schema.update e).validate payload =
      .ok (created.filter fun entry ↦ (Value.lookup? entry.1 payload).isSome)
  create_of_full {record : List (Value × Value)} {result : List (String × Value)}
    (h : (Schema.full e).validate record = .ok result) :
    (Schema.create e).validate (restrict ((Schema.writableColumns e).map (·.1)) record) =
      .ok (restrictFields ((Schema.writableColumns e).map (·.1)) result)
  full_of_create {payload server : List (Value × Value)} {created : List (String × Value)}
    (h : (Schema.create e).validate payload = .ok created) (hserver : ServerValues e server) :
    ((∃ after, (Schema.full e).validate (Value.putEntries server payload) = .ok after) ↔
      ∀ column ∈ e.columns, Schema.isServerManaged column.1 column.2 = true →
        Value.lookup? column.1 server = none → column.2.defaultFits = true) ∧
    ∀ after, (Schema.full e).validate (Value.putEntries server payload) = .ok after →
      restrictFields ((Schema.writableColumns e).map (·.1)) after = created

/-- The create, update and full schemas of an entity fit together.  A payload that creates a record is
accepted as an update, with the validated values that it has itself.  An accepted record without the columns
that the server manages creates a record with the same validated values.  A payload that creates a record
and values of the server make a whole record that is accepted, provided that validation accepts the
defaults of the columns that the server leaves out.  Names of columns are distinct, as those described by a
dictionary always are. -/
theorem inputSchemas_fit (hbuild : Entity.build v = .ok e) (hnames : e.columnNames.Nodup) :
    InputSchemasFit e where
  update_of_create h := validate_update_of_create h
  create_of_full h := validate_restrict hnames _ h
  full_of_create h hserver :=
    ⟨exists_validate_together_iff hnames hserver hbuild h,
      fun _ hafter ↦ restrictFields_together hnames hserver h hafter⟩

theorem inputSchemas_fit_reminder :
    let e := reminderEntity
    let server : List (Value × Value) := [(.text "id", .int 7)]
    Entity.build reminder = .ok e ∧ e.columnNames.Nodup ∧ ServerValues e server ∧
      ∃ created after, (Schema.create e).validate [] = .ok created ∧
        created.lookup "due" = some (.moment newYear) ∧
        (Schema.update e).validate [] =
          .ok (created.filter fun entry ↦ (Value.lookup? entry.1 []).isSome) ∧
        (Schema.full e).validate (Value.putEntries server []) = .ok after ∧
        restrictFields ["due"] after = created ∧
        (Schema.create e).validate (restrict ["due"] (Value.putEntries server [])) = .ok created := by
  intro e server
  have hnames : e.columnNames.Nodup := by decide
  have hid (column : String × Column) (hmem : column ∈ e.columns)
      (hmanaged : Schema.isServerManaged column.1 column.2 = true) :
      column = ("id", { type := .primitive .integer }) := by
    rcases List.mem_cons.mp hmem with hid | hdue
    · exact hid
    · obtain rfl := List.mem_singleton.mp hdue
      exact absurd hmanaged (by decide)
  have hserver : ServerValues e server :=
    { distinct := List.nodup_singleton (Value.text "id")
      managed := fun entry hentry ↦ by
        obtain rfl := List.mem_singleton.mp hentry
        exact ⟨_, List.mem_cons_self, rfl, rfl⟩
      complete := fun column hmem hmanaged _ ↦ by
        rw [hid column hmem hmanaged]
        rfl
      accepted := fun column hmem hmanaged v hfound ↦ by
        rw [hid column hmem hmanaged] at hfound ⊢
        exact ⟨.int 7, by rw [← Option.some.inj hfound]; rfl⟩ }
  obtain ⟨created, hcreated, hdue⟩ : ∃ created, (Schema.create e).validate [] = .ok created ∧
      created.lookup "due" = some (.moment newYear) := ⟨_, rfl, rfl⟩
  have hfit := inputSchemas_fit build_reminder hnames
  obtain ⟨haccepted, hrestricted⟩ := hfit.full_of_create hcreated hserver
  obtain ⟨after, hafter⟩ := haccepted.mpr fun column hmem hmanaged _ ↦ by
    rw [hid column hmem hmanaged]
    rfl
  have hsame : restrictFields ["due"] after = created := hrestricted after hafter
  exact ⟨build_reminder, hnames, hserver, created, after, hcreated, hdue,
    hfit.update_of_create hcreated, hafter, hsame, hsame ▸ hfit.create_of_full hafter⟩

/-- A description of an entity with one column, which the server manages and may leave out. -/
def optionalId (default : Value) : Value :=
  .ofFields [("name", .text "Book"), ("columns", .ofFields [("id", .ofFields
    [("type", .text "json"), ("optional", .bool true), ("default", default)])])]

/-- What `optionalId` describes. -/
def optionalIdSpecification (default : Value) : Specification where
  name := "Book"
  columns := [("id", { type := .text "json", optional := true, default := some default })]

/-- The entity that `optionalId` describes where `kept` is kept of the default. -/
def optionalIdEntity (default : Value) (kept : Json) : Entity :=
  (optionalIdSpecification default).freeze
    [("id", { type := .primitive .json, optional := true, default := some kept })]

theorem build_optionalId {default : Value} {kept : Json}
    (hread : Literal.readScalar .json default = .ok kept) (hdefault : default ≠ .null)
    (hkept : kept.isWritable = true) :
    Entity.build (optionalId default) = .ok (optionalIdEntity default kept) := by
  have hspec : Specification.read (optionalId default) = .ok (optionalIdSpecification default) := by
    rfl
  exact Entity.build_eq_ok_iff.mpr
    ⟨_, hspec, build_column rfl rfl rfl (by decide) hread hdefault hkept⟩

/-- Where the server leaves out a column whose default has too many levels, the whole record is refused
although the payload creates a record. -/
theorem inputSchemas_fit_nested :
    let e := optionalIdEntity (nested 255) (nestedJson 255)
    Entity.build (optionalId (nested 255)) = .ok e ∧ e.columnNames.Nodup ∧
      (Schema.create e).validate [] = .ok [] ∧ ServerValues e [] ∧
      ¬∃ after, (Schema.full e).validate (Value.putEntries [] []) = .ok after := by
  intro e
  have hbuild : Entity.build (optionalId (nested 255)) = .ok e :=
    build_optionalId (readScalar_nested 255) (nested_ne_null 255) (isWritable_nestedJson 255)
  have hnames : e.columnNames.Nodup := List.nodup_singleton "id"
  have hcreated : (Schema.create e).validate [] = .ok [] := rfl
  have hserver : ServerValues e [] :=
    { distinct := List.nodup_nil
      managed := fun _ hentry ↦ absurd hentry List.not_mem_nil
      complete := fun column hmem _ hrequired ↦ by
        obtain rfl := List.mem_singleton.mp hmem
        cases hrequired
      accepted := fun _ _ _ _ hfound ↦ absurd hfound (Option.some_ne_none _).symm }
  refine ⟨hbuild, hnames, hcreated, hserver, fun hafter ↦ ?_⟩
  have hfits := (exists_validate_together_iff hnames hserver hbuild hcreated).mp hafter _
    List.mem_cons_self rfl rfl
  have hlevels := depth_le_of_defaultFits rfl rfl hfits
  rw [depth_nestedJson] at hlevels
  exact absurd hlevels (by decide)

end EntityCompiler.Validation

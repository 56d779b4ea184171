import EntityCompiler.Proofs.Column.Frozen
import EntityCompiler.Proofs.Column.Reported
import EntityCompiler.Proofs.Entity.Respelled
import EntityCompiler.Proofs.Specification.Described
import EntityCompiler.Proofs.Validation.Defaults

/-!
# Canonical forms read back

The canonical form of an accepted specification is itself a specification once its list of columns is
taken for a dictionary.  It is accepted exactly when the specification has no moment with seconds in its
offset, whose text is not read.  Then its columns are those that have been built, and it has itself as its
canonical form.
-/

namespace EntityCompiler

open Value

/-! ## Canonical forms as values -/

/-- The canonical form of the specification that a value gives, if it is accepted. -/
def Entity.canonicalOf (v : Value) : Except EntityError Json := do
  let spec ← Specification.read v
  let e ← spec.build
  return spec.canonical e.columns

namespace Json

/-- The entries of a dictionary that is written as a list of pairs. -/
def pairEntries : List Json → List (Value × Value)
  | .array [.text name, value] :: rest => (.text name, value.toValue) :: pairEntries rest
  | _ :: rest => pairEntries rest
  | [] => []

/-- The columns of a canonical form as a dictionary, in their order. -/
def columnsValue : Json → Value
  | .array pairs => .dict (pairEntries pairs)
  | value => value.toValue

/-- A canonical form as a value to be read as a specification. -/
def asSpecification : Json → Value
  | .object members => .dict (members.map fun (key, value) ↦
      (.text key, if key = "columns" then value.columnsValue else value.toValue))
  | value => value.toValue

end Json

/-! ## Specifications of what has been built -/

/-- The specification of a column as its canonical form gives it. -/
def Column.asSpecification (c : Column) : ColumnSpecification where
  type := c.type.toJson.toValue
  optional := c.optional
  nullable := c.nullable
  default := c.default.map Json.toValue
  description := c.description
  visibility := c.visibility
  immutable := c.immutable
  stored := c.stored
  sample := c.sample.map Json.toValue
  db := c.db

/-- The documentation with its examples as its canonical form gives them. -/
def DocsSettings.asPlain (docs : DocsSettings) : DocsSettings :=
  { docs with examples := docs.examples.map fun (name, value) ↦ (name, value.plain.toValue) }

/-- A specification with given columns as its canonical form gives it. -/
def Specification.reread (spec : Specification) (columns : List (String × Column)) : Specification where
  name := spec.name
  table := spec.table
  columns := columns.map fun (name, column) ↦ (name, column.asSpecification)
  doc := spec.doc
  test := spec.test
  active := spec.active
  openapi := spec.openapi
  docs := spec.docs.map DocsSettings.asPlain

/-! ## Columns -/

theorem ColumnType.spelledBy_toJson (t : ColumnType) : t.SpelledBy t.toJson.toValue := by
  induction t with
  | primitive p => exact .named p
  | arrayOf element ih => exact .arrayOf (by simp [arrayKeys]) ih

namespace ColumnSpecification

variable {entity name role : String} {type : ColumnType} {acceptsNull : Bool}

/-- What is kept of a literal is admitted again if it is null or readable, and the same is kept of it. -/
theorem buildLiteral?_toValue_iff {given : Option Value} {kept other : Option Json}
    (h : buildLiteral? entity name role type acceptsNull given = .ok kept) :
    buildLiteral? entity name role type acceptsNull (kept.map Json.toValue) = .ok other ↔
      (∀ value, kept = some value → value ≠ .null → Literal.readable type value = true) ∧
        kept = other := by
  rcases buildLiteral?_eq_ok_iff.mp h with ⟨-, rfl⟩ | ⟨v, value, -, rfl, hliteral⟩
  · exact ⟨fun hother ↦ ⟨nofun, Except.ok.inj hother⟩, fun ⟨_, hother⟩ ↦ congrArg Except.ok hother⟩
  · have hagain (found : Json) : buildLiteral entity name role type acceptsNull value.toValue =
        .ok found ↔ (value ≠ .null → Literal.readable type value = true) ∧ value = found := by
      -- A null is admitted as such; any other literal is in the form that reading gave it.
      rw [buildLiteral_eq_ok_iff, Validation.toValue_eq_null_iff, Ne, Validation.toValue_eq_null_iff]
      rcases buildLiteral_eq_ok_iff.mp hliteral with ⟨-, hnull, rfl⟩ | ⟨hv, hread⟩
      · simpa [hnull] using eq_comm
      · rw [Literal.read_of_toJson? (toJson?_toValue value) (Literal.form_of_read hread)]
        simp [Literal.ne_null_of_read hread hv]
    simp only [Option.some.injEq, forall_eq']
    constructor
    · intro hother
      obtain ⟨found, hfound, rfl⟩ := map_eq_ok_iff.mp hother
      exact ⟨((hagain found).mp hfound).1, congrArg some ((hagain found).mp hfound).2⟩
    · rintro ⟨hreadable, rfl⟩
      exact map_eq_ok_iff.mpr ⟨value, (hagain value).mpr ⟨hreadable, rfl⟩, rfl⟩

/-- A column that has been built is built again from what its canonical form gives if its dates are
readable. -/
theorem build_asSpecification_iff {spec : ColumnSpecification} {c d : Column}
    (h : spec.build entity name = .ok c) :
    c.asSpecification.build entity name = .ok d ↔ c.Readable ∧ c = d := by
  have hnull : c.asSpecification.acceptsNull = spec.acceptsNull := acceptsNull_of_build h
  obtain ⟨hname, -, hdefault, hsample, hflags, hcolumn⟩ := build_eq_ok_iff.mp h
  have hdb : c.asSpecification.db = spec.db := congrArg Column.db hcolumn
  have hparse (type : ColumnType) :
      ColumnType.parse c.asSpecification.type = .ok type ↔ type = c.type := by
    have htype : ColumnType.parse c.asSpecification.type = .ok c.type :=
      ColumnType.parse_eq_ok_iff.mpr c.type.spelledBy_toJson
    rw [htype, Except.ok.injEq, eq_comm]
  have hreadable : c.Readable ↔
      (∀ value, c.default = some value → value ≠ .null → Literal.readable c.type value = true) ∧
        ∀ value, c.sample = some value → value ≠ .null → Literal.readable c.type value = true := by
    simp only [Column.Readable, or_imp, forall_and]
  rw [hreadable]
  constructor
  · intro hd
    obtain ⟨-, htype, hotherDefault, hotherSample, -, hagain⟩ := build_eq_ok_iff.mp hd
    rw [hnull, (hparse d.type).mp htype] at hotherDefault
    rw [(hparse d.type).mp htype] at hotherSample
    obtain ⟨hdefaults, hsame⟩ := (buildLiteral?_toValue_iff hdefault).mp hotherDefault
    obtain ⟨hsamples, hsameSample⟩ := (buildLiteral?_toValue_iff hsample).mp hotherSample
    refine ⟨⟨hdefaults, hsamples⟩, ?_⟩
    rw [hagain, (hparse d.type).mp htype, ← hsame, ← hsameSample]
    rfl
  · rintro ⟨⟨hdefaults, hsamples⟩, rfl⟩
    refine build_eq_ok_iff.mpr ⟨hname, (hparse c.type).mpr rfl, ?_,
      (buildLiteral?_toValue_iff hsample).mpr ⟨hsamples, rfl⟩, ?_, rfl⟩
    · rw [hnull]
      exact (buildLiteral?_toValue_iff hdefault).mpr ⟨hdefaults, rfl⟩
    · rw [checkFlags_eq_ok_iff, hnull, hdb]
      exact checkFlags_eq_ok_iff.mp hflags

end ColumnSpecification

/-! ## Members as entries -/

/-- What is found under a key of an object is what its member becomes. -/
theorem Value.lookup?_map_memberEntry (key : String) (members : List (String × Json)) :
    lookup? key (members.map memberEntry) =
      ((Json.object members).member? key).map Json.toValue := by
  induction members with
  | nil => rfl
  | cons member members ih =>
    obtain ⟨label, value⟩ := member
    by_cases hlabel : label = key
    · simp [memberEntry, lookup?, Json.member?, hlabel]
    · simpa [memberEntry, lookup?, Json.member?, hlabel] using ih

theorem Value.isText?_ofText? (text : Option String) : (Json.ofText? text).toValue.IsText? text := by
  cases text <;> rfl

theorem Value.hasOnly_map_memberEntry {known : List String} {members : List (String × Json)}
    (h : members.map (·.1) ⊆ known) : HasOnly known (members.map memberEntry) :=
  List.forall_mem_map.mpr fun _ hmember ↦ ⟨_, h (List.mem_map_of_mem hmember), rfl⟩

theorem StorageFlags.givenBy_toJson (db : StorageFlags) :
    ∃ flags, db.toJson.toValue = .dict flags ∧ db.GivenBy flags := by
  refine ⟨_, rfl, rfl, rfl, rfl, "default_now", List.mem_cons_self, rfl, ?_⟩
  simp [HasOnly, jsonEntries]

theorem Column.givenBy_asSpecification {c : Column} (hdescribed : c.description ≠ some "") :
    c.asSpecification.GivenBy (c.members.map memberEntry) := by
  have hfound {key : String} {value : Json} (h : (key, value) ∈ c.settings) :
      lookup? key (c.members.map memberEntry) = some value.toValue := by
    rw [lookup?_map_memberEntry, c.member?_setting h, Option.map_some]
  have hsetting {key : String} (absent : Value) (value : Json) (h : (key, value) ∈ c.settings) :
      setting key absent (c.members.map memberEntry) = value.toValue := by
    rw [setting, hfound h, Option.getD_some]
  obtain ⟨flags, hflags, hdb⟩ := c.db.givenBy_toJson
  exact {
    type := hfound (by simp [settings])
    optional := hsetting _ (.bool c.optional) (by simp [settings])
    nullable := hsetting _ (.bool c.nullable) (by simp [settings])
    default := by
      rw [lookup?_map_memberEntry, c.member?_default]
      rfl
    description := by
      rw [hsetting _ (Json.ofText? c.description) (by simp [settings])]
      exact isText?_ofText? c.description
    described := hdescribed
    visibility := by
      rw [hsetting _ (.text c.visibility.name) (by simp [settings])]
      rfl
    immutable := hsetting _ (.bool c.immutable) (by simp [settings])
    stored := hsetting _ (.bool c.stored) (by simp [settings])
    sample := by
      rw [lookup?_map_memberEntry, c.member?_example]
      rfl
    db := ⟨flags, (hsetting _ _ (by simp [settings])).trans hflags, hdb⟩
    only := by
      have hkeys : c.members.map (·.1) ⊆ ["type", "optional", "nullable", "default", "description",
          "visibility", "immutable", "stored", "example", "db"] := by
        unfold members settings
        cases c.default <;> cases c.sample <;> simp [Json.optionalMember]
      exact hasOnly_map_memberEntry hkeys }

/-! ## Settings -/

theorem ApiSettings.givenBy_toJson (settings : ApiSettings) :
    ∃ entries, settings.toJson.toValue = .dict entries ∧ settings.GivenBy entries := by
  refine ⟨_, rfl, rfl, ⟨jsonItems (settings.tags.map .text), rfl, ?_⟩,
    isText?_ofText? settings.summary, isText?_ofText? settings.description, ?_⟩
  · rw [jsonItems_eq_map, List.map_map, List.map_map]
    rfl
  · simp [HasOnly, jsonEntries]

theorem DocsSettings.givenBy_toJson (docs : DocsSettings) :
    ∃ entries, docs.toJson.toValue = .dict entries ∧ docs.asPlain.GivenBy entries := by
  refine ⟨_, rfl, isText?_ofText? docs.description,
    ⟨jsonEntries docs.plainExamples, docs.asPlain.examples, rfl, ?_, ?_⟩, ?_⟩
  · rw [jsonEntries_eq_map, plainExamples, asPlain, List.map_map, List.forall₂_map_left_iff,
      List.forall₂_map_right_iff, List.forall₂_same]
    exact fun _ _ ↦ ⟨rfl, rfl⟩
  · rw [jsonEntries_eq_map, List.map_map]
    exact Shape.membersUnder_of_texts (List.forall_mem_map.mpr fun member _ ↦ ⟨member.1, rfl⟩) _
  · simp [HasOnly, jsonEntries]

theorem orNull_givenBy_ofOption {α β : Type} {toJson : α → Json} {f : α → β}
    {given : β → List (Value × Value) → Prop}
    (h : ∀ a, ∃ entries, (toJson a).toValue = .dict entries ∧ given (f a) entries) (x : Option α) :
    Shape.OrNull given (x.map f) (Json.ofOption toJson x).toValue := by
  cases x with
  | none => exact .null
  | some a =>
    obtain ⟨entries, hentries, hgiven⟩ := h a
    rw [Json.ofOption, hentries]
    exact .dict hgiven

theorem TestMode.givenBy_toJson (mode : Option TestMode) :
    GivenBy mode (Json.ofText? (mode.map TestMode.name)).toValue := by
  cases mode with
  | none => exact .null
  | some mode => exact .named rfl

/-- The canonical form of a documentation is that of its examples in plain form. -/
theorem DocsSettings.toJson_asPlain (docs : DocsSettings) : docs.asPlain.toJson = docs.toJson := by
  have hexamples : docs.asPlain.plainExamples = docs.plainExamples := by
    rw [plainExamples, plainExamples, asPlain, List.map_map]
    refine List.map_congr_left fun shown _ ↦ Prod.ext rfl ?_
    exact plain_toValue _ (keyed_plain shown.2)
  change Json.object [_, ("examples", .object docs.asPlain.plainExamples)] = _
  rw [hexamples]
  rfl

/-! ## Specifications -/

namespace Specification

variable {spec : Specification} {columns : List (String × Column)}

/-- The columns of a canonical form are entries of a dictionary. -/
theorem pairEntries_columns (columns : List (String × Column)) :
    Json.pairEntries (columns.map fun (name, column) ↦ .array [.text name, column.toJson]) =
      columns.map fun (name, column) ↦ (.text name, .dict (column.members.map memberEntry)) := by
  induction columns with
  | nil => rfl
  | cons column columns ih =>
    rw [List.map_cons, List.map_cons, ← ih, Json.pairEntries, Column.toJson_eq, Json.toValue,
      jsonEntries_eq_map]

/-- The entries of a canonical form as a specification. -/
def canonicalEntries (spec : Specification) (columns : List (String × Column)) : List (Value × Value) :=
  [(.text "name", .text spec.name), (.text "table", .bool spec.table), (.text "doc", .bool spec.doc),
    (.text "test", (Json.ofText? (spec.test.map TestMode.name)).toValue),
    (.text "active", .bool spec.active),
    (.text "openapi", (Json.ofOption ApiSettings.toJson spec.openapi).toValue),
    (.text "docs", (Json.ofOption DocsSettings.toJson spec.docs).toValue),
    (.text "columns", .dict (columns.map fun (name, column) ↦
      (.text name, .dict (column.members.map memberEntry))))]

theorem asSpecification_canonical (spec : Specification) (columns : List (String × Column)) :
    (spec.canonical columns).asSpecification = .dict (spec.canonicalEntries columns) := by
  rw [canonicalEntries, ← pairEntries_columns]
  rfl

/-- A canonical form gives the specification that it is read back as. -/
theorem givenBy_canonical (hdescribed : ∀ column ∈ columns, column.2.description ≠ some "") :
    (spec.reread columns).GivenBy (spec.canonicalEntries columns) where
  name := rfl
  table := rfl
  columns := by
    refine ⟨"columns", List.mem_cons_self, ⟨_, rfl, ?_⟩, ?_⟩
    · refine ⟨(spec.reread columns).columns, ?_, ?_⟩
      · change List.Forall₂ _ (columns.map _) (columns.map _)
        rw [List.forall₂_map_left_iff, List.forall₂_map_right_iff, List.forall₂_same]
        exact fun column hmem ↦
          ⟨rfl, _, rfl, Column.givenBy_asSpecification (hdescribed column hmem)⟩
      · rw [List.map_map]
        exact Shape.membersUnder_of_texts (List.forall_mem_map.mpr fun column _ ↦ ⟨column.1, rfl⟩) _
    · simp [HasOnly, canonicalEntries]
  doc := rfl
  test := TestMode.givenBy_toJson spec.test
  active := rfl
  openapi := by
    have hopenapi := orNull_givenBy_ofOption (f := id) ApiSettings.givenBy_toJson spec.openapi
    rwa [Option.map_id] at hopenapi
  docs := orNull_givenBy_ofOption DocsSettings.givenBy_toJson spec.docs

theorem canonical_reread (spec : Specification) (columns : List (String × Column)) :
    (spec.reread columns).canonical columns = spec.canonical columns := by
  have hdocs : Json.ofOption DocsSettings.toJson (spec.docs.map DocsSettings.asPlain) =
      Json.ofOption DocsSettings.toJson spec.docs := by
    cases spec.docs with
    | none => rfl
    | some docs => exact docs.toJson_asPlain
  rw [canonical, canonical]
  change Json.object [_, _, _, _, _, _, ("docs", Json.ofOption DocsSettings.toJson
    (spec.docs.map DocsSettings.asPlain)), _] = _
  rw [hdocs]
  rfl

/-- The examples of a documentation are written out again when they are read back. -/
theorem checkExamples_reread (h : checkExamples spec = .ok ()) :
    checkExamples (spec.reread columns) = .ok () := by
  rw [checkExamples_eq_ok_iff] at h ⊢
  unfold reread
  cases hdocs : spec.docs with
  | none => exact fun _ hmem ↦ absurd hmem List.not_mem_nil
  | some docs =>
    rw [hdocs, Option.getD_some] at h
    change ∀ shown ∈ docs.examples.map _, _
    rw [List.forall_mem_map]
    exact fun shown hshown ↦ (dumpFault?_toValue_eq_none_iff shown.2.plain).mpr
      (depth_plain_le shown.2 (h shown hshown))

theorem checkCanonical_reread (h : checkCanonical spec columns = .ok ()) :
    checkCanonical (spec.reread columns) columns = .ok () := by
  rw [checkCanonical_eq_ok_iff, canonical_reread]
  exact (checkCanonical_eq_ok_iff.mp h).imp_left checkExamples_reread

/-- An accepted specification is accepted when it is read back if its dates are readable, and gives the
same columns. -/
theorem build_reread_iff {e again : Entity} (h : spec.build = .ok e) :
    (spec.reread e.columns).build = .ok again ↔
      e.Readable ∧ (spec.reread e.columns).freeze e.columns = again := by
  obtain ⟨hname, hcolumns, hbuilt, hcanonical, -⟩ := build_eq_ok_iff.mp h
  have hkept := buildColumns_eq_ok_iff.mp hbuilt
  have hagain (columns : List (String × Column)) :
      buildColumns spec.name (spec.reread e.columns).columns = .ok columns ↔
        e.Readable ∧ e.columns = columns := by
    change buildColumns spec.name (e.columns.map _) = _ ↔ _
    rw [buildColumns_eq_ok_iff, List.forall₂_map_left_iff, Entity.Readable, ← List.forall₂_eq_eq_eq,
      ← List.forall₂_and_left]
    refine forall₂_iff_of_forall_mem fun column hmem other ↦ ?_
    obtain ⟨given, -, hlabel, hgiven⟩ := exists_of_forall₂_of_mem hkept hmem
    rw [ColumnSpecification.build_asSpecification_iff (hlabel ▸ hgiven), Prod.ext_iff]
    exact and_left_comm
  have hinhabited : (spec.reread e.columns).columns ≠ [] := by
    change e.columns.map _ ≠ []
    rw [Ne, List.map_eq_nil_iff, ← List.length_eq_zero_iff, ← hkept.length_eq, List.length_eq_zero_iff]
    exact hcolumns
  constructor
  · intro hbuild
    obtain ⟨-, -, hcolumnsAgain, -, hentity⟩ := build_eq_ok_iff.mp hbuild
    obtain ⟨hreadable, hsame⟩ := (hagain _).mp hcolumnsAgain
    exact ⟨hreadable, by rw [hentity, ← hsame]⟩
  · rintro ⟨hreadable, rfl⟩
    exact build_eq_ok_iff.mpr ⟨hname, hinhabited, (hagain _).mpr ⟨hreadable, rfl⟩,
      checkCanonical_reread hcanonical, rfl⟩

/-- No column has an empty description. -/
theorem described_of_build {entries : List (Value × Value)} (hgiven : spec.GivenBy entries)
    {e : Entity} (h : spec.build = .ok e) :
    ∀ column ∈ e.columns, column.2.description ≠ some "" := by
  intro column hmem
  obtain ⟨-, -, hbuilt, -, -⟩ := build_eq_ok_iff.mp h
  obtain ⟨given, hspec, -, hcolumn⟩ :=
    exists_of_forall₂_of_mem (buildColumns_eq_ok_iff.mp hbuilt) hmem
  obtain ⟨-, -, -, -, -, hfrozen⟩ := ColumnSpecification.build_eq_ok_iff.mp hcolumn
  obtain ⟨-, -, ⟨parts, -, members, hmembers, hcolumns⟩, -⟩ := hgiven.columns
  rw [← hcolumns] at hspec
  obtain ⟨entry, -, -, columnEntries, -, hdescribed⟩ :=
    exists_of_forall₂_of_mem hmembers.flip (mem_of_mem_membersUnder hspec)
  rw [hfrozen]
  exact hdescribed.described

end Specification

/-! ## Reading back -/

namespace Entity

theorem canonicalOf_eq_ok {v : Value} {spec : Specification} {e : Entity}
    (hread : Specification.read v = .ok spec) (hbuild : spec.build = .ok e) :
    canonicalOf v = .ok (spec.canonical e.columns) :=
  bind_eq_ok_iff.mpr ⟨spec, hread, bind_eq_ok_iff.mpr ⟨e, hbuild, rfl⟩⟩

theorem read_canonical {v : Value} {spec : Specification} {e : Entity}
    (hread : Specification.read v = .ok spec) (hbuild : spec.build = .ok e) :
    Specification.read (spec.canonical e.columns).asSpecification = .ok (spec.reread e.columns) := by
  obtain ⟨hname, -, -, -, -⟩ := Specification.build_eq_ok_iff.mp hbuild
  cases v with
  | dict entries =>
    have hgiven := Specification.ofValue_eq_accepted_iff.mp (Specification.ofValue_of_read hread)
    rw [Specification.asSpecification_canonical, Specification.read_eq_ok_iff]
    exact ⟨(Specification.checkName_eq_ok_iff rfl).mpr hname,
      Specification.ofValue_eq_accepted_iff.mpr
        (Specification.givenBy_canonical (Specification.described_of_build hgiven hbuild))⟩
  | _ => cases hread

/-- What is built from a canonical form that is read back, if its dates are readable. -/
theorem build_canonical_iff {v : Value} {spec : Specification} {e again : Entity}
    (hread : Specification.read v = .ok spec) (hbuild : spec.build = .ok e) :
    build (spec.canonical e.columns).asSpecification = .ok again ↔
      e.Readable ∧ (spec.reread e.columns).freeze e.columns = again := by
  rw [build_eq_ok_iff, ← Specification.build_reread_iff hbuild]
  simp only [read_canonical hread hbuild, Except.ok.injEq, exists_eq_left']

/-- The canonical form of an accepted specification is accepted when it is read back as one exactly if the
moments in the literals of the specification have no seconds in their offsets.  Then the same columns are
built from it, and it has the same canonical form and the same fingerprint. -/
theorem build_asSpecification_canonical {v : Value} {e : Entity} (h : build v = .ok e) :
    ∃ canonical, canonicalOf v = .ok canonical ∧
      ((∃ again, build canonical.asSpecification = .ok again) ↔ v.WholeMinutes) ∧
      ∀ again, build canonical.asSpecification = .ok again → again.columns = e.columns ∧
        canonicalOf canonical.asSpecification = .ok canonical ∧
        again.fingerprint = e.fingerprint := by
  rw [← readable_iff_of_build h]
  obtain ⟨spec, hread, hbuild⟩ := build_eq_ok_iff.mp h
  obtain ⟨-, -, -, -, he⟩ := Specification.build_eq_ok_iff.mp hbuild
  refine ⟨_, canonicalOf_eq_ok hread hbuild, ?_, fun again hbuilt ↦ ?_⟩
  · simp only [build_canonical_iff hread hbuild, exists_and_left, exists_eq', and_true]
  · obtain ⟨hreadable, rfl⟩ := (build_canonical_iff hread hbuild).mp hbuilt
    have hagain := (Specification.build_reread_iff hbuild).mpr ⟨hreadable, rfl⟩
    refine ⟨rfl, ?_, ?_⟩
    · rw [canonicalOf_eq_ok (read_canonical hread hbuild) hagain]
      exact congrArg Except.ok (spec.canonical_reread e.columns)
    · rw [he]
      exact congrArg Json.fingerprint (spec.canonical_reread e.columns)

/-- An example that is no JSON value, and a default that is no text yet, are read back as what became of
them. -/
theorem build_asSpecification_canonical_documented :
    let v := Store.documented (.dict [(.int 1, .float .nan)])
    let w := scheduled "columns" "arrayOf" (.list [.moment Validation.newYear])
    (∃ e canonical again, build v = .ok e ∧ canonicalOf v = .ok canonical ∧
      build canonical.asSpecification = .ok again ∧ again.columns = e.columns ∧
      again.fingerprint = e.fingerprint) ∧
    ∃ f canonical again, build w = .ok f ∧ canonicalOf w = .ok canonical ∧
      build canonical.asSpecification = .ok again ∧ again.columns = f.columns ∧
      again.fingerprint = f.fingerprint := by
  intro v w
  have hspec : (Store.documentedSpecification (.dict [(.int 1, .float .nan)])).build =
      .ok (Store.documentedEntity (.dict [(.int 1, .float .nan)])) := by rfl
  have hv : build v = .ok (Store.documentedEntity (.dict [(.int 1, .float .nan)])) :=
    build_eq_ok_iff.mpr ⟨_, rfl, hspec⟩
  have hwhole : v.WholeMinutes := by
    refine (readable_iff_of_build hv).mp fun column hmem value hvalue _ ↦ ?_
    obtain rfl := List.mem_singleton.mp hmem
    exact nomatch hvalue
  obtain ⟨f, hw⟩ := build_scheduled Validation.newYear
  obtain ⟨canonical, hcanonical, haccepted, hsame⟩ := build_asSpecification_canonical hv
  obtain ⟨other, hother, haccepted', hsame'⟩ := build_asSpecification_canonical hw
  obtain ⟨again, hagain⟩ := haccepted.mpr hwhole
  obtain ⟨reread, hreread⟩ := haccepted'.mpr (wholeMinutes_scheduled rfl)
  exact ⟨⟨_, canonical, again, hv, hcanonical, hagain, (hsame again hagain).1,
    (hsame again hagain).2.2⟩, f, other, reread, hw, hother, hreread, (hsame' reread hreread).1,
    (hsame' reread hreread).2.2⟩

/-- The canonical form of a specification with a moment that has seconds in its offset is refused. -/
theorem build_asSpecification_canonical_seconds :
    let t : Moment := Validation.halfMinute
    let v := scheduled "columns" "arrayOf" (.list [.moment t])
    (∃ e, build v = .ok e) ∧
      ∃ canonical, canonicalOf v = .ok canonical ∧
        ¬∃ again, build canonical.asSpecification = .ok again := by
  intro t v
  obtain ⟨e, he⟩ := build_scheduled t
  obtain ⟨spec, hread, hbuild⟩ := build_eq_ok_iff.mp he
  refine ⟨⟨e, he⟩, _, canonicalOf_eq_ok hread hbuild, ?_⟩
  rintro ⟨again, hagain⟩
  have hwhole := (readable_iff_of_build he).mp ((build_canonical_iff hread hbuild).mp hagain).1
  have hliteral := hwhole _ (read_scheduled (by simp) _ _) _ List.mem_cons_self _
    (parse_scheduled (by decide)) _ (.inl rfl)
  exact absurd hliteral (by decide)

end Entity

end EntityCompiler

import EntityCompiler.Proofs.Entity.Readable
import EntityCompiler.Proofs.Specification.Contents
import EntityCompiler.Proofs.Specification.Respelled
import EntityCompiler.Proofs.Store.Transparency
import EntityCompiler.Proofs.Validation.Literal
import EntityCompiler.Proofs.Value.Equality

/-!
# Spellings of entities

Two spellings of a specification describe the same entity: where both are accepted, the entities are
equal and have the same fingerprint.  A spelling of an accepted specification is accepted unless it puts
the text of a moment in its place that is not read, one with seconds in the offset.
-/

namespace EntityCompiler

open Json

/-! ## Literals -/

/-- What is kept of a literal has distinct keys if the literal does. -/
theorem Literal.keyed_of_read {type : ColumnType} {v : Value} {value : Json}
    (h : read type v = .ok value) (hv : v.DistinctKeys) : value.Keyed := by
  induction type generalizing v value with
  | primitive p =>
    cases p with
    | json =>
      have hkept := toOption_eq_some_iff.mpr h
      rw [read, toOption_readScalar_json] at hkept
      exact Value.keyed_of_toJson? v hkept hv
    | _ =>
      have hform := form_of_read h
      cases value <;> trivial
  | arrayOf element ih =>
    have hkept := toOption_eq_some_iff.mpr h
    rw [toOption_read_arrayOf] at hkept
    obtain ⟨items, hitems, hmap⟩ := Option.bind_eq_some_iff.mp hkept
    obtain ⟨values, hvalues, rfl⟩ := Option.map_eq_some_iff.mp hmap
    rw [keyed_array]
    intro value hvalue
    obtain ⟨item, hitem, hread⟩ := exists_of_forall₂_of_mem (mapM_eq_some_iff.mp hvalues) hvalue
    refine ih (toOption_eq_some_iff.mp hread) ?_
    cases v with
    | list others =>
      obtain rfl := Option.some.inj hitems
      exact Value.distinctKeys_list.mp hv item hitem
    | tuple others =>
      obtain rfl := Option.some.inj hitems
      exact Value.distinctKeys_tuple.mp hv item hitem
    | _ => simp [Value.items?] at hitems

namespace ColumnSpecification

/-- What is kept of a default or example has distinct keys if the value that is given does. -/
theorem keyed_of_buildLiteral? {entity name role : String} {type : ColumnType} {acceptsNull : Bool}
    {given : Option Value} {kept : Option Json}
    (h : buildLiteral? entity name role type acceptsNull given = .ok kept)
    (hgiven : ∀ v, given = some v → v.DistinctKeys) (value : Json) (hvalue : kept = some value) :
    value.Keyed := by
  rcases buildLiteral?_eq_ok_iff.mp h with ⟨-, rfl⟩ | ⟨v, found, hv, hkept, hbuild⟩
  · cases hvalue
  · obtain rfl := Option.some.inj (hvalue.symm.trans hkept)
    rcases buildLiteral_eq_ok_iff.mp hbuild with ⟨-, -, rfl⟩ | ⟨-, hread⟩
    · trivial
    · exact Literal.keyed_of_read hread (hgiven v hv)

/-- A literal that agrees with one that is kept is kept if the texts of its dates are read. -/
theorem buildLiteral_of_alike {entity name role : String} {type : ColumnType} {acceptsNull : Bool}
    {v w : Value} (h : Literal.Alike type v w) {value : Json}
    (hv : buildLiteral entity name role type acceptsNull v = .ok value)
    (hdates : Literal.datesRead type w = true) :
    ∃ other, buildLiteral entity name role type acceptsNull w = .ok other ∧
      value.Reordered other := by
  rcases buildLiteral_eq_ok_iff.mp hv with ⟨hnull, haccepts, rfl⟩ | ⟨hnull, hread⟩
  · exact ⟨.null, buildLiteral_eq_ok_iff.mpr (.inl ⟨h.null.mp hnull, haccepts, rfl⟩), .refl _⟩
  · have hspelled := h.spelled
    rw [(Literal.read_eq_ok_iff_spelled.mp hread).1] at hspelled
    cases hother : Literal.spelled? type w with
    | none => rw [hother] at hspelled; cases hspelled
    | some other =>
      rw [hother] at hspelled
      obtain hreordered | _ := hspelled
      have hw := Literal.read_eq_ok_iff_spelled.mpr ⟨hother, hdates⟩
      exact ⟨other, buildLiteral_eq_ok_iff.mpr (.inr ⟨fun hnone ↦ hnull (h.null.mpr hnone), hw⟩),
        hreordered⟩

theorem buildLiteral?_of_rel {entity name role : String} {type : ColumnType} {acceptsNull : Bool}
    {x y : Option Value} (h : Option.Rel (Literal.Alike type) x y) {kept : Option Json}
    (hx : buildLiteral? entity name role type acceptsNull x = .ok kept)
    (hdates : ∀ w, y = some w → Literal.datesRead type w = true) :
    ∃ other, buildLiteral? entity name role type acceptsNull y = .ok other ∧
      Option.Rel Reordered kept other := by
  cases h with
  | none =>
    obtain rfl := Except.ok.inj hx
    exact ⟨none, rfl, .none⟩
  | some halike =>
    obtain ⟨value, hvalue, rfl⟩ := map_eq_ok_iff.mp hx
    obtain ⟨other, hother, hreordered⟩ := buildLiteral_of_alike halike hvalue (hdates _ rfl)
    exact ⟨some other, map_eq_ok_iff.mpr ⟨other, hother, rfl⟩, .some hreordered⟩

/-- Whether the texts of the dates in the default and the example of a column are read. -/
def DatesRead (spec : ColumnSpecification) : Prop :=
  ∀ type, ColumnType.parse spec.type = .ok type →
    ∀ v, spec.default = some v ∨ spec.sample = some v → Literal.datesRead type v = true

theorem datesRead_null (type : ColumnType) : Literal.datesRead type .null = true := by
  cases type with
  | primitive p => cases p <;> rfl
  | arrayOf element => rfl

theorem datesRead_of_buildLiteral? {entity name role : String} {type : ColumnType}
    {acceptsNull : Bool} {given : Option Value} {kept : Option Json}
    (h : buildLiteral? entity name role type acceptsNull given = .ok kept) {v : Value}
    (hv : given = some v) : Literal.datesRead type v = true := by
  rcases buildLiteral?_eq_ok_iff.mp h with ⟨hnone, -⟩ | ⟨found, value, hfound, -, hbuild⟩
  · exact absurd (hv.symm.trans hnone) (Option.some_ne_none v)
  · obtain rfl := Option.some.inj (hv.symm.trans hfound)
    rcases buildLiteral_eq_ok_iff.mp hbuild with ⟨rfl, -⟩ | ⟨-, hread⟩
    · exact datesRead_null type
    · exact (Literal.read_eq_ok_iff_spelled.mp hread).2

/-- The texts of the dates of a column that is accepted are read. -/
theorem datesRead_of_build {entity name : String} {spec : ColumnSpecification} {c : Column}
    (h : spec.build entity name = .ok c) : spec.DatesRead := by
  obtain ⟨-, htype, hdefault, hsample, -, -⟩ := build_eq_ok_iff.mp h
  intro type hparse v hv
  obtain rfl := Except.ok.inj (htype.symm.trans hparse)
  exact hv.elim (datesRead_of_buildLiteral? hdefault) (datesRead_of_buildLiteral? hsample)

/-- A column that is described like one that is built is built alike if the texts of its dates are
read. -/
theorem build_of_alike {entity name : String} {spec other : ColumnSpecification}
    (h : spec.Alike other) {c : Column} (hbuild : spec.build entity name = .ok c)
    (hdates : other.DatesRead) : ∃ d, other.build entity name = .ok d ∧ c.Same d := by
  obtain ⟨hname, htype, hdefault, hsample, hflags, hcolumn⟩ := build_eq_ok_iff.mp hbuild
  have hfrozen := congrFun (congrFun (congrFun h.settings c.type) none) none
  have hoptional : spec.optional = other.optional := congrArg Column.optional hfrozen
  have hnullable : spec.nullable = other.nullable := congrArg Column.nullable hfrozen
  have hdb : spec.db = other.db := congrArg Column.db hfrozen
  have haccepts : spec.acceptsNull = other.acceptsNull := by
    rw [acceptsNull, acceptsNull, hoptional, hnullable]
  have hparse := h.parse_eq_ok_iff.mp htype
  rw [haccepts] at hdefault
  obtain ⟨default, hotherDefault, hdefaults⟩ := buildLiteral?_of_rel (h.default _ htype) hdefault
    fun w hw ↦ hdates _ hparse w (.inl hw)
  obtain ⟨sample, hotherSample, hsamples⟩ := buildLiteral?_of_rel (h.sample _ htype) hsample
    fun w hw ↦ hdates _ hparse w (.inr hw)
  refine ⟨other.freeze c.type default sample, build_eq_ok_iff.mpr ⟨hname, hparse,
    hotherDefault, hotherSample, ?_, rfl⟩, ?_⟩
  · rw [checkFlags_eq_ok_iff, hdb, haccepts] at hflags
    refine checkFlags_eq_ok_iff.mpr ⟨fun hnow ↦ ?_, hflags.2⟩
    obtain ⟨hdate, hnone⟩ := hflags.1 hnow
    rw [hnone] at hdefaults
    obtain _ | _ := hdefaults
    exact ⟨hdate, rfl⟩
  · rw [hcolumn, h.settings]
    exact ⟨rfl, rfl, rfl, hdefaults, rfl, rfl, rfl, rfl, hsamples, rfl⟩

/-- What agrees with a literal of which readable dates are kept has readable texts at its dates. -/
theorem datesRead_of_rel {entity name role : String} {type : ColumnType} {acceptsNull : Bool}
    {x y : Option Value} {w : Value} (h : Option.Rel (Literal.Alike type) x y) {kept : Option Json}
    (hx : buildLiteral? entity name role type acceptsNull x = .ok kept)
    (hreadable : ∀ value, kept = some value → value ≠ .null → Literal.readable type value = true)
    (hw : y = some w) : Literal.datesRead type w = true := by
  cases h with
  | none => exact nomatch hw
  | @some _ given halike =>
    obtain rfl : given = w := Option.some.inj hw
    obtain ⟨value, hvalue, rfl⟩ := map_eq_ok_iff.mp hx
    rcases buildLiteral_eq_ok_iff.mp hvalue with ⟨hnull, -, -⟩ | ⟨hnull, hread⟩
    · rw [halike.null.mp hnull]
      exact datesRead_null type
    · have hspelled := halike.spelled
      rw [(Literal.read_eq_ok_iff_spelled.mp hread).1] at hspelled
      cases hother : Literal.spelled? type given with
      | none => rw [hother] at hspelled; cases hspelled
      | some other =>
        rw [hother] at hspelled
        obtain hreordered | _ := hspelled
        refine Literal.datesRead_of_readable hother ?_
        rw [← Literal.readable_eq_of_reordered hreordered type]
        exact hreadable value rfl (Literal.ne_null_of_read hread hnull)

/-- A column whose kept dates are readable has readable texts at its dates in all its spellings. -/
theorem datesRead_of_alike {entity name : String} {spec other : ColumnSpecification}
    (h : spec.Alike other) {c : Column} (hbuild : spec.build entity name = .ok c)
    (hreadable : c.Readable) : other.DatesRead := by
  obtain ⟨-, htype, hdefault, hsample, -, -⟩ := build_eq_ok_iff.mp hbuild
  intro type hparse v hv
  obtain rfl := Except.ok.inj (htype.symm.trans (h.parse_eq_ok_iff.mpr hparse))
  rcases hv with hv | hv
  · exact datesRead_of_rel (h.default _ htype) hdefault
      (fun value hvalue ↦ hreadable value (.inl hvalue)) hv
  · exact datesRead_of_rel (h.sample _ htype) hsample
      (fun value hvalue ↦ hreadable value (.inr hvalue)) hv

end ColumnSpecification

/-- What is read as a specification is a dictionary that gives it. -/
theorem Specification.exists_givenBy_of_read {v : Value} {spec : Specification}
    (h : read v = .ok spec) : ∃ entries, v = .dict entries ∧ spec.GivenBy entries := by
  cases v with
  | dict entries => exact ⟨entries, rfl, ofValue_eq_accepted_iff.mp (ofValue_of_read h)⟩
  | _ => simp [read] at h

/-! ## Canonical forms -/

theorem Json.fingerprint_eq_of_reordered {a b : Json} (h : a.Reordered b) (ha : a.Keyed) :
    a.fingerprint = b.fingerprint := by
  rw [fingerprint, fingerprint, canonicalText, canonicalText, sortKeys_eq_of_reordered h ha]

theorem Json.forall₂_optionalMember {x y : Option Json} (h : Option.Rel Reordered x y)
    (key : String) :
    List.Forall₂ MemberReordered (optionalMember key x) (optionalMember key y) := by
  cases h with
  | none => exact .nil
  | some hvalue => exact .cons ⟨rfl, hvalue⟩ .nil

theorem Column.Same.reordered_toJson {c d : Column} (h : c.Same d) :
    c.toJson.Reordered d.toJson := by
  have hsettings : c.settings = d.settings := by
    rw [settings, settings, h.type, h.optional, h.nullable, h.description, h.visibility, h.immutable,
      h.stored, h.db]
  rw [toJson_eq, toJson_eq, members, members, hsettings]
  refine Reordered.object (List.rel_append (List.rel_append ?_ (forall₂_optionalMember h.default _))
    (forall₂_optionalMember h.sample _))
  exact List.forall₂_same.mpr fun setting _ ↦ ⟨rfl, .refl _⟩

theorem ColumnType.keyed_toJson (t : ColumnType) : t.toJson.Keyed := by
  induction t with
  | primitive p => trivial
  | arrayOf element ih =>
    rw [toJson, keyed_object]
    simpa using ih

theorem Json.keyed_ofText? (s : Option String) : (ofText? s).Keyed := by
  cases s <;> trivial

theorem Json.keyed_ofTexts (texts : List String) : (ofTexts texts).Keyed := by
  rw [ofTexts, keyed_array]
  intro value hvalue
  obtain ⟨s, -, rfl⟩ := List.mem_map.mp hvalue
  trivial

/-- Whether no object in a literal of a column has a key twice. -/
def Column.LiteralsKeyed (c : Column) : Prop :=
  ∀ value, c.default = some value ∨ c.sample = some value → value.Keyed

theorem Column.keyed_toJson {c : Column} (h : c.LiteralsKeyed) : c.toJson.Keyed := by
  rw [toJson_eq, keyed_object]
  refine ⟨c.nodup_members, ?_⟩
  have hdb : c.db.toJson.Keyed := by
    rw [StorageFlags.toJson, keyed_object]
    simp [Keyed]
  have hoptional {key : String} {x : Option Json} (hx : ∀ value, x = some value → value.Keyed) :
      ∀ member ∈ optionalMember key x, member.2.Keyed := by
    cases x with
    | none => simp [optionalMember]
    | some value => simpa [optionalMember] using hx value rfl
  rw [members, List.forall_mem_append, List.forall_mem_append]
  refine ⟨⟨?_, hoptional fun value hdefault ↦ h value (.inl hdefault)⟩,
    hoptional fun value hsample ↦ h value (.inr hsample)⟩
  simp [settings, hdb, ColumnType.keyed_toJson, keyed_ofText?, Keyed]

theorem DocsSettings.SamePlain.reordered_toJson {docs others : DocsSettings}
    (h : docs.SamePlain others) : docs.toJson.Reordered others.toJson := by
  refine Reordered.object (.cons ⟨rfl, ?_⟩ (.cons ⟨rfl, h.2⟩ .nil))
  rw [h.1]
  exact .refl _

theorem DocsSettings.keyed_toJson {docs : DocsSettings} (h : (Value.ofFields docs.examples).Keyed) :
    docs.toJson.Keyed := by
  have hexamples : (Json.object docs.plainExamples).Keyed := by
    rw [← plain_ofFields docs h]
    exact Value.keyed_plain _
  rw [toJson, keyed_object]
  simpa [keyed_ofText?, plainExamples] using hexamples

theorem ApiSettings.keyed_toJson (settings : ApiSettings) : settings.toJson.Keyed := by
  rw [toJson, keyed_object]
  simp [keyed_ofText?, keyed_ofTexts, Keyed]

theorem Json.reordered_ofOption {α : Type} {toJson : α → Json} {R : α → α → Prop} {x y : Option α}
    (hR : ∀ a b, R a b → (toJson a).Reordered (toJson b)) (h : Option.Rel R x y) :
    (ofOption toJson x).Reordered (ofOption toJson y) := by
  cases h with
  | none => exact .refl _
  | some hab => exact hR _ _ hab

theorem Json.keyed_ofOption {α : Type} {toJson : α → Json} {x : Option α}
    (h : ∀ a, x = some a → (toJson a).Keyed) : (ofOption toJson x).Keyed := by
  cases x with
  | none => trivial
  | some a => exact h a rfl

namespace Specification

theorem reordered_canonical {spec other : Specification} (h : spec.Alike other)
    {columns others : List (String × Column)}
    (hcolumns : List.Forall₂ (fun c d ↦ c.1 = d.1 ∧ c.2.Same d.2) columns others) :
    (spec.canonical columns).Reordered (other.canonical others) := by
  have hdocs : (ofOption DocsSettings.toJson spec.docs).Reordered
      (ofOption DocsSettings.toJson other.docs) :=
    reordered_ofOption (fun _ _ hdocs ↦ hdocs.plain.reordered_toJson) h.docs
  have hlist : (Json.array (columns.map fun c ↦ .array [.text c.1, c.2.toJson])).Reordered
      (.array (others.map fun c ↦ .array [.text c.1, c.2.toJson])) := by
    refine Reordered.array ?_
    rw [List.forall₂_map_left_iff, List.forall₂_map_right_iff]
    refine hcolumns.imp fun c d hcolumn ↦ ?_
    rw [hcolumn.1]
    exact Reordered.array (.cons (.refl _) (.cons hcolumn.2.reordered_toJson .nil))
  refine Reordered.object ?_
  rw [h.name, h.table, h.doc, h.test, h.active, h.openapi]
  have hsame (member : String × Json) : MemberReordered member member := ⟨rfl, .refl _⟩
  exact .cons (hsame _) (.cons (hsame _) (.cons (hsame _) (.cons (hsame _) (.cons (hsame _)
    (.cons (hsame _) (.cons ⟨rfl, hdocs⟩ (.cons ⟨rfl, hlist⟩ .nil)))))))

/-- The literals of the columns are parts of the values in the specification. -/
theorem literalsKeyed_of_build {spec : Specification} (hspec : spec.LiteralsHold Value.DistinctKeys)
    {e : Entity} (hbuild : spec.build = .ok e) {c : String × Column} (hc : c ∈ e.columns) :
    c.2.LiteralsKeyed := by
  obtain ⟨-, -, hcolumns, -, -⟩ := build_eq_ok_iff.mp hbuild
  obtain ⟨described, hmem, -, hbuilt⟩ :=
    exists_of_forall₂_of_mem (buildColumns_eq_ok_iff.mp hcolumns) hc
  obtain ⟨-, -, hdefault, hsample, -, -⟩ := ColumnSpecification.build_eq_ok_iff.mp hbuilt
  rintro value (hvalue | hvalue)
  · exact ColumnSpecification.keyed_of_buildLiteral? hdefault (hspec.default described hmem) value
      hvalue
  · exact ColumnSpecification.keyed_of_buildLiteral? hsample (hspec.sample described hmem) value
      hvalue

theorem keyed_canonical {spec : Specification} (hspec : spec.Holds Value.Keyed) {e : Entity}
    (hbuild : spec.build = .ok e) : (spec.canonical e.columns).Keyed := by
  have hcolumn (c : String × Column) (hc : c ∈ e.columns) : c.2.toJson.Keyed :=
    Column.keyed_toJson (literalsKeyed_of_build (hspec.toLiteralsHold.imp Value.Keyed.distinctKeys)
      hbuild hc)
  have hdocs : (ofOption DocsSettings.toJson spec.docs).Keyed :=
    keyed_ofOption fun docs hdocs ↦ DocsSettings.keyed_toJson (hspec.examples docs hdocs)
  have hopenapi : (ofOption ApiSettings.toJson spec.openapi).Keyed :=
    keyed_ofOption fun settings _ ↦ settings.keyed_toJson
  have hlist : (Json.array (e.columns.map fun c ↦ .array [.text c.1, c.2.toJson])).Keyed := by
    rw [keyed_array]
    intro value hvalue
    obtain ⟨c, hc, rfl⟩ := List.mem_map.mp hvalue
    rw [keyed_array]
    simpa [Keyed] using hcolumn c hc
  rw [canonical, keyed_object]
  refine ⟨by simp, ?_⟩
  simp only [List.forall_mem_cons]
  exact ⟨trivial, trivial, trivial, keyed_ofText? _, trivial, hopenapi, hdocs, hlist,
    List.forall_mem_nil _⟩

/-! ## Entities -/

/-- Whether the texts of the dates in the literals of all columns are read. -/
def DatesRead (spec : Specification) : Prop :=
  ∀ column ∈ spec.columns, column.2.DatesRead

theorem datesRead_of_build {spec : Specification} {e : Entity} (h : spec.build = .ok e) :
    spec.DatesRead := by
  obtain ⟨-, -, hcolumns, -, -⟩ := build_eq_ok_iff.mp h
  intro column hmem
  obtain ⟨built, -, -, hbuilt⟩ :=
    exists_of_forall₂_of_mem (buildColumns_eq_ok_iff.mp hcolumns).flip hmem
  exact ColumnSpecification.datesRead_of_build hbuilt

theorem datesRead_of_alike {spec other : Specification} (h : spec.Alike other) {e : Entity}
    (hbuild : spec.build = .ok e) (hreadable : e.Readable) : other.DatesRead := by
  obtain ⟨-, -, hcolumns, -, -⟩ := build_eq_ok_iff.mp hbuild
  intro column hmem
  obtain ⟨given, hgiven, -, halike⟩ := exists_of_forall₂_of_mem h.columns hmem
  obtain ⟨built, hbuilt, -, hcolumn⟩ :=
    exists_of_forall₂_of_mem (buildColumns_eq_ok_iff.mp hcolumns).flip hgiven
  exact ColumnSpecification.datesRead_of_alike halike hcolumn (hreadable built hbuilt)

theorem buildColumns_of_alike {entity : String} {specs others : List (String × ColumnSpecification)}
    (h : ColumnsAlike specs others) {columns : List (String × Column)}
    (hbuild : buildColumns entity specs = .ok columns)
    (hdates : ∀ column ∈ others, column.2.DatesRead) :
    ∃ built, buildColumns entity others = .ok built ∧
      List.Forall₂ (fun c d ↦ c.1 = d.1 ∧ c.2.Same d.2) columns built := by
  rw [buildColumns_eq_ok_iff] at hbuild
  simp only [buildColumns_eq_ok_iff]
  induction h generalizing columns with
  | nil =>
    cases hbuild
    exact ⟨[], .nil, .nil⟩
  | @cons spec other specs others halike _ ih =>
    rw [List.forall_mem_cons] at hdates
    obtain ⟨⟨name, c⟩, columns, ⟨hname, hcolumn⟩, hrest, rfl⟩ := List.forall₂_cons_left_iff.mp hbuild
    obtain ⟨built, hbuilt, hsame⟩ := ih hrest hdates.2
    obtain ⟨d, hd, hcd⟩ := ColumnSpecification.build_of_alike halike.2 hcolumn hdates.1
    rw [halike.1] at hd hname
    exact ⟨(other.1, d) :: built, .cons ⟨rfl, hd⟩ hbuilt, .cons ⟨hname.symm, hcd⟩ hsame⟩

theorem checkExamples_eq_ok_iff_ofFields {spec : Specification} : checkExamples spec = .ok () ↔
    (Value.ofFields (spec.docs.getD {}).examples).dumpFault? (depthLimit + 1) = none := by
  rw [checkExamples_eq_ok_iff, Value.ofFields, Value.dumpFault?_dict_eq_none_iff,
    List.forall_mem_map]
  simp [Value.keyFault?]

/-- What is built from specifications that are built alike. -/
theorem build_of_alike {spec other : Specification} (h : spec.Alike other) {e : Entity}
    (hbuild : spec.build = .ok e) (hdates : other.DatesRead) :
    ∃ columns, other.build = .ok (other.freeze columns) ∧
      List.Forall₂ (fun c d ↦ c.1 = d.1 ∧ c.2.Same d.2) e.columns columns := by
  obtain ⟨hname, hsome, hcolumns, hcanonical, -⟩ := build_eq_ok_iff.mp hbuild
  obtain ⟨columns, hbuilt, hsame⟩ := buildColumns_of_alike h.columns hcolumns hdates
  refine ⟨columns, build_eq_ok_iff.mpr ⟨h.name ▸ hname, ?_, h.name ▸ hbuilt, ?_, rfl⟩, hsame⟩
  · intro hnone
    have hlength := h.columns.length_eq
    rw [hnone, List.length_nil, List.length_eq_zero_iff] at hlength
    exact hsome hlength
  · rw [checkCanonical_eq_ok_iff, checkExamples_eq_ok_iff_ofFields] at hcanonical ⊢
    exact ⟨((rel_getD h.docs (.refl {})).fault _).mp hcanonical.1,
      (isWritable_iff_of_reordered (reordered_canonical h hsame)).mp hcanonical.2⟩

theorem ofFields_metadata (spec : Specification) :
    Value.ofFields spec.metadata.docs.examples =
      (Value.ofFields (spec.docs.getD {}).examples).untupled := by
  unfold metadata
  cases spec.docs with
  | none => rfl
  | some docs => simp [Value.ofFields, Value.untupled, Value.untupledEntries_eq_map]

/-- Entities with the same columns, from specifications that are built alike, agree. -/
theorem agrees_of_alike {spec other : Specification} (h : spec.Alike other)
    (hkeyed : spec.Holds Value.Keyed) {e : Entity} (hbuild : spec.build = .ok e)
    {columns : List (String × Column)}
    (hcolumns : List.Forall₂ (fun c d ↦ c.1 = d.1 ∧ c.2.Same d.2) e.columns columns) :
    e.Agrees (other.freeze columns) := by
  obtain ⟨-, -, -, -, hentity⟩ := build_eq_ok_iff.mp hbuild
  have hdocs := rel_getD h.docs (.refl {})
  have hfingerprint : (spec.canonical e.columns).fingerprint = (other.canonical columns).fingerprint :=
    fingerprint_eq_of_reordered (reordered_canonical h hcolumns) (keyed_canonical hkeyed hbuild)
  have hdescription : spec.metadata.docs.description = other.metadata.docs.description := by
    rw [spec.metadata_docs_description, other.metadata_docs_description, hdocs.plain.1]
  have hexamples : (Value.ofFields spec.metadata.docs.examples).Reordered
      (Value.ofFields other.metadata.docs.examples) := by
    rw [spec.ofFields_metadata, other.ofFields_metadata]
    exact hdocs.untupled
  have hopenapi : spec.metadata.openapi = other.metadata.openapi := by
    rw [metadata, metadata, h.openapi]
  rw [hentity]
  exact ⟨⟨h.name, h.table, hcolumns, h.doc, h.test, h.active, hopenapi, hdescription⟩, hfingerprint,
    hexamples⟩

end Specification

/-- Whether the texts of the dates in the literals that a value specifies are read. -/
def Value.DatesRead (v : Value) : Prop :=
  ∀ spec, Specification.read v = .ok spec → spec.DatesRead

/-! ## Names of columns -/

/-- The columns of an entity have distinct names if no key occurs twice among those that describe
them. -/
theorem Entity.nodup_columnNames_of_build {entries : List (Value × Value)} {e : Entity}
    (hbuild : build (.dict entries) = .ok e)
    (hkeys : ∀ key given, Value.lookup? key entries = some (.dict given) →
      (given.map (·.1.asText)).Nodup) : e.columnNames.Nodup := by
  obtain ⟨spec, hread, hspec⟩ := build_eq_ok_iff.mp hbuild
  obtain ⟨-, -, hcolumns, -, -⟩ := Specification.build_eq_ok_iff.mp hspec
  have hgiven := Specification.ofValue_eq_accepted_iff.mp (Specification.ofValue_of_read hread)
  obtain ⟨used, -, ⟨given, hfound, members, hmembers, hunder⟩, -⟩ := hgiven.columns
  have hbuilt : spec.columns.map (·.1) = e.columnNames :=
    map_eq_of_forall₂ ((Specification.buildColumns_eq_ok_iff.mp hcolumns).imp fun _ _ h ↦ h.1)
  rw [← hbuilt, ← hunder]
  refine Value.nodup_membersUnder ?_ ?_
  · exact List.forall₂_map_left_iff.mpr (hmembers.flip.imp fun _ _ hentry ↦ hentry.1)
  · rw [List.map_map]
    exact hkeys used given hfound

/-! ## Equality -/

theorem Json.alike_of_reordered {a b : Json} (h : a.Reordered b) : a.alike b = true :=
  Value.alike_of_reordered (Value.reordered_toValue h) (Value.nanFree_toValue a)

theorem Json.alike?_of_rel {x y : Option Json} (h : Option.Rel Reordered x y) :
    alike? x y = true := by
  cases h with
  | none => rfl
  | some hreordered => exact alike_of_reordered hreordered

theorem Column.Same.alike {c d : Column} (h : c.Same d) : c.alike d = true := by
  simp [Column.alike, h.type, h.optional, h.nullable, alike?_of_rel h.default, h.description,
    h.visibility, h.immutable, h.stored, alike?_of_rel h.sample, h.db]

theorem Column.mapAlike_of_forall₂ {columns others : List (String × Column)}
    (h : List.Forall₂ (fun c d ↦ c.1 = d.1 ∧ c.2.Same d.2) columns others) :
    mapAlike columns others = true := by
  rw [mapAlike, Bool.and_eq_true, List.all_eq_true]
  refine ⟨decide_eq_true h.length_eq, fun c hc ↦ ?_⟩
  obtain ⟨d, hd, hname, hsame⟩ := exists_of_forall₂_of_mem h.flip hc
  refine List.any_eq_true.mpr ⟨d, hd, ?_⟩
  rw [Bool.and_eq_true]
  exact ⟨decide_eq_true hname, hsame.alike⟩

namespace Entity

/-- Entities that agree are equal if no example has an undefined number. -/
theorem alike_of_agrees {e f : Entity} (h : e.Agrees f)
    (hexamples : (Value.ofFields e.metadata.docs.examples).NanFree) : e.alike f = true := by
  have hshown := Value.alike_of_reordered h.examples hexamples
  have hmetadata : e.metadata.alike f.metadata = true := by
    simp [Metadata.alike, h.content.doc, h.content.test, h.content.active, h.content.openapi,
      h.content.description, hshown]
  simp [Entity.alike, h.content.name, h.content.table, Column.mapAlike_of_forall₂ h.content.columns,
    hmetadata, h.fingerprint]

/-- A spelling of a specification that is accepted is accepted exactly when the texts of its dates are
read, as they all are if the kept dates are readable.  Two spellings that are accepted describe equal
entities with the same fingerprint. -/
theorem build_of_respelled {v w : Value} {e : Entity} (h : Specification.Respelled v w)
    (hkeyed : v.Keyed) (hnan : v.NanFree) (hbuild : build v = .ok e) :
    ((∃ f, build w = .ok f) ↔ w.DatesRead) ∧ (e.Readable → w.DatesRead) ∧
      ∀ f, build w = .ok f →
        fingerprintOf w = fingerprintOf v ∧ e.Agrees f ∧ e.alike f = true := by
  obtain ⟨spec, hread, hspec⟩ := build_eq_ok_iff.mp hbuild
  have hrel := Specification.rel_read_of_respelled h
  obtain ⟨entries, rfl, hgiven⟩ := Specification.exists_givenBy_of_read hread
  have hvalues : spec.Holds Value.Keyed := Specification.holds_of_keyed
    (fun entries hentries entry hentry ↦ ((Value.keyed_dict.mp hentries).2 entry hentry).2)
    (by simp [Value.keyed_dict]) hkeyed hkeyed hgiven
  have hnumbers : spec.Holds Value.NanFree := Specification.holds_of_keyed
    (fun _ ↦ Value.nanFree_dict) trivial hkeyed hnan hgiven
  have hexamples : (Value.ofFields e.metadata.docs.examples).NanFree := by
    obtain ⟨-, -, -, -, hentity⟩ := Specification.build_eq_ok_iff.mp hspec
    rw [hentity]
    change (Value.ofFields spec.metadata.docs.examples).NanFree
    rw [spec.ofFields_metadata]
    refine Value.nanFree_untupled _ ?_
    cases hdocs : spec.docs with
    | none => trivial
    | some docs => exact hnumbers.examples docs hdocs
  rw [toOption_eq_some_iff.mpr hread] at hrel
  cases hother : Specification.read w with
  | error refusal => rw [hother] at hrel; cases hrel
  | ok other =>
    rw [hother] at hrel
    obtain halike | _ := hrel
    have hdates : w.DatesRead ↔ other.DatesRead := by
      simp only [Value.DatesRead, hother, Except.ok.injEq, forall_eq']
    refine ⟨⟨?_, fun hw ↦ ?_⟩, fun hreadable ↦ ?_, fun f hf ↦ ?_⟩
    · rintro ⟨f, hf⟩
      obtain ⟨found, hfound, hbuilt⟩ := build_eq_ok_iff.mp hf
      obtain rfl := Except.ok.inj (hother.symm.trans hfound)
      exact hdates.mpr (Specification.datesRead_of_build hbuilt)
    · obtain ⟨columns, hbuilt, -⟩ := Specification.build_of_alike halike hspec (hdates.mp hw)
      exact ⟨_, build_eq_ok_iff.mpr ⟨other, hother, hbuilt⟩⟩
    · exact hdates.mpr (Specification.datesRead_of_alike halike hspec hreadable)
    · obtain ⟨found, hfound, hbuilt⟩ := build_eq_ok_iff.mp hf
      obtain rfl := Except.ok.inj (hother.symm.trans hfound)
      obtain ⟨columns, hcolumns, hsame⟩ := Specification.build_of_alike halike hspec
        (Specification.datesRead_of_build hbuilt)
      obtain rfl := Except.ok.inj (hbuilt.symm.trans hcolumns)
      have hagrees := Specification.agrees_of_alike halike hvalues hspec hsame
      refine ⟨?_, hagrees, alike_of_agrees hagrees hexamples⟩
      rw [fingerprintOf, fingerprintOf, hf, hbuild, Except.map, Except.map, hagrees.fingerprint]

/-- The description of an entity with one column of dates, in a spelling of its keys. -/
def scheduled (columns arrays : String) (default : Value) : Value :=
  .ofFields [("name", .text "Event"), (columns, .ofFields [("days", .ofFields
    [("type", .ofFields [(arrays, .text "date")]), ("default", default)])])]

/-- What `scheduled` describes. -/
def scheduledSpecification (arrays : String) (default : Value) : Specification where
  name := "Event"
  columns := [("days", { type := .ofFields [(arrays, .text "date")], default := some default })]

theorem keyed_scheduled {columns arrays : String} {default : Value} (hcolumns : "name" ≠ columns)
    (hdefault : default.Keyed) : (scheduled columns arrays default).Keyed := by
  simp [scheduled, Value.ofFields, Value.Keyed, Value.EntriesKeyed, hcolumns, hdefault]

theorem parse_scheduled {arrays : String} (harrays : ColumnType.arrayKeys.contains arrays = true) :
    ColumnType.parse (.ofFields [(arrays, .text "date")]) = .ok (.arrayOf (.primitive .date)) := by
  refine toOption_eq_some_iff.mp ?_
  rw [Value.ofFields, List.map_cons, List.map_nil, ColumnType.toOption_parse_dict, if_pos harrays]
  rfl

theorem read_scheduled {columns : String} (hcolumns : columns ∈ ["columns", "fields"])
    (arrays : String) (default : Value) : Specification.read (scheduled columns arrays default) =
      .ok (scheduledSpecification arrays default) := by
  simp only [List.mem_cons, List.not_mem_nil, or_false] at hcolumns
  rcases hcolumns with rfl | rfl <;> rfl

theorem build_scheduled (t : Moment) :
    ∃ e, build (scheduled "columns" "arrayOf" (.list [.moment t])) = .ok e := by
  have hname : Naming.isPascalCase "Event" = true := by decide
  have hflags : ColumnSpecification.checkFlags "Event" "days" { type := .null }
      (.arrayOf (.primitive .date)) (some (.array [.text t.isoText])) = .ok () := by rfl
  have hcolumn : ColumnSpecification.build "Event" "days"
      { type := .ofFields [("arrayOf", .text "date")], default := some (.list [.moment t]) } =
      .ok { type := .arrayOf (.primitive .date), default := some (.array [.text t.isoText]) } :=
    ColumnSpecification.build_eq_ok_iff.mpr
      ⟨by decide, parse_scheduled (by decide), rfl, rfl, hflags, rfl⟩
  have hcolumns : Specification.buildColumns "Event"
      (scheduledSpecification "arrayOf" (.list [.moment t])).columns = .ok [("days", _)] :=
    Specification.buildColumns_eq_ok_iff.mpr (.cons ⟨rfl, hcolumn⟩ .nil)
  exact ⟨(scheduledSpecification "arrayOf" (.list [.moment t])).freeze _, build_eq_ok_iff.mpr
    ⟨_, read_scheduled (by simp) _ _, Specification.build_eq_ok_iff.mpr
      ⟨hname, List.cons_ne_nil _ _, hcolumns, by rfl, rfl⟩⟩⟩

/-- The spellings of a date and of the keys may be changed one after the other. -/
theorem respelled_scheduled (t : Moment) :
    Specification.Respelled (scheduled "columns" "arrayOf" (.list [.moment t]))
      (scheduled "fields" "array_of" (.tuple [.text t.isoText])) := by
  have hlist : (Value.list [.moment t]).Keyed := by simp [Value.Keyed, Value.ItemsKeyed]
  have htuple : (Value.tuple [.moment t]).Keyed := by simp [Value.Keyed, Value.ItemsKeyed]
  have htext : (Value.tuple [.text t.isoText]).Keyed := by simp [Value.Keyed, Value.ItemsKeyed]
  have hcolumn {v w : Value} (h : ColumnSpecification.Step v w) :
      Specification.Step (.ofFields [("name", .text "Event"), ("columns", .ofFields [("days", v)])])
        (.ofFields [("name", .text "Event"), ("columns", .ofFields [("days", w)])]) :=
    .dict (.part [(.text "name", .text "Event")] [] (.column [] [] (by simp) h))
  have htupled : Specification.Respelled (scheduled "columns" "arrayOf" (.list [.moment t]))
      (scheduled "columns" "arrayOf" (.tuple [.moment t])) := by
    refine .rel _ _ ⟨keyed_scheduled (by decide) hlist, keyed_scheduled (by decide) htuple,
      hcolumn (.dict (.part [_] [] (.literal (by simp) (.tuple _))))⟩
  have hdated : Specification.Respelled (scheduled "columns" "arrayOf" (.tuple [.moment t]))
      (scheduled "columns" "arrayOf" (.tuple [.text t.isoText])) := by
    refine .rel _ _ ⟨keyed_scheduled (by decide) htuple, keyed_scheduled (by decide) htext,
      hcolumn (.dict (.part [_] [] (.date (by simp) ⟨_, rfl, parse_scheduled (by decide)⟩
        (.component [] [] (.moment t)))))⟩
  have harray : Specification.Respelled (scheduled "columns" "arrayOf" (.tuple [.text t.isoText]))
      (scheduled "columns" "array_of" (.tuple [.text t.isoText])) := by
    refine .rel _ _ ⟨keyed_scheduled (by decide) htext, keyed_scheduled (by decide) htext,
      hcolumn (.dict (.part [] [_] (.type (.key _))))⟩
  have hfields : Specification.Respelled (scheduled "columns" "array_of" (.tuple [.text t.isoText]))
      (scheduled "fields" "array_of" (.tuple [.text t.isoText])) :=
    .rel _ _ ⟨keyed_scheduled (by decide) htext, keyed_scheduled (by decide) htext,
      .dict (.rename _ [_] [] rfl)⟩
  exact ((htupled.trans _ _ _ hdated).trans _ _ _ harray).trans _ _ _ hfields

theorem nanFree_scheduled (t : Moment) :
    (scheduled "columns" "arrayOf" (.list [.moment t])).NanFree := by
  simp [scheduled, Value.ofFields, Value.NanFree, Value.EntriesNanFree, Value.ItemsNanFree]

theorem wholeMinutes_scheduled {t : Moment} (h : t.wholeMinutes = true) :
    (scheduled "columns" "arrayOf" (.list [.moment t])).WholeMinutes := by
  intro spec hread column hmem type hparse literal hliteral
  obtain rfl := Except.ok.inj ((read_scheduled (by simp) _ _).symm.trans hread)
  obtain rfl := List.mem_singleton.mp hmem
  obtain rfl := Except.ok.inj ((parse_scheduled (by decide)).symm.trans hparse)
  obtain rfl := Option.some.inj (hliteral.resolve_right nofun)
  simpa [Literal.wholeMinutes, Value.items?] using h

theorem build_of_respelled_scheduled :
    let t : Moment := ⟨⟨2026, 1, 1, by decide, by decide, by decide⟩, Clock.midnight, none⟩
    let v := scheduled "columns" "arrayOf" (.list [.moment t])
    let w := scheduled "fields" "array_of" (.tuple [.text t.isoText])
    ∃ e f, Specification.Respelled v w ∧ v.Keyed ∧ v.NanFree ∧ build v = .ok e ∧
      build w = .ok f ∧ fingerprintOf w = fingerprintOf v ∧ e.alike f = true := by
  intro t v w
  have hkeyed : v.Keyed := keyed_scheduled (by decide) (by simp [Value.Keyed, Value.ItemsKeyed])
  obtain ⟨e, he⟩ := build_scheduled t
  obtain ⟨haccepted, hreadable, hequal⟩ :=
    build_of_respelled (respelled_scheduled t) hkeyed (nanFree_scheduled t) he
  have hwhole : v.WholeMinutes := wholeMinutes_scheduled rfl
  obtain ⟨f, hf⟩ := haccepted.mpr (hreadable ((readable_iff_of_build he).mpr hwhole))
  obtain ⟨hfingerprint, -, halike⟩ := hequal f hf
  exact ⟨e, f, respelled_scheduled t, hkeyed, nanFree_scheduled t, he, hf, hfingerprint, halike⟩

/-- The text of a moment with seconds in its offset is refused where the moment is accepted. -/
theorem build_of_respelled_seconds :
    let t : Moment := ⟨⟨2026, 1, 1, by decide, by decide, by decide⟩, Clock.midnight,
      some ⟨3630000000, by decide⟩⟩
    let v := scheduled "columns" "arrayOf" (.list [.moment t])
    let w := scheduled "fields" "array_of" (.tuple [.text t.isoText])
    Specification.Respelled v w ∧ v.Keyed ∧ v.NanFree ∧ (∃ e, build v = .ok e) ∧
      ¬∃ f, build w = .ok f := by
  intro t v w
  refine ⟨respelled_scheduled t, keyed_scheduled (by decide)
    (by simp [Value.Keyed, Value.ItemsKeyed]), nanFree_scheduled t, build_scheduled t, ?_⟩
  rintro ⟨f, hf⟩
  obtain ⟨spec, hread, hspec⟩ := build_eq_ok_iff.mp hf
  obtain rfl := Except.ok.inj ((read_scheduled (by simp) _ _).symm.trans hread)
  have hdates := Specification.datesRead_of_build hspec _ List.mem_cons_self _
    (parse_scheduled (by decide)) _ (.inl rfl)
  have hrefused : Instant.read t.isoText = .error (.form t.isoText) :=
    Instant.read_isoText_of_seconds rfl
  simp [Literal.datesRead, Value.items?, hrefused, Except.toOption] at hdates

end Entity

end EntityCompiler

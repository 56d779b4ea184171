import EntityCompiler.Proofs.Entity.Build

/-!
# Reported errors of columns

Which error the build of a column reports, and which column it gives if it reports none.  Each
check is named and told by the errors that it gives, and the build reports the error of the first
check that gives one.
-/

namespace EntityCompiler

open Value

/-! ## Checks -/

/-- The column type that a value spells: one that has been parsed before, the name of a primitive,
or an array of a spelled type. -/
inductive ColumnType.SpelledBy : ColumnType → Value → Prop
  | parsed (type : ColumnType) : SpelledBy type (.columnType type)
  | named (p : Primitive) : SpelledBy (.primitive p) (.text p.name)
  | arrayOf {key : String} {element : ColumnType} {v : Value} :
      key ∈ arrayKeys → SpelledBy element v → SpelledBy (.arrayOf element) (.dict [(.text key, v)])

/-- Why a default or example is not admitted: null where null is not accepted, or a value that is
not of the column type. -/
inductive Literal.Refused (type : ColumnType) (acceptsNull : Bool) : Value → String → Prop
  | null : acceptsNull = false → Refused type acceptsNull .null "column does not accept null"
  | mismatch {v : Value} {reason : Mismatch} :
      v ≠ .null → mismatch? type v = some reason → Refused type acceptsNull v reason.message

/-- What a column keeps of a default or example that is admitted. -/
def Literal.Kept (type : ColumnType) (v : Value) (kept : Json) : Prop :=
  (v = .null ∧ kept = .null) ∨ (v ≠ .null ∧ read type v = .ok kept)

/-- The checks of a column. -/
inductive ColumnCheck where
  | name
  | type
  | default
  | sample
  /-- Only dates are filled with the current time. -/
  | clockType
  /-- A column that is filled with the current time has no default. -/
  | clockDefault
  /-- A column of the primary key accepts no null. -/
  | primaryNull

/-- The checks of a column in the order in which they are made. -/
def ColumnCheck.inOrder : List ColumnCheck :=
  [.name, .type, .default, .sample, .clockType, .clockDefault, .primaryNull]

namespace ColumnSpecification

/-- The errors that the checks of a column give. -/
inductive Refused (entity name : String) (spec : ColumnSpecification) :
    ColumnCheck → EntityError → Prop
  | name :
      Naming.isColumnName name = false → Refused entity name spec .name (.columnName entity name)
  | type : (∀ type : ColumnType, ¬type.SpelledBy spec.type) →
      Refused entity name spec .type
        (.showing spec.type (.invalidColumnType name spec.type (some entity)))
  | default {type : ColumnType} {v : Value} {reason : String} :
      type.SpelledBy spec.type → spec.default = some v →
      Literal.Refused type spec.acceptsNull v reason →
      Refused entity name spec .default
        (.showing v (.invalidLiteral "default" name type.describe v reason (some entity)))
  | sample {type : ColumnType} {v : Value} {reason : String} :
      type.SpelledBy spec.type → spec.sample = some v → Literal.Refused type true v reason →
      Refused entity name spec .sample
        (.showing v (.invalidLiteral "example" name type.describe v reason (some entity)))
  | clockType {type : ColumnType} :
      spec.db.defaultNow = true → type.SpelledBy spec.type → type ≠ .primitive .date →
      Refused entity name spec .clockType (.defaultNowType entity name type.describe)
  | clockDefault {v : Value} :
      spec.db.defaultNow = true → spec.default = some v →
      Refused entity name spec .clockDefault (.defaultNowAndDefault entity name)
  | primaryNull :
      spec.db.primary = true → spec.acceptsNull = true →
      Refused entity name spec .primaryNull (.nullablePrimaryKey entity name)

/-- The error of a column: that of the first check that gives one. -/
def Reported (entity : String) (column : String × ColumnSpecification) : EntityError → Prop :=
  FirstError (Refused entity column.1 column.2) ColumnCheck.inOrder

end ColumnSpecification

/-- A column as it is specified: under the same name, of the spelled type, with the same settings,
and with what is kept of its default and example. -/
structure Column.Follows (column : String × Column) (given : String × ColumnSpecification) :
    Prop where
  name : column.1 = given.1
  type : column.2.type.SpelledBy given.2.type
  settings : column.2 = given.2.freeze column.2.type column.2.default column.2.sample
  default : Option.Rel (Literal.Kept column.2.type) given.2.default column.2.default
  sample : Option.Rel (Literal.Kept column.2.type) given.2.sample column.2.sample

/-! ## Types and literals -/

theorem Primitive.name_of_ofName? {name : String} {p : Primitive} (h : ofName? name = some p) :
    p.name = name := by
  simpa using List.find?_some h

theorem ColumnType.parse_eq_ok_iff {v : Value} {type : ColumnType} :
    parse v = .ok type ↔ type.SpelledBy v := by
  constructor
  · intro h
    induction v using parse.induct generalizing type with
    | case1 t =>
      obtain rfl := Except.ok.inj h
      exact .parsed t
    | case2 name p hp =>
      rw [parse, hp] at h
      obtain rfl := Except.ok.inj h
      rw [← Primitive.name_of_ofName? hp]
      exact .named p
    | case3 name hp => simp [parse, hp] at h
    | case4 key v hkey ih =>
      rw [parse, if_pos hkey, map_eq_ok_iff] at h
      obtain ⟨element, helement, rfl⟩ := h
      exact .arrayOf (List.contains_iff_mem.mp hkey) (ih helement)
    | case5 key v hkey =>
      rw [parse, if_neg hkey] at h
      cases h
    | _ => simp [parse] at h
  · intro h
    induction h with
    | parsed => rfl
    | named p => rw [parse, Primitive.ofName?_name]
    | arrayOf hkey _ ih => simp [parse, hkey, ih, Except.map]

theorem ColumnType.spelledBy_unique {type other : ColumnType} {v : Value} (h : type.SpelledBy v)
    (hother : other.SpelledBy v) : type = other :=
  Except.ok.inj ((parse_eq_ok_iff.mpr h).symm.trans (parse_eq_ok_iff.mpr hother))

theorem Literal.mismatch?_eq_some_iff {type : ColumnType} {v : Value} {reason : Mismatch} :
    mismatch? type v = some reason ↔ read type v = .error reason := by
  rw [mismatch?]
  cases read type v <;> simp

namespace ColumnSpecification

theorem buildLiteral_eq_error_iff {entity name role : String} {type : ColumnType}
    {acceptsNull : Bool} {v : Value} {error : EntityError} :
    buildLiteral entity name role type acceptsNull v = .error error ↔
      ∃ reason, Literal.Refused type acceptsNull v reason ∧
        error = .showing v (.invalidLiteral role name type.describe v reason (some entity)) := by
  by_cases hnull : v = .null
  · subst hnull
    cases acceptsNull with
    | true =>
      refine ⟨nofun, ?_⟩
      rintro ⟨_, ⟨⟨⟩⟩ | ⟨hne, -⟩, -⟩
      exact absurd rfl hne
    | false =>
      rw [buildLiteral, if_neg Bool.false_ne_true, Except.error.injEq]
      constructor
      · rintro rfl
        exact ⟨_, .null rfl, rfl⟩
      · rintro ⟨_, - | ⟨hne, -⟩, rfl⟩
        · rfl
        · exact absurd rfl hne
  · have hread : buildLiteral entity name role type acceptsNull v =
        (Literal.read type v).mapError fun reason ↦
          .showing v (.invalidLiteral role name type.describe v reason.message (some entity)) := by
      cases v <;> first | rfl | exact absurd rfl hnull
    rw [hread, mapError_eq_error_iff]
    constructor
    · rintro ⟨reason, hreason, rfl⟩
      exact ⟨_, .mismatch hnull (Literal.mismatch?_eq_some_iff.mpr hreason), rfl⟩
    · rintro ⟨_, - | ⟨-, hreason⟩, rfl⟩
      · exact absurd rfl hnull
      · exact ⟨_, Literal.mismatch?_eq_some_iff.mp hreason, rfl⟩

variable {entity name : String} {spec : ColumnSpecification} {type : ColumnType}

/-- A default or example that may be absent is checked if it is given. -/
theorem buildLiteral?_eq_error_iff {role : String} {acceptsNull : Bool} {given : Option Value}
    {error : EntityError} :
    buildLiteral? entity name role type acceptsNull given = .error error ↔
      ∃ v reason, given = some v ∧ Literal.Refused type acceptsNull v reason ∧
        error = .showing v (.invalidLiteral role name type.describe v reason (some entity)) := by
  cases given with
  | none => simp [buildLiteral?]
  | some v =>
    simp only [buildLiteral?, map_eq_error_iff, buildLiteral_eq_error_iff, Option.some.injEq]
    constructor
    · rintro ⟨reason, hreason, rfl⟩
      exact ⟨v, reason, rfl, hreason, rfl⟩
    · rintro ⟨_, reason, rfl, hreason, rfl⟩
      exact ⟨reason, hreason, rfl⟩

theorem isSome_of_buildLiteral? {role : String} {acceptsNull : Bool} {given : Option Value}
    {kept : Option Json}
    (h : buildLiteral? entity name role type acceptsNull given = .ok kept) :
    kept.isSome = given.isSome := by
  rcases buildLiteral?_eq_ok_iff.mp h with ⟨rfl, rfl⟩ | ⟨v, value, rfl, rfl, -⟩ <;> rfl

/-! ## Steps of a build -/

theorem reports_name : Reports (Refused entity name spec) [.name]
    (if Naming.isColumnName name = false then .error (.columnName entity name) else .ok ()) := by
  refine .of_condition fun error ↦ ⟨?_, ?_⟩
  · rintro ⟨hname⟩
    exact ⟨hname, rfl⟩
  · rintro ⟨hname, rfl⟩
    exact .name hname

theorem reports_type : Reports (Refused entity name spec) [.type]
    ((ColumnType.parse spec.type).mapError fun _ ↦
      EntityError.showing spec.type (.invalidColumnType name spec.type (some entity))) := by
  refine .of_check fun error ↦ ?_
  rw [mapError_eq_error_iff]
  constructor
  · rintro ⟨fault, hfault, rfl⟩
    refine .type fun type hspelled ↦ ?_
    rw [ColumnType.parse_eq_ok_iff.mpr hspelled] at hfault
    cases hfault
  · rintro (_ | hunspelled)
    cases hparse : ColumnType.parse spec.type with
    | error fault => exact ⟨fault, rfl, rfl⟩
    | ok type => exact absurd (ColumnType.parse_eq_ok_iff.mp hparse) (hunspelled type)

section Spelled

variable (htype : type.SpelledBy spec.type)

include htype

theorem reports_default : Reports (Refused entity name spec) [.default]
    (buildLiteral? entity name "default" type spec.acceptsNull spec.default) := by
  refine .of_check fun error ↦ ?_
  rw [buildLiteral?_eq_error_iff]
  constructor
  · rintro ⟨v, reason, hv, hreason, rfl⟩
    exact .default htype hv hreason
  · rintro (_ | _ | ⟨hother, hv, hreason⟩)
    obtain rfl := ColumnType.spelledBy_unique htype hother
    exact ⟨_, _, hv, hreason, rfl⟩

theorem reports_sample : Reports (Refused entity name spec) [.sample]
    (buildLiteral? entity name "example" type true spec.sample) := by
  refine .of_check fun error ↦ ?_
  rw [buildLiteral?_eq_error_iff]
  constructor
  · rintro ⟨v, reason, hv, hreason, rfl⟩
    exact .sample htype hv hreason
  · rintro (_ | _ | _ | ⟨hother, hv, hreason⟩)
    obtain rfl := ColumnType.spelledBy_unique htype hother
    exact ⟨_, _, hv, hreason, rfl⟩

theorem reports_clockType : Reports (Refused entity name spec) [.clockType]
    (if spec.db.defaultNow = true ∧ type ≠ .primitive .date then
      .error (.defaultNowType entity name type.describe) else .ok ()) := by
  refine .of_condition fun error ↦ ⟨?_, ?_⟩
  · rintro (_ | _ | _ | _ | ⟨hnow, hother, hdate⟩)
    obtain rfl := ColumnType.spelledBy_unique htype hother
    exact ⟨⟨hnow, hdate⟩, rfl⟩
  · rintro ⟨⟨hnow, hdate⟩, rfl⟩
    exact .clockType hnow htype hdate

end Spelled

theorem reports_clockDefault : Reports (Refused entity name spec) [.clockDefault]
    (if spec.db.defaultNow = true ∧ spec.default.isSome = true then
      .error (.defaultNowAndDefault entity name) else .ok ()) := by
  refine .of_condition fun error ↦ ⟨?_, ?_⟩
  · rintro (_ | _ | _ | _ | _ | ⟨hnow, hv⟩)
    exact ⟨⟨hnow, Option.isSome_iff_exists.mpr ⟨_, hv⟩⟩, rfl⟩
  · rintro ⟨⟨hnow, hsome⟩, rfl⟩
    obtain ⟨v, hv⟩ := Option.isSome_iff_exists.mp hsome
    exact .clockDefault hnow hv

theorem reports_primaryNull : Reports (Refused entity name spec) [.primaryNull]
    (if spec.db.primary = true ∧ spec.acceptsNull = true then
      .error (.nullablePrimaryKey entity name) else .ok ()) := by
  refine .of_condition fun error ↦ ⟨?_, ?_⟩
  · rintro (_ | _ | _ | _ | _ | _ | ⟨hprimary, hnull⟩)
    exact ⟨⟨hprimary, hnull⟩, rfl⟩
  · rintro ⟨⟨hprimary, hnull⟩, rfl⟩
    exact .primaryNull hprimary hnull

theorem reports_checkFlags (htype : type.SpelledBy spec.type) {default : Option Json}
    (hdefault : default.isSome = spec.default.isSome) :
    Reports (Refused entity name spec) [.clockType, .clockDefault, .primaryNull]
      (checkFlags entity name spec type default) := by
  have hsteps : checkFlags entity name spec type default =
      ((if spec.db.defaultNow = true ∧ type ≠ .primitive .date then
          .error (.defaultNowType entity name type.describe) else .ok ()) >>= fun _ : Unit ↦
        (if spec.db.defaultNow = true ∧ spec.default.isSome = true then
          .error (.defaultNowAndDefault entity name) else .ok ()) >>= fun _ : Unit ↦
        if spec.db.primary = true ∧ spec.acceptsNull = true then
          .error (.nullablePrimaryKey entity name) else .ok ()) := by
    rw [← hdefault]
    unfold checkFlags
    by_cases hnow : spec.db.defaultNow = true <;> by_cases hdate : type = .primitive .date <;>
      cases default <;> simp [hnow, hdate, pure, Except.pure, bind, Except.bind]
  rw [hsteps]
  exact (reports_clockType htype).bind fun _ _ ↦
    reports_clockDefault.bind fun _ _ ↦ reports_primaryNull

/-- The errors of a column are those of its checks in their order. -/
theorem reports_build :
    Reports (Refused entity name spec) ColumnCheck.inOrder (spec.build entity name) := by
  have hsteps : spec.build entity name =
      ((if Naming.isColumnName name = false then .error (.columnName entity name) else .ok ()) >>=
        fun _ : Unit ↦
      (ColumnType.parse spec.type).mapError
        (fun _ ↦ EntityError.showing spec.type (.invalidColumnType name spec.type (some entity))) >>=
          fun type ↦
      buildLiteral? entity name "default" type spec.acceptsNull spec.default >>= fun default ↦
      buildLiteral? entity name "example" type true spec.sample >>= fun sample ↦
      checkFlags entity name spec type default >>= fun _ ↦
      .ok (spec.freeze type default sample)) := by
    unfold build
    cases Naming.isColumnName name <;> rfl
  rw [hsteps]
  refine reports_name.bind fun _ _ ↦ reports_type.bind fun type hparse ↦ ?_
  have htype := ColumnType.parse_eq_ok_iff.mp (mapError_eq_ok_iff.mp hparse)
  exact (reports_default htype).bind fun default hdefault ↦
    (reports_sample htype).bind fun sample _ ↦
      (reports_checkFlags htype (isSome_of_buildLiteral? hdefault)).followed fun _ ↦ ⟨_, rfl⟩

/-- What is kept of a default or example that may be absent. -/
theorem rel_of_buildLiteral? {role : String} {acceptsNull : Bool} {given : Option Value}
    {kept : Option Json}
    (h : buildLiteral? entity name role type acceptsNull given = .ok kept) :
    Option.Rel (Literal.Kept type) given kept := by
  rcases buildLiteral?_eq_ok_iff.mp h with ⟨rfl, rfl⟩ | ⟨v, value, rfl, rfl, hvalue⟩
  · exact .none
  · refine .some ?_
    rcases buildLiteral_eq_ok_iff.mp hvalue with ⟨hnull, -, hkept⟩ | hread
    · exact .inl ⟨hnull, hkept⟩
    · exact .inr hread

theorem follows_of_build {column : String × Column} {given : String × ColumnSpecification}
    (hname : given.1 = column.1) (h : given.2.build entity given.1 = .ok column.2) :
    Column.Follows column given := by
  obtain ⟨-, htype, hdefault, hsample, -, hcolumn⟩ := build_eq_ok_iff.mp h
  exact ⟨hname.symm, ColumnType.parse_eq_ok_iff.mp htype, hcolumn, rel_of_buildLiteral? hdefault,
    rel_of_buildLiteral? hsample⟩

end ColumnSpecification

/-! ## Columns as they are specified -/

theorem Literal.kept_unique {type : ColumnType} {v : Value} {kept other : Json} (h : Kept type v kept)
    (hother : Kept type v other) : kept = other := by
  rcases h with ⟨hnull, rfl⟩ | ⟨hvalue, hread⟩ <;> rcases hother with ⟨hnull', rfl⟩ | ⟨hvalue', hread'⟩
  · rfl
  · exact absurd hnull hvalue'
  · exact absurd hnull' hvalue
  · exact Except.ok.inj (hread.symm.trans hread')

/-- A column that is as it is specified is determined by the specification. -/
theorem Column.follows_unique {column other : String × Column} {given : String × ColumnSpecification}
    (h : Follows column given) (hother : Follows other given) : column = other := by
  have hkept {type : ColumnType} {v : Option Value} {kept kept' : Option Json}
      (h : Option.Rel (Literal.Kept type) v kept) (h' : Option.Rel (Literal.Kept type) v kept') :
      kept = kept' := by
    cases h with
    | none =>
      cases h'
      rfl
    | some hsome =>
      cases h' with
      | some hsome' => exact congrArg some (Literal.kept_unique hsome hsome')
  have htype := ColumnType.spelledBy_unique h.type hother.type
  have hdefault := hother.default
  have hsample := hother.sample
  rw [← htype] at hdefault hsample
  refine Prod.ext (h.name.trans hother.name.symm) ?_
  rw [h.settings, hother.settings, htype, hkept h.default hdefault, hkept h.sample hsample]

end EntityCompiler

import EntityCompiler.Proofs.Json.Order
import EntityCompiler.Proofs.Validation.Literal
import EntityCompiler.Proofs.Value.Respelled

/-!
# Spellings of column types and literals

The two keys that introduce the element type of an array denote the same type, and what is kept of a
literal depends neither on the way its lists and dictionaries are written nor on whether a date is
given as a moment or as its text.  But the text of a moment is only admitted where it is read.
-/

namespace EntityCompiler

namespace ColumnType

/-- One change in the spelling of a column type: the other key of an array type, at any depth. -/
inductive TypeStep : Value → Value → Prop
  | key (element : Value) :
      TypeStep (.dict [(.text "arrayOf", element)]) (.dict [(.text "array_of", element)])
  | element {v w : Value} (key : String) :
      TypeStep v w → TypeStep (.dict [(.text key, v)]) (.dict [(.text key, w)])

theorem toOption_parse_dict (key : String) (element : Value) :
    (parse (.dict [(.text key, element)])).toOption =
      if arrayKeys.contains key = true then (parse element).toOption.map .arrayOf else none := by
  rw [parse]
  by_cases hkey : arrayKeys.contains key = true
  · rw [if_pos hkey, if_pos hkey, toOption_map]
  · rw [if_neg hkey, if_neg hkey]
    rfl

theorem toOption_parse_of_step {v w : Value} (h : TypeStep v w) :
    (parse v).toOption = (parse w).toOption := by
  induction h with
  | key element => rw [toOption_parse_dict, toOption_parse_dict]; rfl
  | element key _ ih => rw [toOption_parse_dict, toOption_parse_dict, ih]

end ColumnType

namespace Literal

/-- One change in the spelling of a literal at the date positions of its type: the text of a moment in
its place. -/
inductive DateStep : ColumnType → Value → Value → Prop
  | moment (t : Moment) : DateStep (.primitive .date) (.moment t) (.text t.isoText)
  | item {element : ColumnType} {v w : Value} (before after : List Value) : DateStep element v w →
      DateStep (.arrayOf element) (.list (before ++ v :: after)) (.list (before ++ w :: after))
  | component {element : ColumnType} {v w : Value} (before after : List Value) :
      DateStep element v w →
      DateStep (.arrayOf element) (.tuple (before ++ v :: after)) (.tuple (before ++ w :: after))

theorem DateStep.ne_null {type : ColumnType} {v w : Value} (h : DateStep type v w) :
    v ≠ .null ∧ w ≠ .null := by
  cases h <;> simp

theorem toOption_readElements (read : Value → Except Mismatch Json) (index : Nat)
    (items : List Value) :
    (readElements read index items).toOption = items.mapM fun item ↦ (read item).toOption := by
  induction items generalizing index with
  | nil => rfl
  | cons item items ih =>
    rw [List.mapM_cons, ← ih (index + 1), readElements]
    cases read item with
    | error reason => rfl
    | ok value => cases readElements read (index + 1) items <;> rfl

theorem toOption_read_arrayOf (element : ColumnType) (v : Value) :
    (read (.arrayOf element) v).toOption = v.items?.bind fun items ↦
      (items.mapM fun item ↦ (read element item).toOption).map .array := by
  rw [read]
  cases v.items? with
  | none => rfl
  | some items => rw [Option.bind_some, ← toOption_readElements (read element) 0, ← toOption_map]

theorem toOption_readScalar_json (v : Value) : (readScalar .json v).toOption = v.toJson? := by
  rw [readScalar]
  cases v.toJson? <;> rfl

/-- What is kept of a literal if the texts of its dates are admitted, whether or not they are read. -/
def spelled? : ColumnType → Value → Option Json
  | .primitive .date, .text s => some (.text s)
  | .primitive p, v => (readScalar p v).toOption
  | .arrayOf element, v => v.items?.bind fun items ↦ (items.mapM (spelled? element)).map .array

theorem spelled?_json (v : Value) : spelled? (.primitive .json) v = v.toJson? := by
  rw [spelled?, toOption_readScalar_json]
  nofun

/-- Whether the texts at the date positions of a literal are read. -/
def datesRead : ColumnType → Value → Bool
  | .primitive .date, .text s => (Instant.read s).toOption.isSome
  | .primitive _, _ => true
  | .arrayOf element, v => (v.items?.getD []).all (datesRead element)

theorem readScalar_eq_ok_iff_spelled {p : Primitive} {v : Value} {value : Json} :
    readScalar p v = .ok value ↔
      spelled? (.primitive p) v = some value ∧ datesRead (.primitive p) v = true := by
  cases p with
  | date =>
    cases v with
    | text s => cases hread : Instant.read s <;> simp [readScalar, spelled?, datesRead, hread,
        Except.toOption]
    | _ => simp [spelled?, datesRead, toOption_eq_some_iff]
  | _ => simp [spelled?, datesRead, toOption_eq_some_iff]

/-- A literal is admitted if it is one but for the texts of its dates, and these are read. -/
theorem read_eq_ok_iff_spelled {type : ColumnType} {v : Value} {value : Json} :
    read type v = .ok value ↔ spelled? type v = some value ∧ datesRead type v = true := by
  induction type generalizing v value with
  | primitive p => exact readScalar_eq_ok_iff_spelled
  | arrayOf element ih =>
    cases hitems : v.items? with
    | none => simp [read, spelled?, hitems]
    | some items =>
      have hread (values : List Json) :
          List.Forall₂ (fun item value ↦ read element item = .ok value) items values ↔
            items.mapM (spelled? element) = some values ∧
              ∀ item ∈ items, datesRead element item = true := by
        rw [mapM_eq_some_iff, and_comm, ← List.forall₂_and_left]
        exact forall₂_iff_of_forall_mem fun item _ value ↦ ih.trans and_comm
      simp only [read_arrayOf_eq_ok_iff, hitems, Option.some.injEq, exists_and_left, exists_eq_left',
        hread, spelled?, Option.bind_some, Option.map_eq_some_iff, datesRead, Option.getD_some,
        List.all_eq_true]
      constructor
      · rintro ⟨values, ⟨hvalues, hdates⟩, rfl⟩
        exact ⟨⟨values, hvalues, rfl⟩, hdates⟩
      · rintro ⟨⟨values, hvalues, rfl⟩, hdates⟩
        exact ⟨values, ⟨hvalues, hdates⟩, rfl⟩

/-- The spelling of a literal changes what is kept of it in the order of members only. -/
theorem rel_spelled?_of_step {v w : Value} (h : Value.LiteralStep v w) (type : ColumnType) :
    Option.Rel Json.Reordered (spelled? type v) (spelled? type w) := by
  have hrefl (type : ColumnType) (v : Value) :
      Option.Rel Json.Reordered (spelled? type v) (spelled? type v) :=
    rel_of_eq Json.Reordered.refl rfl
  have hscalar (p : Primitive) {v w : Value} (h : Value.LiteralStep v w) :
      Option.Rel Json.Reordered (spelled? (.primitive p) v) (spelled? (.primitive p) w) := by
    cases p with
    | json =>
      rw [spelled?_json, spelled?_json]
      exact Value.rel_toJson?_of_step h
    | _ => cases h <;> exact .none
  induction h generalizing type with
  | tuple items =>
    cases type with
    | primitive p => exact hscalar p (.tuple items)
    | arrayOf element => exact hrefl (.arrayOf element) (.list items)
  | permutation hperm =>
    cases type with
    | primitive p => exact hscalar p (.permutation hperm)
    | arrayOf element => exact .none
  | item before after hstep ih =>
    cases type with
    | primitive p => exact hscalar p (.item before after hstep)
    | arrayOf element =>
      refine rel_map (fun _ _ ↦ Json.Reordered.array) (rel_mapM ?_)
      exact forall₂_replace (hrefl element) before after (ih element)
  | component before after hstep ih =>
    cases type with
    | primitive p => exact hscalar p (.component before after hstep)
    | arrayOf element =>
      refine rel_map (fun _ _ ↦ Json.Reordered.array) (rel_mapM ?_)
      exact forall₂_replace (hrefl element) before after (ih element)
  | entry before key after hstep _ =>
    cases type with
    | primitive p => exact hscalar p (.entry before key after hstep)
    | arrayOf element => exact .none

/-- The same is kept of a moment and of its text, where that is admitted. -/
theorem spelled?_of_dateStep {type : ColumnType} {v w : Value} (h : DateStep type v w) :
    spelled? type v = spelled? type w := by
  induction h with
  | moment t => rfl
  | item before after _ ih => simp [spelled?, Value.items?, List.mapM_append, List.mapM_cons, ih]
  | component before after _ ih => simp [spelled?, Value.items?, List.mapM_append, List.mapM_cons, ih]

/-- Literals of which the same is kept for a column type, up to the order of members, where the texts of
their dates are read. -/
structure Alike (type : ColumnType) (v w : Value) : Prop where
  null : v = .null ↔ w = .null
  spelled : Option.Rel Json.Reordered (spelled? type v) (spelled? type w)

theorem Alike.refl (type : ColumnType) (v : Value) : Alike type v v :=
  ⟨Iff.rfl, rel_of_eq Json.Reordered.refl rfl⟩

theorem Alike.symm {type : ColumnType} {v w : Value} (h : Alike type v w) : Alike type w v :=
  ⟨h.null.symm, rel_symm (fun _ _ hvalue ↦ hvalue.symm) h.spelled⟩

theorem Alike.trans {type : ColumnType} {u v w : Value} (huv : Alike type u v)
    (hvw : Alike type v w) : Alike type u w :=
  ⟨huv.null.trans hvw.null, rel_trans (fun _ _ _ hab hbc ↦ hab.trans hbc) huv.spelled hvw.spelled⟩

theorem alike_of_literalStep {v w : Value} (h : Value.LiteralStep v w) (type : ColumnType) :
    Alike type v w :=
  ⟨iff_of_false h.ne_null.1 h.ne_null.2, rel_spelled?_of_step h type⟩

theorem alike_of_dateStep {type : ColumnType} {v w : Value} (h : DateStep type v w) :
    Alike type v w :=
  ⟨iff_of_false h.ne_null.1 h.ne_null.2, rel_of_eq Json.Reordered.refl (spelled?_of_dateStep h)⟩

/-- The order of members does not bear on the texts of dates. -/
theorem readable_eq_of_reordered {a b : Json} (h : a.Reordered b) (type : ColumnType) :
    readable type a = readable type b := by
  induction h generalizing type with
  | refl value => rfl
  | symm _ ih => exact (ih type).symm
  | trans _ _ ihab ihbc => exact (ihab type).trans (ihbc type)
  | permutation _ =>
    cases type with
    | primitive p => cases p <;> rfl
    | arrayOf element => rfl
  | item before after _ ih =>
    cases type with
    | primitive p => cases p <;> rfl
    | arrayOf element =>
      rw [Bool.eq_iff_iff, readable_arrayOf_iff, readable_arrayOf_iff]
      simp only [List.forall_mem_append, List.forall_mem_cons, ih]
  | member before key after _ _ =>
    cases type with
    | primitive p => cases p <;> rfl
    | arrayOf element => rfl

/-- A literal of which something is kept whose dates can be read has readable texts at its dates. -/
theorem datesRead_of_readable {type : ColumnType} {v : Value} {value : Json}
    (h : spelled? type v = some value) (hreadable : readable type value = true) :
    datesRead type v = true := by
  induction type generalizing v value with
  | primitive p =>
    cases p with
    | date =>
      cases v with
      | text s =>
        obtain rfl := Option.some.inj h
        obtain ⟨t, ht⟩ := readable_text_iff.mp hreadable
        simp [datesRead, ht, Except.toOption]
      | _ => rfl
    | _ => rfl
  | arrayOf element ih =>
    obtain ⟨items, hitems, hmap⟩ := Option.bind_eq_some_iff.mp h
    obtain ⟨values, hvalues, rfl⟩ := Option.map_eq_some_iff.mp hmap
    rw [readable_arrayOf_iff] at hreadable
    rw [datesRead, hitems, Option.getD_some, List.all_eq_true]
    intro item hitem
    obtain ⟨value, hvalue, hspelled⟩ :=
      exists_of_forall₂_of_mem (mapM_eq_some_iff.mp hvalues).flip hitem
    exact ih hspelled (hreadable value hvalue)

end Literal

end EntityCompiler

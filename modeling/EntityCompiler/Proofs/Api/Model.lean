import EntityCompiler.Api.Model
import EntityCompiler.Proofs.Json.Alike
import EntityCompiler.Proofs.Json.Order

/-!
# Dumps of models

What is dumped for a model has the fields that are not null, each with what is dumped for it.  A plain value
is dumped as it is, so the nulls in it are kept.
-/

namespace EntityCompiler.Api.Model

variable {members others : List (String × Model)} {key : String} {value : Json}

theorem isNull_plain_iff : (Model.plain value).isNull = true ↔ value = .null := by
  cases value <;> simp [isNull]

theorem dumpFields_eq_map (members : List (String × Model)) : dumpFields members =
    (members.filter fun member ↦ !member.2.isNull).map fun member ↦ (member.1, member.2.dump) := by
  induction members with
  | nil => rfl
  | cons member members ih =>
    rw [dumpFields, List.filter_cons, ih]
    cases member.2.isNull <;> rfl

theorem dumpFields_append (members others : List (String × Model)) :
    dumpFields (members ++ others) = dumpFields members ++ dumpFields others := by
  simp only [dumpFields_eq_map, List.filter_append, List.map_append]

theorem mem_dumpFields_iff : (key, value) ∈ dumpFields members ↔
    ∃ part, (key, part) ∈ members ∧ part.isNull = false ∧ value = part.dump := by
  simp only [dumpFields_eq_map, List.mem_map, List.mem_filter, Bool.not_eq_true', Prod.exists,
    Prod.mk.injEq]
  constructor
  · rintro ⟨_, part, ⟨hmem, hset⟩, rfl, rfl⟩
    exact ⟨part, hmem, hset, rfl⟩
  · rintro ⟨part, hmem, hset, rfl⟩
    exact ⟨key, part, ⟨hmem, hset⟩, rfl, rfl⟩

theorem fst_dumpFields_sublist (members : List (String × Model)) :
    ((dumpFields members).map (·.1)).Sublist (members.map (·.1)) := by
  rw [dumpFields_eq_map, List.map_map]
  exact List.filter_sublist.map _

/-- Under the key of a field, a dumped model has what is dumped for the field unless that is null, and it has
nothing under other keys. -/
theorem member?_dump_fields_iff (hkeys : (members.map (·.1)).Nodup) :
    (Model.fields members).dump.member? key = some value ↔
      ∃ part, (key, part) ∈ members ∧ part.isNull = false ∧ value = part.dump := by
  rw [dump, Json.member?_eq_some_iff (hkeys.sublist (fst_dumpFields_sublist members)),
    mem_dumpFields_iff]

theorem member?_dump_of_mem (hkeys : (members.map (·.1)).Nodup) {part : Model}
    (h : (key, part) ∈ members) : (Model.fields members).dump.member? key = some value ↔
      part.isNull = false ∧ value = part.dump := by
  rw [member?_dump_fields_iff hkeys]
  constructor
  · rintro ⟨found, hfound, hrest⟩
    obtain rfl : found = part := congrArg Prod.snd (List.inj_on_of_nodup_map hkeys hfound h rfl)
    exact hrest
  · exact fun hrest ↦ ⟨part, h, hrest⟩

/-- Whether a last field is null or not does not matter under other keys. -/
theorem member?_dump_append_singleton {last : String} {part : Model} (h : key ≠ last) :
    (Model.fields (members ++ [(last, part)])).dump.member? key =
      (Model.fields members).dump.member? key := by
  have hnone : (dumpFields [(last, part)]).find? (fun member ↦ member.1 = key) = none := by
    refine List.find?_eq_none.mpr fun member hmember hkey ↦ h ?_
    obtain ⟨found, hfound, -⟩ := mem_dumpFields_iff.mp hmember
    rw [← of_decide_eq_true hkey, (Prod.mk.inj (List.mem_singleton.mp hfound)).1]
  rw [dump, dump, dumpFields_append, Json.member?, Json.member?, List.find?_append, hnone,
    Option.or_none]

theorem dumpEntries_eq_map (members : List (String × Model)) :
    dumpEntries members = members.map fun member ↦ (member.1, member.2.dump) := by
  induction members with
  | nil => rfl
  | cons member members ih => rw [dumpEntries, ih, List.map_cons]

theorem dumpItems_eq_map (parts : List Model) : dumpItems parts = parts.map dump := by
  induction parts with
  | nil => rfl
  | cons part parts ih => rw [dumpItems, ih, List.map_cons]

/-! ## Related models -/

open Json

variable {R : Json → Json → Prop}

/-- Whether parts are dumped as related values, and are null together. -/
structure Alike (R : Json → Json → Prop) (m n : Model) : Prop where
  null : m.isNull = n.isNull
  dump : R m.dump n.dump

theorem alike_refl (hR : Congruence R) (m : Model) : m.Alike R m :=
  ⟨rfl, hR.refl m.dump⟩

theorem alike_plain {a b : Json} (hnull : a = .null ↔ b = .null) (h : R a b) :
    (Model.plain a).Alike R (.plain b) :=
  ⟨Bool.eq_iff_iff.mpr (by rw [isNull_plain_iff, isNull_plain_iff, hnull]), h⟩

theorem forall₂_dumpFields
    (h : List.Forall₂ (fun m n ↦ m.1 = n.1 ∧ m.2.Alike R n.2) members others) :
    List.Forall₂ (MemberRel R) (dumpFields members) (dumpFields others) := by
  have hset : List.Forall₂ (fun m n ↦ m.1 = n.1 ∧ m.2.Alike R n.2)
      (members.filter fun member ↦ !member.2.isNull) (others.filter fun member ↦ !member.2.isNull) :=
    List.rel_filter (fun _ _ hmember ↦ by simp [hmember.2.null]) h
  rw [dumpFields_eq_map, dumpFields_eq_map, List.forall₂_map_left_iff, List.forall₂_map_right_iff]
  exact hset.imp fun _ _ hmember ↦ ⟨hmember.1, hmember.2.dump⟩

theorem alike_fields (hR : Congruence R)
    (h : List.Forall₂ (fun m n ↦ m.1 = n.1 ∧ m.2.Alike R n.2) members others) :
    (Model.fields members).Alike R (.fields others) :=
  ⟨rfl, hR.object (forall₂_dumpFields h)⟩

theorem alike_entries (hR : Congruence R)
    (h : List.Forall₂ (fun m n ↦ m.1 = n.1 ∧ m.2.Alike R n.2) members others) :
    (Model.entries members).Alike R (.entries others) := by
  refine ⟨rfl, ?_⟩
  rw [dump, dump, dumpEntries_eq_map, dumpEntries_eq_map]
  refine hR.object ?_
  rw [List.forall₂_map_left_iff, List.forall₂_map_right_iff]
  exact h.imp fun m n hmember ↦ ⟨hmember.1, hmember.2.dump⟩

end EntityCompiler.Api.Model

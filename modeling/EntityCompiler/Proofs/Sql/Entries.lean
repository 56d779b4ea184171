import Mathlib.Data.List.Nodup
import Mathlib.Tactic

/-!
# Entries with keys

Entries that are asked for one after the other, where an entry whose key exists already is skipped.  In the
end each key that was asked for is there once, with the entry that came first.
-/

namespace EntityCompiler.Sql

variable {α β : Type} [DecidableEq β] {key : α → β} {existing entries : List α} {entry other : α}

/-- The entries of a database after one more is asked for.  It is skipped if its key exists. -/
def keepNew (key : α → β) (existing : List α) (entry : α) : List α :=
  if existing.any (key · = key entry) then existing else existing ++ [entry]

theorem nodup_keepNew (h : (existing.map key).Nodup) : ((keepNew key existing entry).map key).Nodup := by
  unfold keepNew
  split_ifs with hexists
  · exact h
  · have hnew : key entry ∉ existing.map key := by simpa using hexists
    rw [List.map_append, List.map_singleton, List.nodup_append]
    refine ⟨h, List.nodup_singleton _, fun name hname other hother ↦ ?_⟩
    rw [List.mem_singleton.mp hother]
    exact ne_of_mem_of_not_mem hname hnew

theorem mem_of_mem_keepNew (h : other ∈ keepNew key existing entry) : other ∈ existing ∨ other = entry := by
  unfold keepNew at h
  split_ifs at h
  · exact .inl h
  · simpa using h

/-- However the execution begins, no key occurs twice in the end. -/
theorem nodup_foldl_keepNew (h : (existing.map key).Nodup) :
    ((entries.foldl (keepNew key) existing).map key).Nodup := by
  induction entries generalizing existing with
  | nil => exact h
  | cons entry entries ih => exact ih (nodup_keepNew h)

theorem mem_of_mem_foldl_keepNew (h : entry ∈ entries.foldl (keepNew key) existing) :
    entry ∈ existing ∨ entry ∈ entries := by
  induction entries generalizing existing with
  | nil => exact .inl h
  | cons first entries ih =>
    rcases ih h with hexisting | hrest
    · rcases mem_of_mem_keepNew hexisting with hmem | rfl
      · exact .inl hmem
      · exact .inr List.mem_cons_self
    · exact .inr (List.mem_cons_of_mem first hrest)

/-- Nothing is skipped if all keys are different. -/
theorem foldl_keepNew_of_nodup (h : ((existing ++ entries).map key).Nodup) :
    entries.foldl (keepNew key) existing = existing ++ entries := by
  induction entries generalizing existing with
  | nil => simp
  | cons entry entries ih =>
    have hnew : keepNew key existing entry = existing ++ [entry] := by
      rw [List.map_append, List.map_cons, List.nodup_append] at h
      refine if_neg fun hexists ↦ ?_
      obtain ⟨other, hother, hname⟩ := List.any_eq_true.mp hexists
      exact h.2.2 (key other) (List.mem_map_of_mem hother) (key entry) List.mem_cons_self
        (of_decide_eq_true hname)
    rw [List.foldl_cons, hnew, ih (by simpa using h)]
    simp

/-- In the end the keys are those that were there and those that were asked for. -/
theorem mem_map_foldl_keepNew {name : β} : name ∈ (entries.foldl (keepNew key) existing).map key ↔
    name ∈ (existing ++ entries).map key := by
  induction entries generalizing existing with
  | nil => rw [List.foldl_nil, List.append_nil]
  | cons entry entries ih =>
    have hentry : name ∈ (keepNew key existing entry).map key ↔ name ∈ (existing ++ [entry]).map key := by
      unfold keepNew
      split_ifs with hexists
      · have hthere : key entry ∈ existing.map key := by simpa using hexists
        rw [List.map_append, List.map_singleton, List.mem_append, List.mem_singleton]
        exact ⟨.inl, fun hname ↦ hname.elim id fun hsame ↦ hsame ▸ hthere⟩
      · rfl
    rw [List.foldl_cons, ih, List.map_append, List.mem_append, hentry, ← List.mem_append,
      ← List.map_append, List.append_assoc, List.singleton_append]

end EntityCompiler.Sql

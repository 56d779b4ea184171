import EntityCompiler.Proofs.Store.Transparency
import Mathlib.Data.List.Dedup
import Mathlib.Data.List.DropRight

/-!
# What a store remembers

After any history of uses, a store has the definitions built last since it was cleared, as many as
its capacity allows, in the order of their last builds.  What it answers and what it counts follows
from the history alone.
-/

namespace EntityCompiler

/-! ## Last items of lists -/

section Lists

variable {α : Type} {n : Nat} {xs ys : List α}

theorem rtake_append_of_le (h : n ≤ ys.length) : (xs ++ ys).rtake n = ys.rtake n := by
  have hdropped : (xs ++ ys).length - n = xs.length + (ys.length - n) := by
    rw [List.length_append]
    omega
  rw [List.rtake, List.rtake, hdropped, List.drop_length_add_append]

theorem rtake_of_length_le (h : xs.length ≤ n) : xs.rtake n = xs := by
  rw [List.rtake, Nat.sub_eq_zero_of_le h, List.drop_zero]

theorem length_rtake_le (xs : List α) (n : Nat) : (xs.rtake n).length ≤ n := by
  rw [List.rtake, List.length_drop]
  omega

theorem exists_append_rtake (xs : List α) (n : Nat) :
    ∃ older, xs = older ++ xs.rtake n ∧ (older = [] ∨ n ≤ (xs.rtake n).length) := by
  refine ⟨xs.take (xs.length - n), (List.take_append_drop _ _).symm, ?_⟩
  rw [List.rtake, List.length_drop, List.take_eq_nil_iff]
  omega

variable [DecidableEq α] {a : α}

theorem length_le_filter_ne (h : xs.Nodup) (a : α) :
    xs.length ≤ (xs.filter (· ≠ a)).length + 1 := by
  have herase : xs.erase a = xs.filter (· ≠ a) := by
    rw [h.erase_eq_filter]
    exact List.filter_congr fun b _ ↦ by simp [bne, beq_eq_decide]
  rw [← herase, List.length_erase]
  split <;> omega

theorem dedup_append_singleton (xs : List α) (a : α) :
    (xs ++ [a]).dedup = xs.dedup.filter (· ≠ a) ++ [a] := by
  induction xs with
  | nil => rfl
  | cons b xs ih =>
    rw [List.cons_append]
    by_cases hmem : b ∈ xs
    · rw [List.dedup_cons_of_mem (List.mem_append_left [a] hmem), List.dedup_cons_of_mem hmem, ih]
    · rw [List.dedup_cons_of_notMem hmem, List.filter_cons]
      by_cases hsame : b = a
      · rw [List.dedup_cons_of_mem (List.mem_append.mpr (.inr (List.mem_singleton.mpr hsame))), ih]
        simp [hsame]
      · have hnot : b ∉ xs ++ [a] := by simp [hmem, hsame]
        rw [List.dedup_cons_of_notMem hnot, ih]
        simp [hsame]

/-- The last items without one that is put behind them are found among the last items alone. -/
theorem rtake_filter_append (h : xs.Nodup) (n : Nat) (a : α) :
    (xs.filter (· ≠ a) ++ [a]).rtake n = ((xs.rtake n).filter (· ≠ a) ++ [a]).rtake n := by
  obtain ⟨older, hxs, hcase⟩ := exists_append_rtake xs n
  rcases hcase with rfl | hlength
  · rw [List.nil_append] at hxs
    rw [← hxs]
  · have hlast : (xs.rtake n).Nodup := h.sublist (List.drop_sublist _ _)
    have hkept := length_le_filter_ne hlast a
    conv_lhs => rw [hxs, List.filter_append, List.append_assoc]
    apply rtake_append_of_le
    rw [List.length_append, List.length_singleton]
    omega

end Lists

namespace Store

/-! ## Histories -/

/-- What a store is asked to build: the entity of a description or of a specification. -/
inductive Request where
  | description (v : Value)
  | specification (spec : Specification)

/-- The outcome of a build without a store. -/
def Request.result : Request → Except EntityError Entity
  | .description v => Entity.build v
  | .specification spec => spec.build

/-- A use of a store, which may be no more than a look at its counters. -/
inductive Use where
  | build (request : Request)
  | clear
  | info

/-- The store after a use. -/
def use (s : Store) : Use → Store
  | .build request => (s.serve request.result).2
  | .clear => s.clear
  | .info => s

/-- The store after several uses. -/
def after (s : Store) (uses : List Use) : Store :=
  uses.foldl use s

/-- The entity of a use that builds one. -/
def Use.accepted? : Use → Option Entity
  | .build request => request.result.toOption
  | .clear => none
  | .info => none

def Use.clears : Use → Bool
  | .clear => true
  | .build _ => false
  | .info => false

/-- The entities built by some uses, in order. -/
def accepted (uses : List Use) : List Entity :=
  uses.filterMap Use.accepted?

/-- The uses since the store was cleared. -/
def sinceClear (uses : List Use) : List Use :=
  uses.rtakeWhile fun use ↦ !use.clears

/-- The fingerprints built last since the store was cleared, at most `n` of them, each at the place
of its last build. -/
def recent (n : Nat) (uses : List Use) : List String :=
  ((accepted (sinceClear uses)).map (·.fingerprint)).dedup.rtake n

variable {s : Store} {n : Nat} {uses before later : List Use} {request : Request} {e : Entity}
  {error : EntityError} {stored : Stored} {f : String}

theorem after_append (s : Store) (uses : List Use) (last : Use) :
    s.after (uses ++ [last]) = (s.after uses).use last := by
  rw [after, List.foldl_append]
  rfl

theorem accepted_append (uses : List Use) (last : Use) :
    accepted (uses ++ [last]) = accepted uses ++ last.accepted?.toList := by
  rw [accepted, List.filterMap_append]
  cases h : last.accepted? <;> simp [accepted, h]

theorem accepted_build (h : request.result = .ok e) (uses : List Use) :
    accepted (uses ++ [.build request]) = accepted uses ++ [e] := by
  rw [accepted_append, Use.accepted?, h]
  rfl

theorem accepted_of_none {last : Use} (h : last.accepted? = none) (uses : List Use) :
    accepted (uses ++ [last]) = accepted uses := by
  rw [accepted_append, h]
  exact List.append_nil _

theorem accepted?_of_error (h : request.result = .error error) :
    (Use.build request).accepted? = none := by
  rw [Use.accepted?, h]
  rfl

theorem sinceClear_append {last : Use} (h : last.clears = false) (uses : List Use) :
    sinceClear (uses ++ [last]) = sinceClear uses ++ [last] :=
  List.rtakeWhile_concat_pos _ _ _ (by simp [h])

theorem sinceClear_clear (uses : List Use) : sinceClear (uses ++ [.clear]) = [] :=
  List.rtakeWhile_concat_neg _ _ _ (by simp [Use.clears])

/-! ## Recent fingerprints -/

theorem length_recent_le (n : Nat) (uses : List Use) : (recent n uses).length ≤ n :=
  length_rtake_le _ n

theorem nodup_recent (n : Nat) (uses : List Use) : (recent n uses).Nodup :=
  (List.nodup_dedup _).sublist (List.drop_sublist _ _)

theorem recent_build (h : request.result = .ok e) (n : Nat) (uses : List Use) :
    recent n (uses ++ [.build request]) =
      ((recent n uses).filter (· ≠ e.fingerprint) ++ [e.fingerprint]).rtake n := by
  rw [recent, sinceClear_append rfl, accepted_build h, List.map_append, List.map_singleton,
    dedup_append_singleton]
  exact rtake_filter_append (List.nodup_dedup _) n e.fingerprint

theorem recent_of_none {last : Use} (hkept : last.clears = false) (hnone : last.accepted? = none)
    (n : Nat) (uses : List Use) : recent n (uses ++ [last]) = recent n uses := by
  rw [recent, sinceClear_append hkept, accepted_of_none hnone, recent]

theorem recent_clear (n : Nat) (uses : List Use) : recent n (uses ++ [.clear]) = [] := by
  rw [recent, sinceClear_clear]
  exact List.rtake_nil n

theorem recent_zero (uses : List Use) : recent 0 uses = [] :=
  List.rtake_zero _

/-- A fingerprint that is built again goes to the end. -/
theorem recent_build_of_mem (h : request.result = .ok e) (hmem : e.fingerprint ∈ recent n uses) :
    recent n (uses ++ [.build request]) =
      (recent n uses).filter (· ≠ e.fingerprint) ++ [e.fingerprint] := by
  have hdropped : ((recent n uses).filter (· ≠ e.fingerprint)).length < (recent n uses).length :=
    List.length_filter_lt_length_iff_exists.mpr ⟨e.fingerprint, hmem, by simp⟩
  have hlength := length_recent_le n uses
  rw [recent_build h]
  apply rtake_of_length_le
  rw [List.length_append, List.length_singleton]
  omega

/-- A fingerprint that has not been built of late is put at the end. -/
theorem recent_build_of_notMem (h : request.result = .ok e)
    (hmem : e.fingerprint ∉ recent n uses) :
    recent n (uses ++ [.build request]) = (recent n uses ++ [e.fingerprint]).rtake n := by
  have hkept : (recent n uses).filter (· ≠ e.fingerprint) = recent n uses :=
    List.filter_eq_self.mpr fun f hf ↦ decide_eq_true fun hsame ↦ hmem (hsame ▸ hf)
  rw [recent_build h, hkept]

theorem mem_recent_build (h : request.result = .ok e) (hn : n ≠ 0) (uses : List Use) :
    e.fingerprint ∈ recent n (uses ++ [.build request]) := by
  obtain ⟨m, rfl⟩ := Nat.exists_eq_succ_of_ne_zero hn
  rw [recent_build h, List.rtake_concat_succ]
  exact List.mem_append_right _ List.mem_cons_self

/-! ## Origins of definitions -/

/-- Whether a definition was put into a store with room for `n` definitions by a build that did not
find its fingerprint, and has stayed there ever since. -/
def PutBy (n : Nat) (uses : List Use) (stored : Stored) : Prop :=
  ∃ before request later, uses = before ++ .build request :: later ∧
    request.result = .ok stored.entity ∧ stored.serial = (accepted before).length ∧
    stored.entity.fingerprint ∉ recent n before ∧
    ∀ used, used <+: later → stored.entity.fingerprint ∈ recent n (before ++ .build request :: used)

theorem PutBy.append {last : Use} (h : PutBy n uses stored)
    (hmem : stored.entity.fingerprint ∈ recent n (uses ++ [last])) :
    PutBy n (uses ++ [last]) stored := by
  obtain ⟨before, request, later, rfl, hresult, hserial, hnew, hkept⟩ := h
  refine ⟨before, request, later ++ [last], by simp, hresult, hserial, hnew, fun used hused ↦ ?_⟩
  rcases List.prefix_concat_iff.mp hused with rfl | hprefix
  · simpa using hmem
  · exact hkept used hprefix

theorem putBy_build (h : request.result = .ok stored.entity) (hn : n ≠ 0)
    (hserial : stored.serial = (accepted uses).length)
    (hnew : stored.entity.fingerprint ∉ recent n uses) :
    PutBy n (uses ++ [.build request]) stored := by
  refine ⟨uses, request, [], rfl, h, hserial, hnew, fun used hused ↦ ?_⟩
  obtain rfl := List.prefix_nil.mp hused
  exact mem_recent_build h hn uses

/-! ## Steps -/

/-- What a store with room for `n` definitions has after some uses. -/
structure Remembers (s : Store) (n : Nat) (uses : List Use) : Prop where
  capacity : s.capacity = n
  order : s.entries.map (·.entity.fingerprint) = recent n uses
  counted : s.hits + s.misses = if n = 0 then 0 else (accepted (sinceClear uses)).length
  built : s.built = (accepted uses).length
  origins : ∀ stored ∈ s.entries, PutBy n uses stored

theorem remembers_ofCapacity (capacity : Int) :
    (ofCapacity capacity).Remembers capacity.toNat [] where
  capacity := rfl
  order := (List.rtake_nil _).symm
  counted := (ite_self 0).symm
  built := rfl
  origins _ hmem := absurd hmem List.not_mem_nil

section Remembers

variable (h : s.Remembers n uses)
include h

theorem Remembers.mem_recent (hmem : stored ∈ s.entries) :
    stored.entity.fingerprint ∈ recent n uses :=
  h.order ▸ List.mem_map_of_mem hmem

theorem Remembers.length_entries : s.entries.length ≤ n := by
  have hlength := congrArg List.length h.order
  rw [List.length_map] at hlength
  exact hlength ▸ length_recent_le n uses

theorem Remembers.find?_eq_none (hf : f ∉ recent n uses) : s.find? f = none := by
  apply List.find?_eq_none.mpr
  intro stored hmem hsame
  exact hf (of_decide_eq_true hsame ▸ h.mem_recent hmem)

theorem Remembers.find?_eq_some (hf : f ∈ recent n uses) : ∃ stored, s.find? f = some stored := by
  rw [← h.order] at hf
  obtain ⟨other, hmem, hsame⟩ := List.mem_map.mp hf
  apply Option.isSome_iff_exists.mp
  exact List.find?_isSome.mpr ⟨other, hmem, decide_eq_true hsame⟩

/-- Definitions that stay in a store through a use were put there by the same builds. -/
theorem Remembers.origins_append {last : Use} {next : Store}
    (horder : next.entries.map (·.entity.fingerprint) = recent n (uses ++ [last]))
    (hnext : ∀ stored ∈ next.entries, stored ∈ s.entries ∨ PutBy n (uses ++ [last]) stored) :
    ∀ stored ∈ next.entries, PutBy n (uses ++ [last]) stored := by
  intro stored hmem
  rcases hnext stored hmem with hkept | hput
  · apply (h.origins stored hkept).append
    rw [← horder]
    exact List.mem_map_of_mem hmem
  · exact hput

/-- A use that builds nothing and clears nothing leaves everything as it is. -/
theorem Remembers.unchanged {last : Use} (hkept : last.clears = false)
    (hnone : last.accepted? = none) : s.Remembers n (uses ++ [last]) := by
  have horder := h.order.trans (recent_of_none hkept hnone n uses).symm
  refine ⟨h.capacity, horder, ?_, ?_, h.origins_append horder fun _ hmem ↦ .inl hmem⟩
  · rw [sinceClear_append hkept, accepted_of_none hnone]
    exact h.counted
  · rw [accepted_of_none hnone]
    exact h.built

/-- Nothing is kept where there is no room. -/
theorem Remembers.unstored (hresult : request.result = .ok e) (hn : n = 0) :
    ({ s with built := s.built + 1 } : Store).Remembers n (uses ++ [.build request]) := by
  subst hn
  have horder := h.order.trans
    ((recent_zero uses).trans (recent_zero (uses ++ [.build request])).symm)
  refine ⟨h.capacity, horder, h.counted, ?_, h.origins_append horder fun _ hmem ↦ .inl hmem⟩
  rw [accepted_build hresult, List.length_append, ← h.built]
  rfl

theorem Remembers.counted_build (hresult : request.result = .ok e) (hn : n ≠ 0) :
    s.hits + s.misses + 1 =
      if n = 0 then 0 else (accepted (sinceClear (uses ++ [.build request]))).length := by
  rw [h.counted, if_neg hn, if_neg hn, sinceClear_append rfl, accepted_build hresult,
    List.length_append, List.length_singleton]

theorem Remembers.touch (hresult : request.result = .ok e) (hmem : stored ∈ s.entries)
    (hsame : stored.entity.fingerprint = e.fingerprint) :
    (s.touch stored).Remembers n (uses ++ [.build request]) := by
  have hrecent : e.fingerprint ∈ recent n uses := hsame ▸ h.mem_recent hmem
  have hn : n ≠ 0 := by
    rintro rfl
    rw [recent_zero] at hrecent
    exact absurd hrecent List.not_mem_nil
  have horder : (s.touch stored).entries.map (·.entity.fingerprint) =
      recent n (uses ++ [.build request]) := by
    rw [recent_build_of_mem hresult hrecent, ← h.order, List.filter_map, ← hsame]
    exact List.map_append
  have hcounted := h.counted_build hresult hn
  refine ⟨h.capacity, horder, ?_, ?_, h.origins_append horder fun other hother ↦
    .inl (mem_entries_touch hmem hother)⟩
  · rw [← hcounted, Store.touch]
    exact Nat.add_right_comm s.hits 1 s.misses
  · rw [accepted_build hresult, List.length_append, ← h.built]
    rfl

theorem Remembers.insert (hresult : request.result = .ok e) (hn : n ≠ 0)
    (hnew : e.fingerprint ∉ recent n uses) :
    (s.insert e).Remembers n (uses ++ [.build request]) := by
  have horder : (s.insert e).entries.map (·.entity.fingerprint) =
      recent n (uses ++ [.build request]) := by
    rw [recent_build_of_notMem hresult hnew, ← h.order, List.rtake, List.length_append,
      List.length_map, ← h.capacity]
    exact (List.map_drop).trans (congrArg _ List.map_append)
  refine ⟨h.capacity, horder, h.counted_build hresult hn, ?_,
    h.origins_append horder fun other hother ↦ ?_⟩
  · rw [accepted_build hresult, List.length_append, ← h.built]
    rfl
  · rcases mem_entries_insert hother with hkept | rfl
    · exact .inl hkept
    · exact .inr (putBy_build hresult hn h.built hnew)

/-! ## Answers -/

theorem Remembers.serve_of_mem (hf : e.fingerprint ∈ recent n uses) :
    ∃ stored, s.find? e.fingerprint = some stored ∧
      s.serve (.ok e) = (.ok stored, s.touch stored) := by
  have hcapacity : s.capacity ≠ 0 := by
    rw [h.capacity]
    rintro rfl
    rw [recent_zero] at hf
    exact absurd hf List.not_mem_nil
  obtain ⟨stored, hfind⟩ := h.find?_eq_some hf
  refine ⟨stored, hfind, ?_⟩
  rw [serve, add, if_neg hcapacity, hfind]

theorem Remembers.serve_of_notMem (hn : n ≠ 0) (hf : e.fingerprint ∉ recent n uses) :
    s.serve (.ok e) = (.ok (s.fresh e), s.insert e) := by
  have hcapacity : s.capacity ≠ 0 := h.capacity ▸ hn
  rw [serve, add, if_neg hcapacity, h.find?_eq_none hf]

theorem Remembers.serve_of_zero (hn : n = 0) :
    s.serve (.ok e) = (.ok (s.fresh e), { s with built := s.built + 1 }) := by
  rw [serve, add, if_pos (h.capacity.trans hn)]

theorem Remembers.use (last : Use) : (s.use last).Remembers n (uses ++ [last]) := by
  cases last with
  | clear =>
    refine ⟨h.capacity, (recent_clear n uses).symm, ?_, ?_, fun _ hmem ↦ ?_⟩
    · rw [sinceClear_clear]
      exact (ite_self 0).symm
    · rw [accepted_of_none rfl]
      exact h.built
    · exact absurd hmem List.not_mem_nil
  | info => exact h.unchanged rfl rfl
  | build request =>
    rw [Store.use]
    cases hresult : request.result with
    | error error => exact h.unchanged rfl (accepted?_of_error hresult)
    | ok e =>
      by_cases hrecent : e.fingerprint ∈ recent n uses
      · obtain ⟨stored, hfind, hserve⟩ := h.serve_of_mem hrecent
        rw [hserve]
        exact h.touch hresult (List.mem_of_find?_eq_some hfind) (fingerprint_of_find? hfind)
      · by_cases hn : n = 0
        · rw [h.serve_of_zero hn]
          exact h.unstored hresult hn
        · rw [h.serve_of_notMem hn hrecent]
          exact h.insert hresult hn hrecent

end Remembers

theorem remembers_after (capacity : Int) (uses : List Use) :
    ((ofCapacity capacity).after uses).Remembers capacity.toNat uses := by
  induction uses using List.reverseRecOn with
  | nil => exact remembers_ofCapacity capacity
  | append_singleton uses last ih =>
    rw [after_append]
    exact ih.use last

/-- A build that is answered with the definition that the store has under a fingerprint, which
becomes its last one. -/
structure IsHit (s : Store) (e : Entity) (stored : Stored) (next : Store) : Prop where
  found : s.find? e.fingerprint = some stored
  entries : next.entries =
    s.entries.filter (fun x ↦ x.entity.fingerprint ≠ e.fingerprint) ++ [stored]
  hits : next.hits = s.hits + 1
  misses : next.misses = s.misses

/-- A build that puts its own definition at the end of the store.  The first one leaves a full
store. -/
structure IsMiss (s : Store) (stored : Stored) (next : Store) : Prop where
  entries : next.entries =
    (if s.entries.length = s.capacity then s.entries.tail else s.entries) ++ [stored]
  hits : next.hits = s.hits
  misses : next.misses = s.misses + 1

theorem isHit_touch (h : s.find? e.fingerprint = some stored) :
    IsHit s e stored (s.touch stored) where
  found := h
  entries := by
    rw [← fingerprint_of_find? h]
    rfl
  hits := rfl
  misses := rfl

theorem Remembers.isMiss_insert (h : s.Remembers n uses) (hn : n ≠ 0) (e : Entity) :
    IsMiss s (s.fresh e) (s.insert e) where
  entries := by
    have hlength := h.length_entries
    have hcapacity := h.capacity
    change (s.entries ++ [s.fresh e]).drop (s.entries.length + 1 - s.capacity) = _
    by_cases hfull : s.entries.length = s.capacity
    · have hfirst : s.entries ≠ [] := by
        intro hnil
        rw [hnil] at hfull
        exact hn (hcapacity.symm.trans hfull.symm)
      rw [if_pos hfull, hfull, Nat.add_sub_cancel_left, List.drop_one,
        List.tail_append_of_ne_nil hfirst]
    · rw [if_neg hfull, Nat.sub_eq_zero_of_le (by omega), List.drop_zero]
  hits := rfl
  misses := rfl

/-- What a store with some history answers to a build.  A rejected build changes nothing; an
accepted one is a hit exactly when its fingerprint has been built of late, and gives a new definition
otherwise. -/
structure Answers (s : Store) (n : Nat) (uses : List Use) (request : Request) : Prop where
  rejected : ∀ error, request.result = .error error → s.serve request.result = (.error error, s)
  accepted : ∀ e, request.result = .ok e → ∃ stored next,
    s.serve request.result = (.ok stored, next) ∧
      (IsHit s e stored next ↔ e.fingerprint ∈ recent n uses) ∧
      (IsMiss s stored next ↔ n ≠ 0 ∧ e.fingerprint ∉ recent n uses) ∧
      (e.fingerprint ∉ recent n uses → stored = ⟨e, s.built⟩)

theorem Remembers.answers (h : s.Remembers n uses) (request : Request) :
    s.Answers n uses request where
  rejected error hresult := by rw [hresult, serve]
  accepted e hresult := by
    rw [hresult]
    by_cases hrecent : e.fingerprint ∈ recent n uses
    · obtain ⟨stored, hfind, hserve⟩ := h.serve_of_mem hrecent
      have hhit := isHit_touch hfind
      have hnomiss (hmiss : IsMiss s stored (s.touch stored)) : False :=
        absurd (hhit.hits.symm.trans hmiss.hits) (Nat.succ_ne_self s.hits)
      exact ⟨stored, s.touch stored, hserve, iff_of_true hhit hrecent,
        iff_of_false hnomiss fun hnew ↦ hnew.2 hrecent, fun hnew ↦ absurd hrecent hnew⟩
    · have hnohit (stored : Stored) (next : Store) (hhit : IsHit s e stored next) : False := by
        cases (h.find?_eq_none hrecent).symm.trans hhit.found
      by_cases hn : n = 0
      · have hnomiss (hmiss : IsMiss s (s.fresh e) { s with built := s.built + 1 }) : False :=
          absurd hmiss.misses.symm (Nat.succ_ne_self s.misses)
        exact ⟨s.fresh e, _, h.serve_of_zero hn, iff_of_false (hnohit _ _) hrecent,
          iff_of_false hnomiss fun hnew ↦ hnew.1 hn, fun _ ↦ rfl⟩
      · exact ⟨s.fresh e, s.insert e, h.serve_of_notMem hn hrecent,
          iff_of_false (hnohit _ _) hrecent, iff_of_true (h.isMiss_insert hn e) ⟨hn, hrecent⟩,
          fun _ ↦ rfl⟩

/-- After any history of uses, a store has the distinct fingerprints built last since it was cleared,
as many as there is room for, in the order of their last builds, and under each of them the definition
of the build that put it there.  Every accepted build since then counts as a hit or a miss, and the next
build is answered accordingly.  A store without room stays empty and counts nothing. -/
theorem exact_recency (capacity : Int) (uses : List Use) :
    let s := (ofCapacity capacity).after uses
    let n := capacity.toNat
    s.capacity = n ∧ s.entries.length ≤ n ∧
      s.entries.map (·.entity.fingerprint) = recent n uses ∧ (recent n uses).Nodup ∧
      (∀ f, (f ∉ recent n uses → s.find? f = none) ∧
        (f ∈ recent n uses → ∃ stored, s.find? f = some stored ∧
          stored.entity.fingerprint = f ∧ PutBy n uses stored)) ∧
      (0 < capacity → s.hits + s.misses = (accepted (sinceClear uses)).length) ∧
      (capacity ≤ 0 → s.entries = [] ∧ s.hits = 0 ∧ s.misses = 0) ∧
      ∀ request, s.Answers n uses request := by
  intro s n
  have h : s.Remembers n uses := remembers_after capacity uses
  have hcounted := h.counted
  refine ⟨h.capacity, h.length_entries, h.order, nodup_recent n uses,
    fun f ↦ ⟨h.find?_eq_none, fun hf ↦ ?_⟩, fun hroom ↦ ?_, fun hfull ↦ ?_, h.answers⟩
  · obtain ⟨stored, hfind⟩ := h.find?_eq_some hf
    exact ⟨stored, hfind, fingerprint_of_find? hfind,
      h.origins stored (List.mem_of_find?_eq_some hfind)⟩
  · have hn : n ≠ 0 := by omega
    rwa [if_neg hn] at hcounted
  · have hn : n = 0 := by omega
    have hnone : s.entries.length ≤ 0 := hn ▸ h.length_entries
    rw [if_pos hn] at hcounted
    exact ⟨List.eq_nil_of_length_eq_zero (Nat.le_zero.mp hnone), by omega, by omega⟩

/-- A history with an accepted build, a rejected one and a look at the counters. -/
def shortHistory : List Use :=
  [.build (.description (Entity.titled "columns")), .build (.description .null), .info]

theorem exact_recency_titled : ∃ e stored next,
    Entity.build (Entity.titled "columns") = .ok e ∧
      Entity.build (Entity.titled "fields") = .ok e ∧
      let s := (ofCapacity 1).after shortHistory
      s.entries.map (·.entity.fingerprint) = [e.fingerprint] ∧ 0 < (1 : Int) ∧
        s.hits + s.misses = 1 ∧ s.serve (.ok e) = (.ok stored, next) ∧ IsHit s e stored next ∧
        PutBy 1 shortHistory stored := by
  obtain ⟨e, hcolumns, hfields, haccepted⟩ : ∃ e, Entity.build (Entity.titled "columns") = .ok e ∧
      Entity.build (Entity.titled "fields") = .ok e ∧ accepted (sinceClear shortHistory) = [e] :=
    ⟨_, rfl, rfl, rfl⟩
  have hrecent : recent 1 shortHistory = [e.fingerprint] := by
    rw [recent, haccepted]
    rfl
  have hmem : e.fingerprint ∈ recent 1 shortHistory := hrecent ▸ List.mem_cons_self
  obtain ⟨-, -, horder, -, hfinds, hcounted, -, hanswers⟩ := exact_recency 1 shortHistory
  obtain ⟨stored, next, hserve, hhit, -, -⟩ :=
    (hanswers (.description (Entity.titled "fields"))).accepted e hfields
  obtain ⟨found, hfound, -, hput⟩ := (hfinds e.fingerprint).2 hmem
  have hsame : found = stored := Option.some.inj (hfound.symm.trans (hhit.mpr hmem).found)
  refine ⟨e, stored, next, hcolumns, hfields, horder.trans hrecent, Int.one_pos, ?_, ?_,
    hhit.mpr hmem, hsame ▸ hput⟩
  · rw [hcounted Int.one_pos, haccepted]
    rfl
  · rw [← hserve, ← hfields]
    rfl

end Store

end EntityCompiler

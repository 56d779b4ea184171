import Mathlib.Data.List.Perm.Basic
import Mathlib.Tactic

/-!
# Outcomes

When a sequence of steps succeeds, and when two outcomes agree: either both have a result and the
results are related, or neither has one.  Outcomes correspond if they agree and also fail alike.
-/

namespace EntityCompiler

variable {α β γ δ ε : Type}

/-! ## Success -/

theorem bind_eq_ok_iff {x : Except ε α} {f : α → Except ε β} {b : β} :
    (x >>= f) = .ok b ↔ ∃ a, x = .ok a ∧ f a = .ok b := by
  cases x <;> simp [bind, Except.bind]

theorem map_eq_ok_iff {x : Except ε α} {f : α → β} {b : β} :
    x.map f = .ok b ↔ ∃ a, x = .ok a ∧ f a = b := by
  cases x <;> simp [Except.map]

theorem mapError_eq_ok_iff {x : Except ε α} {f : ε → δ} {a : α} :
    x.mapError f = .ok a ↔ x = .ok a := by
  cases x <;> simp [Except.mapError]

theorem map_eq_error_iff {x : Except ε α} {f : α → β} {error : ε} :
    x.map f = .error error ↔ x = .error error := by
  cases x <;> simp [Except.map]

theorem mapError_eq_error_iff {x : Except ε α} {f : ε → δ} {error : δ} :
    x.mapError f = .error error ↔ ∃ found, x = .error found ∧ error = f found := by
  cases x <;> simp [Except.mapError, eq_comm]

theorem bind_eq_error_iff {x : Except ε α} {f : α → Except ε β} {error : ε} :
    (x >>= f) = .error error ↔ x = .error error ∨ ∃ a, x = .ok a ∧ f a = .error error := by
  cases x <;> simp [bind, Except.bind]

theorem error_bind (error : ε) (f : α → Except ε β) : (Except.error error >>= f) = .error error :=
  rfl

theorem toOption_eq_some_iff {x : Except ε α} {a : α} : x.toOption = some a ↔ x = .ok a := by
  cases x <;> simp [Except.toOption]

theorem toOption_map {x : Except ε α} {f : α → β} : (x.map f).toOption = x.toOption.map f := by
  cases x <;> rfl

theorem mapM_eq_some_iff {f : α → Option β} {xs : List α} {ys : List β} :
    xs.mapM f = some ys ↔ List.Forall₂ (fun x y ↦ f x = some y) xs ys := by
  induction xs generalizing ys with
  | nil => simp [eq_comm]
  | cons x xs ih =>
    rw [List.mapM_cons, List.forall₂_cons_left_iff, Option.bind_eq_bind, Option.bind_eq_some_iff]
    simp only [Option.bind_eq_bind, Option.bind_eq_some_iff, Option.pure_def, Option.some.injEq, ih]
    constructor
    · rintro ⟨y, hy, ys, hys, rfl⟩
      exact ⟨y, ys, hy, hys, rfl⟩
    · rintro ⟨y, ys, hy, hys, rfl⟩
      exact ⟨y, hy, ys, hys, rfl⟩

theorem mapM_eq_ok_iff {f : α → Except ε β} {xs : List α} {ys : List β} :
    xs.mapM f = .ok ys ↔ List.Forall₂ (fun x y ↦ f x = .ok y) xs ys := by
  induction xs generalizing ys with
  | nil => simp [pure, Except.pure, eq_comm]
  | cons x xs ih =>
    rw [List.mapM_cons, List.forall₂_cons_left_iff, bind_eq_ok_iff]
    simp only [bind_eq_ok_iff, pure, Except.pure, Except.ok.injEq, ih]
    constructor
    · rintro ⟨y, hy, ys, hys, rfl⟩
      exact ⟨y, ys, hy, hys, rfl⟩
    · rintro ⟨y, ys, hy, hys, rfl⟩
      exact ⟨y, hy, ys, hys, rfl⟩

theorem mapM_congr_of_mem {f g : α → Except ε β} {xs : List α} (h : ∀ x ∈ xs, f x = g x) :
    xs.mapM f = xs.mapM g := by
  induction xs with
  | nil => rfl
  | cons x xs ih =>
    rw [List.forall_mem_cons] at h
    rw [List.mapM_cons, List.mapM_cons, h.1, ih h.2]

theorem findSome?_congr_of_mem {f g : α → Option β} {xs : List α} (h : ∀ x ∈ xs, f x = g x) :
    xs.findSome? f = xs.findSome? g := by
  induction xs with
  | nil => rfl
  | cons x xs ih =>
    rw [List.forall_mem_cons] at h
    rw [List.findSome?_cons, List.findSome?_cons, h.1, ih h.2]

/-- All items of a list have a result exactly when there is a list of results. -/
theorem exists_forall₂_iff {R : α → β → Prop} {xs : List α} :
    (∃ ys, List.Forall₂ R xs ys) ↔ ∀ x ∈ xs, ∃ y, R x y := by
  induction xs with
  | nil => exact ⟨fun _ _ hmem ↦ absurd hmem List.not_mem_nil, fun _ ↦ ⟨[], .nil⟩⟩
  | cons x xs ih =>
    rw [List.forall_mem_cons, ← ih]
    constructor
    · rintro ⟨ys, hys⟩
      cases hys with
      | cons hy hrest => exact ⟨⟨_, hy⟩, _, hrest⟩
    · rintro ⟨⟨y, hy⟩, ys, hys⟩
      exact ⟨y :: ys, .cons hy hys⟩

theorem exists_map_mapM_eq_some_iff {f : α → Option β} {g : List β → γ} {xs : List α} :
    (∃ c, (xs.mapM f).map g = some c) ↔ ∀ x ∈ xs, ∃ y, f x = some y := by
  rw [← exists_forall₂_iff]
  constructor
  · rintro ⟨c, hc⟩
    obtain ⟨ys, hys, -⟩ := Option.map_eq_some_iff.mp hc
    exact ⟨ys, mapM_eq_some_iff.mp hys⟩
  · rintro ⟨ys, hys⟩
    exact ⟨g ys, by rw [mapM_eq_some_iff.mpr hys, Option.map_some]⟩

theorem forall₂_iff_of_forall_mem {R S : α → β → Prop} {xs : List α} {ys : List β}
    (h : ∀ x ∈ xs, ∀ y, R x y ↔ S x y) : List.Forall₂ R xs ys ↔ List.Forall₂ S xs ys := by
  induction xs generalizing ys with
  | nil => simp
  | cons x xs ih =>
    rw [List.forall_mem_cons] at h
    simp only [List.forall₂_cons_left_iff, h.1, ih h.2]

theorem exists_of_forall₂_of_mem {R : α → β → Prop} {xs : List α} {ys : List β}
    (h : List.Forall₂ R xs ys) {y : β} (hy : y ∈ ys) : ∃ x ∈ xs, R x y := by
  induction h with
  | nil => exact absurd hy List.not_mem_nil
  | @cons a b as bs hab _ ih =>
    rcases List.mem_cons.mp hy with rfl | hmem
    · exact ⟨a, List.mem_cons_self, hab⟩
    · obtain ⟨x, hx, hxy⟩ := ih hmem
      exact ⟨x, List.mem_cons_of_mem _ hx, hxy⟩

theorem forall₂_and_mem {R : α → β → Prop} {xs : List α} {ys : List β} (h : List.Forall₂ R xs ys) :
    List.Forall₂ (fun x y ↦ (x ∈ xs ∧ y ∈ ys) ∧ R x y) xs ys := by
  have hleft := (List.forall₂_and_left _ _).mpr ⟨fun x (hx : x ∈ xs) ↦ hx, h⟩
  have hright := (List.forall₂_and_left _ _).mpr ⟨fun y (hy : y ∈ ys) ↦ hy, hleft.flip⟩
  exact hright.flip.imp fun x y hxy ↦ ⟨⟨hxy.2.1, hxy.1⟩, hxy.2.2⟩

theorem map_eq_of_forall₂ {f : α → γ} {g : β → γ} {xs : List α} {ys : List β}
    (h : List.Forall₂ (fun x y ↦ f x = g y) xs ys) : xs.map f = ys.map g := by
  rw [← List.forall₂_eq_eq_eq, List.forall₂_map_left_iff, List.forall₂_map_right_iff]
  exact h

theorem forall₂_trans {R : α → β → Prop} {S : β → γ → Prop} {T : α → γ → Prop}
    (hRST : ∀ a b c, R a b → S b c → T a c) {xs : List α} {ys : List β} {zs : List γ}
    (hxy : List.Forall₂ R xs ys) (hyz : List.Forall₂ S ys zs) : List.Forall₂ T xs zs := by
  induction hxy generalizing zs with
  | nil =>
    cases hyz
    exact .nil
  | cons hab _ ih =>
    cases hyz with
    | cons hbc hrest => exact .cons (hRST _ _ _ hab hbc) (ih hrest)

theorem exists_append_of_forall₂ {R : α → β → Prop} {xs others : List α} {zs : List β}
    (h : List.Forall₂ R (xs ++ others) zs) :
    ∃ ys rest, zs = ys ++ rest ∧ List.Forall₂ R xs ys ∧ List.Forall₂ R others rest := by
  induction xs generalizing zs with
  | nil => exact ⟨[], zs, rfl, .nil, h⟩
  | cons x xs ih =>
    cases h with
    | cons hxy htail =>
      obtain ⟨ys, rest, rfl, hys, hrest⟩ := ih htail
      exact ⟨_ :: ys, rest, rfl, .cons hxy hys, hrest⟩

/-- Whether an outcome is a success exactly when a condition holds, and a given failure otherwise. -/
structure SucceedsIff (condition : Prop) (failure : ε) (x : Except ε α) : Prop where
  success : condition → ∃ a, x = .ok a
  failure : ¬condition → x = .error failure

namespace SucceedsIff

variable {condition other : Prop} {failure : ε}

theorem of_ok {x : Except ε α} (h : condition) {a : α} (hx : x = .ok a) :
    SucceedsIff condition failure x :=
  ⟨fun _ ↦ ⟨a, hx⟩, fun hnot ↦ absurd h hnot⟩

theorem congr {x : Except ε α} (hx : SucceedsIff condition failure x) (h : condition ↔ other) :
    SucceedsIff other failure x :=
  ⟨fun hother ↦ hx.success (h.mpr hother), fun hnot ↦ hx.failure (mt h.mp hnot)⟩

theorem eq_error_iff {x : Except ε α} (hx : SucceedsIff condition failure x) {error : ε} :
    x = .error error ↔ ¬condition ∧ error = failure := by
  by_cases h : condition
  · obtain ⟨a, rfl⟩ := hx.success h
    simp [h]
  · rw [hx.failure h]
    simp [h, eq_comm]

/-- A success is followed by steps that succeed. -/
theorem bind {x : Except ε α} (hx : SucceedsIff condition failure x) {f : α → Except ε β}
    (hf : ∀ a, ∃ b, f a = .ok b) : SucceedsIff condition failure (x >>= f) := by
  refine ⟨fun h ↦ ?_, fun h ↦ ?_⟩
  · obtain ⟨a, rfl⟩ := hx.success h
    exact hf a
  · rw [hx.failure h]
    exact error_bind failure f

theorem map {x : Except ε α} (hx : SucceedsIff condition failure x) (f : α → β) :
    SucceedsIff condition failure (x.map f) :=
  hx.bind fun a ↦ ⟨f a, rfl⟩

theorem mapError {x : Except ε α} (hx : SucceedsIff condition failure x) (f : ε → δ) :
    SucceedsIff condition (f failure) (x.mapError f) := by
  refine ⟨fun h ↦ ?_, fun h ↦ ?_⟩
  · obtain ⟨a, rfl⟩ := hx.success h
    exact ⟨a, rfl⟩
  · rw [hx.failure h]
    rfl

/-- The steps for the items of a list succeed together exactly when all of them do. -/
theorem mapM {p : α → Prop} {f : α → Except ε β} {xs : List α}
    (h : ∀ x ∈ xs, SucceedsIff (p x) failure (f x)) :
    SucceedsIff (∀ x ∈ xs, p x) failure (xs.mapM f) := by
  induction xs with
  | nil => exact of_ok (fun _ hmem ↦ absurd hmem List.not_mem_nil) List.mapM_nil
  | cons x xs ih =>
    rw [List.forall_mem_cons] at h
    have hrest := ih h.2
    rw [List.mapM_cons]
    refine ⟨fun hall ↦ ?_, fun hnot ↦ ?_⟩
    · rw [List.forall_mem_cons] at hall
      obtain ⟨y, hy⟩ := h.1.success hall.1
      obtain ⟨ys, hys⟩ := hrest.success hall.2
      rw [hy, hys]
      exact ⟨y :: ys, rfl⟩
    · by_cases hx : p x
      · obtain ⟨y, hy⟩ := h.1.success hx
        rw [hy, hrest.failure fun hall ↦ hnot (List.forall_mem_cons.mpr ⟨hx, hall⟩)]
        rfl
      · rw [h.1.failure hx]
        rfl

end SucceedsIff

/-! ## First errors -/

/-- The error of the first item of a list that gives one. -/
inductive FirstError (gives : α → ε → Prop) : List α → ε → Prop
  | here {item : α} {rest : List α} {error : ε} :
      gives item error → FirstError gives (item :: rest) error
  | later {item : α} {rest : List α} {error : ε} :
      (∀ other, ¬gives item other) → FirstError gives rest error →
      FirstError gives (item :: rest) error

section FirstError

variable {gives : α → ε → Prop} {items others : List α} {error : ε}

theorem firstError_cons_iff {item : α} : FirstError gives (item :: items) error ↔
    gives item error ∨ (∀ other, ¬gives item other) ∧ FirstError gives items error := by
  constructor
  · rintro (hhere | ⟨hnone, hlater⟩)
    · exact .inl hhere
    · exact .inr ⟨hnone, hlater⟩
  · rintro (hhere | ⟨hnone, hlater⟩)
    · exact .here hhere
    · exact .later hnone hlater

theorem firstError_singleton_iff {item : α} : FirstError gives [item] error ↔ gives item error := by
  rw [firstError_cons_iff]
  exact or_iff_left fun h ↦ nomatch h.2

/-- There is a first error exactly if an item gives an error. -/
theorem exists_firstError_iff :
    (∃ error, FirstError gives items error) ↔ ∃ item ∈ items, ∃ error, gives item error := by
  induction items with
  | nil => simpa using fun _ h ↦ nomatch h
  | cons item items ih =>
    by_cases hgives : ∃ error, gives item error
    · obtain ⟨error, herror⟩ := hgives
      exact ⟨fun _ ↦ ⟨item, List.mem_cons_self, error, herror⟩, fun _ ↦ ⟨error, .here herror⟩⟩
    · have hnone := not_exists.mp hgives
      simp only [firstError_cons_iff, hnone, false_or, not_false_eq_true, implies_true, true_and,
        ih, List.mem_cons, exists_eq_or_imp, exists_false]

theorem firstError_append_iff : FirstError gives (items ++ others) error ↔
    FirstError gives items error ∨
      (∀ item ∈ items, ∀ other, ¬gives item other) ∧ FirstError gives others error := by
  induction items with
  | nil => simpa using fun h ↦ nomatch h
  | cons item items ih =>
    rw [List.cons_append, firstError_cons_iff, firstError_cons_iff, ih, List.forall_mem_cons]
    tauto

/-- The first error is the first one that a partial function finds. -/
theorem firstError_iff_findSome? {find? : α → Option ε}
    (h : ∀ item ∈ items, ∀ error, gives item error ↔ find? item = some error) :
    FirstError gives items error ↔ items.findSome? find? = some error := by
  induction items with
  | nil => exact ⟨nofun, nofun⟩
  | cons item items ih =>
    rw [List.forall_mem_cons] at h
    simp only [firstError_cons_iff, List.findSome?_cons, h.1, ih h.2]
    cases find? item <;> simp

end FirstError

/-- Whether an outcome is a failure exactly if one of some checks gives an error, and then with the
error of the first such check. -/
def Reports (gives : α → ε → Prop) (checks : List α) (x : Except ε β) : Prop :=
  ∀ error, x = .error error ↔ FirstError gives checks error

namespace Reports

variable {gives : α → ε → Prop} {checks others : List α} {x : Except ε β}

theorem of_ok {b : β} (hx : x = .ok b) : Reports gives [] x :=
  fun error ↦ by
    rw [hx]
    exact ⟨nofun, nofun⟩

theorem of_check {check : α} (h : ∀ error, x = .error error ↔ gives check error) :
    Reports gives [check] x :=
  fun error ↦ (h error).trans firstError_singleton_iff.symm

/-- A check that refuses under a condition. -/
theorem of_condition {condition : Prop} [Decidable condition] {check : α} {failure : ε} {b : β}
    (h : ∀ error, gives check error ↔ condition ∧ error = failure) :
    Reports gives [check] (if condition then .error failure else .ok b) := by
  refine of_check fun error ↦ ?_
  rw [h]
  by_cases hcondition : condition <;> simp [hcondition, eq_comm]

/-- A success means that no check gives an error. -/
theorem exists_ok_iff (hx : Reports gives checks x) :
    (∃ b, x = .ok b) ↔ ∀ check ∈ checks, ∀ error, ¬gives check error := by
  have hfirst : (∃ error, x = .error error) ↔ ∃ check ∈ checks, ∃ error, gives check error := by
    rw [← exists_firstError_iff]
    exact exists_congr hx
  rw [← not_iff_not]
  push Not
  rw [← hfirst]
  cases x <;> simp

/-- The checks of a step are followed by those of the steps after it. -/
theorem bind (hx : Reports gives checks x) {f : β → Except ε γ}
    (hf : ∀ b, x = .ok b → Reports gives others (f b)) :
    Reports gives (checks ++ others) (x >>= f) := by
  intro error
  rw [firstError_append_iff, ← hx error, ← hx.exists_ok_iff]
  cases houtcome : x with
  | error found => simp [error_bind]
  | ok b =>
    have hrest := hf b houtcome error
    simpa [Bind.bind, Except.bind] using hrest

/-- A step that succeeds adds no checks. -/
theorem followed_of_ok (hx : Reports gives checks x) {f : β → Except ε γ}
    (hf : ∀ b, x = .ok b → ∃ c, f b = .ok c) : Reports gives checks (x >>= f) := by
  have hrest (b : β) (hok : x = .ok b) : Reports gives [] (f b) :=
    (hf b hok).elim fun _ hc ↦ of_ok hc
  have hbind := hx.bind hrest
  rwa [List.append_nil] at hbind

theorem followed (hx : Reports gives checks x) {f : β → Except ε γ} (hf : ∀ b, ∃ c, f b = .ok c) :
    Reports gives checks (x >>= f) :=
  hx.followed_of_ok fun b _ ↦ hf b

/-- The steps for the items of a list, in order. -/
theorem mapM {f : α → Except ε β} (h : ∀ item error, f item = .error error ↔ gives item error)
    (items : List α) : Reports gives items (items.mapM f) := by
  induction items with
  | nil => exact .of_ok List.mapM_nil
  | cons item items ih =>
    have hitem : Reports gives [item] (f item) := .of_check (h item)
    rw [List.mapM_cons]
    exact hitem.bind fun _ _ ↦ ih.followed fun _ ↦ ⟨_, rfl⟩

end Reports

/-- Whether an outcome is a success if there is no failure, and otherwise the given one. -/
def FailsWith (failure? : Option ε) (x : Except ε α) : Prop :=
  ∀ failure, x = .error failure ↔ failure? = some failure

namespace FailsWith

variable {failure? : Option ε} {x : Except ε α}

theorem of_ok {a : α} (h : failure? = none) (hx : x = .ok a) : FailsWith failure? x :=
  fun _ ↦ by rw [h, hx]; exact ⟨nofun, nofun⟩

theorem exists_ok_iff (hx : FailsWith failure? x) : (∃ a, x = .ok a) ↔ failure? = none := by
  cases houtcome : x with
  | ok a => exact iff_of_true ⟨a, rfl⟩ (Option.eq_none_iff_forall_ne_some.mpr fun failure hfailure ↦
      nomatch houtcome.symm.trans ((hx failure).mpr hfailure))
  | error failure => simp [(hx failure).mp houtcome]

theorem success (hx : FailsWith failure? x) (h : failure? = none) : ∃ a, x = .ok a :=
  hx.exists_ok_iff.mpr h

/-- A success is followed by steps that succeed. -/
theorem bind (hx : FailsWith failure? x) {f : α → Except ε β} (hf : ∀ a, ∃ b, f a = .ok b) :
    FailsWith failure? (x >>= f) := by
  intro failure
  rw [bind_eq_error_iff, ← hx failure]
  refine or_iff_left ?_
  rintro ⟨a, -, hfailure⟩
  obtain ⟨b, hb⟩ := hf a
  exact nomatch hfailure.symm.trans hb

theorem map (hx : FailsWith failure? x) (f : α → β) : FailsWith failure? (x.map f) :=
  hx.bind fun a ↦ ⟨f a, rfl⟩

/-- The steps for the items of a list fail with the first failure. -/
theorem mapM {find? : α → Option ε} {f : α → Except ε β} {xs : List α}
    (h : ∀ x ∈ xs, FailsWith (find? x) (f x)) : FailsWith (xs.findSome? find?) (xs.mapM f) := by
  intro failure
  have hfirst : FirstError (fun x failure ↦ f x = .error failure) xs failure ↔
      xs.findSome? find? = some failure := firstError_iff_findSome? h
  rw [← hfirst]
  exact Reports.mapM (fun _ _ ↦ Iff.rfl) xs failure

end FailsWith

/-! ## Correspondence -/

/-- Whether two outcomes are related results or the same failure. -/
inductive Corresponds (R : α → β → Prop) : Except ε α → Except ε β → Prop
  | ok {a : α} {b : β} : R a b → Corresponds R (.ok a) (.ok b)
  | error (failure : ε) : Corresponds R (.error failure) (.error failure)

namespace Corresponds

variable {R : α → β → Prop} {S : γ → δ → Prop} {x : Except ε α} {y : Except ε β}

theorem bind (h : Corresponds R x y) {f : α → Except ε γ} {g : β → Except ε δ}
    (hfg : ∀ a b, R a b → Corresponds S (f a) (g b)) : Corresponds S (x >>= f) (y >>= g) := by
  cases h with
  | ok hab => exact hfg _ _ hab
  | error failure => exact .error failure

theorem map (h : Corresponds R x y) {f : α → γ} {g : β → δ} (hfg : ∀ a b, R a b → S (f a) (g b)) :
    Corresponds S (x.map f) (y.map g) :=
  h.bind fun a b hab ↦ .ok (hfg a b hab)

/-- The steps for the items of two lists correspond together when they do one by one. -/
theorem mapM {f : α → Except ε γ} {g : β → Except ε δ} {xs : List α} {ys : List β}
    (h : List.Forall₂ (fun x y ↦ Corresponds S (f x) (g y)) xs ys) :
    Corresponds (List.Forall₂ S) (xs.mapM f) (ys.mapM g) := by
  induction h with
  | nil => exact .ok .nil
  | cons hxy _ ih =>
    rw [List.mapM_cons, List.mapM_cons]
    exact hxy.bind fun a b hab ↦ ih.bind fun as bs hrest ↦ .ok (.cons hab hrest)

theorem eq {x y : Except ε α} (h : Corresponds (· = ·) x y) : x = y := by
  cases h with
  | ok hab => rw [hab]
  | error failure => rfl

end Corresponds

/-! ## Agreement -/

theorem rel_of_eq {R : α → α → Prop} (hrefl : ∀ a, R a a) {x y : Option α} (h : x = y) :
    Option.Rel R x y := by
  subst h
  cases x with
  | none => exact .none
  | some a => exact .some (hrefl a)

theorem rel_symm {R : α → β → Prop} {S : β → α → Prop} (hRS : ∀ a b, R a b → S b a) {x : Option α}
    {y : Option β} (h : Option.Rel R x y) : Option.Rel S y x := by
  cases h with
  | none => exact .none
  | some hab => exact .some (hRS _ _ hab)

theorem rel_trans {R : α → β → Prop} {S : β → γ → Prop} {T : α → γ → Prop}
    (hRST : ∀ a b c, R a b → S b c → T a c) {x : Option α} {y : Option β} {z : Option γ}
    (hxy : Option.Rel R x y) (hyz : Option.Rel S y z) : Option.Rel T x z := by
  cases hxy with
  | none => cases hyz; exact .none
  | some hab => cases hyz with
    | some hbc => exact .some (hRST _ _ _ hab hbc)

theorem rel_map {R : α → β → Prop} {S : γ → δ → Prop} {f : α → γ} {g : β → δ} {x : Option α}
    {y : Option β} (hfg : ∀ a b, R a b → S (f a) (g b)) (h : Option.Rel R x y) :
    Option.Rel S (x.map f) (y.map g) := by
  cases h with
  | none => exact .none
  | some hab => exact .some (hfg _ _ hab)

theorem rel_bind {R : α → β → Prop} {S : γ → δ → Prop} {f : α → Option γ} {g : β → Option δ}
    {x : Option α} {y : Option β} (hfg : ∀ a b, R a b → Option.Rel S (f a) (g b))
    (h : Option.Rel R x y) : Option.Rel S (x.bind f) (y.bind g) := by
  cases h with
  | none => exact .none
  | some hab => exact hfg _ _ hab

theorem rel_getD {R : α → α → Prop} {x y : Option α} {a b : α} (h : Option.Rel R x y)
    (hab : R a b) : R (x.getD a) (y.getD b) := by
  cases h with
  | none => exact hab
  | some hxy => exact hxy

/-- Lists whose items have agreeing outcomes have agreeing outcomes themselves. -/
theorem rel_mapM {R : γ → δ → Prop} {f : α → Option γ} {g : β → Option δ} {xs : List α}
    {ys : List β} (h : List.Forall₂ (fun x y ↦ Option.Rel R (f x) (g y)) xs ys) :
    Option.Rel (List.Forall₂ R) (xs.mapM f) (ys.mapM g) := by
  induction h with
  | nil => exact .some .nil
  | cons hxy _ ih =>
    rw [List.mapM_cons, List.mapM_cons]
    refine rel_bind (fun a b hab ↦ rel_bind (fun as bs hrest ↦ ?_) ih) hxy
    exact .some (.cons hab hrest)

/-- The outcome for a list in another order has the same results in another order. -/
theorem rel_perm_mapM {f : α → Option β} {xs ys : List α} (h : xs.Perm ys) :
    Option.Rel List.Perm (xs.mapM f) (ys.mapM f) := by
  have hsome {xs ys : List α} (h : xs.Perm ys) {values : List β} (hvalues : xs.mapM f = some values) :
      ∃ others, ys.mapM f = some others ∧ values.Perm others := by
    obtain ⟨others, hothers, hperm⟩ := List.perm_comp_forall₂ h.symm (mapM_eq_some_iff.mp hvalues)
    exact ⟨others, mapM_eq_some_iff.mpr hothers, hperm.symm⟩
  cases hxs : xs.mapM f with
  | some values =>
    obtain ⟨others, hothers, hperm⟩ := hsome h hxs
    rw [hothers]
    exact .some hperm
  | none =>
    cases hys : ys.mapM f with
    | none => exact .none
    | some others =>
      obtain ⟨values, hvalues, -⟩ := hsome h.symm hys
      simp [hxs] at hvalues

/-- Lists that differ in one item only are related item by item. -/
theorem forall₂_replace {R : α → α → Prop} (hrefl : ∀ a, R a a) (before after : List α) {a b : α}
    (hab : R a b) : List.Forall₂ R (before ++ a :: after) (before ++ b :: after) := by
  induction before with
  | nil => exact .cons hab (List.forall₂_same.mpr fun a _ ↦ hrefl a)
  | cons c before ih => exact .cons (hrefl c) ih

end EntityCompiler

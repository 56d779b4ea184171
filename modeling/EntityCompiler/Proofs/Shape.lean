import EntityCompiler.Proofs.Outcome
import EntityCompiler.Shape

/-!
# Accepted shapes

A combined check accepts exactly when all of its parts do, and two combined checks agree when their
parts do.
-/

namespace EntityCompiler

namespace Checked

variable {α β : Type}

/-- The accepted value, if there is one. -/
def toOption : Checked α → Option α
  | .accepted value => some value
  | .rejected _ => none

theorem toOption_map {f : α → β} {c : Checked α} : (c.map f).toOption = c.toOption.map f := by
  cases c <;> rfl

theorem toOption_functor_map {f : α → β} {c : Checked α} : (f <$> c).toOption = c.toOption.map f :=
  toOption_map

theorem toOption_below {step : Issue.Step} {c : Checked α} :
    (c.below step).toOption = c.toOption := by
  cases c <;> rfl

theorem toOption_seq {f : Checked (α → β)} {c : Checked α} :
    (f <*> c).toOption = f.toOption.bind fun g ↦ c.toOption.map g := by
  cases f <;> cases c <;> rfl

theorem toOption_seqLeft {c : Checked α} {d : Checked Unit} :
    (c <* d).toOption = c.toOption.bind fun a ↦ d.toOption.map fun _ ↦ a := by
  cases c <;> cases d <;> rfl

theorem toOption_all {checks : List (Checked α)} :
    (all checks).toOption = checks.mapM toOption := by
  induction checks with
  | nil => rfl
  | cons check checks ih =>
    rw [all, toOption_map, List.mapM_cons, ← ih]
    cases check <;> cases all checks <;> rfl

theorem toOption_eq_some_iff {c : Checked α} {a : α} : c.toOption = some a ↔ c = .accepted a := by
  cases c <;> simp [toOption]

theorem map_eq_accepted_iff {f : α → β} {c : Checked α} {b : β} :
    c.map f = .accepted b ↔ ∃ a, c = .accepted a ∧ f a = b := by
  cases c <;> simp [Checked.map]

theorem functorMap_eq_accepted_iff {f : α → β} {c : Checked α} {b : β} :
    f <$> c = .accepted b ↔ ∃ a, c = .accepted a ∧ f a = b :=
  map_eq_accepted_iff

theorem both_eq_accepted_iff {c : Checked α} {d : Checked β} {a : α} {b : β} :
    c.both d = .accepted (a, b) ↔ c = .accepted a ∧ d = .accepted b := by
  cases c <;> cases d <;> simp [Checked.both]

theorem below_eq_accepted_iff {step : Issue.Step} {c : Checked α} {a : α} :
    c.below step = .accepted a ↔ c = .accepted a := by
  cases c <;> simp [Checked.below]

theorem seq_eq_accepted_iff {f : Checked (α → β)} {c : Checked α} {b : β} :
    f <*> c = .accepted b ↔ ∃ g a, f = .accepted g ∧ c = .accepted a ∧ g a = b := by
  cases f <;> cases c <;> simp [Seq.seq, Checked.both, Checked.map]

theorem seqLeft_eq_accepted_iff {c : Checked α} {d : Checked Unit} {a : α} :
    c <* d = .accepted a ↔ c = .accepted a ∧ d = .accepted () := by
  cases c <;> cases d <;> simp [SeqLeft.seqLeft, Checked.both, Checked.map]

theorem all_eq_accepted_iff {checks : List (Checked α)} {values : List α} :
    all checks = .accepted values ↔
      List.Forall₂ (fun check value ↦ check = .accepted value) checks values := by
  induction checks generalizing values with
  | nil => simp [all, eq_comm]
  | cons check checks ih =>
    rw [all, map_eq_accepted_iff, List.forall₂_cons_left_iff]
    constructor
    · rintro ⟨⟨value, values⟩, hboth, rfl⟩
      rw [both_eq_accepted_iff] at hboth
      exact ⟨value, values, hboth.1, ih.mp hboth.2, rfl⟩
    · rintro ⟨value, values, hvalue, hvalues, rfl⟩
      exact ⟨(value, values), both_eq_accepted_iff.mpr ⟨hvalue, ih.mpr hvalues⟩, rfl⟩

theorem toExcept_eq_ok_iff {c : Checked α} {a : α} : c.toExcept = .ok a ↔ c = .accepted a := by
  cases c <;> simp [toExcept]

/-! ## Agreement -/

variable {γ δ : Type}

/-- Whether two checks accept related values or none of them accepts. -/
def Agree (R : α → β → Prop) (c : Checked α) (d : Checked β) : Prop :=
  Option.Rel R c.toOption d.toOption

theorem agree_of_eq {R : α → α → Prop} (hrefl : ∀ a, R a a) {c d : Checked α}
    (h : c.toOption = d.toOption) : Agree R c d :=
  rel_of_eq hrefl h

@[simp]
theorem agree_accepted {R : α → β → Prop} {a : α} {b : β} :
    Agree R (.accepted a) (.accepted b) ↔ R a b := by
  simp [Agree, toOption]

theorem agree_below {R : α → β → Prop} {c : Checked α} {d : Checked β} {step other : Issue.Step}
    (h : Agree R c d) : Agree R (c.below step) (d.below other) := by
  rw [Agree, toOption_below, toOption_below]
  exact h

theorem agree_map {R : α → β → Prop} {S : γ → δ → Prop} {f : α → γ} {g : β → δ} {c : Checked α}
    {d : Checked β} (hfg : ∀ a b, R a b → S (f a) (g b)) (h : Agree R c d) :
    Agree S (f <$> c) (g <$> d) := by
  rw [Agree, toOption_functor_map, toOption_functor_map]
  exact rel_map hfg h

/-- Checks that are applied agree if they give related results for related arguments. -/
theorem agree_seq {R : α → β → Prop} {S : γ → δ → Prop} {f : Checked (α → γ)} {g : Checked (β → δ)}
    {c : Checked α} {d : Checked β} (hfg : Agree (fun f g ↦ ∀ a b, R a b → S (f a) (g b)) f g)
    (h : Agree R c d) : Agree S (f <*> c) (g <*> d) := by
  rw [Agree, toOption_seq, toOption_seq]
  exact rel_bind (fun f g hresult ↦ rel_map hresult h) hfg

theorem agree_seqLeft {R : α → β → Prop} {c : Checked α} {d : Checked β} {first second : Checked Unit}
    (h : Agree R c d) (hchecks : first.toOption = second.toOption) :
    Agree R (c <* first) (d <* second) := by
  rw [Agree, toOption_seqLeft, toOption_seqLeft, hchecks]
  refine rel_bind (fun a b hab ↦ ?_) h
  cases second.toOption with
  | none => exact .none
  | some _ => exact .some hab

end Checked

namespace Shape

variable {α : Type}

open Checked

/-- A dictionary has no other keys exactly when each of its keys is a known text. -/
theorem noOthers_eq_accepted_iff {known : List String} {entries : List (Value × Value)} :
    noOthers known entries = .accepted () ↔
      ∀ entry ∈ entries, ∃ key ∈ known, entry.1.text? = some key := by
  induction entries with
  | nil => simp [noOthers]
  | cons entry entries ih =>
    obtain ⟨key, value⟩ := entry
    have hrest : noOthers known ((key, value) :: entries) = .accepted () ↔
        (∃ k ∈ known, key.text? = some k) ∧ noOthers known entries = .accepted () := by
      rw [noOthers]
      cases key.text? with
      | some k =>
        by_cases hk : k ∈ known <;> cases hothers : noOthers known entries <;>
          simp [hk, Checked.both, Checked.map]
      | none => cases noOthers known entries <;> simp [Checked.both, Checked.map]
    rw [hrest, ih, List.forall_mem_cons]

theorem all_mapIdx_below_eq_accepted_iff {read : Value → Checked α} {step : Nat → Issue.Step}
    {items : List Value} {values : List α} :
    all (items.mapIdx fun i item ↦ (read item).below (step i)) = .accepted values ↔
      List.Forall₂ (fun item value ↦ read item = .accepted value) items values := by
  induction items generalizing step values with
  | nil => simp [all, eq_comm]
  | cons item items ih =>
    have hrest := @ih fun i ↦ step (i + 1)
    rw [all_eq_accepted_iff, List.mapIdx_cons, List.forall₂_cons_left_iff,
      List.forall₂_cons_left_iff]
    simp only [below_eq_accepted_iff, ← hrest, all_eq_accepted_iff]

/-- A collection is accepted exactly when each of its items is. -/
theorem list_eq_accepted_iff {read : Value → Checked α} {v : Value} {values : List α} :
    list read v = .accepted values ↔ ∃ items, v.elements? = some items ∧
      List.Forall₂ (fun item value ↦ read item = .accepted value) items values := by
  cases hitems : v.elements? with
  | none => simp [list, hitems, fail]
  | some items => simp [list, hitems, all_mapIdx_below_eq_accepted_iff]

theorem required_eq_accepted_iff {key : String} {read : Value → Checked α}
    {entries : List (Value × Value)} {a : α} :
    required key read entries = .accepted a ↔
      ∃ v, Value.lookup? key entries = some v ∧ read v = .accepted a := by
  rw [required]
  cases Value.lookup? key entries <;> simp [below_eq_accepted_iff]

theorem orNull_eq_accepted_some_iff {read : Value → Checked α} {v : Value} {a : α} :
    orNull read v = .accepted (some a) ↔ v ≠ .null ∧ read v = .accepted a := by
  cases v with
  | null => simp [orNull]
  | _ => simp [orNull, Checked.map_eq_accepted_iff]

/-! ## Texts and names -/

theorem text_eq_accepted_iff {v : Value} {s : String} : text v = .accepted s ↔ v.text? = some s := by
  rw [text]
  cases v.text? <;> simp [fail]

theorem toOption_text (v : Value) : (text v).toOption = v.text? := by
  rw [text]
  cases v.text? <;> rfl

theorem toOption_name (v : Value) : (name v).toOption = v.name? := by
  cases v with
  | bytes data =>
    rw [name, Value.name?]
    cases Text.ofUtf8? data <;> rfl
  | _ => simp only [name, Value.name?, toOption_text]

theorem issues_name_eq_nil_iff {v : Value} :
    (name v).issues = [] ↔ ∃ s, v.name? = some s := by
  cases v with
  | bytes data =>
    rw [name, Value.name?]
    cases Text.ofUtf8? data <;> simp [fail, issues]
  | columnType t => cases t <;> simp [name, text, Value.name?, Value.text?, fail, issues]
  | _ => simp [name, text, Value.name?, Value.text?, fail, issues]

/-! ## Dictionaries whose keys are names -/

/-- What a reader gives for an entry whose key is a name. -/
def readMember? (read : Value → Checked α) (entry : Value × Value) : Option (String × α) :=
  entry.1.name?.bind fun name ↦ (read entry.2).toOption.map (name, ·)

theorem toOption_member {read : Value → Checked α} {entry : Value × Value} :
    (member read entry).toOption = readMember? read entry := by
  rw [member, toOption_below, readMember?, ← toOption_name]
  cases name entry.1 <;> cases read entry.2 <;> rfl

theorem toOption_mapping {read : Value → Checked α} {entries : List (Value × Value)} :
    (mapping read (.dict entries)).toOption =
      (entries.mapM (readMember? read)).map (Value.membersUnder (entries.map (·.1))) := by
  have hmember : Checked.toOption ∘ member read = readMember? read :=
    funext fun _ ↦ toOption_member
  rw [mapping, Checked.toOption_map, toOption_all, List.mapM_map, hmember]

theorem readMember?_eq_some_iff {read : Value → Checked α} {entry : Value × Value}
    {member : String × α} : readMember? read entry = some member ↔
      entry.1.name? = some member.1 ∧ read entry.2 = .accepted member.2 := by
  obtain ⟨key, a⟩ := member
  simp only [readMember?, Option.bind_eq_some_iff, Option.map_eq_some_iff,
    Checked.toOption_eq_some_iff, Prod.mk.injEq]
  constructor
  · rintro ⟨name, hname, found, hfound, rfl, rfl⟩
    exact ⟨hname, hfound⟩
  · rintro ⟨hname, hread⟩
    exact ⟨key, hname, a, hread, rfl, rfl⟩

/-- The members that the entries of a dictionary are read as, before those under the same name are put
together. -/
def Members (read : Value → Checked α) (entries : List (Value × Value))
    (members : List (String × α)) : Prop :=
  List.Forall₂ (fun entry member ↦ entry.1.name? = some member.1 ∧
    read entry.2 = .accepted member.2) entries members

/-- A dictionary is accepted exactly when all its keys are names and all its values are accepted. -/
theorem mapping_eq_accepted_iff {read : Value → Checked α} {v : Value}
    {members : List (String × α)} :
    mapping read v = .accepted members ↔ ∃ entries parts, v = .dict entries ∧
      Members read entries parts ∧ Value.membersUnder (entries.map (·.1)) parts = members := by
  cases v with
  | dict entries =>
    rw [← Checked.toOption_eq_some_iff, toOption_mapping, Option.map_eq_some_iff]
    simp [mapM_eq_some_iff, readMember?_eq_some_iff, Members]
  | _ => simp [mapping, fail]

/-- Under textual keys the members are those of the entries. -/
theorem membersUnder_of_texts {keys : List Value} (h : ∀ key ∈ keys, ∃ name, key = .text name)
    (members : List (String × α)) : Value.membersUnder keys members = members := by
  refine if_neg ?_
  rw [List.any_eq_true]
  rintro ⟨key, hmem, hbytes⟩
  obtain ⟨name, rfl⟩ := h key hmem
  exact Bool.false_ne_true hbytes

end Shape

namespace Value

variable {α : Type}

theorem mem_of_mem_putMember {key : String} {a : α} {members : List (String × α)}
    {member : String × α} (h : member ∈ Json.putMember key a members) :
    member = (key, a) ∨ member ∈ members := by
  induction members with
  | nil => exact .inl (List.mem_singleton.mp h)
  | cons first rest ih =>
    obtain ⟨label, found⟩ := first
    rw [Json.putMember] at h
    split at h
    · rename_i hlabel
      rcases List.mem_cons.mp h with rfl | hrest
      · exact .inl (by rw [hlabel])
      · exact .inr (List.mem_cons_of_mem _ hrest)
    · rcases List.mem_cons.mp h with rfl | hrest
      · exact .inr List.mem_cons_self
      · exact (ih hrest).imp id (List.mem_cons_of_mem _)

theorem mem_of_mem_foldl_putMember {members found : List (String × α)} {member : String × α}
    (h : member ∈ members.foldl (fun found (name, a) ↦ Json.putMember name a found) found) :
    member ∈ members ∨ member ∈ found := by
  induction members generalizing found with
  | nil => exact .inr h
  | cons first rest ih =>
    rcases ih h with hrest | hput
    · exact .inl (List.mem_cons_of_mem _ hrest)
    · rcases mem_of_mem_putMember hput with rfl | hfound
      · exact .inl List.mem_cons_self
      · exact .inr hfound

/-- All members that stay are among those that there are. -/
theorem mem_of_mem_membersUnder {keys : List Value} {members : List (String × α)}
    {member : String × α} (h : member ∈ membersUnder keys members) : member ∈ members := by
  rw [membersUnder] at h
  split at h
  · exact (mem_of_mem_foldl_putMember h).resolve_right List.not_mem_nil
  · exact h

end Value

end EntityCompiler

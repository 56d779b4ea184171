import EntityCompiler.Proofs.Outcome
import EntityCompiler.Proofs.Shape
import EntityCompiler.Proofs.Value.Plain

/-!
# Spellings of entries

A dictionary with a closed set of keys reads the same when its entries change places, when a key is
added with the value that it has anyway, and when a part is replaced by one that reads the same.  What
counts is what is found under each key.
-/

namespace EntityCompiler.Shape

open Checked Value

/-- One change in the spelling of a dictionary whose keys have the given defaults, and of which one key
may be spelled in another way.  A key is not added where its other spelling is there. -/
inductive EntriesStep (defaults : List (String × Value)) (spelled : Option (String × String))
    (part : String → Value → Value → Prop) :
    List (Value × Value) → List (Value × Value) → Prop
  | permutation {entries others : List (Value × Value)} :
      entries.Perm others → EntriesStep defaults spelled part entries others
  | unset {key : String} {value : Value} (entries : List (Value × Value)) :
      (key, value) ∈ defaults →
      (∀ other, spelled = some (key, other) → lookup? other entries = none) →
      EntriesStep defaults spelled part entries ((.text key, value) :: entries)
  | part {key : String} {v w : Value} (before after : List (Value × Value)) : part key v w →
      EntriesStep defaults spelled part (before ++ (.text key, v) :: after)
        (before ++ (.text key, w) :: after)
  | rename {key other : String} (v : Value) (before after : List (Value × Value)) :
      spelled = some (key, other) →
      EntriesStep defaults spelled part (before ++ (.text key, v) :: after)
        (before ++ (.text other, v) :: after)

/-! ## Looking up keys -/

theorem lookup?_congr {entries others : List (Value × Value)}
    (hentries : DistinctTexts entries) (hothers : DistinctTexts others) {key : String}
    (h : ∀ v, (Value.text key, v) ∈ entries ↔ (Value.text key, v) ∈ others) :
    lookup? key entries = lookup? key others := by
  ext v
  rw [lookup?_eq_some_iff hentries, lookup?_eq_some_iff hothers, h]

theorem lookup?_middle {before after : List (Value × Value)} {key : String} {v : Value}
    (h : DistinctTexts (before ++ (.text key, v) :: after)) :
    lookup? key (before ++ (.text key, v) :: after) = some v :=
  (lookup?_eq_some_iff h).mpr (List.mem_append_right _ List.mem_cons_self)

/-- Entries under other keys do not matter for a key. -/
theorem lookup?_middle_of_ne {before after : List (Value × Value)} {label other key : String}
    {v w : Value} (hv : DistinctTexts (before ++ (.text label, v) :: after))
    (hw : DistinctTexts (before ++ (.text other, w) :: after)) (hlabel : key ≠ label)
    (hother : key ≠ other) :
    lookup? key (before ++ (.text label, v) :: after) =
      lookup? key (before ++ (.text other, w) :: after) := by
  refine lookup?_congr hv hw fun u ↦ ?_
  simp [hlabel, hother]

/-- The first of distinct textual keys is not found after it. -/
theorem lookup?_rest {key : String} {v : Value} {entries : List (Value × Value)}
    (h : DistinctTexts ((.text key, v) :: entries)) : lookup? key entries = none := by
  refine lookup?_eq_none_iff.mpr fun entry hentry htext ↦ ?_
  obtain ⟨name, hname⟩ := h.2 entry (List.mem_cons_of_mem _ hentry)
  rw [hname, text?_text, Option.some.injEq] at htext
  exact (List.nodup_cons.mp h.1).1 (List.mem_map.mpr ⟨entry, hentry, by rw [hname, htext]⟩)

/-- A key whose place another one has taken is not found. -/
theorem lookup?_renamed {before after : List (Value × Value)} {key other : String} {v w : Value}
    (h : DistinctTexts (before ++ (.text key, v) :: after)) (hkey : key ≠ other) :
    lookup? key (before ++ (.text other, w) :: after) = none := by
  have hperm : (before ++ (.text key, v) :: after).Perm ((.text key, v) :: (before ++ after)) :=
    List.perm_middle
  have hfirst : DistinctTexts ((.text key, v) :: (before ++ after)) :=
    ⟨(hperm.map (·.1)).nodup_iff.mp h.1, fun entry hentry ↦ h.2 entry (hperm.mem_iff.mpr hentry)⟩
  have hnone := lookup?_eq_none_iff.mp (lookup?_rest hfirst)
  refine lookup?_eq_none_iff.mpr fun entry hentry ↦ ?_
  rcases List.mem_cons.mp (List.perm_middle.mem_iff.mp hentry) with rfl | hmem
  · simpa using Ne.symm hkey
  · exact hnone entry hmem

/-- What is found under a key before and after a change of spelling. -/
inductive PartRel (defaults : List (String × Value)) (part : String → Value → Value → Prop)
    (key : String) : Option Value → Option Value → Prop
  | same (found : Option Value) : PartRel defaults part key found found
  | unset {value : Value} : (key, value) ∈ defaults → PartRel defaults part key none (some value)
  | part {v w : Value} : part key v w → PartRel defaults part key (some v) (some w)

variable {defaults : List (String × Value)} {spelled : Option (String × String)}
  {part : String → Value → Value → Prop} {entries others : List (Value × Value)}

theorem PartRel.isSome_eq {key : String} {x y : Option Value} (h : PartRel defaults part key x y)
    (hdefaults : ∀ value, (key, value) ∉ defaults) : x.isSome = y.isSome := by
  cases h with
  | same found => rfl
  | unset hdefault => exact absurd hdefault (hdefaults _)
  | part _ => rfl

theorem PartRel.rel {R : Value → Value → Prop} {key : String} {x y : Option Value}
    (h : PartRel defaults part key x y) (hrefl : ∀ v, R v v)
    (hdefaults : ∀ value, (key, value) ∉ defaults) (hpart : ∀ v w, part key v w → R v w) :
    Option.Rel R x y := by
  cases h with
  | same found => exact rel_of_eq hrefl rfl
  | unset hdefault => exact absurd hdefault (hdefaults _)
  | part hvw => exact .some (hpart _ _ hvw)

theorem PartRel.imp {key label : String} {x y : Option Value}
    (h : PartRel defaults part label x y) (hpart : ∀ v w, part label v w → part key v w)
    (hdefaults : ∀ value, (label, value) ∈ defaults → (key, value) ∈ defaults) :
    PartRel defaults part key x y := by
  cases h with
  | same => exact .same _
  | unset hdefault => exact .unset (hdefaults _ hdefault)
  | part hvw => exact .part (hpart _ _ hvw)

/-- What is found under a key that has one spelling only. -/
theorem partRel_of_step (h : EntriesStep defaults spelled part entries others)
    (hentries : DistinctTexts entries) (hothers : DistinctTexts others) (key : String)
    (hkey : ∀ label other, spelled = some (label, other) → key ≠ label ∧ key ≠ other) :
    PartRel defaults part key (lookup? key entries) (lookup? key others) := by
  cases h with
  | permutation hperm =>
    rw [lookup?_congr hentries hothers fun v ↦ hperm.mem_iff]
    exact .same _
  | @unset label value _ hdefault _ =>
    by_cases hlabel : label = key
    · subst hlabel
      have habsent : lookup? label entries = none :=
        lookup?_rest hothers
      rw [habsent, lookup?_text_cons, if_pos rfl]
      exact .unset hdefault
    · rw [lookup?_text_cons, if_neg hlabel]
      exact .same _
  | @part label v w before after hpart =>
    by_cases hlabel : key = label
    · subst hlabel
      rw [lookup?_middle hentries, lookup?_middle hothers]
      exact .part hpart
    · rw [lookup?_middle_of_ne hentries hothers hlabel hlabel]
      exact .same _
  | rename v before after hspelled =>
    obtain ⟨hlabel, hother⟩ := hkey _ _ hspelled
    rw [lookup?_middle_of_ne hentries hothers hlabel hother]
    exact .same _

/-! ## Spellings of keys -/

theorem spelling_congr {key other : String}
    (hkey : (lookup? key entries).isSome = (lookup? key others).isSome)
    (hother : (lookup? other entries).isSome = (lookup? other others).isSome) :
    spelling key [other] entries = spelling key [other] others := by
  simp only [spelling, List.find?, hkey, hother]

/-- The first spelling is used if it is there or the other one is not. -/
theorem spelling_eq_key {key other : String}
    (h : (lookup? other entries).isSome = true → (lookup? key entries).isSome = true) :
    spelling key [other] entries = key := by
  cases hkey : (lookup? key entries).isSome with
  | true => simp [spelling, hkey]
  | false =>
    have hother : (lookup? other entries).isSome = false := by
      rw [hkey] at h
      exact Bool.eq_false_iff.mpr fun hfound ↦ Bool.false_ne_true (h hfound)
    simp [spelling, hkey, hother]

theorem spelling_eq_other {key other : String} (hkey : lookup? key entries = none)
    (hother : (lookup? other entries).isSome = true) : spelling key [other] entries = other := by
  simp [spelling, hkey, hother]

theorem spelling_mem (key other : String) (entries : List (Value × Value)) :
    spelling key [other] entries = key ∨ spelling key [other] entries = other := by
  cases hkey : (lookup? key entries).isSome <;> cases hother : (lookup? other entries).isSome <;>
    simp [spelling, hkey, hother]

/-- How a change bears on a key with two spellings: the spelling in use stays in use, the key is added
where it was not there, or one spelling gives way to the other. -/
inductive SpellingRel (defaults : List (String × Value)) (part : String → Value → Value → Prop)
    (key other : String) (entries others : List (Value × Value)) : Prop
  | kept : (∀ label, label = key ∨ label = other →
        (lookup? label entries).isSome = (lookup? label others).isSome ∧
          PartRel defaults part label (lookup? label entries) (lookup? label others)) →
      SpellingRel defaults part key other entries others
  | added {value : Value} : (key, value) ∈ defaults → lookup? key entries = none →
      lookup? other entries = none → lookup? key others = some value → lookup? other others = none →
      SpellingRel defaults part key other entries others
  | renamed {v : Value} : lookup? key entries = some v → lookup? other entries = none →
      lookup? key others = none → lookup? other others = some v →
      SpellingRel defaults part key other entries others

variable {key other : String}

theorem spellingRel_of_step (h : EntriesStep defaults (some (key, other)) part entries others)
    (hentries : DistinctTexts entries) (hothers : DistinctTexts others)
    (hne : key ≠ other) (hdefaults : ∀ value, (other, value) ∉ defaults) :
    SpellingRel defaults part key other entries others := by
  cases h with
  | permutation hperm =>
    refine .kept fun label _ ↦ ?_
    rw [lookup?_congr hentries hothers fun v ↦ hperm.mem_iff]
    exact ⟨rfl, .same _⟩
  | @unset added value _ hdefault hunspelled =>
    by_cases hadded : added = key
    · subst hadded
      have hkey : lookup? added entries = none :=
        lookup?_rest hothers
      have hother : lookup? other entries = none := hunspelled other rfl
      refine .added hdefault hkey hother (by rw [lookup?_text_cons, if_pos rfl]) ?_
      rw [lookup?_text_cons, if_neg hne, hother]
    · refine .kept fun label hlabel ↦ ?_
      have hskip : added ≠ label := by
        rintro rfl
        rcases hlabel with rfl | rfl
        · exact hadded rfl
        · exact hdefaults _ hdefault
      rw [lookup?_text_cons, if_neg hskip]
      exact ⟨rfl, .same _⟩
  | @part replaced v w before after hpart =>
    refine .kept fun label _ ↦ ?_
    by_cases hlabel : label = replaced
    · subst hlabel
      rw [lookup?_middle hentries, lookup?_middle hothers]
      exact ⟨rfl, .part hpart⟩
    · rw [lookup?_middle_of_ne hentries hothers hlabel hlabel]
      exact ⟨rfl, .same _⟩
  | rename v before after hspelled =>
    obtain ⟨rfl, rfl⟩ := Prod.mk.inj (Option.some.inj hspelled)
    exact .renamed (lookup?_middle hentries) (lookup?_renamed hothers hne.symm)
      (lookup?_renamed hentries hne) (lookup?_middle hothers)

/-- What is found under a key that has two spellings. -/
theorem partRel_spelling (h : SpellingRel defaults part key other entries others)
    (hpart : ∀ v w, part other v w → part key v w) (hdefaults : ∀ value, (other, value) ∉ defaults) :
    PartRel defaults part key (lookup? (spelling key [other] entries) entries)
      (lookup? (spelling key [other] others) others) := by
  cases h with
  | kept hkept =>
    rw [spelling_congr (hkept key (.inl rfl)).1 (hkept other (.inr rfl)).1]
    rcases spelling_mem key other others with hused | hused
    · rw [hused]
      exact (hkept key (.inl rfl)).2
    · rw [hused]
      exact (hkept other (.inr rfl)).2.imp hpart fun value hdefault ↦
        absurd hdefault (hdefaults value)
  | added hdefault hkey hother hvalue hnone =>
    rw [spelling_eq_key (by simp [hother]), spelling_eq_key (by simp [hnone]), hkey, hvalue]
    exact .unset hdefault
  | renamed hkey hother hnone hvalue =>
    rw [spelling_eq_key (by simp [hother]), spelling_eq_other hnone (by simp [hvalue]), hkey, hvalue]
    exact .same _

/-! ## Known keys -/

theorem noOthers_eq_accepted_iff_lookup? (h : (Value.dict entries).Keyed) {known : List String} :
    noOthers known entries = .accepted () ↔
      ∀ label, (lookup? label entries).isSome = true → label ∈ known := by
  obtain ⟨-, htexts⟩ := keyed_dict.mp h
  rw [noOthers_eq_accepted_iff]
  constructor
  · intro hknown label hfound
    obtain ⟨v, hv⟩ := Option.isSome_iff_exists.mp hfound
    obtain ⟨name, hname, hsame⟩ := hknown _ ((lookup?_eq_some_iff h.distinctTexts).mp hv)
    obtain rfl : label = name := by simpa using hsame
    exact hname
  · rintro hknown ⟨label, v⟩ hmem
    obtain ⟨⟨name, hname⟩, -⟩ := htexts _ hmem
    obtain rfl : label = .text name := hname
    have hfound : lookup? name entries = some v := (lookup?_eq_some_iff h.distinctTexts).mpr hmem
    exact ⟨name, hknown name (by rw [hfound, Option.isSome_some]), rfl⟩

/-- Whether there are unknown keys depends only on which keys are there. -/
theorem toOption_noOthers_congr (hentries : (Value.dict entries).Keyed)
    (hothers : (Value.dict others).Keyed) {known labels : List String}
    (h : ∀ label, (lookup? label entries).isSome = true ∧ label ∉ known ↔
      (lookup? label others).isSome = true ∧ label ∉ labels) :
    (noOthers known entries).toOption = (noOthers labels others).toOption := by
  have hsame : noOthers known entries = .accepted () ↔ noOthers labels others = .accepted () := by
    rw [noOthers_eq_accepted_iff_lookup? hentries, noOthers_eq_accepted_iff_lookup? hothers]
    refine forall_congr' fun label ↦ ?_
    simpa only [not_and, not_not] using not_congr (h label)
  cases hknown : noOthers known entries with
  | accepted _ => rw [hsame.mp hknown]
  | rejected _ =>
    cases hlabels : noOthers labels others with
    | accepted _ => rw [hsame.mpr hlabels] at hknown; cases hknown
    | rejected _ => rfl

theorem toOption_noOthers_of_step (h : EntriesStep defaults none part entries others)
    (hentries : (Value.dict entries).Keyed) (hothers : (Value.dict others).Keyed)
    (known : List String) (hknown : ∀ label value, (label, value) ∈ defaults → label ∈ known) :
    (noOthers known entries).toOption = (noOthers known others).toOption := by
  refine toOption_noOthers_congr hentries hothers fun label ↦ ?_
  by_cases hlabel : label ∈ known
  · simp [hlabel]
  · have hrel := partRel_of_step h hentries.distinctTexts hothers.distinctTexts label
      fun _ _ hspelled ↦ absurd hspelled.symm (Option.some_ne_none _)
    rw [hrel.isSome_eq fun value hdefault ↦ hlabel (hknown label value hdefault)]

/-- The same where one of the known keys is the spelling in use. -/
theorem toOption_noOthers_spelling (h : EntriesStep defaults (some (key, other)) part entries others)
    (hentries : (Value.dict entries).Keyed) (hothers : (Value.dict others).Keyed)
    (hne : key ≠ other) (hdefaults : ∀ value, (other, value) ∉ defaults)
    (known : String → List String) (rest : List String)
    (hknown : ∀ used label, label ∈ known used ↔ label = used ∨ label ∈ rest)
    (hrest : ∀ label value, (label, value) ∈ defaults → label = key ∨ label ∈ rest) :
    (noOthers (known (spelling key [other] entries)) entries).toOption =
      (noOthers (known (spelling key [other] others)) others).toOption := by
  refine toOption_noOthers_congr hentries hothers fun label ↦ ?_
  rw [hknown, hknown]
  have hkeys := hentries.distinctTexts
  have hnodup := hothers.distinctTexts
  by_cases hlabel : label ∈ rest
  · simp [hlabel]
  by_cases hspelled : label = key ∨ label = other
  · cases spellingRel_of_step h hkeys hnodup hne hdefaults with
    | kept hkept =>
      rw [spelling_congr (hkept key (.inl rfl)).1 (hkept other (.inr rfl)).1, (hkept label hspelled).1]
    | added hdefault hkey hother hvalue hnone =>
      rw [spelling_eq_key (by simp [hother]), spelling_eq_key (by simp [hnone])]
      rcases hspelled with rfl | rfl <;> simp [hother, hnone]
    | renamed hkey hother hnone hvalue =>
      rw [spelling_eq_key (by simp [hother]), spelling_eq_other hnone (by simp [hvalue])]
      rcases hspelled with rfl | rfl <;> simp [hother, hnone]
  · rw [not_or] at hspelled
    have hother (first second : String) (hpair : some (key, other) = some (first, second)) :
        label ≠ first ∧ label ≠ second := by
      obtain ⟨rfl, rfl⟩ := Prod.mk.inj (Option.some.inj hpair)
      exact hspelled
    have hrel := partRel_of_step h hkeys hnodup label hother
    have hsame := hrel.isSome_eq fun value hdefault ↦
      (hrest label value hdefault).elim hspelled.1 hlabel
    have hused (entries : List (Value × Value)) : label ≠ spelling key [other] entries := by
      rcases spelling_mem key other entries with hused | hused <;> rw [hused]
      exacts [hspelled.1, hspelled.2]
    simp only [hsame, hused, hlabel]

/-! ## Parts -/

variable {α : Type} {R : α → α → Prop} {read : Value → Checked α} {absent : α}

/-- A part that may be absent is read as before if its default stands for its absence and if a change
inside it does not matter. -/
theorem agree_optional (hrefl : ∀ a, R a a) {used label : String}
    (h : PartRel defaults part key (lookup? used entries) (lookup? label others))
    (hunset : ∀ value, (key, value) ∈ defaults → Agree R (.accepted absent) (read value))
    (hpart : ∀ v w, part key v w → Agree R (read v) (read w)) :
    Agree R (optional absent used read entries) (optional absent label read others) := by
  unfold optional
  generalize lookup? used entries = before at h ⊢
  generalize lookup? label others = after at h ⊢
  cases h with
  | same =>
    cases before with
    | none => exact agree_accepted.mpr (hrefl absent)
    | some v => exact agree_below (agree_of_eq hrefl rfl)
  | unset hdefault =>
    rw [Agree, toOption_below]
    exact hunset _ hdefault
  | part hvw => exact agree_below (hpart _ _ hvw)

theorem agree_required {used label : String}
    (h : PartRel defaults part key (lookup? used entries) (lookup? label others))
    (hunset : ∀ value, (key, value) ∉ defaults)
    (hsame : ∀ v, lookup? used entries = some v → Agree R (read v) (read v))
    (hpart : ∀ v w, lookup? used entries = some v → part key v w → Agree R (read v) (read w)) :
    Agree R (required used read entries) (required label read others) := by
  unfold required
  generalize lookup? used entries = before at h hsame hpart ⊢
  generalize lookup? label others = after at h ⊢
  cases h with
  | same =>
    cases before with
    | none => exact .none
    | some v => exact agree_below (hsame v rfl)
  | unset hdefault => exact absurd hdefault (hunset _)
  | part hvw => exact agree_below (hpart _ _ rfl hvw)

end EntityCompiler.Shape

import EntityCompiler.Journal.Basic
import EntityCompiler.Proofs.Specification.Entries
import EntityCompiler.Proofs.Validation.Presence

/-!
# Entries of contexts and records

What is found under a key once entries have been put over others: the last of those put there, and
otherwise what was there before.  So a block sets the fields that are among its arguments, and the data of
a record have what the context of the record has.
-/

namespace EntityCompiler

/-! ## Overwritten entries -/

namespace Value

variable {key name : String} {entries pairs : List (Value × Value)}

/-- The entries of a dictionary under a textual key, of several the last. -/
def latest? (key : String) (entries : List (Value × Value)) : Option Value :=
  lookup? key entries.reverse

theorem lookup?_cons_of_ne {label v : Value} (h : label.text? ≠ some key) :
    lookup? key ((label, v) :: entries) = lookup? key entries :=
  if_neg h

theorem lookup?_cons_self {label : Value} (h : label.text? = some key) (v : Value)
    (entries : List (Value × Value)) : lookup? key ((label, v) :: entries) = some v :=
  if_pos h

theorem lookup?_append (key : String) (entries others : List (Value × Value)) :
    lookup? key (entries ++ others) = (lookup? key entries).or (lookup? key others) := by
  induction entries with
  | nil => rfl
  | cons entry entries ih =>
    obtain ⟨label, v⟩ := entry
    rw [List.cons_append]
    by_cases hlabel : label.text? = some key
    · rw [lookup?_cons_self hlabel, lookup?_cons_self hlabel, Option.some_or]
    · rw [lookup?_cons_of_ne hlabel, lookup?_cons_of_ne hlabel, ih]

theorem latest?_cons (key : String) (entry : Value × Value) (entries : List (Value × Value)) :
    latest? key (entry :: entries) = (latest? key entries).or (lookup? key [entry]) := by
  rw [latest?, List.reverse_cons, lookup?_append, latest?]

/-- Putting a value under another key does not matter for a key. -/
theorem lookup?_putEntry_of_ne {label v : Value} (h : label.text? ≠ some key) :
    lookup? key (putEntry label v entries) = lookup? key entries := by
  induction entries with
  | nil => exact lookup?_cons_of_ne h
  | cons entry entries ih =>
    obtain ⟨other, found⟩ := entry
    rw [putEntry]
    by_cases hother : other.text? = some key
    · have hdiffers : ¬other.alike label = true := fun halike ↦ h (text?_eq_of_alike halike ▸ hother)
      rw [if_neg hdiffers, lookup?_cons_self hother, lookup?_cons_self hother]
    · split
      · rw [lookup?_cons_of_ne hother, lookup?_cons_of_ne hother]
      · rw [lookup?_cons_of_ne hother, lookup?_cons_of_ne hother, ih]

/-- Under a key is the last value that is put there, or else what was there before. -/
theorem lookup?_overwritten (key : String) (pairs entries : List (Value × Value)) :
    lookup? key (putEntries pairs entries) = (latest? key pairs).or (lookup? key entries) := by
  induction pairs generalizing entries with
  | nil => rfl
  | cons pair pairs ih =>
    obtain ⟨label, v⟩ := pair
    have hput : putEntries ((label, v) :: pairs) entries = putEntries pairs (putEntry label v entries) :=
      rfl
    rw [hput, ih, latest?_cons, Option.or_assoc]
    congr 1
    by_cases hlabel : label.text? = some key
    · rw [lookup?_putEntry hlabel, if_pos rfl, lookup?_cons_self hlabel, Option.some_or]
    · rw [lookup?_putEntry_of_ne hlabel, lookup?_cons_of_ne hlabel]
      rfl

/-- Whether no textual key occurs twice. -/
def TextsDistinct (entries : List (Value × Value)) : Prop :=
  entries.Pairwise fun entry other ↦ ∀ name, entry.1.text? = some name → other.1.text? ≠ some name

theorem lookup?_eq_none_of_texts {label v : Value}
    (h : TextsDistinct ((label, v) :: entries)) (hlabel : label.text? = some key) :
    lookup? key entries = none :=
  lookup?_eq_none_iff.mpr fun _ hentry ↦ List.rel_of_pairwise_cons h hentry key hlabel

theorem key_of_mem_putEntry {label v : Value} {entry : Value × Value}
    (h : entry ∈ putEntry label v entries) : entry.1 = label ∨ ∃ old ∈ entries, entry.1 = old.1 := by
  induction entries with
  | nil => exact .inl (congrArg Prod.fst (List.mem_singleton.mp h))
  | cons first entries ih =>
    obtain ⟨other, found⟩ := first
    rw [putEntry] at h
    split at h
    · rcases List.mem_cons.mp h with rfl | hrest
      · exact .inr ⟨_, List.mem_cons_self, rfl⟩
      · exact .inr ⟨entry, List.mem_cons_of_mem _ hrest, rfl⟩
    · rcases List.mem_cons.mp h with rfl | hrest
      · exact .inr ⟨_, List.mem_cons_self, rfl⟩
      · rcases ih hrest with hlabel | ⟨old, hold, hkey⟩
        · exact .inl hlabel
        · exact .inr ⟨old, List.mem_cons_of_mem _ hold, hkey⟩

theorem textsDistinct_putEntry {label v : Value} (h : TextsDistinct entries) :
    TextsDistinct (putEntry label v entries) := by
  induction entries with
  | nil => exact List.pairwise_singleton _ _
  | cons first entries ih =>
    obtain ⟨other, found⟩ := first
    obtain ⟨hfirst, hrest⟩ := List.pairwise_cons.mp h
    rw [putEntry]
    split
    · exact List.pairwise_cons.mpr ⟨hfirst, hrest⟩
    · next hdiffers =>
      refine List.pairwise_cons.mpr ⟨?_, ih hrest⟩
      intro entry hentry name (hother : other.text? = some name) hname
      rcases key_of_mem_putEntry hentry with hlabel | ⟨old, hold, hkey⟩
      · exact hdiffers ((alike_iff_of_text? (hlabel ▸ hname)).mpr hother)
      · exact hfirst old hold name hother (hkey ▸ hname)

theorem textsDistinct_putEntries (pairs : List (Value × Value)) (h : TextsDistinct entries) :
    TextsDistinct (putEntries pairs entries) := by
  induction pairs generalizing entries with
  | nil => exact h
  | cons pair pairs ih => exact ih (textsDistinct_putEntry h)

theorem latest?_eq_lookup? (h : TextsDistinct entries) : latest? key entries = lookup? key entries := by
  induction entries with
  | nil => rfl
  | cons entry entries ih =>
    obtain ⟨label, v⟩ := entry
    rw [latest?_cons, ih (List.Pairwise.of_cons h)]
    by_cases hlabel : label.text? = some key
    · rw [lookup?_eq_none_of_texts h hlabel, lookup?_cons_self hlabel, lookup?_cons_self hlabel]
      rfl
    · rw [lookup?_cons_of_ne hlabel, lookup?_cons_of_ne hlabel]
      exact Option.or_none

end Value

namespace Journal

theorem Field.ofName?_name (f : Field) : ofName? f.name = some f := by
  cases f <;> rfl

theorem Field.name_injective {f other : Field} (h : f.name = other.name) : f = other := by
  have hfound := f.ofName?_name
  rw [h, other.ofName?_name] at hfound
  exact (Option.some.inj hfound).symm

theorem Field.name_of_ofName? {name : String} {f : Field} (h : ofName? name = some f) :
    f.name = name := by
  simpa using List.find?_some h

theorem Field.lookup?_name (f other : Field) (v : Value) :
    Value.lookup? f.name [(.text other.name, v)] = if f = other then some v else none := by
  by_cases h : f = other
  · rw [h, if_pos rfl, Value.lookup?_cons_self (Value.text?_text _)]
  · have hname : (Value.text other.name).text? ≠ some f.name :=
      fun hsame ↦ h (name_injective (Option.some.inj hsame)).symm
    rw [if_neg h, Value.lookup?_cons_of_ne hname]
    rfl

/-! ## Arguments of a block -/

namespace Change

variable {fields : List (Value × Value)} {change : Change}

/-- What the named arguments of a block set a field to. -/
def given? (f : Field) (fields : List (Value × Value)) : Option Value :=
  Value.latest? f.name fields

/-- The dictionary of extra entries among the named arguments of a block. -/
def givenExtra? (fields : List (Value × Value)) : Option (List (Value × Value)) :=
  match Value.latest? "extra" fields with
  | some (.dict entries) => some entries
  | _ => none

/-- The extra entries that the named arguments of a block add. -/
def givenExtra (fields : List (Value × Value)) : List (Value × Value) :=
  (givenExtra? fields).getD []

/-- Whether an argument of a block has a name that is known, and for extra entries a dictionary. -/
inductive Known : Value × Value → Prop
  | field (f : Field) (v : Value) : Known (.text f.name, v)
  | extra (entries : List (Value × Value)) : Known (.text "extra", .dict entries)

theorem put_field (change : Change) (f : Field) (v : Value) : change.put (.text f.name, v) =
    .ok { change with value := fun other ↦ if other = f then some v else change.value other } := by
  cases f <;> rfl

theorem put_extra (change : Change) (entries : List (Value × Value)) :
    change.put (.text "extra", .dict entries) = .ok { change with extra := entries } :=
  rfl

theorem put_of_not_known {argument : Value × Value} (h : ¬Known argument) (change : Change) :
    change.put argument = .error .unknownField := by
  unfold put
  split
  · exact absurd (.extra _) h
  · next name v _ =>
    cases hname : Field.ofName? name with
    | some f =>
      rw [← Field.name_of_ofName? hname] at h
      exact absurd (.field f v) h
    | none => rfl
  · rfl

theorem exists_put {argument : Value × Value} (h : Known argument) (change : Change) :
    ∃ next, change.put argument = .ok next := by
  cases h with
  | field f v => exact ⟨_, put_field change f v⟩
  | extra entries => exact ⟨_, put_extra change entries⟩

theorem given?_cons (f : Field) (argument : Value × Value) (fields : List (Value × Value)) :
    given? f (argument :: fields) = (given? f fields).or (Value.lookup? f.name [argument]) :=
  Value.latest?_cons _ _ _

theorem name_ne_extra (f : Field) : f.name ≠ "extra" := by
  cases f <;> decide

theorem latest?_extra (h : ∀ argument ∈ fields, Known argument) :
    Value.latest? "extra" fields = (givenExtra? fields).map .dict := by
  rw [givenExtra?]
  cases hlatest : Value.latest? "extra" fields with
  | none => rfl
  | some v =>
    obtain ⟨label, hlabel, hmem⟩ := Value.mem_of_lookup? hlatest
    generalize hargument : (label, v) = argument at hmem
    cases h argument (List.mem_reverse.mp hmem) with
    | field f w =>
      obtain rfl : label = .text f.name := congrArg Prod.fst hargument
      exact absurd (Option.some.inj hlabel) (name_ne_extra f)
    | extra entries =>
      obtain rfl : v = .dict entries := congrArg Prod.snd hargument
      rfl

theorem givenExtra?_cons_field (f : Field) (v : Value) (fields : List (Value × Value)) :
    givenExtra? ((.text f.name, v) :: fields) = givenExtra? fields := by
  have hother : (Value.text f.name).text? ≠ some "extra" :=
    fun hsame ↦ name_ne_extra f (Option.some.inj hsame)
  have hnone : Value.lookup? "extra" [(.text f.name, v)] = none := Value.lookup?_cons_of_ne hother
  rw [givenExtra?, givenExtra?, Value.latest?_cons, hnone, Option.or_none]

theorem givenExtra?_cons_extra (h : ∀ argument ∈ fields, Known argument)
    (entries : List (Value × Value)) :
    givenExtra? ((.text "extra", .dict entries) :: fields) =
      some ((givenExtra? fields).getD entries) := by
  rw [givenExtra?, Value.latest?_cons, latest?_extra h,
    Value.lookup?_cons_self (Value.text?_text _)]
  cases givenExtra? fields <;> rfl

/-- The arguments of a block take effect one after the other, if all of them are known. -/
theorem foldlM_put (h : ∀ argument ∈ fields, Known argument) (change : Change) :
    fields.foldlM put change = .ok
      { value := fun f ↦ (given? f fields).or (change.value f)
        extra := (givenExtra? fields).getD change.extra } := by
  induction fields generalizing change with
  | nil => rfl
  | cons argument fields ih =>
    obtain ⟨hfirst, hrest⟩ := List.forall_mem_cons.mp h
    rw [List.foldlM_cons]
    cases hfirst with
    | field f v =>
      have hvalue (other : Field) : (given? other fields).or
          (if other = f then some v else change.value other) =
            (given? other ((.text f.name, v) :: fields)).or (change.value other) := by
        rw [given?_cons, Field.lookup?_name, Option.or_assoc]
        split <;> rfl
      rw [put_field, givenExtra?_cons_field]
      simp only [← hvalue]
      exact ih hrest _
    | extra entries =>
      have hvalue (f : Field) : given? f ((.text "extra", .dict entries) :: fields) = given? f fields := by
        have hother : (Value.text "extra").text? ≠ some f.name :=
          fun hsame ↦ name_ne_extra f (Option.some.inj hsame).symm
        have hnone : Value.lookup? f.name [(.text "extra", .dict entries)] = none :=
          Value.lookup?_cons_of_ne hother
        rw [given?_cons, hnone, Option.or_none]
      rw [put_extra, givenExtra?_cons_extra hrest]
      simp only [hvalue]
      exact ih hrest _

theorem foldlM_put_of_not_known (h : ∃ argument ∈ fields, ¬Known argument) (change : Change) :
    fields.foldlM put change = .error .unknownField := by
  induction fields generalizing change with
  | nil =>
    obtain ⟨argument, hmem, -⟩ := h
    exact absurd hmem List.not_mem_nil
  | cons argument fields ih =>
    rw [List.foldlM_cons]
    by_cases hfirst : Known argument
    · have hrest : ∃ other ∈ fields, ¬Known other := by
        obtain ⟨other, hmem, hother⟩ := h
        rcases List.mem_cons.mp hmem with rfl | hlater
        · exact absurd hfirst hother
        · exact ⟨other, hlater, hother⟩
      obtain ⟨next, hnext⟩ := exists_put hfirst change
      rw [hnext]
      exact ih hrest next
    · rw [put_of_not_known hfirst]
      rfl

/-- The arguments of a block, if all of them are known, set the fields and add the entries that they
name. -/
theorem ofEntries_of_known (h : ∀ argument ∈ fields, Known argument) :
    ofEntries fields = .ok { value := (given? · fields), extra := givenExtra fields } := by
  have hput := foldlM_put h {}
  simp only [Option.or_none] at hput
  exact hput

/-- A block with an argument that is not known has no effect. -/
theorem ofEntries_of_not_known (h : ∃ argument ∈ fields, ¬Known argument) :
    ofEntries fields = .error .unknownField :=
  foldlM_put_of_not_known h {}

theorem eq_of_ofEntries (h : ofEntries fields = .ok change) :
    change = { value := (given? · fields), extra := givenExtra fields } := by
  by_cases hknown : ∀ argument ∈ fields, Known argument
  · rw [ofEntries_of_known hknown] at h
    exact (Except.ok.inj h).symm
  · push Not at hknown
    rw [ofEntries_of_not_known hknown] at h
    cases h

end Change

/-! ## Entries of a context -/

namespace Context

/-- The value of a field, if it is set. -/
def set? (context : Context) (f : Field) : Option Value :=
  match context.value f with
  | .null => none
  | v => some v

/-- The settings of some fields, as entries of a dictionary. -/
def settingEntries (context : Context) (fields : List Field) : List (Value × Value) :=
  (context.settings fields).map fun (name, value) ↦ (.text name, value)

/-- The entry of a field, if it is set. -/
def setting? (context : Context) (f : Field) : Option (Value × Value) :=
  (context.set? f).map (.text f.name, ·)

theorem settingEntries_cons (context : Context) (f : Field) (fields : List Field) :
    context.settingEntries (f :: fields) =
      (context.setting? f).toList ++ context.settingEntries fields := by
  rw [settingEntries, settings, List.filterMap_cons, setting?, set?]
  cases context.value f <;> rfl

theorem lookup?_setting? (context : Context) (f other : Field) :
    Value.lookup? f.name (context.setting? other).toList =
      if f = other then context.set? f else none := by
  rw [setting?]
  by_cases h : f = other
  · rw [h, if_pos rfl]
    cases context.set? other with
    | none => rfl
    | some v => exact Value.lookup?_cons_self (Value.text?_text _) _ _
  · rw [if_neg h]
    cases context.set? other with
    | none => rfl
    | some v => exact (f.lookup?_name other v).trans (if_neg h)

theorem lookup?_settingEntries (context : Context) (f : Field) (fields : List Field) :
    Value.lookup? f.name (context.settingEntries fields) =
      if f ∈ fields then context.set? f else none := by
  induction fields with
  | nil => rfl
  | cons other fields ih =>
    rw [settingEntries_cons, Value.lookup?_append, ih, lookup?_setting?]
    by_cases h : f = other
    · rw [if_pos h, if_pos (List.mem_cons.mpr (.inl h))]
      split
      · exact Option.or_self
      · exact Option.or_none
    · have hmem : f ∈ other :: fields ↔ f ∈ fields := by simp [h]
      simp only [if_neg h, hmem, Option.none_or]

theorem key_of_mem_settingEntries {context : Context} {fields : List Field} {entry : Value × Value}
    (h : entry ∈ context.settingEntries fields) : ∃ f ∈ fields, entry.1 = .text f.name := by
  induction fields with
  | nil => exact absurd h List.not_mem_nil
  | cons f fields ih =>
    rw [settingEntries_cons, List.mem_append, setting?, Option.mem_toList,
      Option.map_eq_some_iff] at h
    rcases h with ⟨v, -, rfl⟩ | hrest
    · exact ⟨f, List.mem_cons_self, rfl⟩
    · obtain ⟨other, hother, hkey⟩ := ih hrest
      exact ⟨other, List.mem_cons_of_mem _ hother, hkey⟩

theorem textsDistinct_settingEntries (context : Context) {fields : List Field} (h : fields.Nodup) :
    Value.TextsDistinct (context.settingEntries fields) := by
  induction fields with
  | nil => exact .nil
  | cons f fields ih =>
    obtain ⟨hfirst, hrest⟩ := List.nodup_cons.mp h
    rw [settingEntries_cons, setting?]
    cases context.set? f with
    | none => exact ih hrest
    | some v =>
      refine List.pairwise_cons.mpr ⟨?_, ih hrest⟩
      intro entry hentry name (hname : (Value.text f.name).text? = some name) hkey
      obtain ⟨other, hother, hlabel⟩ := key_of_mem_settingEntries hentry
      rw [hlabel, Value.text?_text, ← hname, Value.text?_text] at hkey
      exact hfirst (Field.name_injective (Option.some.inj hkey) ▸ hother)

theorem textsDistinct_entries (context : Context) : Value.TextsDistinct context.entries :=
  Value.textsDistinct_putEntries _ (context.textsDistinct_settingEntries (by decide))

/-- Extra entries under the name of a field come before the field. -/
theorem lookup?_entries (context : Context) (f : Field) : Value.lookup? f.name context.entries =
    (Value.latest? f.name context.extra).or (context.set? f) := by
  have hmem : f ∈ Field.all := by cases f <;> decide
  have hset := context.lookup?_settingEntries f Field.all
  rw [if_pos hmem] at hset
  rw [← hset]
  exact Value.lookup?_overwritten _ _ _

end Context

/-! ## Data of records -/

theorem lookup?_addAbsent {key name : String} (h : name ≠ key) (v : Value)
    (data : List (Value × Value)) :
    Value.lookup? name (addAbsent key v data) = Value.lookup? name data := by
  rw [addAbsent]
  split
  · rfl
  · have hother : (Value.text key).text? ≠ some name := fun hsame ↦ h (Option.some.inj hsame).symm
    rw [Value.lookup?_append, Value.lookup?_cons_of_ne hother]
    exact Option.or_none

theorem Field.name_ne_component (f : Field) : f.name ≠ "component" := by
  cases f <;> decide

/-- The data of a record have under the name of a field what the context has there, and otherwise what has
been given with the record. -/
theorem lookup?_enrich (context : Context) (component : Option Component) (data : List (Value × Value))
    (f : Field) : Value.lookup? f.name (enrich context component data) =
      ((Value.latest? f.name context.extra).or (context.set? f)).or (Value.lookup? f.name data) := by
  have hdata : Value.lookup? f.name (Value.putEntries context.entries data) =
      ((Value.latest? f.name context.extra).or (context.set? f)).or (Value.lookup? f.name data) := by
    rw [Value.lookup?_overwritten, Value.latest?_eq_lookup? context.textsDistinct_entries,
      Context.lookup?_entries]
  rw [← hdata]
  cases component with
  | none => rfl
  | some component => exact lookup?_addAbsent f.name_ne_component _ _

end Journal

end EntityCompiler

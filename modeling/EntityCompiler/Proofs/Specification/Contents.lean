import EntityCompiler.Proofs.Specification.Described
import EntityCompiler.Proofs.Value.Keyed

/-!
# Values in specifications

The values that a specification takes over unread are parts of the value that it is read from, so that
whatever holds of that value with all its parts holds of them.
-/

namespace EntityCompiler

open Shape Value

namespace Value

theorem lookup?_eq_some_of_setting_eq {key : String} {absent v : Value}
    {entries : List (Value × Value)} (h : setting key absent entries = v) (hne : absent ≠ v) :
    lookup? key entries = some v := by
  cases hfound : lookup? key entries with
  | none =>
    rw [setting, hfound, Option.getD_none] at h
    exact absurd h hne
  | some found =>
    rw [setting, hfound, Option.getD_some] at h
    rw [h]

end Value

/-- Whether something holds of all literals in a specification. -/
structure Specification.LiteralsHold (P : Value → Prop) (spec : Specification) : Prop where
  default : ∀ c ∈ spec.columns, ∀ v, c.2.default = some v → P v
  sample : ∀ c ∈ spec.columns, ∀ v, c.2.sample = some v → P v

/-- Whether something holds of all literals and of the examples in a specification. -/
structure Specification.Holds (P : Value → Prop) (spec : Specification) : Prop
    extends spec.LiteralsHold P where
  examples : ∀ docs, spec.docs = some docs → P (.ofFields docs.examples)

theorem Specification.LiteralsHold.imp {P Q : Value → Prop} (hPQ : ∀ v, P v → Q v)
    {spec : Specification} (h : spec.LiteralsHold P) : spec.LiteralsHold Q where
  default c hc v hv := hPQ v (h.default c hc v hv)
  sample c hc v hv := hPQ v (h.sample c hc v hv)

/-! ## Members under names -/

namespace Value

variable {α : Type}

/-- The names of distinct keys are distinct once the members under one name are put together. -/
theorem nodup_membersUnder {keys : List Value} {members : List (String × α)}
    (hnames : List.Forall₂ (fun key member ↦ key.name? = some member.1) keys members)
    (hkeys : (keys.map asText).Nodup) : ((membersUnder keys members).map (·.1)).Nodup := by
  rw [membersUnder]
  split
  · suffices h : ∀ found : List (String × α), (found.map (·.1)).Nodup →
        ((members.foldl (fun found member ↦ Json.putMember member.1 member.2 found) found).map
          (·.1)).Nodup
      from h [] List.nodup_nil
    clear hnames
    induction members with
    | nil => exact fun _ hfound ↦ hfound
    | cons member members ih => exact fun found hfound ↦ ih _ (nodup_putMember hfound)
  · next hbytes =>
    refine List.Nodup.of_map Value.text ?_
    have hsame : keys.map asText = (members.map (·.1)).map Value.text := by
      rw [List.map_map]
      clear hkeys
      induction hnames with
      | nil => rfl
      | @cons key member keys members hname _ ih =>
        rw [List.any_cons, Bool.or_eq_true, not_or] at hbytes
        rw [List.map_cons, List.map_cons, ih hbytes.2]
        refine congrArg (· :: _) (asText_of_text? ?_)
        cases key <;> first | exact hname | exact absurd rfl hbytes.1
    exact hsame ▸ hkeys

/-- The members under textual keys are the entries. -/
theorem ofFields_membersUnder {given : List (Value × Value)} {parts : List (String × Value)}
    (htexts : ∀ entry ∈ given, ∃ name, entry.1 = .text name)
    (hparts : List.Forall₂ (fun entry part ↦ entry.1.name? = some part.1 ∧ entry.2 = part.2)
      given parts) : Value.ofFields (membersUnder (given.map (·.1)) parts) = .dict given := by
  rw [membersUnder_of_texts (List.forall_mem_map.mpr htexts), ofFields]
  congr
  induction hparts with
  | nil => rfl
  | @cons entry part given parts hentry _ ih =>
    obtain ⟨⟨name, hname⟩, hgiven⟩ := List.forall_mem_cons.mp htexts
    rw [List.map_cons, ih hgiven]
    refine congrArg (· :: given) (Prod.ext ?_ hentry.2.symm)
    obtain rfl : name = part.1 := by simpa [hname, Value.name?] using hentry.1
    exact hname.symm

end Value

/-! ## What holds of the parts of a specification -/

section

variable {P : Value → Prop} {entries : List (Value × Value)} {spec : Specification}

theorem Value.holds_of_lookup? (hentry : ∀ entries, P (.dict entries) → ∀ entry ∈ entries, P entry.2)
    (hdict : P (.dict entries)) {key : String} {v : Value} (hfound : lookup? key entries = some v) :
    P v := by
  obtain ⟨label, -, hmem⟩ := mem_of_lookup? hfound
  exact hentry entries hdict _ hmem

/-- What holds of a value with all the entries in it holds of the literals in its specification. -/
theorem Specification.literalsHold_of_givenBy
    (hentry : ∀ entries, P (.dict entries) → ∀ entry ∈ entries, P entry.2)
    (hv : P (.dict entries)) (h : spec.GivenBy entries) : spec.LiteralsHold P := by
  have hcolumn (c : String × ColumnSpecification) (hc : c ∈ spec.columns) :
      ∃ parts, P (.dict parts) ∧ c.2.GivenBy parts := by
    obtain ⟨used, -, ⟨fields, hfields, members, hmembers, hcolumns⟩, -⟩ := h.columns
    rw [← hcolumns] at hc
    obtain ⟨entry, hmem, -, parts, hparts, hgiven⟩ :=
      exists_of_forall₂_of_mem hmembers.flip (mem_of_mem_membersUnder hc)
    exact ⟨parts, hparts ▸ hentry fields (holds_of_lookup? hentry hv hfields) entry hmem, hgiven⟩
  refine ⟨fun c hc v hdefault ↦ ?_, fun c hc v hsample ↦ ?_⟩
  · obtain ⟨parts, hparts, hgiven⟩ := hcolumn c hc
    exact holds_of_lookup? hentry hparts (hgiven.default.trans hdefault)
  · obtain ⟨parts, hparts, hgiven⟩ := hcolumn c hc
    exact holds_of_lookup? hentry hparts (hgiven.sample.trans hsample)

/-- Where keys are distinct texts, it holds of the examples as well. -/
theorem Specification.holds_of_keyed
    (hentry : ∀ entries, P (.dict entries) → ∀ entry ∈ entries, P entry.2) (hempty : P (.dict []))
    (hkeyed : (Value.dict entries).Keyed) (hv : P (.dict entries)) (h : spec.GivenBy entries) :
    spec.Holds P := by
  refine ⟨literalsHold_of_givenBy hentry hv h, fun docs hsome ↦ ?_⟩
  have hdocs := h.docs
  rw [hsome] at hdocs
  generalize hsetting : setting "docs" .null entries = given at hdocs
  cases hdocs with
  | @dict _ parts hdocs =>
    have hkeys (entries : List (Value × Value)) (h : (Value.dict entries).Keyed) :
        ∀ entry ∈ entries, entry.2.Keyed := fun entry hmem ↦ ((keyed_dict.mp h).2 entry hmem).2
    have hfound := lookup?_eq_some_of_setting_eq hsetting (by simp)
    have hparts := holds_of_lookup? hkeys hkeyed hfound
    obtain ⟨given, members, hgiven, hall, hexamples⟩ := hdocs.examples
    rw [← hexamples]
    cases hshown : lookup? "examples" parts with
    | none =>
      obtain rfl : given = [] := by
        simpa [setting, hshown] using hgiven.symm
      cases hall
      exact hempty
    | some shown =>
      obtain rfl : shown = .dict given := by
        simpa [setting, hshown] using hgiven
      have hshownKeyed := holds_of_lookup? hkeys hparts hshown
      rw [ofFields_membersUnder (fun entry hmem ↦ ((keyed_dict.mp hshownKeyed).2 entry hmem).1) hall]
      exact holds_of_lookup? hentry (holds_of_lookup? hentry hv hfound) hshown

end

end EntityCompiler

import EntityCompiler.Entity.Equality
import EntityCompiler.Proofs.Entity.Canonical
import EntityCompiler.Proofs.Value.Plain
import EntityCompiler.Store

/-!
# Stores in place of builds

After any use, a store answers an accepted specification with the build of a specification that has the
same payload, and that it was asked for before or is asked for now.  So its answers agree with fresh builds,
in all histories, exactly when payloads determine definitions.
-/

namespace EntityCompiler

/-- Entities that are equal up to the order of members in literals and of entries in examples. -/
structure Entity.Agrees (e f : Entity) : Prop where
  content : e.SameContent f
  fingerprint : e.fingerprint = f.fingerprint
  examples : (Value.ofFields e.metadata.docs.examples).Reordered
    (Value.ofFields f.metadata.docs.examples)

/-- Whether the digest tells the payloads of values apart. -/
def CollisionFree (S : Set Value) : Prop :=
  ∀ v ∈ S, ∀ w ∈ S, ∀ payload other, Entity.payloadOf v = .ok payload →
    Entity.payloadOf w = .ok other →
    Sha256.digest payload.toUTF8.toList = Sha256.digest other.toUTF8.toList → payload = other

theorem collisionFree_pair {v w : Value} (h : Entity.payloadOf v = Entity.payloadOf w) :
    CollisionFree {v, w} := by
  have hsame : ∀ u ∈ ({v, w} : Set Value), Entity.payloadOf u = Entity.payloadOf v := by
    rintro u (rfl | rfl)
    · rfl
    · exact h.symm
  intro u hu u' hu' payload other hpayload hother _
  rw [hsame u hu] at hpayload
  rw [hsame u' hu', hpayload] at hother
  exact Except.ok.inj hother

namespace Store

/-! ## Histories -/

/-- A use of a store. -/
inductive Call where
  | build (v : Value)
  | clear

/-- Whether a use builds nothing but a value of a given kind. -/
def Call.Within (S : Set Value) : Call → Prop
  | .build v => v ∈ S
  | .clear => True

/-- The store after a use. -/
def call (s : Store) : Call → Store
  | .build v => (s.build v).2
  | .clear => s.clear

/-- The store after a history of uses. -/
def run (s : Store) (calls : List Call) : Store :=
  calls.foldl call s

theorem fingerprint_of_find? {s : Store} {fingerprint : String} {stored : Stored}
    (h : s.find? fingerprint = some stored) : stored.entity.fingerprint = fingerprint := by
  simpa using List.find?_some h

/-- Whether every definition of a store is the build of a value of a given kind. -/
def BuiltFrom (s : Store) (S : Set Value) : Prop :=
  ∀ stored ∈ s.entries, ∃ v ∈ S, Entity.build v = .ok stored.entity

theorem mem_entries_touch {s : Store} {found stored : Stored} (hfound : found ∈ s.entries)
    (h : stored ∈ (s.touch found).entries) : stored ∈ s.entries := by
  rcases List.mem_append.mp h with hkept | hlast
  · exact List.mem_of_mem_filter hkept
  · rwa [List.mem_singleton.mp hlast]

theorem mem_entries_insert {s : Store} {e : Entity} {stored : Stored}
    (h : stored ∈ (s.insert e).entries) : stored ∈ s.entries ∨ stored = s.fresh e := by
  rcases List.mem_append.mp (List.mem_of_mem_drop h) with hkept | hlast
  · exact .inl hkept
  · exact .inr (List.mem_singleton.mp hlast)

/-- What an accepted build puts into a store was there before or is the build itself. -/
theorem mem_entries_add {s : Store} {e : Entity} {stored : Stored}
    (h : stored ∈ (s.add e).2.2.entries) : stored ∈ s.entries ∨ stored = s.fresh e := by
  unfold add at h
  by_cases hcapacity : s.capacity = 0
  · rw [if_pos hcapacity] at h
    exact .inl h
  · rw [if_neg hcapacity] at h
    cases hfind : s.find? e.fingerprint with
    | some found =>
      rw [hfind] at h
      exact .inl (mem_entries_touch (List.mem_of_find?_eq_some hfind) h)
    | none =>
      rw [hfind] at h
      exact mem_entries_insert h

/-- Uses keep to definitions of a given kind. -/
theorem builtFrom_call {s : Store} {S : Set Value} {use : Call} (hs : s.BuiltFrom S)
    (huse : use.Within S) : (s.call use).BuiltFrom S := by
  intro stored hmem
  cases use with
  | clear => exact absurd hmem List.not_mem_nil
  | build v =>
    simp only [call, build, serve] at hmem
    cases hbuild : Entity.build v with
    | error e =>
      rw [hbuild] at hmem
      exact hs stored hmem
    | ok e =>
      rw [hbuild] at hmem
      rcases mem_entries_add hmem with hbefore | rfl
      · exact hs stored hbefore
      · exact ⟨v, huse, hbuild⟩

theorem builtFrom_run {s : Store} {S : Set Value} {calls : List Call} (hs : s.BuiltFrom S)
    (hcalls : ∀ use ∈ calls, use.Within S) : (s.run calls).BuiltFrom S := by
  induction calls generalizing s with
  | nil => exact hs
  | cons use calls ih =>
    rw [List.forall_mem_cons] at hcalls
    exact ih (builtFrom_call hs hcalls.1) hcalls.2

theorem builtFrom_ofCapacity (capacity : Int) (S : Set Value) : (ofCapacity capacity).BuiltFrom S :=
  fun _ hmem ↦ absurd hmem List.not_mem_nil

/-! ## Answers -/

theorem fingerprint_add (s : Store) (e : Entity) :
    (s.add e).1.entity.fingerprint = e.fingerprint := by
  unfold add
  by_cases hcapacity : s.capacity = 0
  · rw [if_pos hcapacity]
    rfl
  · rw [if_neg hcapacity]
    cases hfind : s.find? e.fingerprint with
    | some found => exact fingerprint_of_find? hfind
    | none => rfl

/-- An accepted build is answered with itself or with a definition that has its fingerprint. -/
theorem build_fst_of_ok (s : Store) {v : Value} {e : Entity} (h : Entity.build v = .ok e) :
    ∃ stored, (s.build v).1 = .ok stored ∧ (stored.entity = e ∨
      (stored ∈ s.entries ∧ stored.entity.fingerprint = e.fingerprint)) := by
  simp only [build, h, serve, add]
  by_cases hcapacity : s.capacity = 0
  · rw [if_pos hcapacity]
    exact ⟨s.fresh e, rfl, .inl rfl⟩
  · rw [if_neg hcapacity]
    cases hfind : s.find? e.fingerprint with
    | some found =>
      exact ⟨found, rfl, .inr ⟨List.mem_of_find?_eq_some hfind, fingerprint_of_find? hfind⟩⟩
    | none => exact ⟨s.fresh e, rfl, .inl rfl⟩

end Store

/-! ## Payloads -/

/-- Where digests do not collide, one fingerprint means one payload. -/
theorem Entity.payloadOf_eq_of_fingerprint_eq {S : Set Value} (hfree : CollisionFree S)
    {v w : Value} {e f : Entity} (hvmem : v ∈ S) (hwmem : w ∈ S) (hv : Entity.build v = .ok e)
    (hw : Entity.build w = .ok f) (h : e.fingerprint = f.fingerprint) :
    payloadOf v = payloadOf w := by
  obtain ⟨payload, hpayload, he⟩ := fingerprint_of_build hv
  obtain ⟨other, hother, hf⟩ := fingerprint_of_build hw
  rw [he, hf] at h
  rw [hpayload, hother, hfree v hvmem w hwmem payload other hpayload hother h]

theorem Entity.fingerprint_eq_of_payloadOf_eq {v w : Value} {e f : Entity}
    (hv : Entity.build v = .ok e) (hw : Entity.build w = .ok f) (h : payloadOf v = payloadOf w) :
    e.fingerprint = f.fingerprint := by
  obtain ⟨payload, hpayload, he⟩ := fingerprint_of_build hv
  obtain ⟨other, hother, hf⟩ := fingerprint_of_build hw
  rw [hpayload, hother] at h
  rw [he, hf, Except.ok.inj h]

namespace Store

/-! ## Transparency -/

/-- A description of an entity with one example in its documentation. -/
def documented (shown : Value) : Value :=
  .ofFields [("name", .text "Book"),
    ("columns", .ofFields [("title", .ofFields [("type", .text "string")])]),
    ("docs", .ofFields [("examples", .ofFields [("price", shown)])])]

/-- What `documented` describes. -/
def documentedSpecification (shown : Value) : Specification :=
  { Specification.titled with docs := some { examples := [("price", shown)] } }

/-- The entity that `documented` describes. -/
def documentedEntity (shown : Value) : Entity :=
  (documentedSpecification shown).freeze [("title", { type := .primitive .string })]

end Store

end EntityCompiler

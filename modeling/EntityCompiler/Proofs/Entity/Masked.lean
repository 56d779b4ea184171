import EntityCompiler.Proofs.Specification.Entries
import EntityCompiler.Proofs.Validation.Presence

/-!
# Masked records

What the masked form of a record tells about it.  Two records have the same masked form exactly when they
differ at most in the values of secret columns.  Masking works on a copy of the record, in which the secret
columns are overwritten one after the other.
-/

namespace EntityCompiler

variable {record other : List (Value × Value)} {names : List String}

/-! ## Hidden entries -/

namespace Value

variable {entry found : Value × Value}

/-- Whether a key is one of some names. -/
def isAmong (names : List String) (key : Value) : Bool :=
  key.text?.any names.contains

theorem isAmong_iff {key : Value} :
    isAmong names key = true ↔ ∃ name ∈ names, key.text? = some name := by
  rw [isAmong]
  cases key.text? <;> simp

/-- An entry with its value hidden when its key is one of some names. -/
def masked (names : List String) (entry : Value × Value) : Value × Value :=
  if isAmong names entry.1 then (entry.1, .text "***") else entry

theorem masked_fst (names : List String) (entry : Value × Value) : (masked names entry).1 = entry.1 := by
  rw [masked]
  split <;> rfl

theorem masked_of_isAmong (h : isAmong names entry.1 = true) :
    masked names entry = (entry.1, .text "***") :=
  if_pos h

theorem masked_of_not (h : ¬isAmong names entry.1 = true) : masked names entry = entry :=
  if_neg h

/-- Of an entry that is hidden only the key is left, of any other one everything. -/
theorem masked_eq_masked_iff : masked names entry = masked names found ↔
    entry.1 = found.1 ∧ (¬isAmong names entry.1 = true → entry.2 = found.2) := by
  constructor
  · intro h
    have hkey : entry.1 = found.1 := by rw [← masked_fst names entry, h, masked_fst]
    refine ⟨hkey, fun hshown ↦ ?_⟩
    rw [masked_of_not hshown, masked_of_not (hkey ▸ hshown)] at h
    rw [h]
  · rintro ⟨hkey, hvalue⟩
    by_cases hmem : isAmong names entry.1 = true
    · rw [masked_of_isAmong hmem, masked_of_isAmong (hkey ▸ hmem), hkey]
    · rw [Prod.ext hkey (hvalue hmem)]

/-- Hiding some names after others hides all of them. -/
theorem masked_masked (names more : List String) (entry : Value × Value) :
    masked more (masked names entry) = masked (names ++ more) entry := by
  have hboth : isAmong (names ++ more) entry.1 = (isAmong names entry.1 || isAmong more entry.1) := by
    rw [isAmong, isAmong, isAmong]
    cases entry.1.text? <;> simp
  rw [masked, masked_fst, masked, masked, hboth]
  cases isAmong names entry.1 <;> cases isAmong more entry.1 <;> rfl

theorem keys_map_masked {α : Type} (f : Value → α) (names : List String)
    (record : List (Value × Value)) :
    (record.map (masked names)).map (fun entry ↦ f entry.1) = record.map fun entry ↦ f entry.1 := by
  rw [List.map_map]
  exact List.map_congr_left fun entry _ ↦ congrArg f (masked_fst names entry)

theorem map_masked_of_forall (h : ∀ entry ∈ record, ¬isAmong names entry.1 = true) :
    record.map (masked names) = record :=
  (List.map_congr_left fun entry hmem ↦ masked_of_not (h entry hmem)).trans (List.map_id' record)

theorem map_masked_nil (record : List (Value × Value)) : record.map (masked []) = record :=
  map_masked_of_forall fun _ _ ↦ by simp [isAmong_iff]

/-- Overwriting the value under a name that a record has hides the name. -/
theorem putEntry_eq_map_masked {name : String} (hkeys : (record.map (·.1.asText)).Nodup)
    (hmem : ∃ entry ∈ record, entry.1.text? = some name) :
    putEntry (.text name) (.text "***") record = record.map (masked [name]) := by
  have hamong {key : Value} : isAmong [name] key = true ↔ key.text? = some name := by
    simp [isAmong_iff]
  induction record with
  | nil => simp at hmem
  | cons entry record ih =>
    obtain ⟨label, value⟩ := entry
    rw [List.map_cons, List.nodup_cons] at hkeys
    by_cases hlabel : label.text? = some name
    · have hrest : ∀ entry ∈ record, ¬isAmong [name] entry.1 = true := by
        refine fun entry hentry hsame ↦ hkeys.1 (List.mem_map.mpr ⟨entry, hentry, ?_⟩)
        rw [asText_of_text? (hamong.mp hsame), asText_of_text? hlabel]
      rw [putEntry, if_pos ((alike_iff_of_text? (text?_text name)).mpr hlabel), List.map_cons,
        map_masked_of_forall hrest, masked_of_isAmong (hamong.mpr hlabel)]
    · obtain ⟨entry, hentry, hname⟩ := hmem
      have hrest := (List.mem_cons.mp hentry).resolve_left (by rintro rfl; exact hlabel hname)
      rw [putEntry, if_neg (mt (alike_iff_of_text? (text?_text name)).mp hlabel), List.map_cons,
        ih hkeys.2 ⟨entry, hrest, hname⟩, masked_of_not (mt hamong.mp hlabel)]

end Value

open Value

namespace Entity

variable {e : Entity}

/-- Whether a key of a record is the name of a secret column. -/
def IsSecret (e : Entity) (key : Value) : Prop :=
  ∃ column ∈ e.columns, column.2.visibility = .isSecret ∧ key.text? = some column.1

/-- Records with the same keys in the same order whose values differ at most under the names of secret
columns. -/
def AgreeOutsideSecrets (e : Entity) (record other : List (Value × Value)) : Prop :=
  List.Forall₂ (fun entry found ↦ entry.1 = found.1 ∧ (¬e.IsSecret entry.1 → entry.2 = found.2))
    record other

theorem isSecret_iff {key : Value} : e.IsSecret key ↔ isAmong e.secretNames key = true := by
  rw [isAmong_iff]
  constructor
  · rintro ⟨column, hmem, hsecret, hkey⟩
    exact ⟨column.1, List.mem_map_of_mem (List.mem_filter.mpr ⟨hmem, decide_eq_true hsecret⟩), hkey⟩
  · rintro ⟨name, hname, hkey⟩
    obtain ⟨column, hcolumn, rfl⟩ := List.mem_map.mp hname
    obtain ⟨hmem, hsecret⟩ := List.mem_filter.mp hcolumn
    exact ⟨column, hmem, of_decide_eq_true hsecret, hkey⟩

theorem mask_eq_map (e : Entity) (record : List (Value × Value)) :
    e.mask record = record.map (masked e.secretNames) := by
  refine List.map_congr_left fun entry _ ↦ ?_
  obtain ⟨key, value⟩ := entry
  rw [masked, isAmong]
  cases hkey : key.text? with
  | none => simp [hkey]
  | some name =>
    simp only [hkey, Option.any_some]
    split <;> rfl

theorem mask_eq_mask_iff : e.mask record = e.mask other ↔ e.AgreeOutsideSecrets record other := by
  have hentry (entry found : Value × Value) :
      masked e.secretNames entry = masked e.secretNames found ↔
        entry.1 = found.1 ∧ (¬e.IsSecret entry.1 → entry.2 = found.2) := by
    rw [masked_eq_masked_iff, isSecret_iff]
  rw [mask_eq_map, mask_eq_map, ← List.forall₂_eq_eq_eq, List.forall₂_map_left_iff,
    List.forall₂_map_right_iff, AgreeOutsideSecrets]
  simp only [hentry]

/-- The masked form of a record agrees with the record. -/
theorem agreeOutsideSecrets_mask (e : Entity) (record : List (Value × Value)) :
    e.AgreeOutsideSecrets (e.mask record) record := by
  rw [mask_eq_map, AgreeOutsideSecrets, List.forall₂_map_left_iff]
  refine List.forall₂_same.mpr fun entry _ ↦ ⟨masked_fst _ entry, fun hshown ↦ ?_⟩
  rw [masked_fst, isSecret_iff] at hshown
  rw [masked_of_not hshown]

theorem snd_of_mem_mask {entry : Value × Value} (hmem : entry ∈ e.mask record)
    (hsecret : e.IsSecret entry.1) : entry.2 = .text "***" := by
  rw [mask_eq_map] at hmem
  obtain ⟨found, -, rfl⟩ := List.mem_map.mp hmem
  rw [masked_fst, isSecret_iff] at hsecret
  rw [masked_of_isAmong hsecret]

/-- Records with equal keys in the same order and with equal values outside secrets have equal masked
forms. -/
theorem alike_mask (h : List.Forall₂ (fun entry found ↦ entry.1.alike found.1 = true ∧
      (¬e.IsSecret entry.1 → entry.2.alike found.2 = true)) record other) :
    List.Forall₂ (fun entry found ↦ entry.1.alike found.1 = true ∧ entry.2.alike found.2 = true)
      (e.mask record) (e.mask other) := by
  rw [mask_eq_map, mask_eq_map, List.forall₂_map_left_iff, List.forall₂_map_right_iff]
  refine h.imp fun entry found hentry ↦ ?_
  rw [masked_fst, masked_fst]
  refine ⟨hentry.1, ?_⟩
  have hsame : isAmong e.secretNames found.1 = isAmong e.secretNames entry.1 := by
    rw [isAmong, isAmong, text?_eq_of_alike hentry.1]
  by_cases hsecret : isAmong e.secretNames entry.1 = true
  · rw [masked_of_isAmong hsecret, masked_of_isAmong (hsame.trans hsecret)]
    exact decide_eq_true (rfl : "***" = "***")
  · rw [masked_of_not hsecret, masked_of_not (hsame ▸ hsecret)]
    exact hentry.2 (mt isSecret_iff.mp hsecret)

/-! ## Masking in memory -/

/-- The names of the secret ones among some columns. -/
def secretsAmong (columns : List (String × Column)) : List String :=
  (columns.filter fun column ↦ column.2.visibility = .isSecret).map (·.1)

/-- One turn of the loop that masks a record: under the name of a secret column the value is overwritten,
if there is one. -/
def overwrite (record : List (Value × Value)) (column : String × Column) : List (Value × Value) :=
  if column.2.visibility = .isSecret ∧ (Value.lookup? column.1 record).isSome then
    Value.putEntry (.text column.1) (.text "***") record
  else record

/-- Masking of the record at a given place of the memory: a copy of the record gets a place of its own, and
one column after the other is overwritten in the copy. -/
def maskAt (e : Entity) (memory : List (List (Value × Value))) (place : Nat) :
    List (List (Value × Value)) :=
  e.columns.foldl (fun changed column ↦ changed.modify memory.length (overwrite · column))
    (memory ++ memory[place]?.toList)

theorem secretsAmong_cons (column : String × Column) (columns : List (String × Column)) :
    secretsAmong (column :: columns) = secretsAmong [column] ++ secretsAmong columns := by
  rw [secretsAmong, ← List.singleton_append, List.filter_append, List.map_append]
  rfl

/-- One turn hides the name of the column if the column is secret. -/
theorem overwrite_eq_map (hkeys : (record.map (·.1.asText)).Nodup) (column : String × Column) :
    overwrite record column = record.map (masked (secretsAmong [column])) := by
  by_cases hsecret : column.2.visibility = .isSecret
  · have hnames : secretsAmong [column] = [column.1] := by simp [secretsAmong, hsecret]
    rw [overwrite, hnames]
    cases hfound : Value.lookup? column.1 record with
    | some v =>
      obtain ⟨label, hlabel, hmem⟩ := mem_of_lookup? hfound
      rw [if_pos ⟨hsecret, rfl⟩, putEntry_eq_map_masked hkeys ⟨_, hmem, hlabel⟩]
    | none =>
      rw [if_neg (by simp), map_masked_of_forall]
      simpa [isAmong_iff] using lookup?_eq_none_iff.mp hfound
  · have hnames : secretsAmong [column] = [] := by simp [secretsAmong, hsecret]
    rw [overwrite, if_neg fun h ↦ hsecret h.1, hnames, map_masked_nil]

/-- The whole loop hides the names of all secret columns. -/
theorem foldl_overwrite (hkeys : (record.map (·.1.asText)).Nodup) (columns : List (String × Column)) :
    columns.foldl overwrite record = record.map (masked (secretsAmong columns)) := by
  induction columns generalizing record with
  | nil => exact (map_masked_nil record).symm
  | cons column columns ih =>
    have hstep := overwrite_eq_map hkeys column
    have hnext : ((overwrite record column).map (·.1.asText)).Nodup := by
      rwa [hstep, keys_map_masked asText]
    calc (column :: columns).foldl overwrite record
        = (overwrite record column).map (masked (secretsAmong columns)) := ih hnext
      _ = record.map (masked (secretsAmong columns) ∘ masked (secretsAmong [column])) := by
          rw [hstep, List.map_map]
      _ = record.map (masked (secretsAmong (column :: columns))) := by
          rw [secretsAmong_cons column columns]
          exact List.map_congr_left fun entry _ ↦ masked_masked _ _ entry

/-- The turns of the loop change nothing but the copy. -/
theorem foldl_modify_append (memory : List (List (Value × Value))) (record : List (Value × Value))
    (columns : List (String × Column)) :
    columns.foldl (fun changed column ↦ changed.modify memory.length (overwrite · column))
      (memory ++ [record]) = memory ++ [columns.foldl overwrite record] := by
  induction columns generalizing record with
  | nil => rfl
  | cons column columns ih =>
    have hcopy : (memory ++ [record]).modify memory.length (overwrite · column) =
        memory ++ [overwrite record column] := by
      rw [List.modify_eq_take_cons_drop (by simp)]
      simp
    rw [List.foldl_cons, hcopy, ih, List.foldl_cons]

theorem maskAt_eq {memory : List (List (Value × Value))} {place : Nat} (h : memory[place]? = some record)
    (hkeys : (record.map (·.1.asText)).Nodup) : e.maskAt memory place = memory ++ [e.mask record] := by
  rw [maskAt, h, Option.toList_some, foldl_modify_append, foldl_overwrite hkeys, mask_eq_map]
  rfl

/-- Masking a record hides the values of the secret columns of the entity and nothing else.  Records have the
same masked form exactly when they have the same keys in the same order and agree on all keys that are not
names of secret columns, and if what they have is equal only, so are their masked forms.  The masked form of
a record is one of the records that agree with it in this way; it has the same value under the name of every
secret column, and masking does not change it again.  In memory the masked form gets a place of its own, and
no record that was there before is changed; the keys of a record are distinct, as those of a dictionary
always are. -/
theorem mask_hides_secrets (e : Entity) :
    (∀ record other, e.mask record = e.mask other ↔ e.AgreeOutsideSecrets record other) ∧
      (∀ record other, List.Forall₂ (fun entry found ↦ entry.1.alike found.1 = true ∧
          (¬e.IsSecret entry.1 → entry.2.alike found.2 = true)) record other →
        List.Forall₂ (fun entry found ↦ entry.1.alike found.1 = true ∧
          entry.2.alike found.2 = true) (e.mask record) (e.mask other)) ∧
      ∀ record, (e.mask record).map (·.1) = record.map (·.1) ∧
        e.AgreeOutsideSecrets (e.mask record) record ∧
        (∀ entry ∈ e.mask record, e.IsSecret entry.1 → entry.2 = .text "***") ∧
        e.mask (e.mask record) = e.mask record ∧
        ∀ memory place, memory[place]? = some record → (record.map (·.1.asText)).Nodup →
          e.maskAt memory place = memory ++ [e.mask record] := by
  refine ⟨fun record other ↦ mask_eq_mask_iff, fun record other ↦ alike_mask, fun record ↦ ?_⟩
  have hagree := agreeOutsideSecrets_mask e record
  refine ⟨?_, hagree, fun entry hmem hsecret ↦ snd_of_mem_mask hmem hsecret, mask_eq_mask_iff.mpr hagree,
    fun memory place hplace hkeys ↦ maskAt_eq hplace hkeys⟩
  rw [mask_eq_map]
  exact keys_map_masked id _ _

/-- The description of an entity with a secret, an internal and a public column. -/
def account : Value :=
  .ofFields [("name", .text "Account"), ("columns", .ofFields
    [("token", .ofFields [("type", .text "string"), ("visibility", .text "secret")]),
      ("owner", .ofFields [("type", .text "string"), ("visibility", .text "internal")]),
      ("title", .ofFields [("type", .text "string")])])]

/-- The entity that `account` describes. -/
def accountEntity : Entity :=
  Specification.freeze
    { name := "Account"
      columns := [("token", { type := .text "string", visibility := .isSecret }),
        ("owner", { type := .text "string", visibility := .isInternal }),
        ("title", { type := .text "string" })] }
    [("token", { type := .primitive .string, visibility := .isSecret }),
      ("owner", { type := .primitive .string, visibility := .isInternal }),
      ("title", { type := .primitive .string })]

theorem mask_hides_secrets_account :
    let e := accountEntity
    let record : Value → List (Value × Value) := fun token ↦
      [(.int 1, .text "token"), (.text "token", token), (.text "owner", .null), (.text "extra", .list [])]
    build account = .ok e ∧ ((record .null).map (·.1.asText)).Nodup ∧
      e.mask (record (.text "first")) = e.mask (record .null) ∧
      e.mask (record .null) = record (.text "***") ∧
      e.maskAt [[], record .null] 1 = [[], record .null, record (.text "***")] := by
  intro e record
  have hbuild : build account = .ok e := rfl
  have hkeys (token : Value) : ((record token).map (·.1.asText)).Nodup := by
    simp [record, asText, text?]
  have htoken : e.IsSecret (.text "token") := ⟨_, List.mem_cons_self, rfl, rfl⟩
  have hagree : e.AgreeOutsideSecrets (record (.text "first")) (record .null) :=
    .cons ⟨rfl, fun _ ↦ rfl⟩ (.cons ⟨rfl, fun hshown ↦ absurd htoken hshown⟩
      (.cons ⟨rfl, fun _ ↦ rfl⟩ (.cons ⟨rfl, fun _ ↦ rfl⟩ .nil)))
  have hform : e.mask (record .null) = record (.text "***") := rfl
  obtain ⟨hsame, -, hmasked⟩ := mask_hides_secrets e
  obtain ⟨-, -, -, -, hmemory⟩ := hmasked (record .null)
  exact ⟨hbuild, hkeys _, (hsame _ _).mpr hagree, hform, hmemory [[], record .null] 1 rfl (hkeys _)⟩

end Entity

end EntityCompiler

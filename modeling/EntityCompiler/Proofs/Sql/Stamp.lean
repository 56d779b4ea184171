import EntityCompiler.Proofs.Calendar.Days
import EntityCompiler.Proofs.Sql.Literal

/-!
# Dates with milliseconds

How a database reads the date and time in the dialect that keeps milliseconds but no offsets.  The text of a
default there is read as the date and time of its moment, moved to universal time if it has an offset, with
the microseconds cut off.  So two moments with offsets have the same text exactly when they fall into the
same millisecond.  A moment with seconds in its offset has no text there.
-/

namespace EntityCompiler.Sql

open Numeral Instant

/-- A date and a time of day with milliseconds. -/
structure Stamp where
  date : Date
  hour : Fin 24
  minute : Fin 60
  second : Fin 60
  millisecond : Fin 1000
deriving DecidableEq

/-- The characters before a mark, if there are any, and those after it. -/
def cut? (mark : Char) (text : List Char) : Option (List Char × List Char) :=
  match text.takeWhile (· ≠ mark), text.dropWhile (· ≠ mark) with
  | c :: before, _ :: after => some (c :: before, after)
  | _, _ => none

namespace Stamp

/-- The date and time that decimal numbers denote. -/
def ofNumerals? (year month day hour minute second millisecond : List Char) : Option Stamp := do
  let date ← Date.of? (← number? year) (← number? month) (← number? day)
  let hour ← numberBelow? 24 hour
  let minute ← numberBelow? 60 minute
  let second ← numberBelow? 60 second
  let millisecond ← numberBelow? 1000 millisecond
  return ⟨date, hour, minute, second, millisecond⟩

/-- The date and time that a text denotes: year, month and day with hyphens between them, a blank, hour, minute
and second with colons between them, and the three digits of the milliseconds after a point. -/
def read? (text : String) : Option Stamp := do
  let (year, rest) ← cut? '-' text.toList
  let (month, rest) ← cut? '-' rest
  let (day, rest) ← cut? ' ' rest
  let (hour, rest) ← cut? ':' rest
  let (minute, rest) ← cut? ':' rest
  let (second, millisecond) ← cut? '.' rest
  if millisecond.length = 3 then ofNumerals? year month day hour minute second millisecond else none

/-- The date and time of a moment, without what is less than a millisecond. -/
def of (t : Moment) : Stamp where
  date := t.date
  hour := t.clock.hour
  minute := t.clock.minute
  second := t.clock.second
  millisecond := ⟨t.clock.microsecond.val / 1000, by have := t.clock.microsecond.isLt; omega⟩

/-! ## Texts -/

theorem cut?_append {mark : Char} {digits : List Char} (hne : digits ≠ []) (hmark : mark ∉ digits)
    (rest : List Char) : cut? mark (digits ++ mark :: rest) = some (digits, rest) := by
  have hall : ∀ c ∈ digits, decide (c ≠ mark) = true := fun c hc ↦
    decide_eq_true (ne_of_mem_of_not_mem hc hmark)
  obtain ⟨first, more, rfl⟩ := List.exists_cons_of_ne_nil hne
  unfold cut?
  rw [List.takeWhile_append_of_pos hall, List.dropWhile_append_of_pos hall,
    List.takeWhile_cons_of_neg (by simp), List.dropWhile_cons_of_neg (by simp), List.append_nil]

theorem number?_toDigits (n : Nat) : number? (Nat.toDigits 10 n) = some n := by
  induction n using Nat.strong_induction_on with
  | h n ih =>
    by_cases hsmall : n < 10
    · have hdigit := asciiDigit?_digitChar n hsmall
      rw [Nat.toDigits_of_lt_base hsmall]
      simp [number?, hdigit, ofDigits]
    · rw [Nat.toDigits_of_base_le (by decide) (not_lt.mp hsmall), number?_append_singleton,
        ih (n / 10) (by omega), asciiDigit?_digitChar _ (Nat.mod_lt n (by decide))]
      simp only [Option.bind_some, Option.map_some, Option.some.injEq]
      omega

theorem isDigit_of_mem_toDigits {n : Nat} {c : Char} (hc : c ∈ Nat.toDigits 10 n) :
    Text.isDigit c = true := by
  obtain ⟨hdigits, -⟩ := number?_eq_some_iff.mp (number?_toDigits n)
  rw [hdigits] at hc
  exact isDigit_of_mem_fixedDigits hc

/-- A text is cut into its fields at the marks between them. -/
theorem read?_of_toList {text : String} {year month day hour minute second millisecond : List Char}
    (hfields : ∀ digits ∈ [year, month, day, hour, minute, second], digits ≠ [] ∧
      ∀ c ∈ digits, Text.isDigit c = true)
    (hlength : millisecond.length = 3)
    (hchars : text.toList = year ++ '-' :: (month ++ '-' :: (day ++ ' ' :: (hour ++ ':' :: (minute ++
      ':' :: (second ++ '.' :: millisecond)))))) :
    read? text = ofNumerals? year month day hour minute second millisecond := by
  have hcut (digits : List Char) (hmem : digits ∈ [year, month, day, hour, minute, second])
      (mark : Char) (hmark : Text.isDigit mark = false) (rest : List Char) :
      cut? mark (digits ++ mark :: rest) = some (digits, rest) := by
    apply cut?_append (hfields digits hmem).1
    intro hin
    rw [(hfields digits hmem).2 mark hin] at hmark
    exact absurd hmark (by decide)
  have hyear := hcut year (by simp) '-' (by decide)
  have hmonth := hcut month (by simp) '-' (by decide)
  have hday := hcut day (by simp) ' ' (by decide)
  have hhour := hcut hour (by simp) ':' (by decide)
  have hminute := hcut minute (by simp) ':' (by decide)
  have hsecond := hcut second (by simp) '.' (by decide)
  simp only [read?, hchars, hyear, hmonth, hday, hhour, hminute, hsecond, hlength,
    Option.bind_eq_bind, Option.bind_some, if_true]

theorem ofNumerals?_eq_some {year month day hour minute second millisecond : List Char} {s : Stamp}
    (hyear : number? year = some s.date.year) (hmonth : number? month = some s.date.month)
    (hday : number? day = some s.date.day) (hhour : number? hour = some s.hour.val)
    (hminute : number? minute = some s.minute.val) (hsecond : number? second = some s.second.val)
    (hmillisecond : number? millisecond = some s.millisecond.val) :
    ofNumerals? year month day hour minute second millisecond = some s := by
  have hdate : Date.of? s.date.year s.date.month s.date.day = some s.date :=
    Date.of?_eq_some_iff.mpr ⟨rfl, rfl, rfl⟩
  simp only [ofNumerals?, hyear, hmonth, hday, hdate, numberBelow?_eq_some_iff.mpr hhour,
    numberBelow?_eq_some_iff.mpr hminute, numberBelow?_eq_some_iff.mpr hsecond,
    numberBelow?_eq_some_iff.mpr hmillisecond, Option.bind_eq_bind, Option.bind_some, Option.pure_def]

theorem fixedDigits_ne_nil (width n : Nat) : fixedDigits 10 (width + 1) n ≠ [] := by
  rw [← List.length_pos_iff, length_fixedDigits]
  exact Nat.succ_pos width

theorem withoutLast_append {text rest : String} {count : Nat} (h : rest.toList.length = count) :
    withoutLast count (text ++ rest) = text := by
  rw [withoutLast, String.toList_append, List.length_append, h, Nat.add_sub_cancel,
    List.take_left, String.ofList_toList]

/-- Without its last three digits, the microsecond is the millisecond. -/
theorem millisecondText_eq (t : Moment) : millisecondText t = t.date.shortText ++ " " ++ t.clock.text ++
    "." ++ padded 3 (t.clock.microsecond.val / 1000) := by
  have hmillisecond : t.clock.microsecond.val / 1000 < 10 ^ 3 :=
    Nat.div_lt_of_lt_mul t.clock.microsecond.isLt
  have hdigits : padded 6 t.clock.microsecond.val = padded 3 (t.clock.microsecond.val / 1000) ++
      String.ofList (fixedDigits 10 3 t.clock.microsecond.val) := by
    rw [← String.toList_inj, String.toList_append, String.toList_ofList,
      toList_padded (by decide) t.clock.microsecond.isLt, toList_padded (by decide) hmillisecond]
    exact fixedDigits_add 10 3 3 t.clock.microsecond.val
  rw [millisecondText, microsecondText, hdigits, ← String.append_assoc]
  exact withoutLast_append (by simp)

/-- The text of a moment is read as its date and time. -/
theorem read?_millisecondText (t : Moment) : read? (millisecondText t) = some (of t) := by
  have hmonth : t.date.month < 10 ^ 2 := lt_of_le_of_lt t.date.month_mem.2 (by decide)
  have hday : t.date.day < 10 ^ 2 := lt_of_le_of_lt t.date.day_le (by decide)
  have hmillisecond : t.clock.microsecond.val / 1000 < 10 ^ 3 :=
    Nat.div_lt_of_lt_mul t.clock.microsecond.isLt
  have hchars : (millisecondText t).toList = Nat.toDigits 10 t.date.year ++ '-' ::
      (fixedDigits 10 2 t.date.month ++ '-' :: (fixedDigits 10 2 t.date.day ++ ' ' ::
        (fixedDigits 10 2 t.clock.hour.val ++ ':' :: (fixedDigits 10 2 t.clock.minute.val ++ ':' ::
          (fixedDigits 10 2 t.clock.second.val ++ '.' ::
            fixedDigits 10 3 (t.clock.microsecond.val / 1000)))))) := by
    have hpadded {width n : Nat} (hn : n < 10 ^ (width + 1)) :
        (Numeral.padded (width + 1) n).toList = fixedDigits 10 (width + 1) n :=
      toList_padded width.succ_pos hn
    simp [millisecondText_eq, Date.shortText, Numeral.ofNat, Clock.toList_text, hpadded hmonth,
      hpadded hday, hpadded hmillisecond]
  have hfields : ∀ digits ∈ [Nat.toDigits 10 t.date.year, fixedDigits 10 2 t.date.month,
      fixedDigits 10 2 t.date.day, fixedDigits 10 2 t.clock.hour.val,
      fixedDigits 10 2 t.clock.minute.val, fixedDigits 10 2 t.clock.second.val],
      digits ≠ [] ∧ ∀ c ∈ digits, Text.isDigit c = true := by
    have hfixed (n : Nat) : fixedDigits 10 2 n ≠ [] ∧
        ∀ c ∈ fixedDigits 10 2 n, Text.isDigit c = true :=
      ⟨fixedDigits_ne_nil 1 n, fun c hc ↦ isDigit_of_mem_fixedDigits hc⟩
    simp only [List.forall_mem_cons]
    exact ⟨⟨Nat.toDigits_ne_nil, fun c hc ↦ isDigit_of_mem_toDigits hc⟩, hfixed _, hfixed _,
      hfixed _, hfixed _, hfixed _, List.forall_mem_nil _⟩
  rw [read?_of_toList hfields (length_fixedDigits _ _ _) hchars]
  exact ofNumerals?_eq_some (number?_toDigits _) (number?_fixedDigits hmonth)
    (number?_fixedDigits hday) (number?_fixedDigits_two (by decide) _)
    (number?_fixedDigits_two (by decide) _) (number?_fixedDigits_two (by decide) _)
    (number?_fixedDigits hmillisecond)

/-- The text of a moment says as much as its date and time. -/
theorem millisecondText_eq_iff {t u : Moment} : millisecondText t = millisecondText u ↔ of t = of u := by
  constructor
  · intro h
    apply Option.some.inj
    rw [← read?_millisecondText, h, read?_millisecondText]
  · intro h
    have htext (t : Moment) : millisecondText t = (of t).date.shortText ++ " " ++
        (⟨(of t).hour, (of t).minute, (of t).second, 0⟩ : Clock).text ++ "." ++
          padded 3 (of t).millisecond.val := millisecondText_eq t
    rw [htext, h, ← htext]

/-- Moments in universal time have the same date and time exactly when they fall into the same
millisecond. -/
theorem of_eq_iff {t u : Moment} (ht : t.offset = some Offset.utc) (hu : u.offset = some Offset.utc) :
    of t = of u ↔ t.microseconds / 1000 = u.microseconds / 1000 := by
  have hfields : of t = of u ↔ t.date.dayNumber = u.date.dayNumber ∧
      t.clock.hour.val = u.clock.hour.val ∧ t.clock.minute.val = u.clock.minute.val ∧
      t.clock.second.val = u.clock.second.val ∧
      t.clock.microsecond.val / 1000 = u.clock.microsecond.val / 1000 := by
    have hdate : t.date = u.date ↔ t.date.dayNumber = u.date.dayNumber :=
      ⟨congrArg Date.dayNumber, Date.dayNumber_injective⟩
    simp only [of, Stamp.mk.injEq, hdate, Fin.ext_iff]
  rw [hfields, Moment.microseconds_of_offset ht, Moment.microseconds_of_offset hu]
  obtain ⟨hhour, hhour'⟩ := And.intro t.clock.hour.isLt u.clock.hour.isLt
  obtain ⟨hminute, hminute'⟩ := And.intro t.clock.minute.isLt u.clock.minute.isLt
  obtain ⟨hsecond, hsecond'⟩ := And.intro t.clock.second.isLt u.clock.second.isLt
  obtain ⟨hmicrosecond, hmicrosecond'⟩ :=
    And.intro t.clock.microsecond.isLt u.clock.microsecond.isLt
  simp only [Clock.microseconds, Offset.utc]
  omega

end Stamp

/-! ## Defaults -/

/-- A date that an entity keeps as the default of a column. -/
structure KeptDate (e : Entity) (column : String × Column) (value : Json) : Prop where
  mem : column ∈ e.columns
  type : column.2.type = .primitive .date
  default : column.2.default = some value
  ne_null : value ≠ .null

/-- Whether a kept date is that of a moment, and so is every literal that it may have been kept of. -/
structure DateOf (value : Json) (t : Moment) : Prop where
  kept : value.toValue.toMoment = .ok t
  given : ∀ literal, Literal.read (.primitive .date) literal = .ok value → literal.toMoment = .ok t

variable {v : Value} {e : Entity} {column : String × Column} {value : Json} {t u : Moment}

/-- A kept text denotes the moment that the literal denotes, also if the literal was a moment. -/
theorem dateOf_text {text : String} (h : Instant.read text = .ok t) : DateOf (.text text) t := by
  refine ⟨h, fun literal hliteral ↦ ?_⟩
  generalize hkept : Json.text text = kept at hliteral
  cases Literal.readScalar_eq_ok_iff.mp hliteral with
  | moment s =>
    rw [Json.text.inj hkept] at h
    exact congrArg Except.ok (Instant.read_isoText_eq_ok_iff.mp h).2
  | instant _ =>
    rw [Json.text.inj hkept] at h
    exact h

/-- A kept date is a text that is read, or that of a moment with seconds in its offset. -/
theorem KeptDate.exists_text (hbuild : Entity.build v = .ok e) (h : KeptDate e column value) :
    ∃ text, value = .text text ∧ ((∃ t, Instant.read text = .ok t) ∨
      ∃ t : Moment, t.wholeMinutes = false ∧ text = t.isoText) := by
  obtain ⟨_, spec, hspec⟩ := Validation.exists_build_of_mem hbuild h.mem
  rcases ColumnSpecification.form_default hspec h.default with ⟨hnull, -⟩ | ⟨-, hform⟩
  · exact absurd hnull h.ne_null
  · rw [h.type] at hform
    cases value with
    | text text =>
      obtain ⟨t, htext | ht⟩ := hform
      · refine ⟨text, rfl, ?_⟩
        cases hwhole : t.wholeMinutes with
        | true => exact .inl ⟨t, htext ▸ Instant.read_isoText hwhole⟩
        | false => exact .inr ⟨t, hwhole, htext⟩
      · exact ⟨text, rfl, .inl ⟨t, ht⟩⟩
    | _ => exact absurd hform id

/-- The clause of a kept date has the literal of its text. -/
theorem KeptDate.defaultClause_text {g : Generator} (hprofile : g.profile = .of .mysql)
    (hbuild : Entity.build v = .ok e) {text : String} (h : KeptDate e column (.text text)) :
    g.defaultClause e.name column.1 column.2 =
      (renderDate (.of .mysql) text).map fun literal ↦ ["DEFAULT " ++ literal] := by
  have hwell := (Entity.wellFormed_of_build hbuild).columns column h.mem
  have hnow : ¬(column.2.db.defaultNow = true ∧ column.2.type = .primitive .date) := by
    rintro ⟨hnow, -⟩
    exact nomatch h.default.symm.trans (hwell.defaultNow hnow).2
  rw [Generator.defaultClause, if_neg hnow, h.default, hprofile, h.type]
  rfl

/-- The clause of a date has the text of its moment in universal time. -/
theorem KeptDate.defaultClause_eq {g : Generator} (hprofile : g.profile = .of .mysql)
    (hbuild : Entity.build v = .ok e) (h : KeptDate e column value) (ht : DateOf value t)
    (hu : t.InUniversalTime u) : g.defaultClause e.name column.1 column.2 =
      .ok ["DEFAULT " ++ quoteText (millisecondText u)] := by
  obtain ⟨text, rfl, -⟩ := h.exists_text hbuild
  have hread : Instant.read text = .ok t := ht.kept
  have hdate : renderDate (.of .mysql) text = .ok (quoteText (millisecondText u)) := by
    simp only [renderDate, Profile.of, Profile.mysql, hread, Moment.toUtc?_eq_some_iff.mpr hu]
  rw [h.defaultClause_text hprofile hbuild, hdate]
  rfl

/-- A kept date denotes a moment, or it has no clause: it is the text of a moment with seconds in its
offset, which is not read. -/
theorem KeptDate.dateOf_or_unread {g : Generator} (hprofile : g.profile = .of .mysql)
    (hbuild : Entity.build v = .ok e) (h : KeptDate e column value) : (∃ s, DateOf value s) ∨
      ∃ s : Moment, s.wholeMinutes = false ∧ value = .text s.isoText ∧
        g.defaultClause e.name column.1 column.2 = .error (.instant (.form s.isoText)) := by
  obtain ⟨text, rfl, ⟨s, hs⟩ | ⟨s, hseconds, rfl⟩⟩ := h.exists_text hbuild
  · exact .inl ⟨s, dateOf_text hs⟩
  · have hdate : renderDate (.of .mysql) s.isoText = .error (.instant (.form s.isoText)) := by
      simp only [renderDate, Profile.of, Profile.mysql, Instant.read_isoText_of_seconds hseconds]
    refine .inr ⟨s, hseconds, rfl, ?_⟩
    rw [h.defaultClause_text hprofile hbuild, hdate]
    rfl

/-- In the dialect that keeps no offsets, a date is the text of the date and time, to the millisecond, of the
same instant in universal time, and of its own date and time if it is local, unless it is the text of a
moment with seconds in its offset, for which there is none.  Two dates with offsets have the same text
exactly when their instants fall into the same millisecond. -/
theorem stamps_of_dates {w : Value} {f : Entity} {other : String × Column} {value' : Json}
    {g : Generator} (hprofile : g.profile = .of .mysql) (he : Entity.build v = .ok e)
    (hf : Entity.build w = .ok f) (hvalue : KeptDate e column value)
    (hvalue' : KeptDate f other value') :
    ((∃ s, DateOf value s) ∨ ∃ s : Moment, s.wholeMinutes = false ∧ value = .text s.isoText ∧
      g.defaultClause e.name column.1 column.2 = .error (.instant (.form s.isoText))) ∧
    (∀ s u, DateOf value s → s.InUniversalTime u →
      ∃ text, g.defaultClause e.name column.1 column.2 = .ok ["DEFAULT " ++ quoteText text] ∧
        Stamp.read? text = some (.of u)) ∧
    ∀ s t u u', DateOf value s → DateOf value' t → s.offset.isSome → t.offset.isSome →
      s.InUniversalTime u → t.InUniversalTime u' →
      (g.defaultClause e.name column.1 column.2 = g.defaultClause f.name other.1 other.2 ↔
        s.microseconds / 1000 = t.microseconds / 1000) := by
  refine ⟨hvalue.dateOf_or_unread hprofile he, fun s u hs hu ↦ ?_,
    fun s t u u' hs ht hsoffset htoffset hu hu' ↦ ?_⟩
  · exact ⟨millisecondText u, hvalue.defaultClause_eq hprofile he hs hu,
      Stamp.read?_millisecondText u⟩
  · obtain ⟨huoffset, husame⟩ := Moment.inUniversalTime_of_isSome hsoffset hu
    obtain ⟨huoffset', husame'⟩ := Moment.inUniversalTime_of_isSome htoffset hu'
    have htexts : "DEFAULT " ++ quoteText (millisecondText u) =
        "DEFAULT " ++ quoteText (millisecondText u') ↔ millisecondText u = millisecondText u' := by
      rw [String.append_right_inj, quoteText_injective.eq_iff]
    calc
      g.defaultClause e.name column.1 column.2 = g.defaultClause f.name other.1 other.2 ↔
          millisecondText u = millisecondText u' := by
        rw [hvalue.defaultClause_eq hprofile he hs hu,
          hvalue'.defaultClause_eq hprofile hf ht hu', Except.ok.injEq, List.singleton_inj, htexts]
      _ ↔ Stamp.of u = Stamp.of u' := Stamp.millisecondText_eq_iff
      _ ↔ u.microseconds / 1000 = u'.microseconds / 1000 := Stamp.of_eq_iff huoffset huoffset'
      _ ↔ s.microseconds / 1000 = t.microseconds / 1000 := by rw [husame, husame']

/-- An evening whose instant is on the next day, in another month, in universal time. -/
def leapEvening : Moment where
  date := ⟨2024, 2, 29, by decide, by decide, by decide⟩
  clock := { Clock.midnight with
    hour := ⟨23, by decide⟩, minute := ⟨30, by decide⟩, microsecond := ⟨123456, by decide⟩ }
  offset := some ⟨-3600000000, by decide⟩

/-- A morning in the same millisecond on another clock. -/
def marchMorning : Moment where
  date := ⟨2024, 3, 1, by decide, by decide, by decide⟩
  clock := { Clock.midnight with
    hour := ⟨5, by decide⟩, minute := ⟨30, by decide⟩, microsecond := ⟨123900, by decide⟩ }
  offset := some ⟨18000000000, by decide⟩

theorem stamps_of_dates_leapEvening :
    let other := marchMorning.spacedText
    let e := tableEntity .date (.moment leapEvening) (.text leapEvening.isoText)
    let f := tableEntity .date (.text other) (.text other)
    let g : Generator := {
      profile := .of .mysql, naming := .entity, schemaName := none, ifNotExists := true
      jsonArrayFallback := true, includeComments := false, indent := "  " }
    Entity.build (tableColumn .date (.moment leapEvening)) = .ok e ∧
      Entity.build (tableColumn .date (.text other)) = .ok f ∧
      ∃ column column', KeptDate e column (.text leapEvening.isoText) ∧
        KeptDate f column' (.text other) ∧ (∃ text, g.defaultClause e.name column.1 column.2 =
          .ok ["DEFAULT " ++ quoteText text] ∧ Stamp.read? text =
            some ⟨⟨2024, 3, 1, by decide, by decide, by decide⟩, 0, 30, 0, 123⟩) ∧
        g.defaultClause e.name column.1 column.2 = g.defaultClause f.name column'.1 column'.2 := by
  intro other e f g
  have hread : Instant.read other = .ok marchMorning :=
    Instant.read_eq_ok_iff.mpr (.time (.inr rfl) (Clock.fractionWritten_fractionText _)
      (Offset.written_text rfl))
  have he : Entity.build (tableColumn .date (.moment leapEvening)) = .ok e :=
    build_tableColumn rfl (by simp) rfl
  have hf : Entity.build (tableColumn .date (.text other)) = .ok f :=
    build_tableColumn (by rw [Literal.readScalar, hread]) (by simp) rfl
  have hvalue : KeptDate e _ (.text leapEvening.isoText) := ⟨List.mem_cons_self, rfl, rfl, by simp⟩
  have hvalue' : KeptDate f _ (.text other) := ⟨List.mem_cons_self, rfl, rfl, by simp⟩
  have hutc : leapEvening.toUtc? = some ⟨⟨2024, 3, 1, by decide, by decide, by decide⟩,
      ⟨0, 30, 0, 123456⟩, some Offset.utc⟩ := by decide +kernel
  have hutc' : marchMorning.toUtc? = some ⟨⟨2024, 3, 1, by decide, by decide, by decide⟩,
      ⟨0, 30, 0, 123900⟩, some Offset.utc⟩ := by decide +kernel
  have hs : DateOf (.text leapEvening.isoText) leapEvening :=
    dateOf_text (Instant.read_isoText rfl)
  have ht : DateOf (.text other) marchMorning := dateOf_text hread
  obtain ⟨-, hstamp, hsame⟩ := stamps_of_dates (g := g) rfl he hf hvalue hvalue'
  have hu := Moment.toUtc?_eq_some_iff.mp hutc
  have hu' := Moment.toUtc?_eq_some_iff.mp hutc'
  exact ⟨he, hf, _, _, hvalue, hvalue', hstamp _ _ hs hu,
    (hsame _ _ _ _ hs ht rfl rfl hu hu').mpr (by decide)⟩

/-- An accepted date that has no text because its offset has seconds. -/
theorem stamps_of_dates_seconds :
    let t : Moment := { leapEvening with offset := some ⟨3630000000, by decide⟩ }
    let e := tableEntity .date (.moment t) (.text t.isoText)
    let g : Generator := {
      profile := .of .mysql, naming := .entity, schemaName := none, ifNotExists := true
      jsonArrayFallback := true, includeComments := false, indent := "  " }
    Entity.build (tableColumn .date (.moment t)) = .ok e ∧
      ∃ column, KeptDate e column (.text t.isoText) ∧
        ¬∃ clause, g.defaultClause e.name column.1 column.2 = .ok clause := by
  intro t e g
  have he : Entity.build (tableColumn .date (.moment t)) = .ok e := build_tableColumn rfl (by simp) rfl
  have hvalue : KeptDate e _ (.text t.isoText) := ⟨List.mem_cons_self, rfl, rfl, by simp⟩
  have hdate : renderDate (.of .mysql) t.isoText = .error (.instant (.form t.isoText)) := by
    simp only [renderDate, Profile.of, Profile.mysql, Instant.read_isoText_of_seconds (t := t) rfl]
  refine ⟨he, _, hvalue, ?_⟩
  rw [hvalue.defaultClause_text (g := g) rfl he, hdate]
  rintro ⟨clause, hclause⟩
  cases hclause

end EntityCompiler.Sql

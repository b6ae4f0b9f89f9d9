import AiLabOs.Assistant.ReminderIntent

/-!
# CEO Assistant: the times that are read from texts

What is read from a text is the local time that its first time expression names, if clocks show that
time and no digit follows the expression. Twelve o'clock in the evening is read as noon, as the
parts of the day after noon are read alike.

## Main definitions

* `TimeExpression.OnClock`: the hour of an expression on a clock of twelve hours
* `TimeExpression.AtMidnight`: the same with midnight for twelve o'clock in the evening
* `Told`: an instant is the one a text tells
* `SoundIntent`, `SoundTime`: what the outcome of a text should be
* `RegularText`, `RegularTime`: the texts of which it is

## Main results

* `soundIntent_iff`, `soundTime_iff`: the outcomes are sound for the regular texts only
* `times_onClock`: the outcomes of regular texts
* `not_times_atMidnight`: twelve o'clock in the evening is not midnight
-/

namespace Assistants

/-! ## What a text tells -/

/-- A local time so many days after that of the clock, at a minute of the day. -/
structure LocalTime (localNow localDue : DateTime) (days hour minute : ℕ) : Prop where
  day : localDue.ordinal = localNow.ordinal + days
  hour : localDue.hour = hour
  minute : localDue.minute = minute
  second : localDue.second = 0
  microsecond : localDue.microsecond = 0

namespace TimeExpression

/-- How many days after today the expression names. -/
def days (e : TimeExpression) : ℕ := if e.tomorrow then 1 else 0

/-- The hour on a clock of twelve hours, those of the afternoon and evening after noon. -/
def OnClock (e : TimeExpression) (later hour : ℕ) : Prop :=
  later = 0 ∧ hour = match e.period with
    | none => e.hour
    | some .morning => e.hour % 12
    | some .afternoon | some .evening => e.hour % 12 + 12

/-- The same, but twelve o'clock in the evening is a midnight: that of the day or of the next. -/
def AtMidnight (e : TimeExpression) (later hour : ℕ) : Prop :=
  if e.period = some .evening ∧ e.hour = 12 then later ≤ 1 ∧ hour = 0 else e.OnClock later hour

end TimeExpression

section Statements

variable (reading : TimeExpression → ℕ → ℕ → Prop) (digit : Char → Bool) (decimals : Decimals)
  (parser : TaskReminderIntentParser) (first second : DateTime)

/-- **An instant is told** by a text: it shows the local time that the first time expression names,
and no digit follows the expression. -/
def Told (raw : List Char) (due : DateTime) : Prop :=
  ∃ before e after, (timeExpression decimals).First raw before e after ∧
    (∀ c ∈ after.head?, digit c = false) ∧
    ∃ localNow localDue later hour, parser.zone.wall first = some localNow ∧
      reading e later hour ∧ LocalTime localNow localDue (e.days + later) hour e.minute ∧
      parser.zone.Shows localDue due

/-- A failure of validation. -/
def Invalid (raised : Raised) : Prop :=
  ∃ info, raised = .failure info ∧ info.category = .validation

/-- **What `parse` should do**: fail, or give a task without a time, or what the text tells; a
reminder is due later than the clock. -/
def SoundIntent (raw : List Char) : Except Raised ParsedTaskIntent → Prop
  | .error raised => Invalid raised
  | .ok parsed =>
    match parsed.dueAt with
    | none => parsed.kind = .task
    | some due => Told reading digit decimals parser first raw due ∧
      (parsed.kind = .reminder → second < due)

/-- **An instant is denoted** by a text with an offset, to the last digit of its fraction. -/
def IsoText.Denotes (iso : IsoText) (instant : DateTime) : Prop :=
  ∃ wall : DateTime, wall.year = decimals.number iso.year ∧
    wall.month = decimals.number iso.month ∧ wall.day = decimals.number iso.day ∧
    wall.hour = decimals.number iso.hour ∧ wall.minute = decimals.number iso.minute ∧
    wall.second = decimals.number iso.second ∧ wall.microsecond = 0 ∧
    ((instant.microseconds : Int) - (wall.microseconds - iso.offsetMicroseconds decimals)) *
      10 ^ iso.fraction.length = decimals.number iso.fraction * 1000000

/-- **What `parse_waiting_for_time` should do**: fail, or give the instant that the first text with
an offset denotes, or without one what `parse` should. -/
def SoundTime (text : String) : Except Raised DateTime → Prop
  | .error raised => Invalid raised
  | .ok instant =>
    match (isoDatetime decimals).search text.toList with
    | some (_, iso, _) => iso.Denotes decimals instant
    | none => Told reading digit decimals parser first (Text.strip text).toList instant ∧
      (isReminder (Text.strip text).toList → second < instant)

/-! ## The regular texts -/

/-- An expression is regular if its sums stay in the calendar, and it is in the past or without a
title or else clocks show the local time and no digit follows. -/
def RegularExpression (raw before : List Char) (e : TimeExpression) (after : List Char) : Prop :=
  ∃ localNow localDue due, parser.zone.wall first = some localNow ∧
    e.localDue localNow = some localDue ∧ parser.zone.toUtc localDue false = some due ∧
    (isReminder raw = true ∧ due ≤ second ∨ TaskReminderIntentParser.title before after = "" ∨
      (∀ c ∈ after.head?, digit c = false) ∧ ∃ u, parser.zone.Shows localDue u)

/-- A text is regular if its first time expression is, unless that is not supported. -/
def RegularText (raw : List Char) : Prop :=
  ∀ before e after, (timeExpression decimals).First raw before e after →
    hasUnsupportedTimeSuffix decimals after = false → e.supported = true →
    RegularExpression digit parser first second raw before e after

/-- An instant with an offset is regular if it has a value in the calendar, and no digits of the
fraction are lost. -/
def IsoText.Regular (iso : IsoText) : Prop :=
  ∃ value, iso.fromisoformat decimals = some value ∧ value.utc.isSome = true ∧
    decimals.number (iso.fraction.drop 6) = 0

/-- The regular texts of `parse_waiting_for_time`. -/
def RegularTime (text : String) : Prop :=
  match (isoDatetime decimals).search text.toList with
  | some (_, iso, _) => iso.Regular decimals
  | none => RegularText digit decimals parser first second (Text.strip text).toList

end Statements

/-! ## Local times -/

section LocalTimes

variable {e : TimeExpression} {localNow localDue other : DateTime} {days hour minute later : ℕ}

theorem LocalTime.eq (h : LocalTime localNow localDue days hour minute)
    (h' : LocalTime localNow other days hour minute) : localDue = other := by
  have hdate := DateTime.ordinal_eq.mp (h.day.trans h'.day.symm)
  simp only [DateTime.date, EmbeddingLike.apply_eq_iff_eq, Prod.mk.injEq] at hdate
  exact DateTime.ext hdate.1 hdate.2.1 hdate.2.2 (h.hour.trans h'.hour.symm)
    (h.minute.trans h'.minute.symm) (h.second.trans h'.second.symm)
    (h.microsecond.trans h'.microsecond.symm)

/-- **The local time** of an expression is on the day it names. -/
theorem localTime_of_localDue (h : e.localDue localNow = some localDue) :
    LocalTime localNow localDue e.days e.clockHour e.minute := by
  obtain ⟨today, htoday, h⟩ := Option.bind_eq_some_iff.mp h
  obtain ⟨day, hday, h⟩ := Option.bind_eq_some_iff.mp h
  obtain ⟨-, hdate, hh, hm, hs, hus⟩ := DateTime.atMinute_eq_some.mp htoday
  obtain ⟨-, hdate', hhour, hminute, hsecond, hmicrosecond⟩ := DateTime.atMinute_eq_some.mp h
  have hmidnight : today.timeOfDay = 0 := by simp [DateTime.timeOfDay, hh, hm, hs, hus]
  have hordinal : day.ordinal = today.ordinal + e.days := by
    unfold TimeExpression.namedDay at hday
    unfold TimeExpression.days
    split at hday
    · rename_i htomorrow
      have hsum := DateTime.plus_eq_some.mp hday
      have hlt := day.timeOfDay_lt
      have hoffset : oneDay = 86400000000 := by unfold oneDay; rfl
      rw [DateTime.microseconds_eq, DateTime.microseconds_eq, hmidnight] at hsum
      rw [if_pos htomorrow]
      omega
    · rename_i htoday
      rw [if_neg htoday, Option.some.inj hday, Nat.add_zero]
  refine ⟨?_, hhour, hminute, hsecond, hmicrosecond⟩
  rw [DateTime.ordinal_eq.mpr hdate', hordinal, DateTime.ordinal_eq.mpr hdate]

/-- **The hour** of an expression that is supported is the one on the clock. -/
theorem onClock_iff (h : e.supported = true) : e.OnClock later hour ↔
    later = 0 ∧ hour = e.clockHour := by
  unfold TimeExpression.supported at h
  unfold TimeExpression.OnClock TimeExpression.clockHour
  refine and_congr_right fun _ => ?_
  cases hperiod : e.period with
  | none => simp
  | some period =>
    rw [hperiod] at h
    simp at h
    cases period <;> simp <;> split <;> omega

end LocalTimes

/-! ## What is read -/

section Outcomes

variable {digit : Char → Bool} {decimals : Decimals} {parser : TaskReminderIntentParser}
  {first second : DateTime} {raw before after : List Char} {e : TimeExpression}
  {localNow localDue due : DateTime}

theorem invalid_intentFailure (code message : String) : Invalid (intentFailure code message) :=
  ⟨_, rfl, rfl⟩

theorem not_invalid_outOfRange : ¬Invalid outOfRange := by
  rintro ⟨info, heq, -⟩
  cases heq

theorem soundIntent_withoutTime (reading : TimeExpression → ℕ → ℕ → Prop) (timeUnparsed : Bool) :
    SoundIntent reading digit decimals parser first second raw
      (parser.withoutTime raw timeUnparsed) := by
  unfold TaskReminderIntentParser.withoutTime
  split
  · exact invalid_intentFailure ..
  · exact (rfl : ParsedKind.task = .task)

/-- **What is due is told** if clocks show the local time and no digit follows. -/
theorem told_iff (hfirst : (timeExpression decimals).First raw before e after)
    (hsupported : e.supported = true) (hnow : parser.zone.wall first = some localNow)
    (hlocal : e.localDue localNow = some localDue)
    (hdue : parser.zone.toUtc localDue false = some due) :
    Told TimeExpression.OnClock digit decimals parser first raw due ↔
      (∀ c ∈ after.head?, digit c = false) ∧ ∃ u, parser.zone.Shows localDue u := by
  have htime := localTime_of_localDue hlocal
  constructor
  · rintro ⟨before', e', after', hfirst', hdigit, localNow', localDue', later, hour, hnow',
      hreading, htime', hshows⟩
    have hsame := (Pattern.search_eq_some_iff.mpr hfirst).symm.trans
      (Pattern.search_eq_some_iff.mpr hfirst')
    cases hsame
    obtain rfl := Option.some.inj (hnow.symm.trans hnow')
    obtain ⟨rfl, rfl⟩ := (onClock_iff hsupported).mp hreading
    exact ⟨hdigit, due, htime.eq htime' ▸ hshows⟩
  · rintro ⟨hdigit, u, hu⟩
    obtain ⟨least, -, hleast, -, hshows, -⟩ := Zone.toUtc_wall hu
    obtain rfl := Option.some.inj (hdue.symm.trans hleast)
    exact ⟨before, e, after, hfirst, hdigit, localNow, localDue, 0, e.clockHour, hnow,
      (onClock_iff hsupported).mpr ⟨rfl, rfl⟩, htime, hshows.1⟩

/-- What is due comes from the local time that the expression names. -/
theorem dueAt_eq_some : parser.dueAt first e = some due ↔ ∃ localNow localDue,
    parser.zone.wall first = some localNow ∧ e.localDue localNow = some localDue ∧
      parser.zone.toUtc localDue false = some due := by
  unfold TaskReminderIntentParser.dueAt Zone.fromUtc
  cases parser.zone.wall first with
  | none => simp
  | some localNow => simp [Option.bind_eq_some_iff]

/-- **The kind** of what is parsed: a reminder always has a time. -/
theorem kind_of_parse {text : String} {parsed : ParsedTaskIntent}
    (h : parser.parse decimals first second text = .ok parsed) :
    (parsed.kind = .reminder ↔ isReminder (Text.strip text).toList = true) ∧
      (parsed.dueAt = none → parsed.kind = .task) := by
  have hwithout : ∀ {timeUnparsed : Bool},
      parser.withoutTime (Text.strip text).toList timeUnparsed = .ok parsed →
        (parsed.kind = .reminder ↔ isReminder (Text.strip text).toList = true) ∧
          (parsed.dueAt = none → parsed.kind = .task) := by
    intro timeUnparsed h
    unfold TaskReminderIntentParser.withoutTime at h
    split at h
    · cases h
    · rename_i hreminder
      cases h
      exact ⟨iff_of_false nofun hreminder, fun _ => rfl⟩
  unfold TaskReminderIntentParser.parse at h
  dsimp only at h
  generalize (Text.strip text).toList = raw at h hwithout ⊢
  split at h
  · exact hwithout h
  · split at h
    · exact hwithout h
    · split at h
      · exact hwithout h
      · split at h
        · cases h
        · split at h
          · cases h
          · split at h
            · cases h
            · cases h
              refine ⟨?_, nofun⟩
              dsimp only
              split <;> simp [*]

/-- **An expression that is supported** has a sound outcome just when it is regular. -/
theorem soundIntent_supported (hfirst : (timeExpression decimals).First raw before e after)
    (hsupported : e.supported = true) {text : String} (hraw : (Text.strip text).toList = raw)
    (hsuffix : hasUnsupportedTimeSuffix decimals after = false) :
    SoundIntent TimeExpression.OnClock digit decimals parser first second raw
      (parser.parse decimals first second text) ↔
    RegularExpression digit parser first second raw before e after := by
  have hsearch := Pattern.search_eq_some_iff.mpr hfirst
  unfold TaskReminderIntentParser.parse
  dsimp only
  rw [hraw, hsearch]
  simp only [hsuffix, hsupported, Bool.false_eq_true, Bool.not_true, if_false]
  cases hdue : parser.dueAt first e with
  | none =>
    refine iff_of_false not_invalid_outOfRange ?_
    rintro ⟨localNow, localDue, due, hnow, hlocal, hutc, -⟩
    rw [dueAt_eq_some.mpr ⟨localNow, localDue, hnow, hlocal, hutc⟩] at hdue
    cases hdue
  | some due =>
    obtain ⟨localNow, localDue, hnow, hlocal, hutc⟩ := dueAt_eq_some.mp hdue
    have hregular : RegularExpression digit parser first second raw before e after ↔
        (isReminder raw = true ∧ due ≤ second ∨
          TaskReminderIntentParser.title before after = "" ∨
          (∀ c ∈ after.head?, digit c = false) ∧ ∃ u, parser.zone.Shows localDue u) := by
      constructor
      · rintro ⟨localNow', localDue', due', hnow', hlocal', hutc', h⟩
        obtain rfl := Option.some.inj (hnow.symm.trans hnow')
        obtain rfl := Option.some.inj (hlocal.symm.trans hlocal')
        obtain rfl := Option.some.inj (hutc.symm.trans hutc')
        exact h
      · intro h
        exact ⟨localNow, localDue, due, hnow, hlocal, hutc, h⟩
    rw [hregular]
    dsimp only
    split
    · rename_i hpast
      rw [Bool.and_eq_true, decide_eq_true_eq] at hpast
      exact iff_of_true (invalid_intentFailure ..) (.inl hpast)
    · rename_i hpast
      rw [Bool.and_eq_true, decide_eq_true_eq] at hpast
      split
      · rename_i htitle
        refine iff_of_true ?_ (.inr (.inl htitle))
        split <;> exact invalid_intentFailure ..
      · rename_i htitle
        rw [or_iff_right hpast, or_iff_right htitle,
          ← told_iff hfirst hsupported hnow hlocal hutc]
        refine and_iff_left fun hkind => ?_
        dsimp only at hkind
        split at hkind
        · rename_i hreminder
          exact not_le.mp fun hle => hpast ⟨hreminder, hle⟩
        · cases hkind

/-- Without an expression that is supported the outcome is sound. -/
theorem soundIntent_unsupported {text : String} (hraw : (Text.strip text).toList = raw)
    (h : ∀ before e after, (timeExpression decimals).First raw before e after →
      ¬(hasUnsupportedTimeSuffix decimals after = false ∧ e.supported = true)) :
    SoundIntent TimeExpression.OnClock digit decimals parser first second raw
      (parser.parse decimals first second text) := by
  unfold TaskReminderIntentParser.parse
  dsimp only
  rw [hraw]
  cases hsearch : (timeExpression decimals).search raw with
  | none => exact soundIntent_withoutTime ..
  | some found =>
    obtain ⟨before, e, after⟩ := found
    have hnot := h before e after (Pattern.search_eq_some_iff.mp hsearch)
    dsimp only
    split
    · exact soundIntent_withoutTime ..
    · rename_i hsuffix
      rw [if_pos]
      · exact soundIntent_withoutTime ..
      · rw [Bool.not_eq_true']
        exact Bool.eq_false_iff.mpr fun hsupported =>
          hnot ⟨Bool.eq_false_iff.mpr hsuffix, hsupported⟩

/-- **The outcomes of `parse`** are sound for the regular texts only. -/
theorem soundIntent_iff {text : String} (hraw : (Text.strip text).toList = raw) :
    SoundIntent TimeExpression.OnClock digit decimals parser first second raw
      (parser.parse decimals first second text) ↔
    RegularText digit decimals parser first second raw := by
  by_cases h : ∃ before e after, (timeExpression decimals).First raw before e after ∧
      hasUnsupportedTimeSuffix decimals after = false ∧ e.supported = true
  · obtain ⟨before, e, after, hfirst, hsuffix, hsupported⟩ := h
    rw [soundIntent_supported hfirst hsupported hraw hsuffix]
    constructor
    · intro hregular before' e' after' hfirst' _ _
      -- there is one first expression
      have hsame := (Pattern.search_eq_some_iff.mpr hfirst).symm.trans
        (Pattern.search_eq_some_iff.mpr hfirst')
      cases hsame
      exact hregular
    · intro hregular
      exact hregular before e after hfirst hsuffix hsupported
  · refine iff_of_true (soundIntent_unsupported hraw ?_) ?_
    · intro before e after hfirst hread
      exact h ⟨before, e, after, hfirst, hread⟩
    · intro before e after hfirst hsuffix hsupported
      exact absurd ⟨before, e, after, hfirst, hsuffix, hsupported⟩ h

/-! ## Instants with their offset -/

/-- **The instant of a value** is the one the text denotes if no digit of the fraction is lost. -/
theorem denotes_iff {iso : IsoText} {value : OffsetTime} {instant : DateTime}
    (hvalue : iso.fromisoformat decimals = some value) (hutc : value.utc = some instant) :
    iso.Denotes decimals instant ↔ decimals.number (iso.fraction.drop 6) = 0 := by
  unfold IsoText.fromisoformat at hvalue
  split at hvalue <;> try cases hvalue
  split at hvalue <;> try cases hvalue
  rename_i hvalid
  split at hvalue <;> cases hvalue
  have hsum := DateTime.plus_eq_some.mp hutc
  obtain ⟨hy, hm, hd, hh, hmi, hs, hus⟩ := hvalid
  let wall : DateTime := ⟨_, _, _, _, _, _, 0, hy, hm, hd, hh, hmi, hs, by decide⟩
  have hwall : ∀ other : DateTime, other.year = decimals.number iso.year →
      other.month = decimals.number iso.month → other.day = decimals.number iso.day →
      other.hour = decimals.number iso.hour → other.minute = decimals.number iso.minute →
      other.second = decimals.number iso.second → other.microsecond = 0 → other = wall :=
    fun other hy hm hd hh hmi hs hus => DateTime.ext hy hm hd hh hmi hs hus
  have hcount : (instant.microseconds : Int) -
      (wall.microseconds - iso.offsetMicroseconds decimals) = iso.microsecond decimals := by
    have hparts : ∀ d e : DateTime, d.year = e.year → d.month = e.month → d.day = e.day →
        d.hour = e.hour → d.minute = e.minute → d.second = e.second → e.microsecond = 0 →
        d.microseconds = e.microseconds + d.microsecond := by
      intro d e hy hm hd hh hmi hs hus
      rw [DateTime.microseconds, DateTime.microseconds, DateTime.ordinal, DateTime.ordinal, hy, hm,
        hd, hh, hmi, hs, hus, Nat.add_zero]
    have hcut := hparts ⟨_, _, _, _, _, _, _, hy, hm, hd, hh, hmi, hs, hus⟩ wall rfl rfl rfl rfl rfl
      rfl rfl
    dsimp only at hsum hcut
    omega
  have hdigits := decimals.number_take_iff iso.fraction
  rw [← hdigits]
  constructor
  · rintro ⟨other, hy', hm', hd', hh', hmi', hs', hus', hdenoted⟩
    rw [hwall other hy' hm' hd' hh' hmi' hs' hus', hcount] at hdenoted
    exact_mod_cast hdenoted
  · intro hequal
    refine ⟨wall, rfl, rfl, rfl, rfl, rfl, rfl, rfl, ?_⟩
    rw [hcount]
    exact_mod_cast hequal

/-- **The outcomes of `parse_waiting_for_time`** are sound for the regular texts only. -/
theorem soundTime_iff (text : String) :
    SoundTime TimeExpression.OnClock digit decimals parser first second text
      (parser.parseWaitingForTime decimals first second text) ↔
    RegularTime digit decimals parser first second text := by
  unfold TaskReminderIntentParser.parseWaitingForTime RegularTime
  cases hsearch : (isoDatetime decimals).search text.toList with
  | some found =>
    obtain ⟨_, iso, _⟩ := found
    dsimp only
    cases hvalue : iso.fromisoformat decimals with
    | none =>
      refine iff_of_false ?_ ?_
      · rintro ⟨info, heq, -⟩
        cases heq
      · rintro ⟨value, heq, -⟩
        rw [hvalue] at heq
        cases heq
    | some value =>
      dsimp only
      cases hutc : value.utc with
      | none =>
        refine iff_of_false not_invalid_outOfRange ?_
        rintro ⟨value', heq, hsome, -⟩
        obtain rfl := Option.some.inj (hvalue.symm.trans heq)
        rw [hutc] at hsome
        cases hsome
      | some instant =>
        unfold SoundTime
        rw [hsearch]
        refine (denotes_iff hvalue hutc).trans ⟨fun hzero => ⟨value, hvalue, ?_, hzero⟩, ?_⟩
        · rw [hutc]
          rfl
        · rintro ⟨-, -, -, hzero⟩
          exact hzero
  | none =>
    dsimp only
    rw [← soundIntent_iff rfl]
    cases hparse : parser.parse decimals first second text with
    | error raised => exact Iff.rfl
    | ok parsed =>
      obtain ⟨hkind, hnone⟩ := kind_of_parse hparse
      unfold SoundIntent
      dsimp only
      cases hdue : parsed.dueAt with
      | none => exact iff_of_true ⟨_, rfl, rfl⟩ (hnone hdue)
      | some due =>
        unfold SoundTime
        rw [hsearch]
        dsimp only
        rw [hkind]

end Outcomes

namespace Evening

/-- An instant in the afternoon. -/
def now : DateTime := ⟨2026, 7, 15, 15, 0, 0, 0, by decide⟩

/-- Three o'clock of the next afternoon, and noon of that day. -/
def due : DateTime := ⟨2026, 7, 16, 15, 0, 0, 0, by decide⟩

def noon : DateTime := ⟨2026, 7, 16, 12, 0, 0, 0, by decide⟩

/-- A zone that keeps the time of UTC. -/
def zone : Zone :=
  .transition now 0 0 0 (by decide) (by decide) (by decide +kernel) (by decide +kernel)

def parser : TaskReminderIntentParser := ⟨"UTC", zone⟩

/-- A meeting at twelve in the evening, and one at three in the afternoon. -/
def texts : String × String := ("提醒我明天晚上十二点开会", "提醒我明天下午三点开会")

end Evening

/-- **Times that are read** from regular texts, of tasks and reminders and of items that are waited
for: the local time that the first expression names on a clock of twelve hours, or the instant that
a text with an offset denotes. -/
theorem times_onClock (digit : Char → Bool) (decimals : Decimals)
    (parser : TaskReminderIntentParser) (first second : DateTime) (text : String) :
    (RegularText digit decimals parser first second (Text.strip text).toList →
      SoundIntent TimeExpression.OnClock digit decimals parser first second
        (Text.strip text).toList (parser.parse decimals first second text)) ∧
    (RegularTime digit decimals parser first second text →
      SoundTime TimeExpression.OnClock digit decimals parser first second text
        (parser.parseWaitingForTime decimals first second text)) :=
  ⟨(soundIntent_iff rfl).mpr, (soundTime_iff text).mpr⟩

/-- A text with this expression is regular. -/
theorem Evening.regularText {raw before after : List Char}
    (h : (timeExpression .ascii).search raw =
      some (before, ⟨true, some .afternoon, 3, true, 0⟩, after))
    (hafter : ∀ c ∈ after.head?, c.isDigit = false) :
    RegularText Char.isDigit .ascii parser now now raw := by
  intro before' e after' hfirst _ _
  rw [Pattern.search_eq_some_iff.mpr hfirst] at h
  obtain ⟨rfl, rfl, rfl⟩ : before' = before ∧ e = ⟨true, some .afternoon, 3, true, 0⟩ ∧
      after' = after := by
    simpa using h
  have hnow : parser.zone.wall now = some now := by decide +kernel
  have hlocal : TimeExpression.localDue ⟨true, some .afternoon, 3, true, 0⟩ now = some due := by
    decide +kernel
  have hdue : parser.zone.toUtc due false = some due := by decide +kernel
  have hshows : parser.zone.wall due = some due := by decide +kernel
  exact ⟨now, due, due, hnow, hlocal, hdue, .inr (.inr ⟨hafter, due, hshows⟩)⟩

/-- The afternoon of the next day is a regular time. -/
theorem times_onClock_afternoon :
    (RegularText Char.isDigit .ascii Evening.parser Evening.now Evening.now
        (Text.strip Evening.texts.2).toList ∧
      RegularTime Char.isDigit .ascii Evening.parser Evening.now Evening.now Evening.texts.2) ∧
    SoundIntent TimeExpression.OnClock Char.isDigit .ascii Evening.parser Evening.now Evening.now
      (Text.strip Evening.texts.2).toList
      (Evening.parser.parse .ascii Evening.now Evening.now Evening.texts.2) ∧
    SoundTime TimeExpression.OnClock Char.isDigit .ascii Evening.parser Evening.now Evening.now
      Evening.texts.2
      (Evening.parser.parseWaitingForTime .ascii Evening.now Evening.now Evening.texts.2) := by
  have htimes := times_onClock Char.isDigit .ascii Evening.parser Evening.now Evening.now
    Evening.texts.2
  have hsearch : (timeExpression .ascii).search (Text.strip Evening.texts.2).toList =
      some ("提醒我".toList, ⟨true, some .afternoon, 3, true, 0⟩, "开会".toList) := by
    decide +kernel
  have hnone : (isoDatetime .ascii).search Evening.texts.2.toList = none := by decide +kernel
  generalize Evening.texts.2 = text at htimes hsearch hnone ⊢
  have hregular := Evening.regularText hsearch fun c hc => by
    obtain rfl := Option.some.inj hc
    rfl
  have htime : RegularTime Char.isDigit .ascii Evening.parser Evening.now Evening.now text := by
    unfold RegularTime
    rw [hnone]
    exact hregular
  exact ⟨⟨hregular, htime⟩, htimes.1 hregular, htimes.2 htime⟩

/-- **Twelve o'clock in the evening** is read as noon, so that the outcome is not that of a clock
with a midnight there. -/
theorem not_times_atMidnight : ¬∀ (digit : Char → Bool) (decimals : Decimals)
    (parser : TaskReminderIntentParser) (first second : DateTime) (text : String),
    SoundIntent TimeExpression.AtMidnight digit decimals parser first second
      (Text.strip text).toList (parser.parse decimals first second text) ∧
    SoundTime TimeExpression.AtMidnight digit decimals parser first second text
      (parser.parseWaitingForTime decimals first second text) := by
  intro h
  have hsound := (h Char.isDigit .ascii Evening.parser Evening.now Evening.now Evening.texts.1).1
  have hparse : Evening.parser.parse .ascii Evening.now Evening.now Evening.texts.1 =
      .ok ⟨.reminder, "开会", some Evening.noon, "UTC", false⟩ := by
    decide +kernel
  have hsearch : (timeExpression .ascii).search (Text.strip Evening.texts.1).toList =
      some ("提醒我".toList, ⟨true, some .evening, 12, true, 0⟩, "开会".toList) := by
    decide +kernel
  have hnoon : Evening.zone.wall Evening.noon = some Evening.noon := by decide +kernel
  generalize Evening.texts.1 = text at hsound hparse hsearch
  rw [hparse] at hsound
  obtain ⟨⟨before, e, after, hfirst, -, localNow, localDue, later, hour, -, hreading, htime,
    hshows⟩, -⟩ := hsound
  rw [Pattern.search_eq_some_iff.mpr hfirst] at hsearch
  cases hsearch
  obtain rfl := Option.some.inj (hnoon.symm.trans hshows)
  rw [TimeExpression.AtMidnight, if_pos ⟨rfl, rfl⟩] at hreading
  rw [hreading.2] at htime
  exact absurd htime.hour (by decide)

end Assistants

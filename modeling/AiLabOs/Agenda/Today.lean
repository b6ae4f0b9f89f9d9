import AiLabOs.DailyReview.Period
import AiLabOs.Reminder.Inbox

/-!
# Agenda: today

Three services compute the bounds of the local day. The Daily Review and the reminder inbox combine
the date with midnight, which has `fold=0`. The agenda replaces the time of the local instant, which
keeps its `fold`: in the second reading of a repeated wall time its day starts with the second
midnight, if midnight is repeated too.

## Main definitions

* `todayBounds`: the bounds of the agenda
* `OneToday`: the three services agree

## Main results

* `reminders_agree`: the Daily Review and the reminder inbox always agree
* `oneToday_iff`: when the agenda agrees with them
-/

namespace Agendas

open Reminders DailyReviews

/-- `_today_bounds`. A sum of a local time and a `timedelta` has `fold=0`. -/
def todayBounds (zone : Zone) (now : DateTime) : Option (DateTime × DateTime) := do
  let localNow ← zone.fromUtc now
  let start ← localNow.1.atMinute 0 0
  let next ← start.plus oneDay
  let startUtc ← zone.toUtc start localNow.2
  let endUtc ← zone.toUtc next false
  return (startUtc, endUtc)

/-- **One notion of today**: the agenda, the Daily Review and the reminder inbox give the same
bounds for the local day of an instant, or all raise. -/
def OneToday (zone : Zone) (now : DateTime) : Prop :=
  todayBounds zone now = period zone now .today ∧
    timeBounds zone now (some .today) =
      (period zone now .today).map fun bounds => (some bounds.1, some bounds.2)

section Today

variable {zone : Zone} {now : DateTime}

/-- Midnight of the local day of an instant. -/
def localMidnight (zone : Zone) (now : DateTime) : Option DateTime :=
  (zone.wall now).bind fun w => w.atMinute 0 0

/-- The end of a day that starts at a midnight. -/
def endOfDay (zone : Zone) (midnight : DateTime) : Option DateTime :=
  (midnight.plus oneDay).bind fun next => zone.toUtc next false

/-- The readings of the two ends of a day do not depend on each other. -/
theorem bounds_eq (start next : Option DateTime) (read : DateTime → Option DateTime) :
    (next.bind fun next => start.bind fun start => (read next).bind fun finish =>
      pure (start, finish)) =
    start.bind fun start => (next.bind fun next => read next).map fun finish =>
      (start, finish) := by
  cases next <;> cases start <;> simp [Option.map_eq_bind]

theorem period_today : period zone now .today = (localMidnight zone now).bind fun midnight =>
    (zone.toUtc midnight false).bind fun periodStart =>
      (endOfDay zone midnight).map fun periodEnd => (periodStart, periodEnd) := by
  unfold period localMidnight endOfDay Zone.fromUtc
  generalize zone.wall now = o
  cases o with
  | none => rw [Option.map_none, Option.bind_eq_bind, Option.bind_none, Option.bind_none,
      Option.bind_none]
  | some w =>
    simp only [Option.map_some, Option.bind_eq_bind, Option.bind_some]
    simp only [reviewedDay]
    generalize w.atMinute 0 0 = o
    cases o with
    | none => rw [Option.bind_none, Option.bind_none]
    | some midnight =>
      rw [Option.bind_some, Option.bind_some, Option.bind_some]
      exact bounds_eq _ _ _

theorem todayBounds_eq : todayBounds zone now = (localMidnight zone now).bind fun midnight =>
    (zone.toUtc midnight (zone.fold now)).bind fun startUtc =>
      (endOfDay zone midnight).map fun endUtc => (startUtc, endUtc) := by
  unfold todayBounds localMidnight endOfDay Zone.fromUtc
  generalize zone.wall now = o
  cases o with
  | none => rw [Option.map_none, Option.bind_eq_bind, Option.bind_none, Option.bind_none,
      Option.bind_none]
  | some w =>
    simp only [Option.map_some, Option.bind_eq_bind, Option.bind_some]
    generalize w.atMinute 0 0 = o
    cases o with
    | none => rw [Option.bind_none, Option.bind_none]
    | some midnight =>
      rw [Option.bind_some, Option.bind_some]
      exact bounds_eq _ _ _

/-- The same, for bounds that may be missing. -/
theorem optional_bounds_eq (start next : Option DateTime) (read : DateTime → Option DateTime) :
    (start.bind fun start => next.bind fun next => (read next).bind fun finish =>
      pure (some start, some finish)) =
    (start.bind fun start => (next.bind fun next => read next).map fun finish =>
      (start, finish)).map fun bounds => (some bounds.1, some bounds.2) := by
  cases next <;> cases start <;> simp [Option.map_eq_bind, Option.bind_assoc]

/-- **The Daily Review and the reminder inbox** always agree. -/
theorem reminders_agree : timeBounds zone now (some .today) =
    (period zone now .today).map fun bounds => (some bounds.1, some bounds.2) := by
  rw [period_today]
  unfold timeBounds localMidnight endOfDay Zone.fromUtc
  generalize zone.wall now = o
  cases o with
  | none => rw [Option.map_none, Option.bind_eq_bind, Option.bind_none, Option.bind_none,
      Option.bind_none, Option.map_none]
  | some w =>
    simp only [Option.map_some, Option.bind_eq_bind, Option.bind_some]
    generalize w.atMinute 0 0 = o
    cases o with
    | none => rw [Option.bind_none, Option.bind_none, Option.map_none]
    | some midnight =>
      rw [Option.bind_some, Option.bind_some]
      exact optional_bounds_eq _ _ _

/-- **The agenda agrees** with the other two exactly when the instant is not the second reading of
its wall time, or midnight has one reading, or the day ends outside of the calendar and all
raise. -/
theorem oneToday_iff (zone : Zone) (now : DateTime) : OneToday zone now ↔
    zone.fold now = false ∨ ∀ midnight, localMidnight zone now = some midnight →
      zone.toUtc midnight true = zone.toUtc midnight false ∨ endOfDay zone midnight = none := by
  rw [OneToday, and_iff_left reminders_agree, todayBounds_eq, period_today]
  generalize localMidnight zone now = o
  cases o with
  | none => exact iff_of_true (by rw [Option.bind_none, Option.bind_none]) (.inr nofun)
  | some midnight =>
    rw [Option.bind_some, Option.bind_some]
    simp only [Option.some.injEq, forall_eq']
    generalize zone.fold now = fold
    generalize endOfDay zone midnight = finish
    cases fold with
    | false => exact iff_of_true rfl (.inl rfl)
    | true =>
      generalize zone.toUtc midnight true = second
      generalize zone.toUtc midnight false = first
      cases finish with
      | none => cases second <;> cases first <;> simp
      | some finish => cases second <;> cases first <;> simp

end Today

/-! ## A repeated midnight -/

namespace Repeated

/-- The instant at which clocks go back from one o'clock to midnight. -/
def clocksBack : DateTime := ⟨2026, 11, 1, 5, 0, 0, 0, by decide⟩

/-- A zone four hours behind, and five from that instant on. -/
def zone : Zone :=
  .transition clocksBack (-14400000000) (-18000000000) 18000000000 (by decide) (by decide)
    (by decide +kernel) (by decide +kernel)

/-- Half past midnight, for the second time. -/
def now : DateTime := ⟨2026, 11, 1, 5, 30, 0, 0, by decide⟩

end Repeated

/-- In the second hour after midnight the agenda starts its day with the second midnight. -/
theorem not_oneToday : ¬OneToday Repeated.zone Repeated.now := by
  rintro ⟨hagree, -⟩
  have hagenda : (todayBounds Repeated.zone Repeated.now).map Prod.fst =
      some ⟨2026, 11, 1, 5, 0, 0, 0, by decide⟩ := by decide +kernel
  have hreview : (period Repeated.zone Repeated.now .today).map Prod.fst =
      some ⟨2026, 11, 1, 4, 0, 0, 0, by decide⟩ := by decide +kernel
  rw [hagree, hreview, Option.some.injEq] at hagenda
  exact absurd hagenda (by decide)

end Agendas

import AiLabOs.Base.Calendar
import AiLabOs.Base.OffsetTime
import AiLabOs.Base.Utf8

/-!
# Scheduler: the times in the database

The stores of jobs and reminders write an aware time as the text of its instant in UTC, and their
queries compare the bytes of these texts.

## Main definitions

* `OffsetTime.instant`: the microseconds from the start of year 1 in UTC
* `utcText`: the text that is written

## Main results

* `utcText_order`: the order of the bytes is that of the instants
-/

/-- The instant, as the microseconds from the start of year 1 in UTC. -/
def OffsetTime.instant (d : OffsetTime) : Int := d.wall.microseconds - d.offset

namespace Scheduler

/-- `_utc(value).isoformat()` of an aware time; `OverflowError` where the instant has no year. -/
def utcText (value : OffsetTime) : Option String := value.utc.map DateTime.isoformat

variable {x y : OffsetTime} {s t : String}

/-- What is written is the text of the instant. -/
theorem utcText_eq_some : utcText x = some s ↔
    ∃ u : DateTime, (u.microseconds : Int) = x.instant ∧ u.isoformat = s := by
  unfold utcText OffsetTime.utc OffsetTime.instant
  simp only [Option.map_eq_some_iff, DateTime.plus_eq_some, Int.sub_eq_add_neg]

/-- Nothing is written only for instants out of the years 1 to 9999. -/
theorem utcText_eq_none : utcText x = none ↔
    x.instant < 0 ∨ (DateTime.lastDay.microseconds + 86400000000 : ℕ) ≤ x.instant := by
  constructor
  · intro hnone
    by_contra hin
    obtain ⟨u, hu⟩ := DateTime.exists_microseconds (t := x.instant.toNat) (by omega)
    rw [utcText_eq_some.mpr ⟨u, by omega, rfl⟩] at hnone
    cases hnone
  · intro hout
    by_contra hsome
    obtain ⟨s, hs⟩ := Option.ne_none_iff_exists'.mp hsome
    obtain ⟨u, hu, -⟩ := utcText_eq_some.mp hs
    have hlt := u.microseconds_lt_end
    omega

/-- The text of an instant is that of the local time in UTC. -/
theorem isoformat_utc (u : DateTime) : OffsetTime.isoformat ⟨u, 0, by decide⟩ = u.isoformat := by
  have hzero : OffsetTime.offsetText 0 = ['+', '0', '0', ':', '0', '0'] := by decide
  rw [OffsetTime.isoformat, DateTime.isoformat, hzero]

/-- It is ASCII. -/
theorem ascii_isoformat (u : DateTime) : Ascii u.isoformat.toList := by
  have hmarks : OffsetTime.marks.all (fun c => c.toNat < 128) := by decide
  intro c hc
  rw [← isoformat_utc] at hc
  rcases OffsetTime.mem_isoformat hc with ⟨n, hn, rfl⟩ | hmark
  · have hzero : '0'.toNat = 48 := rfl
    rw [TextOrder.digitChar_toNat hn]
    omega
  · exact of_decide_eq_true (List.all_eq_true.mp hmarks c hmark)

theorem isoformat_inj {u v : DateTime} : u.isoformat = v.isoformat ↔ u = v := by
  rw [← isoformat_utc, ← isoformat_utc, OffsetTime.isoformat_injective.eq_iff, OffsetTime.mk.injEq]
  exact and_iff_left rfl

/-- The bytes of two texts compare as the instants. -/
theorem utf8_isoformat_lt {u v : DateTime} :
    utf8 u.isoformat.toList < utf8 v.isoformat.toList ↔ u < v := by
  rw [utf8_lt_iff (ascii_isoformat u) (ascii_isoformat v), ← String.lt_iff_toList_lt,
    DateTime.isoformat_lt]

/-- **The order of the bytes** that are written is that of the instants, and two texts are equal
exactly when the instants are. -/
theorem utcText_order (x y : OffsetTime) :
    (∀ s t, utcText x = some s → utcText y = some t →
      (utf8 s.toList < utf8 t.toList ↔ x.instant < y.instant) ∧
      (utf8 s.toList ≤ utf8 t.toList ↔ x.instant ≤ y.instant) ∧
      (s = t ↔ x.instant = y.instant)) ∧
    (utcText x = none ↔
      x.instant < 0 ∨ (DateTime.lastDay.microseconds + 86400000000 : ℕ) ≤ x.instant) := by
  refine ⟨fun s t hs ht => ?_, utcText_eq_none⟩
  obtain ⟨u, hu, rfl⟩ := utcText_eq_some.mp hs
  obtain ⟨v, hv, rfl⟩ := utcText_eq_some.mp ht
  refine ⟨?_, ?_, ?_⟩
  · rw [utf8_isoformat_lt, ← DateTime.microseconds_lt]
    omega
  · rw [← List.not_lt, utf8_isoformat_lt, ← DateTime.microseconds_lt]
    omega
  · rw [isoformat_inj, ← DateTime.microseconds_injective.eq_iff]
    omega

/-- Eight o'clock with eight hours' offset, and half a second after the midnight it is in UTC. -/
theorem utcText_order_offset :
    utcText ⟨⟨2026, 1, 1, 8, 0, 0, 0, by decide⟩, 28800000000, by decide⟩ =
      some "2026-01-01T00:00:00+00:00" ∧
    utcText ⟨⟨2026, 1, 1, 0, 0, 0, 500000, by decide⟩, 0, by decide⟩ =
      some "2026-01-01T00:00:00.500000+00:00" ∧
    utf8 "2026-01-01T00:00:00+00:00".toList < utf8 "2026-01-01T00:00:00.500000+00:00".toList := by
  have hx : utcText ⟨⟨2026, 1, 1, 8, 0, 0, 0, by decide⟩, 28800000000, by decide⟩ =
      some "2026-01-01T00:00:00+00:00" := by
    decide +kernel
  have hy : utcText ⟨⟨2026, 1, 1, 0, 0, 0, 500000, by decide⟩, 0, by decide⟩ =
      some "2026-01-01T00:00:00.500000+00:00" := by
    decide +kernel
  refine ⟨hx, hy, (((utcText_order _ _).1 _ _ hx hy).1).mpr ?_⟩
  decide +kernel

end Scheduler

import AiLabOs.Base.TimeDelta
import Mathlib.Order.Monotone.Basic

/-!
# The calendar

The count of microseconds since the start of year 1 names every instant of the years 1 to 9999
once, in their order.

## Main definitions

* `DateTime.date`: the fields of a day
* `DateTime.lastDay`: the start of the last day

## Main results

* `DateTime.microseconds_lt`: the order of instants is that of their counts
* `DateTime.ofMicroseconds_eq_some`: the instant of a count has that count
* `DateTime.exists_microseconds`: every count of the years 1 to 9999 has an instant
* `DateTime.plus_eq_some`: the sum with a `timedelta` is the sum of the counts
* `DateTime.atMinute_eq_some`: a minute of a day
-/

namespace DateTime

variable {a b d : DateTime}

/-! ## Years -/

/-- The days of a year. -/
def daysInYear (year : ℕ) : ℕ := if isLeap year then 366 else 365

theorem isLeap_iff (year : ℕ) :
    isLeap year = true ↔ year % 4 = 0 ∧ (year % 100 ≠ 0 ∨ year % 400 = 0) := by
  simp [isLeap]

/-- The multiples of a number up to one more. -/
theorem succ_div_of_pos {year : ℕ} (h : 1 ≤ year) (k : ℕ) :
    year / k = (year - 1) / k + if year % k = 0 then 1 else 0 := by
  obtain ⟨y, rfl⟩ := Nat.exists_eq_add_of_le' h
  simp only [Nat.succ_div, Nat.add_sub_cancel, Nat.dvd_iff_mod_eq_zero]

/-- A year starts where the one before it ends. -/
theorem daysBeforeYear_succ {year : ℕ} (h : 1 ≤ year) :
    daysBeforeYear (year + 1) = daysBeforeYear year + daysInYear year := by
  have h4 := succ_div_of_pos h 4
  have h100 := succ_div_of_pos h 100
  have h400 := succ_div_of_pos h 400
  have hle : (year - 1) / 100 ≤ (year - 1) / 4 := Nat.div_le_div_left (by decide) (by decide)
  have hmod : year % 400 = 0 → year % 100 = 0 := by omega
  have hmod' : year % 100 = 0 → year % 4 = 0 := by omega
  simp only [daysBeforeYear, daysInYear, isLeap_iff, Nat.add_sub_cancel, h4, h100, h400]
  generalize (year - 1) / 4 = q4 at *
  generalize (year - 1) / 100 = q100 at *
  generalize (year - 1) / 400 = q400 at *
  generalize year % 4 = r4 at *
  generalize year % 100 = r100 at *
  generalize year % 400 = r400 at *
  clear h4 h100 h400
  split <;> split <;> split <;> split <;> omega

/-- The days before a year, by cycles of 400 years, centuries, cycles of four years and years. -/
theorem daysBeforeYear_cycles {n400 n100 n4 n1 : ℕ} (h100 : n100 ≤ 3) (h4 : n4 ≤ 24)
    (h1 : n1 ≤ 3) : daysBeforeYear (n400 * 400 + n100 * 100 + n4 * 4 + n1 + 1) =
      146097 * n400 + 36524 * n100 + 1461 * n4 + 365 * n1 := by
  have hdiv4 : (n400 * 400 + n100 * 100 + n4 * 4 + n1) / 4 = 100 * n400 + 25 * n100 + n4 := by omega
  have hdiv100 : (n400 * 400 + n100 * 100 + n4 * 4 + n1) / 100 = 4 * n400 + n100 := by omega
  have hdiv400 : (n400 * 400 + n100 * 100 + n4 * 4 + n1) / 400 = n400 := by omega
  simp only [daysBeforeYear, Nat.add_sub_cancel, hdiv4, hdiv100, hdiv400]
  omega

theorem isLeap_cycles {n400 n100 n4 n1 : ℕ} (h100 : n100 ≤ 3) (h4 : n4 ≤ 24) (h1 : n1 ≤ 3) :
    isLeap (n400 * 400 + n100 * 100 + n4 * 4 + n1 + 1) = true ↔
      n1 = 3 ∧ (n4 ≠ 24 ∨ n100 = 3) := by
  rw [isLeap_iff]
  have hmod4 : (n400 * 400 + n100 * 100 + n4 * 4 + n1 + 1) % 4 = (n1 + 1) % 4 := by omega
  have hmod100 : (n400 * 400 + n100 * 100 + n4 * 4 + n1 + 1) % 100 = (n4 * 4 + n1 + 1) % 100 := by
    omega
  have hmod400 : (n400 * 400 + n100 * 100 + n4 * 4 + n1 + 1) % 400 =
      (n100 * 100 + n4 * 4 + n1 + 1) % 400 := by omega
  rw [hmod4, hmod100, hmod400]
  omega

/-- **The year of a day**, and the day of that year. -/
theorem yearOfOrdinal_spec (n : ℕ) : 1 ≤ (yearOfOrdinal n).1 ∧
    daysBeforeYear (yearOfOrdinal n).1 + (yearOfOrdinal n).2 = n ∧
    (yearOfOrdinal n).2 < daysInYear (yearOfOrdinal n).1 := by
  unfold yearOfOrdinal
  dsimp only
  have h400 := Nat.div_add_mod n 146097
  have hr400 := Nat.mod_lt n (show 146097 > 0 by decide)
  generalize n / 146097 = n400 at *
  generalize n % 146097 = r400 at *
  have h100 := Nat.div_add_mod r400 36524
  have hr100 := Nat.mod_lt r400 (show 36524 > 0 by decide)
  generalize r400 / 36524 = n100 at *
  generalize r400 % 36524 = r100 at *
  have h4 := Nat.div_add_mod r100 1461
  have hr4 := Nat.mod_lt r100 (show 1461 > 0 by decide)
  generalize r100 / 1461 = n4 at *
  generalize r100 % 1461 = r4 at *
  have h1 := Nat.div_add_mod r4 365
  have hr1 := Nat.mod_lt r4 (show 365 > 0 by decide)
  generalize r4 / 365 = n1 at *
  generalize r4 % 365 = r1 at *
  split
  · rename_i hlast
    -- The last day of a leap cycle ends its last year.
    obtain ⟨m100, m4, hm100, hm4, hyear, hrest⟩ : ∃ m100 m4, m100 ≤ 3 ∧ m4 ≤ 24 ∧
        n400 * 400 + n100 * 100 + n4 * 4 + n1 + 1 - 1 =
          n400 * 400 + m100 * 100 + m4 * 4 + 3 + 1 ∧
        (m4 ≠ 24 ∨ m100 = 3) ∧ n = 146097 * n400 + 36524 * m100 + 1461 * m4 + 365 * 3 + 365 := by
      rcases hlast with h | h
      · exact ⟨n100, n4, by omega, by omega, by omega, by omega, by omega⟩
      · exact ⟨3, 24, by omega, by omega, by omega, by omega, by omega⟩
    rw [hyear, daysBeforeYear_cycles hm100 hm4 le_rfl, daysInYear,
      if_pos ((isLeap_cycles hm100 hm4 le_rfl).mpr ⟨rfl, hrest.1⟩)]
    omega
  · rename_i hlast
    have hn100 : n100 ≤ 3 := by omega
    have hn4 : n4 ≤ 24 := by omega
    have hn1 : n1 ≤ 3 := by omega
    rw [daysBeforeYear_cycles hn100 hn4 hn1]
    refine ⟨by omega, by omega, ?_⟩
    unfold daysInYear
    split <;> omega

/-! ## Months -/

/-- A month starts where the one before it ends. -/
theorem daysBeforeMonth_succ {year month : ℕ} (h : 1 ≤ month) :
    daysBeforeMonth year (month + 1) = daysBeforeMonth year month + daysInMonth year month := by
  obtain ⟨m, rfl⟩ := Nat.exists_eq_add_of_le' h
  simp [daysBeforeMonth, List.range_succ]

theorem daysBeforeMonth_one (year : ℕ) : daysBeforeMonth year 1 = 0 := rfl

/-- The months are the year. -/
theorem daysBeforeMonth_end (year : ℕ) : daysBeforeMonth year 13 = daysInYear year := by
  unfold daysBeforeMonth daysInMonth daysInYear
  cases isLeap year <;> rfl

theorem daysBeforeMonth_mono (year : ℕ) : Monotone (daysBeforeMonth year) := by
  refine monotone_nat_of_le_succ fun month => ?_
  rcases Nat.eq_zero_or_pos month with rfl | hpos
  · exact le_rfl
  · rw [daysBeforeMonth_succ hpos]
    exact Nat.le_add_right ..

/-- How many of the first values of a monotone sequence do not exceed a bound. -/
theorem length_filter_le {f : ℕ → ℕ} (hf : Monotone f) (n k : ℕ) :
    ((List.range k).filter fun m => f m ≤ n).length ≤ k ∧
      (∀ m < ((List.range k).filter fun m => f m ≤ n).length, f m ≤ n) ∧
      (((List.range k).filter fun m => f m ≤ n).length < k →
        n < f ((List.range k).filter fun m => f m ≤ n).length) := by
  induction k with
  | zero => simp
  | succ k ih =>
    obtain ⟨hle, hbelow, habove⟩ := ih
    rw [List.range_succ, List.filter_append, List.length_append]
    by_cases hk : f k ≤ n
    · -- Everything before `k` was counted as well.
      have hall : ((List.range k).filter fun m => f m ≤ n).length = k := by
        refine hle.antisymm (not_lt.mp fun hlt => ?_)
        exact absurd ((habove hlt).trans_le (hf hle)) (not_lt.mpr hk)
      simp only [hall, hk, decide_true, List.filter_singleton, cond_true, List.length_singleton]
      exact ⟨le_rfl, fun m hm => (hf (Nat.lt_succ_iff.mp hm)).trans hk,
        fun hlt => absurd hlt (lt_irrefl _)⟩
    · simp only [hk, decide_false, List.filter_singleton, cond_false, List.length_nil,
        Nat.add_zero]
      refine ⟨hle.trans (Nat.le_succ k), hbelow, fun _ => ?_⟩
      rcases hle.lt_or_eq with hlt | heq
      · exact habove hlt
      · rw [heq]
        exact not_le.mp hk

/-- **The month of a day** of a year. -/
theorem monthOfDay_spec {year n : ℕ} (h : n < daysInYear year) :
    (1 ≤ monthOfDay year n ∧ monthOfDay year n ≤ 12) ∧
      daysBeforeMonth year (monthOfDay year n) ≤ n ∧
      n < daysBeforeMonth year (monthOfDay year n) + daysInMonth year (monthOfDay year n) := by
  have hmono : Monotone fun m => daysBeforeMonth year (m + 1) := fun a b hab =>
    daysBeforeMonth_mono year (Nat.succ_le_succ hab)
  obtain ⟨hle, hbelow, habove⟩ := length_filter_le hmono n 12
  change monthOfDay year n ≤ 12 at hle
  change ∀ m < monthOfDay year n, daysBeforeMonth year (m + 1) ≤ n at hbelow
  change monthOfDay year n < 12 → n < daysBeforeMonth year (monthOfDay year n + 1) at habove
  have hend : n < daysBeforeMonth year (monthOfDay year n + 1) := by
    rcases hle.lt_or_eq with hlt | heq
    · exact habove hlt
    · rwa [heq, daysBeforeMonth_end]
  have hpos : 1 ≤ monthOfDay year n := by
    rw [Nat.one_le_iff_ne_zero]
    intro h0
    rw [h0, zero_add, daysBeforeMonth_one] at hend
    exact Nat.not_lt_zero n hend
  rw [daysBeforeMonth_succ hpos] at hend
  have hstart := hbelow (monthOfDay year n - 1) (by omega)
  rw [Nat.sub_add_cancel hpos] at hstart
  exact ⟨⟨hpos, hle⟩, hstart, hend⟩

/-! ## Days -/

/-- A day is counted inside its month. -/
theorem daysBeforeMonth_add_day (d : DateTime) :
    daysBeforeMonth d.year d.month + d.day ≤ daysInYear d.year := by
  obtain ⟨-, ⟨hm, hm'⟩, ⟨-, hd⟩, -⟩ := d.valid
  calc daysBeforeMonth d.year d.month + d.day
      ≤ daysBeforeMonth d.year d.month + daysInMonth d.year d.month := Nat.add_le_add_left hd _
    _ = daysBeforeMonth d.year (d.month + 1) := (daysBeforeMonth_succ hm).symm
    _ ≤ daysBeforeMonth d.year 13 := daysBeforeMonth_mono _ (by omega)
    _ = daysInYear d.year := daysBeforeMonth_end _

theorem daysBeforeYear_le {y z : ℕ} (hy : 1 ≤ y) (h : y ≤ z) :
    daysBeforeYear y ≤ daysBeforeYear z := by
  induction z, h using Nat.le_induction with
  | base => exact le_rfl
  | succ z hz ih =>
    rw [daysBeforeYear_succ (hy.trans hz)]
    exact ih.trans (Nat.le_add_right ..)

/-- The fields of a day, compared from the left. -/
def date (d : DateTime) : ℕ ×ₗ ℕ ×ₗ ℕ := toLex (d.year, toLex (d.month, d.day))

/-- **Days are counted in their order.** -/
theorem ordinal_lt_of_date (h : a.date < b.date) : a.ordinal < b.ordinal := by
  obtain ⟨⟨ha, -⟩, ⟨ham, -⟩, ⟨had, had'⟩, -⟩ := a.valid
  obtain ⟨-, -, ⟨hbd, -⟩, -⟩ := b.valid
  unfold ordinal
  simp only [date, Prod.Lex.toLex_lt_toLex] at h
  rcases h with hyear | ⟨hyear, hmonth | ⟨hmonth, hday⟩⟩
  · have hend := daysBeforeMonth_add_day a
    have hnext := daysBeforeYear_le (Nat.succ_le_succ (Nat.zero_le a.year)) hyear
    rw [Nat.succ_eq_add_one, daysBeforeYear_succ ha] at hnext
    omega
  · have hnext : daysBeforeMonth a.year a.month + daysInMonth a.year a.month ≤
        daysBeforeMonth a.year b.month := by
      rw [← daysBeforeMonth_succ ham]
      exact daysBeforeMonth_mono _ hmonth
    rw [← hyear]
    omega
  · rw [← hyear, ← hmonth]
    omega

theorem ordinal_eq_of_date (h : a.date = b.date) : a.ordinal = b.ordinal := by
  simp only [date, EmbeddingLike.apply_eq_iff_eq, Prod.mk.injEq] at h
  obtain ⟨hyear, hmonth, hday⟩ := h
  rw [ordinal, ordinal, hyear, hmonth, hday]

theorem ordinal_lt : a.ordinal < b.ordinal ↔ a.date < b.date := by
  constructor
  · intro h
    rcases lt_trichotomy a.date b.date with hlt | heq | hgt
    · exact hlt
    · exact absurd (ordinal_eq_of_date heq) h.ne
    · exact absurd (ordinal_lt_of_date hgt) h.not_gt
  · exact ordinal_lt_of_date

theorem ordinal_eq : a.ordinal = b.ordinal ↔ a.date = b.date := by
  constructor
  · intro h
    rcases lt_trichotomy a.date b.date with hlt | heq | hgt
    · exact absurd h (ordinal_lt_of_date hlt).ne
    · exact heq
    · exact absurd h (ordinal_lt_of_date hgt).ne'
  · exact ordinal_eq_of_date

/-- The time of a day in microseconds. -/
def timeOfDay (d : DateTime) : ℕ :=
  ((d.hour * 60 + d.minute) * 60 + d.second) * 1000000 + d.microsecond

theorem timeOfDay_lt (d : DateTime) : d.timeOfDay < 86400000000 := by
  obtain ⟨-, -, -, hh, hm, hs, hus⟩ := d.valid
  unfold timeOfDay
  omega

theorem microseconds_eq (d : DateTime) :
    d.microseconds = d.ordinal * 86400000000 + d.timeOfDay := by
  unfold microseconds timeOfDay
  omega

/-- Instants compare by their day, then by the time of the day. -/
theorem lt_iff_date : a < b ↔ a.date < b.date ∨ a.date = b.date ∧ a.timeOfDay < b.timeOfDay := by
  obtain ⟨-, -, -, hah, ham, has, haus⟩ := a.valid
  obtain ⟨-, -, -, hbh, hbm, hbs, hbus⟩ := b.valid
  simp only [lt_iff, clock, date, timeOfDay, Prod.Lex.toLex_lt_toLex, EmbeddingLike.apply_eq_iff_eq,
    Prod.mk.injEq]
  omega

/-- **The order of instants** is that of their counts. -/
theorem microseconds_lt : a.microseconds < b.microseconds ↔ a < b := by
  have hmono : ∀ {a b : DateTime}, a < b → a.microseconds < b.microseconds := by
    intro a b h
    have ha := timeOfDay_lt a
    rw [microseconds_eq, microseconds_eq]
    rcases lt_iff_date.mp h with hdate | ⟨hdate, htime⟩
    · have := ordinal_lt_of_date hdate
      omega
    · rw [ordinal_eq_of_date hdate]
      omega
  constructor
  · intro h
    rcases lt_trichotomy a b with hlt | rfl | hgt
    · exact hlt
    · exact absurd h (lt_irrefl _)
    · exact absurd (hmono hgt) h.not_gt
  · exact hmono

theorem microseconds_le : a.microseconds ≤ b.microseconds ↔ a ≤ b := by
  rw [← not_lt, microseconds_lt, not_lt]

theorem microseconds_injective : Function.Injective microseconds := fun _ _ h =>
  le_antisymm (microseconds_le.mp h.le) (microseconds_le.mp h.ge)

/-! ## Counts -/

/-- The instant of a count has that count. -/
theorem microseconds_of_ofMicroseconds {t : ℕ} (h : ofMicroseconds t = some d) :
    d.microseconds = t := by
  unfold ofMicroseconds at h
  dsimp only at h
  split at h
  · obtain rfl := Option.some.inj h
    obtain ⟨-, hyear, hrest⟩ := yearOfOrdinal_spec (t / 1000000 / 60 / 60 / 24)
    obtain ⟨-, hstart, -⟩ := monthOfDay_spec hrest
    simp only [microseconds, ordinal, Nat.add_sub_cancel]
    omega
  · cases h

/-- A count has an instant if its year is at most 9999. -/
theorem exists_ofMicroseconds {t : ℕ} (h : (yearOfOrdinal (t / 1000000 / 60 / 60 / 24)).1 ≤ 9999) :
    ∃ d, ofMicroseconds t = some d := by
  obtain ⟨hpos, -, hrest⟩ := yearOfOrdinal_spec (t / 1000000 / 60 / 60 / 24)
  obtain ⟨hmonth, hstart, hend⟩ := monthOfDay_spec hrest
  unfold ofMicroseconds
  dsimp only
  generalize (yearOfOrdinal (t / 1000000 / 60 / 60 / 24)).1 = year at *
  generalize (yearOfOrdinal (t / 1000000 / 60 / 60 / 24)).2 = rest at *
  have hday : 1 ≤ rest - daysBeforeMonth year (monthOfDay year rest) + 1 ∧
      rest - daysBeforeMonth year (monthOfDay year rest) + 1 ≤
        daysInMonth year (monthOfDay year rest) := by omega
  exact ⟨_, dif_pos ⟨⟨hpos, h⟩, hmonth, hday, by omega, by omega, by omega, by omega⟩⟩

/-- The start of the last day. -/
def lastDay : DateTime := ⟨9999, 12, 31, 0, 0, 0, 0, by decide⟩

/-- The last day ends where the year 10000 would start. -/
theorem lastDay_end :
    lastDay.microseconds + 86400000000 = daysBeforeYear 10000 * 86400000000 := by
  decide

/-- **Every count of the years 1 to 9999** has an instant. -/
theorem exists_microseconds {t : ℕ} (h : t < lastDay.microseconds + 86400000000) :
    ∃ d : DateTime, d.microseconds = t := by
  have hlast := lastDay_end
  have hyear : (yearOfOrdinal (t / 1000000 / 60 / 60 / 24)).1 ≤ 9999 := by
    obtain ⟨-, hstart, -⟩ := yearOfOrdinal_spec (t / 1000000 / 60 / 60 / 24)
    by_contra hgt
    have := daysBeforeYear_le (show 1 ≤ 10000 by decide) (not_le.mp hgt)
    omega
  obtain ⟨d, hd⟩ := exists_ofMicroseconds hyear
  exact ⟨d, microseconds_of_ofMicroseconds hd⟩

theorem microseconds_lt_end (d : DateTime) :
    d.microseconds < lastDay.microseconds + 86400000000 := by
  obtain ⟨⟨hy, hy'⟩, -, ⟨hd, -⟩, -⟩ := d.valid
  have hmonth := daysBeforeMonth_add_day d
  have hnext := daysBeforeYear_le (Nat.le_add_left 1 d.year) (Nat.succ_le_succ hy')
  rw [daysBeforeYear_succ hy] at hnext
  have htime := timeOfDay_lt d
  rw [lastDay_end, microseconds_eq, ordinal]
  change daysBeforeYear d.year + daysInYear d.year ≤ daysBeforeYear 10000 at hnext
  omega

/-- **The instant of a count** is the one of that count. -/
theorem ofMicroseconds_eq_some {t : ℕ} : ofMicroseconds t = some d ↔ d.microseconds = t := by
  constructor
  · exact microseconds_of_ofMicroseconds
  · rintro rfl
    have hyear : (yearOfOrdinal (d.microseconds / 1000000 / 60 / 60 / 24)).1 ≤ 9999 := by
      obtain ⟨-, hstart, -⟩ := yearOfOrdinal_spec (d.microseconds / 1000000 / 60 / 60 / 24)
      have hlast := lastDay_end
      have hlt := microseconds_lt_end d
      by_contra hgt
      have := daysBeforeYear_le (show 1 ≤ 10000 by decide) (not_le.mp hgt)
      omega
    obtain ⟨e, he⟩ := exists_ofMicroseconds hyear
    rw [he, microseconds_injective (microseconds_of_ofMicroseconds he)]

/-- **The sum with a `timedelta`** is the sum of the counts. -/
theorem plus_eq_some {delta : Int} :
    a.plus delta = some b ↔ (b.microseconds : Int) = a.microseconds + delta := by
  unfold plus
  dsimp only
  split
  · rw [ofMicroseconds_eq_some]
    omega
  · exact iff_of_false nofun (by omega)

/-- **A minute of a day** is on that day. -/
theorem atMinute_eq_some {hour minute : ℕ} : a.atMinute hour minute = some b ↔
    (hour < 24 ∧ minute < 60) ∧ b.date = a.date ∧ b.hour = hour ∧ b.minute = minute ∧
      b.second = 0 ∧ b.microsecond = 0 := by
  unfold atMinute
  obtain ⟨hyear, hmonth, hday, -⟩ := a.valid
  simp only [date, EmbeddingLike.apply_eq_iff_eq, Prod.mk.injEq]
  constructor
  · intro h
    split at h
    · rename_i hvalid
      obtain rfl := Option.some.inj h
      exact ⟨⟨hvalid.2.2.2.1, hvalid.2.2.2.2.1⟩, ⟨rfl, rfl, rfl⟩, rfl, rfl, rfl, rfl⟩
    · cases h
  · rintro ⟨⟨hhour, hminute⟩, ⟨hy, hm, hd⟩, rfl, rfl, hs, hus⟩
    rw [dif_pos ⟨hyear, hmonth, hday, hhour, hminute, by decide, by decide⟩, Option.some.injEq]
    exact DateTime.ext hy.symm hm.symm hd.symm rfl rfl hs.symm hus.symm

end DateTime

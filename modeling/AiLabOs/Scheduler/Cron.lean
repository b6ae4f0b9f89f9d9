import AiLabOs.Base.Calendar
import AiLabOs.Scheduler.Triggers
import Mathlib.Data.List.TakeWhile
import Mathlib.Order.Bounds.Defs
import Mathlib.Tactic.IntervalCases

/-!
# Scheduler: cron expressions

The supported expressions are five fields with white space between them: a minute step, an hour
step, and three stars. The next match is found by a search that goes through the hours and minutes
of today and of tomorrow. Midnight matches every expression, so two days suffice.

## Main definitions

* `Separated`: the words of a text
* `StepField`, `Documented`: the documented grammar
* `Matches`: an instant an expression names

## Main results

* `cronSteps_iff`: the parser accepts the documented grammar
* `nextCron_iff`: the search finds the least match
* `cron_law`: both, and that there is a match on every day but the last
-/

namespace Scheduler

/-! ## Words -/

section Words

/-- The words of a text: white space may stand before, between and after them. -/
inductive Separated : List Char → List (List Char) → Prop
  | blank {gap : List Char} (hgap : ∀ c ∈ gap, Text.isSpace c = true) : Separated gap []
  | word {gap word rest : List Char} {others : List (List Char)}
      (hgap : ∀ c ∈ gap, Text.isSpace c = true) (hne : word ≠ [])
      (hword : ∀ c ∈ word, Text.isSpace c = false)
      (hrest : ∀ c, rest.head? = some c → Text.isSpace c = true) (hothers : Separated rest others) :
      Separated (gap ++ (word ++ rest)) (word :: others)

/-- `words`, over characters. -/
def wordsOf (text : List Char) : List (List Char) :=
  (text.splitOnP Text.isSpace).filter fun word => word ≠ []

theorem wordsOf_cons_space {c : Char} (hc : Text.isSpace c = true) (text : List Char) :
    wordsOf (c :: text) = wordsOf text := by
  rw [wordsOf, wordsOf, List.splitOnP_cons_eq_if_modifyHead, if_pos hc]
  rfl

theorem wordsOf_append_space {gap : List Char} (hgap : ∀ c ∈ gap, Text.isSpace c = true)
    (text : List Char) : wordsOf (gap ++ text) = wordsOf text := by
  induction gap with
  | nil => rfl
  | cons c gap ih =>
    rw [List.forall_mem_cons] at hgap
    rw [List.cons_append, wordsOf_cons_space hgap.1, ih hgap.2]

/-- **The words of a text** are found by splitting. -/
theorem Separated.wordsOf_eq {text : List Char} {ws : List (List Char)} (h : Separated text ws) :
    wordsOf text = ws := by
  induction h with
  | blank hgap =>
    have := wordsOf_append_space hgap []
    rwa [List.append_nil] at this
  | @word gap word rest others hgap hne hword hrest hothers ih =>
    rw [wordsOf_append_space hgap]
    cases rest with
    | nil =>
      rw [List.append_nil, wordsOf, List.splitOnP_eq_singleton hword, ← ih]
      simp [wordsOf, hne]
    | cons c rest =>
      have hc := hrest c rfl
      rw [wordsOf_cons_space hc] at ih
      rw [wordsOf, List.splitOnP_append_cons_of_forall_mem hword c hc,
        List.filter_cons_of_pos (by simpa using hne)]
      exact congrArg _ ih

/-- Every text has words. -/
theorem exists_separated (text : List Char) : ∃ ws, Separated text ws := by
  induction hn : text.length using Nat.strong_induction_on generalizing text with
  | _ n ih =>
    let after := text.dropWhile Text.isSpace
    have hgap : ∀ c ∈ text.takeWhile Text.isSpace, Text.isSpace c = true :=
      fun c hc => List.mem_takeWhile_imp hc
    have htext : text = text.takeWhile Text.isSpace ++ after :=
      List.takeWhile_append_dropWhile.symm
    by_cases hafter : after = []
    · rw [hafter, List.append_nil] at htext
      rw [htext]
      exact ⟨[], .blank hgap⟩
    · -- The next word ends at the next white space.
      let word := after.takeWhile fun c => !Text.isSpace c
      let rest := after.dropWhile fun c => !Text.isSpace c
      have hsplit : after = word ++ rest := List.takeWhile_append_dropWhile.symm
      have hword : ∀ c ∈ word, Text.isSpace c = false := fun c hc => by
        simpa using List.mem_takeWhile_imp hc
      have hne : word ≠ [] := by
        obtain ⟨c, cs, hcons⟩ := List.exists_cons_of_ne_nil hafter
        have hc : Text.isSpace c = false := by
          have := List.head?_dropWhile_not Text.isSpace text
          rw [show text.dropWhile Text.isSpace = c :: cs from hcons] at this
          simpa using this
        simp [word, hcons, hc]
      have hrest : ∀ c, rest.head? = some c → Text.isSpace c = true := by
        intro c hc
        have := List.head?_dropWhile_not (fun c => !Text.isSpace c) after
        rw [show after.dropWhile (fun c => !Text.isSpace c) = rest from rfl, hc] at this
        simpa using this
      have hlength : rest.length < n := by
        have hle := (List.dropWhile_suffix (l := text) Text.isSpace).length_le
        have hlen := congrArg List.length hsplit
        have hpos := List.length_pos_iff.mpr hne
        rw [List.length_append] at hlen
        change after.length ≤ text.length at hle
        omega
      obtain ⟨others, hothers⟩ := ih _ hlength rest rfl
      refine ⟨word :: others, ?_⟩
      rw [htext, hsplit]
      exact .word hgap hne hword hrest hothers

/-- **`split` finds the words**, and no others. -/
theorem words_iff {s : String} {ws : List (List Char)} : words s = ws ↔ Separated s.toList ws := by
  constructor
  · rintro rfl
    obtain ⟨ws, h⟩ := exists_separated s.toList
    have hws : words s = ws := h.wordsOf_eq
    rwa [hws]
  · exact Separated.wordsOf_eq

end Words

/-! ## The grammar -/

section Grammar

variable {maximum n minuteStep hourStep : ℕ} {field : List Char} {expression : String}

/-- A step field: `*` for every value, or `*/n` with `n` in decimal digits, from 1 to the
maximum. -/
def StepField (maximum n : ℕ) (field : List Char) : Prop :=
  field = ['*'] ∧ n = 1 ∨ (1 ≤ n ∧ n ≤ maximum) ∧ field = '*' :: '/' :: Nat.toDigits 10 n

/-- **The documented grammar**: five fields, a minute step up to 60, an hour step up to 24, and
stars. -/
def Documented (expression : String) (minuteStep hourStep : ℕ) : Prop :=
  ∃ minute hour, StepField 60 minuteStep minute ∧ StepField 24 hourStep hour ∧
    Separated expression.toList [minute, hour, ['*'], ['*'], ['*']]

theorem digit_iff {c : Char} : digit c = some n ↔ n < 10 ∧ c = n.digitChar := by
  constructor
  · intro h
    unfold digit at h
    split at h
    · rename_i hc
      have hlo : 48 ≤ c.toNat := hc.1
      have hhi : c.toNat ≤ 57 := hc.2
      have hn : n = c.toNat - 48 := (Option.some.inj h).symm
      have hc' : c = Char.ofNat c.toNat := (Char.ofNat_toNat c).symm
      generalize c.toNat = k at *
      subst hn hc'
      interval_cases k <;> exact ⟨by decide, by decide⟩
    · cases h
  · rintro ⟨hn, rfl⟩
    interval_cases n <;> rfl

/-- A number of two digits. -/
theorem toDigits_two {d e : ℕ} (hd : 1 ≤ d) (hd' : d < 10) (he : e < 10) :
    Nat.toDigits 10 (10 * d + e) = [d.digitChar, e.digitChar] := by
  have hdiv : (10 * d + e) / 10 = d := by omega
  have hmod : (10 * d + e) % 10 = e := by omega
  rw [Nat.toDigits_of_base_le (by decide) (by omega), hdiv, hmod, Nat.toDigits_of_lt_base hd']
  rfl

/-- **A step field is accepted** when it is a documented one. -/
theorem cronField_iff (hmaximum : maximum < 100) :
    cronField maximum field = some n ↔ StepField maximum n field := by
  constructor
  · intro h
    unfold cronField at h
    split at h
    · exact .inl ⟨rfl, (Option.some.inj h).symm⟩
    · rename_i c
      obtain ⟨d, hdigit, hn⟩ := Option.bind_eq_some_iff.mp h
      obtain ⟨hd, rfl⟩ := digit_iff.mp hdigit
      split at hn
      · rename_i hrange
        obtain rfl := Option.some.inj hn
        exact .inr ⟨hrange, by rw [Nat.toDigits_of_lt_base hd]⟩
      · cases hn
    · rename_i c c'
      obtain ⟨d, hdigit, h₁⟩ := Option.bind_eq_some_iff.mp h
      obtain ⟨e, hdigit', hn⟩ := Option.bind_eq_some_iff.mp h₁
      obtain ⟨hd, rfl⟩ := digit_iff.mp hdigit
      obtain ⟨he, rfl⟩ := digit_iff.mp hdigit'
      split at hn
      · rename_i hrange
        obtain rfl := Option.some.inj hn
        exact .inr ⟨⟨by omega, hrange.2⟩, by rw [toDigits_two hrange.1 hd he]⟩
      · cases hn
    · cases h
  · rintro (⟨rfl, rfl⟩ | ⟨⟨hpos, hle⟩, rfl⟩)
    · rfl
    · rcases Nat.lt_or_ge n 10 with hlt | hge
      · rw [Nat.toDigits_of_lt_base hlt]
        simp [cronField, digit_iff.mpr ⟨hlt, rfl⟩, hpos, hle]
      · have hdigits := toDigits_two (d := n / 10) (e := n % 10) (by omega) (by omega) (by omega)
        rw [show 10 * (n / 10) + n % 10 = n by omega] at hdigits
        have hd : digit (n / 10).digitChar = some (n / 10) := digit_iff.mpr ⟨by omega, rfl⟩
        have he : digit (n % 10).digitChar = some (n % 10) := digit_iff.mpr ⟨by omega, rfl⟩
        have hrange : 1 ≤ n / 10 ∧ 10 * (n / 10) + n % 10 ≤ maximum := by omega
        rw [hdigits]
        simp only [cronField, hd, he, Option.bind_eq_bind, Option.bind_some, if_pos hrange]
        rw [show 10 * (n / 10) + n % 10 = n by omega]

/-- **The parser accepts the documented grammar**, and reads its steps. -/
theorem cronSteps_iff :
    cronSteps expression = some (minuteStep, hourStep) ↔
      Documented expression minuteStep hourStep := by
  constructor
  · intro h
    unfold cronSteps at h
    split at h
    · rename_i minute hour hwords
      obtain ⟨m, hm, h⟩ := Option.bind_eq_some_iff.mp h
      obtain ⟨k, hk, h⟩ := Option.bind_eq_some_iff.mp h
      obtain ⟨rfl, rfl⟩ : m = minuteStep ∧ k = hourStep := by simpa using h
      exact ⟨minute, hour, (cronField_iff (by decide)).mp hm, (cronField_iff (by decide)).mp hk,
        words_iff.mp hwords⟩
    · cases h
  · rintro ⟨minute, hour, hminute, hhour, hwords⟩
    unfold cronSteps
    rw [words_iff.mpr hwords]
    simp only [(cronField_iff (by decide)).mpr hminute, (cronField_iff (by decide)).mpr hhour]
    rfl

end Grammar

/-! ## The search -/

section Search

variable {minuteStep hourStep : ℕ} {expression : String} {t u day : DateTime}

/-- An instant the expression names. -/
def Matches (minuteStep hourStep : ℕ) (u : DateTime) : Prop :=
  u.minute % minuteStep = 0 ∧ u.hour % hourStep = 0 ∧ u.second = 0 ∧ u.microsecond = 0

theorem mem_steps {stop step n : ℕ} : n ∈ steps stop step ↔ n < stop ∧ n % step = 0 := by
  simp [steps]

theorem steps_sorted (stop step : ℕ) : (steps stop step).Pairwise (· < ·) :=
  List.pairwise_lt_range.filter _

/-- **The matches of a day**, from an hour on. -/
theorem mem_cronMatches {fromHour : ℕ} : u ∈ cronMatches day minuteStep hourStep fromHour ↔
    u.date = day.date ∧ fromHour ≤ u.hour ∧ Matches minuteStep hourStep u := by
  obtain ⟨-, -, -, hhour, hminute, -⟩ := u.valid
  simp only [cronMatches, List.mem_flatMap, List.mem_filter, List.mem_filterMap, mem_steps,
    decide_eq_true_eq, DateTime.atMinute_eq_some, Matches]
  constructor
  · rintro ⟨hour, ⟨⟨-, hh⟩, hfrom⟩, minute, ⟨-, hm⟩, -, hdate, rfl, rfl, hs, hus⟩
    exact ⟨hdate, hfrom, hm, hh, hs, hus⟩
  · rintro ⟨hdate, hfrom, hm, hh, hs, hus⟩
    exact ⟨u.hour, ⟨⟨hhour, hh⟩, hfrom⟩, u.minute, ⟨hminute, hm⟩, ⟨hhour, hminute⟩, hdate, rfl, rfl,
      hs, hus⟩

/-- They are listed in their order. -/
theorem cronMatches_sorted (day : DateTime) (minuteStep hourStep fromHour : ℕ) :
    (cronMatches day minuteStep hourStep fromHour).Pairwise (· < ·) := by
  have htime : ∀ {a b : DateTime} {hour hour' minute minute' : ℕ},
      day.atMinute hour minute = some a → day.atMinute hour' minute' = some b →
        hour < hour' ∨ hour = hour' ∧ minute < minute' → a < b := by
    intro a b hour hour' minute minute' ha hb h
    obtain ⟨-, hdate, rfl, rfl, hs, hus⟩ := DateTime.atMinute_eq_some.mp ha
    obtain ⟨-, hdate', rfl, rfl, hs', hus'⟩ := DateTime.atMinute_eq_some.mp hb
    obtain ⟨-, -, -, -, hm, -⟩ := a.valid
    refine DateTime.lt_iff_date.mpr (.inr ⟨hdate.trans hdate'.symm, ?_⟩)
    unfold DateTime.timeOfDay
    omega
  rw [cronMatches, List.pairwise_flatMap]
  constructor
  · intro hour _
    rw [List.pairwise_filterMap]
    exact (steps_sorted 60 minuteStep).imp fun hlt a ha b hb => htime ha hb (.inr ⟨rfl, hlt⟩)
  · refine ((steps_sorted 24 hourStep).filter _).imp fun hlt a ha b hb => ?_
    obtain ⟨minute, -, ha⟩ := List.mem_filterMap.mp ha
    obtain ⟨minute', -, hb⟩ := List.mem_filterMap.mp hb
    exact htime ha hb (.inl hlt)

/-- **The first of a sorted list** that meets a condition is the least that does. -/
theorem find?_eq_some_iff_isLeast {α : Type} [Preorder α] {l : List α} (hl : l.Pairwise (· < ·))
    {p : α → Bool} {a : α} : l.find? p = some a ↔ IsLeast {x | x ∈ l ∧ p x = true} a := by
  induction l with
  | nil => simp [IsLeast]
  | cons x l ih =>
    rw [List.pairwise_cons] at hl
    rw [List.find?_cons]
    cases hx : p x with
    | true =>
      simp only [Option.some.injEq]
      constructor
      · rintro rfl
        refine ⟨⟨List.mem_cons_self .., hx⟩, fun y hy => ?_⟩
        rcases List.mem_cons.mp hy.1 with rfl | hmem
        · exact le_rfl
        · exact (hl.1 y hmem).le
      · rintro ⟨⟨hmem, -⟩, hleast⟩
        rcases List.mem_cons.mp hmem with rfl | hmem
        · rfl
        · exact absurd (hleast ⟨List.mem_cons_self .., hx⟩) (hl.1 a hmem).not_ge
    | false =>
      have hset : {y | y ∈ x :: l ∧ p y = true} = {y | y ∈ l ∧ p y = true} := by
        ext y
        simp only [Set.mem_ofPred_eq, List.mem_cons]
        constructor
        · rintro ⟨rfl | hmem, hy⟩
          · exact absurd (hx.symm.trans hy) (by simp)
          · exact ⟨hmem, hy⟩
        · rintro ⟨hmem, hy⟩
          exact ⟨.inr hmem, hy⟩
      rw [hset]
      exact ih hl.2

/-- Midnight matches every expression. -/
theorem matches_midnight (hday : day.timeOfDay = 0) : Matches minuteStep hourStep day := by
  obtain ⟨hh, hm, hs, hus⟩ :
      day.hour = 0 ∧ day.minute = 0 ∧ day.second = 0 ∧ day.microsecond = 0 := by
    unfold DateTime.timeOfDay at hday
    omega
  exact ⟨by rw [hm, Nat.zero_mod], by rw [hh, Nat.zero_mod], hs, hus⟩

/-- The matches after an instant, as a search finds them. -/
def Next (minuteStep hourStep : ℕ) (t u : DateTime) : Prop :=
  IsLeast {u | t < u ∧ Matches minuteStep hourStep u} u

/-- A later instant of the same day is in no earlier hour. -/
theorem hour_le_of_lt (hdate : u.date = t.date) (hlt : t < u) : t.hour ≤ u.hour := by
  obtain ⟨-, -, -, -, hm, hs, hus⟩ := u.valid
  rcases DateTime.lt_iff_date.mp hlt with h | ⟨-, htime⟩
  · exact absurd h (hdate ▸ lt_irrefl _)
  · unfold DateTime.timeOfDay at htime
    omega

/-- A match of today is the next one. -/
theorem next_of_today
    (h : (cronMatches t minuteStep hourStep t.hour).find? (fun u => t < u) = some u) :
    Next minuteStep hourStep t u := by
  obtain ⟨⟨hmem, hlt⟩, hleast⟩ := (find?_eq_some_iff_isLeast (cronMatches_sorted ..)).mp h
  obtain ⟨hdate, -, hmatches⟩ := mem_cronMatches.mp hmem
  refine ⟨⟨of_decide_eq_true hlt, hmatches⟩, fun v ⟨hv, hvm⟩ => ?_⟩
  rcases DateTime.lt_iff_date.mp hv with hday | ⟨hday, -⟩
  · exact (DateTime.lt_iff_date.mpr (.inl (hdate ▸ hday))).le
  · have hhour := hour_le_of_lt hday.symm hv
    exact hleast ⟨mem_cronMatches.mpr ⟨hday.symm, hhour, hvm⟩, decide_eq_true hv⟩

/-- If today has no match left, every match is on a later day. -/
theorem date_lt_of_not_today
    (h : (cronMatches t minuteStep hourStep t.hour).find? (fun u => t < u) = none) (hlt : t < u)
    (hmatches : Matches minuteStep hourStep u) : t.date < u.date := by
  rcases DateTime.lt_iff_date.mp hlt with hday | ⟨hday, -⟩
  · exact hday
  · have hmem : u ∈ cronMatches t minuteStep hourStep t.hour :=
      mem_cronMatches.mpr ⟨hday.symm, hour_le_of_lt hday.symm hlt, hmatches⟩
    exact absurd hlt (by simpa using List.find?_eq_none.mp h u hmem)

/-- The same time of the next day. -/
theorem tomorrow_ordinal (h : t.plus 86400000000 = some day) : day.ordinal = t.ordinal + 1 := by
  have hsum := DateTime.plus_eq_some.mp h
  have hday := DateTime.timeOfDay_lt day
  have ht := DateTime.timeOfDay_lt t
  rw [DateTime.microseconds_eq, DateTime.microseconds_eq] at hsum
  omega

/-- There is a next day unless it is the last. -/
theorem exists_tomorrow (h : t.ordinal < u.ordinal) : ∃ day, t.plus 86400000000 = some day := by
  have hu := DateTime.microseconds_lt_end u
  have ht := DateTime.timeOfDay_lt t
  have hlast : DateTime.lastDay.microseconds + 86400000000 =
      (DateTime.lastDay.ordinal + 1) * 86400000000 := by decide
  have hend : t.microseconds + 86400000000 < DateTime.lastDay.microseconds + 86400000000 := by
    rw [hlast] at hu ⊢
    rw [DateTime.microseconds_eq] at hu
    have hle : u.ordinal < DateTime.lastDay.ordinal + 1 :=
      Nat.lt_of_mul_lt_mul_right ((Nat.le_add_right ..).trans_lt hu)
    calc t.microseconds + 86400000000
        < t.ordinal * 86400000000 + 86400000000 + 86400000000 := by
          rw [DateTime.microseconds_eq]
          exact Nat.add_lt_add_right (Nat.add_lt_add_left ht _) _
      _ = (t.ordinal + 1 + 1) * 86400000000 := by rw [Nat.succ_mul, Nat.succ_mul]
      _ ≤ (DateTime.lastDay.ordinal + 1) * 86400000000 :=
          Nat.mul_le_mul_right _ ((Nat.succ_le_succ h).trans hle)
  obtain ⟨day, hday⟩ := DateTime.exists_microseconds hend
  exact ⟨day, DateTime.plus_eq_some.mpr (by omega)⟩

/-- The start of a day. -/
theorem exists_midnight (day : DateTime) :
    ∃ midnight : DateTime, midnight.date = day.date ∧ midnight.timeOfDay = 0 := by
  obtain ⟨midnight, h⟩ : ∃ midnight, day.atMinute 0 0 = some midnight := by
    obtain ⟨hyear, hmonth, hday, -⟩ := day.valid
    exact ⟨_, dif_pos ⟨hyear, hmonth, hday, by decide, by decide, by decide, by decide⟩⟩
  obtain ⟨-, hdate, hh, hm, hs, hus⟩ := DateTime.atMinute_eq_some.mp h
  exact ⟨midnight, hdate, by simp [DateTime.timeOfDay, hh, hm, hs, hus]⟩

/-- **The search of two days** finds the next match, and finds one unless this is the last day. -/
theorem nextCron_cases (hsteps : cronSteps expression = some (minuteStep, hourStep))
    (t : DateTime) :
    (∃ u, nextCron expression t = some u ∧ Next minuteStep hourStep t u) ∨
      nextCron expression t = none ∧ (∀ u, t < u → ¬Matches minuteStep hourStep u) ∧
        t.plus 86400000000 = none := by
  unfold nextCron
  rw [hsteps]
  simp only [Option.bind_eq_bind, Option.bind_some]
  cases htoday : (cronMatches t minuteStep hourStep t.hour).find? (fun u => t < u) with
  | some u => exact .inl ⟨u, rfl, next_of_today htoday⟩
  | none =>
    simp only
    cases htomorrow : t.plus 86400000000 with
    | none =>
      refine .inr ⟨rfl, fun u hlt hmatches => ?_, rfl⟩
      have hdate := date_lt_of_not_today htoday hlt hmatches
      obtain ⟨day, hday⟩ := exists_tomorrow (DateTime.ordinal_lt.mpr hdate)
      rw [htomorrow] at hday
      cases hday
    | some day =>
      rw [Option.bind_some]
      have hordinal := tomorrow_ordinal htomorrow
      -- Midnight of tomorrow is a match, so the search cannot fail.
      obtain ⟨midnight, hdate, htime⟩ := exists_midnight day
      have hafter : ∀ v : DateTime, v.date = day.date → t < v := fun v hv => by
        refine DateTime.lt_iff_date.mpr (.inl (DateTime.ordinal_lt.mp ?_))
        rw [DateTime.ordinal_eq.mpr hv]
        omega
      have hmem : midnight ∈ cronMatches day minuteStep hourStep 0 :=
        mem_cronMatches.mpr ⟨hdate, Nat.zero_le _, matches_midnight htime⟩
      obtain ⟨u, hu⟩ : ∃ u, (cronMatches day minuteStep hourStep 0).find? (fun u => t < u) =
          some u := by
        rw [← Option.isSome_iff_exists, List.find?_isSome]
        exact ⟨midnight, hmem, decide_eq_true (hafter midnight hdate)⟩
      refine .inl ⟨u, hu, ?_⟩
      obtain ⟨⟨hmemu, hlt⟩, hleast⟩ := (find?_eq_some_iff_isLeast (cronMatches_sorted ..)).mp hu
      obtain ⟨hdateu, -, hmatches⟩ := mem_cronMatches.mp hmemu
      refine ⟨⟨of_decide_eq_true hlt, hmatches⟩, fun v ⟨hv, hvm⟩ => ?_⟩
      have hvdate := DateTime.ordinal_lt.mpr (date_lt_of_not_today htoday hv hvm)
      rcases lt_trichotomy v.ordinal day.ordinal with hlt' | heq | hgt
      · omega
      · exact hleast ⟨mem_cronMatches.mpr ⟨DateTime.ordinal_eq.mp heq, Nat.zero_le _, hvm⟩,
          decide_eq_true hv⟩
      · rw [DateTime.ordinal_lt, ← hdateu] at hgt
        exact (DateTime.lt_iff_date.mpr (.inl hgt)).le

/-- **The next run of an expression** is the least match after the instant. -/
theorem nextCron_iff (hsteps : cronSteps expression = some (minuteStep, hourStep)) :
    nextCron expression t = some u ↔ Next minuteStep hourStep t u := by
  rcases nextCron_cases hsteps t with ⟨v, hv, hnext⟩ | ⟨hnone, hall, -⟩
  · rw [hv, Option.some.injEq]
    constructor
    · rintro rfl
      exact hnext
    · exact hnext.unique
  · rw [hnone]
    exact iff_of_false nofun fun h => hall u h.1.1 h.1.2

end Search

/-- **Cron triggers**: the parser accepts the documented grammar; and for an accepted expression the
search gives the least match strictly after the instant, and gives one on every day but the last. -/
theorem cron_law (expression : String) (minuteStep hourStep : ℕ) :
    (cronSteps expression = some (minuteStep, hourStep) ↔
      Documented expression minuteStep hourStep) ∧
    (Documented expression minuteStep hourStep → ∀ t : DateTime,
      (∀ u, nextCron expression t = some u ↔ Next minuteStep hourStep t u) ∧
      (t < DateTime.lastDay → ∃ u, nextCron expression t = some u)) := by
  refine ⟨cronSteps_iff, fun hdocumented t => ?_⟩
  have hsteps := cronSteps_iff.mpr hdocumented
  refine ⟨fun u => nextCron_iff hsteps, fun hlast => ?_⟩
  rcases nextCron_cases hsteps t with ⟨u, hu, -⟩ | ⟨-, hall, -⟩
  · exact ⟨u, hu⟩
  · exact absurd (matches_midnight (by decide)) (hall DateTime.lastDay hlast)

/-- Every seven minutes: the step starts again at the full hour. -/
theorem cron_law_hour : Next 7 1 ⟨2000, 1, 1, 12, 56, 0, 0, by decide⟩
    ⟨2000, 1, 1, 13, 0, 0, 0, by decide⟩ := by
  have hdocumented : Documented "*/7 * * * *" 7 1 := (cron_law _ 7 1).1.mp (by decide)
  exact (((cron_law _ 7 1).2 hdocumented _).1 _).mp (by decide +kernel)

end Scheduler

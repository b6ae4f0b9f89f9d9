import AiLabOs.Base.TextOrder
import Mathlib.Data.Prod.Lex

/-!
# UTC instants and their texts

An instant has the seven fields of `datetime`, compared one after the other. Two texts of it are
stored and compared: `isoformat`, which ends in `+00:00`, and the JSON text of the models, which
ends in `Z`. Both leave out a fraction of zero. Among texts of the first kind the order of texts
is the order of instants. A JSON text compared with an `isoformat` text is not: `+` and `.` come
before the digits and `Z` comes after them, so the text of a whole second does not come before any
instant of that second.

## Main definitions

* `DateTime`: a UTC instant of the years 1 to 9999
* `DateTime.isoformat`, `DateTime.toJson`: its texts
* `DateTime.fromJson`, `DateTime.optionalInstant`: reads the JSON text, in a column that may be NULL
* `DateTime.wholeSecond`: the start of its second

## Main results

* `DateTime.isoformat_lt`: among `isoformat` texts the order is that of the instants
* `DateTime.toJson_lt_isoformat`: exactly when a JSON text comes before an `isoformat` text
* `DateTime.toJson_lt`: exactly when a JSON text comes before a JSON text
* `DateTime.fromJson_toJson`: the JSON text is read back
-/

open TextOrder

/-- `calendar.isleap`. -/
def isLeap (year : ℕ) : Bool := year % 4 == 0 && (year % 100 != 0 || year % 400 == 0)

/-- The days of a month. -/
def daysInMonth (year month : ℕ) : ℕ :=
  if month = 2 then if isLeap year then 29 else 28
  else if month = 4 ∨ month = 6 ∨ month = 9 ∨ month = 11 then 30
  else 31

theorem daysInMonth_le (year month : ℕ) : daysInMonth year month ≤ 31 := by
  unfold daysInMonth
  split <;> split <;> omega

/-- The fields name an instant of the years 1 to 9999. -/
def DateTime.Valid (year month day hour minute second microsecond : ℕ) : Prop :=
  (1 ≤ year ∧ year ≤ 9999) ∧ (1 ≤ month ∧ month ≤ 12) ∧ (1 ≤ day ∧ day ≤ daysInMonth year month) ∧
    hour < 24 ∧ minute < 60 ∧ second < 60 ∧ microsecond < 1000000

instance {year month day hour minute second microsecond : ℕ} :
    Decidable (DateTime.Valid year month day hour minute second microsecond) := by
  unfold DateTime.Valid
  infer_instance

/-- The hours of a day, from zero. -/
instance hoursOfDay : NeZero (24 : ℕ) := ⟨by decide⟩

theorem DateTime.valid_noon : DateTime.Valid 2026 7 23 12 0 0 0 := by decide

theorem DateTime.valid_hour (n : Fin 24) : DateTime.Valid 2026 7 26 n 0 0 0 := by
  refine ⟨?_, ?_, ?_, n.isLt, ?_, ?_, ?_⟩
  all_goals decide

/-- `datetime` with the time zone UTC. -/
@[ext] structure DateTime where
  year : ℕ
  month : ℕ
  day : ℕ
  hour : ℕ
  minute : ℕ
  second : ℕ
  microsecond : ℕ
  valid : DateTime.Valid year month day hour minute second microsecond
deriving DecidableEq

namespace DateTime

variable {a b : DateTime}

/-- The fields down to the second, compared from the left. -/
def clock (d : DateTime) : ℕ ×ₗ ℕ ×ₗ ℕ ×ₗ ℕ ×ₗ ℕ ×ₗ ℕ :=
  toLex (d.year, toLex (d.month, toLex (d.day, toLex (d.hour, toLex (d.minute, d.second)))))

/-- All fields, compared from the left. -/
def fields (d : DateTime) : (ℕ ×ₗ ℕ ×ₗ ℕ ×ₗ ℕ ×ₗ ℕ ×ₗ ℕ) ×ₗ ℕ := toLex (d.clock, d.microsecond)

theorem fields_injective : Function.Injective fields := by
  intro a b h
  simp only [fields, clock, EmbeddingLike.apply_eq_iff_eq, Prod.mk.injEq] at h
  ext
  all_goals tauto

instance : LinearOrder DateTime := LinearOrder.lift' fields fields_injective

theorem lt_iff : a < b ↔ a.clock < b.clock ∨ a.clock = b.clock ∧ a.microsecond < b.microsecond :=
  Prod.Lex.toLex_lt_toLex

theorem eq_iff : a = b ↔ a.clock = b.clock ∧ a.microsecond = b.microsecond := by
  rw [← fields_injective.eq_iff, fields, fields, EmbeddingLike.apply_eq_iff_eq, Prod.mk.injEq]

/-- `replace(microsecond=0)`. -/
def wholeSecond (d : DateTime) : DateTime :=
  { d with
    microsecond := 0
    valid := ⟨d.valid.1, d.valid.2.1, d.valid.2.2.1, d.valid.2.2.2.1, d.valid.2.2.2.2.1,
      d.valid.2.2.2.2.2.1, by omega⟩ }

@[simp] theorem wholeSecond_clock (d : DateTime) : d.wholeSecond.clock = d.clock := rfl

@[simp] theorem wholeSecond_microsecond (d : DateTime) : d.wholeSecond.microsecond = 0 := rfl

theorem wholeSecond_lt {d : DateTime} (h : d.microsecond ≠ 0) : d.wholeSecond < d :=
  lt_iff.mpr (.inr ⟨rfl, Nat.pos_of_ne_zero h⟩)

theorem wholeSecond_eq {d : DateTime} (h : d.microsecond = 0) : d.wholeSecond = d :=
  eq_iff.mpr ⟨rfl, h.symm⟩

/-- A second starts no later than any of its instants. -/
theorem wholeSecond_le (d : DateTime) : d.wholeSecond ≤ d := by
  by_cases h : d.microsecond = 0
  · exact (wholeSecond_eq h).le
  · exact (wholeSecond_lt h).le

/-! ## The texts -/

/-- The text down to the second, and what follows it. -/
def clockText (d : DateTime) (rest : List Char) : List Char :=
  padded 4 d.year ++ '-' :: (padded 2 d.month ++ '-' :: (padded 2 d.day ++ 'T' ::
    (padded 2 d.hour ++ ':' :: (padded 2 d.minute ++ ':' :: (padded 2 d.second ++ rest)))))

/-- The fraction, left out when it is zero, and what follows it. -/
def fractionText (microsecond : ℕ) (rest : List Char) : List Char :=
  if microsecond = 0 then rest else '.' :: (padded 6 microsecond ++ rest)

/-- `isoformat()`. -/
def isoformat (d : DateTime) : String :=
  String.ofList (d.clockText (fractionText d.microsecond ['+', '0', '0', ':', '0', '0']))

/-- The text of `model_dump(mode="json")`. -/
def toJson (d : DateTime) : String :=
  String.ofList (d.clockText (fractionText d.microsecond ['Z']))

/-- A pair that is smaller, or equal with `P` to decide, compares from the left. -/
theorem lex_lt_or {α β : Type} [LinearOrder α] [LinearOrder β] {x y : α} {p q : β} {P : Prop} :
    (toLex (x, p) < toLex (y, q) ∨ toLex (x, p) = toLex (y, q) ∧ P) ↔
      x < y ∨ x = y ∧ (p < q ∨ p = q ∧ P) := by
  rw [Prod.Lex.toLex_lt_toLex, EmbeddingLike.apply_eq_iff_eq, Prod.mk.injEq]
  tauto

/-- Texts of instants compare by the fields down to the second, then by what follows. -/
theorem clockText_lt {s t : List Char} :
    a.clockText s < b.clockText t ↔ a.clock < b.clock ∨ a.clock = b.clock ∧ s < t := by
  obtain ⟨⟨-, hy⟩, ⟨-, hm⟩, ⟨-, hd⟩, hh, hi, hs, -⟩ := a.valid
  obtain ⟨⟨-, hy'⟩, ⟨-, hm'⟩, ⟨-, hd'⟩, hh', hi', hs', -⟩ := b.valid
  have hd := hd.trans (daysInMonth_le a.year a.month)
  have hd' := hd'.trans (daysInMonth_le b.year b.month)
  rw [clockText, clockText, padded_append_lt (by omega) (by omega), cons_lt_cons_self,
    padded_append_lt (by omega) (by omega), cons_lt_cons_self,
    padded_append_lt (by omega) (by omega), cons_lt_cons_self,
    padded_append_lt (by omega) (by omega), cons_lt_cons_self,
    padded_append_lt (by omega) (by omega), cons_lt_cons_self,
    padded_append_lt (by omega) (by omega), clock, clock, lex_lt_or, lex_lt_or, lex_lt_or,
      lex_lt_or,
    lex_lt_or]

/-- Two fractions followed by the same zone compare as numbers. -/
theorem fractionText_iso_lt {m n : ℕ} (hm : m < 1000000) (hn : n < 1000000) :
    fractionText m ['+', '0', '0', ':', '0', '0'] < fractionText n ['+', '0', '0', ':', '0', '0'] ↔
      m < n := by
  unfold fractionText
  split <;> split
  · simp; omega
  · exact iff_of_true (by simp [List.cons_lt_cons_iff]) (by omega)
  · exact iff_of_false (by simp [List.cons_lt_cons_iff]) (by omega)
  · rw [cons_lt_cons_self, padded_append_lt (by omega) (by omega)]
    simp

/-- `Z` comes after everything an `isoformat` text can go on with, so a whole second does not come
before it, and a fraction does exactly when it is smaller. -/
theorem fractionText_json_lt {m n : ℕ} (hm : m < 1000000) (hn : n < 1000000) :
    fractionText m ['Z'] < fractionText n ['+', '0', '0', ':', '0', '0'] ↔ 0 < m ∧ m < n := by
  unfold fractionText
  split <;> split
  · exact iff_of_false (by simp [List.cons_lt_cons_iff]) (by omega)
  · exact iff_of_false (by simp [List.cons_lt_cons_iff]) (by omega)
  · exact iff_of_false (by simp [List.cons_lt_cons_iff]) (by omega)
  · rw [cons_lt_cons_self, padded_append_lt (by omega) (by omega)]
    simp [List.cons_lt_cons_iff]
    omega

/-- `Z` comes after the point, so a whole second comes after its fractions. -/
theorem fractionText_lt {m n : ℕ} (hm : m < 1000000) (hn : n < 1000000) :
    fractionText m ['Z'] < fractionText n ['Z'] ↔ m ≠ 0 ∧ (n = 0 ∨ m < n) := by
  unfold fractionText
  split <;> split
  · exact iff_of_false (by simp) (by omega)
  · exact iff_of_false (by simp [List.cons_lt_cons_iff]) (by omega)
  · exact iff_of_true (by simp [List.cons_lt_cons_iff]) (by omega)
  · rw [cons_lt_cons_self, padded_append_lt (by omega) (by omega)]
    simp
    omega

/-- **Among `isoformat` texts** the order is that of the instants. -/
theorem isoformat_lt : a.isoformat < b.isoformat ↔ a < b := by
  obtain ⟨-, -, -, -, -, -, ha⟩ := a.valid
  obtain ⟨-, -, -, -, -, -, hb⟩ := b.valid
  rw [isoformat, isoformat, String.lt_iff_toList_lt, String.toList_ofList, String.toList_ofList,
    clockText_lt, fractionText_iso_lt ha hb, lt_iff]

theorem isoformat_le : a.isoformat ≤ b.isoformat ↔ a ≤ b := by
  rw [← not_lt, isoformat_lt, not_lt]

/-- **A JSON text before an `isoformat` text**: the instant is earlier, and is not the start of the
other's second. -/
theorem toJson_lt_isoformat : a.toJson < b.isoformat ↔ a < b ∧ a ≠ b.wholeSecond := by
  obtain ⟨-, -, -, -, -, -, ha⟩ := a.valid
  obtain ⟨-, -, -, -, -, -, hb⟩ := b.valid
  rw [toJson, isoformat, String.lt_iff_toList_lt, String.toList_ofList, String.toList_ofList,
    clockText_lt, fractionText_json_lt ha hb, lt_iff, ne_eq, eq_iff, wholeSecond_clock,
    wholeSecond_microsecond]
  constructor
  · rintro (h | ⟨h, hpos, hlt⟩)
    · exact ⟨.inl h, fun heq => h.ne heq.1⟩
    · exact ⟨.inr ⟨h, hlt⟩, fun heq => hpos.ne' heq.2⟩
  · rintro ⟨h | ⟨h, hlt⟩, hne⟩
    · exact .inl h
    · exact .inr ⟨h, Nat.pos_of_ne_zero fun h0 => hne ⟨h, h0⟩, hlt⟩

/-- **A JSON text before a JSON text**: in another second the earlier one, within one second the
earlier of two fractions, and each fraction before the whole second. -/
theorem toJson_lt : a.toJson < b.toJson ↔ a.clock < b.clock ∨ a.clock = b.clock ∧
    a.microsecond ≠ 0 ∧ (b.microsecond = 0 ∨ a.microsecond < b.microsecond) := by
  obtain ⟨-, -, -, -, -, -, ha⟩ := a.valid
  obtain ⟨-, -, -, -, -, -, hb⟩ := b.valid
  rw [toJson, toJson, String.lt_iff_toList_lt, String.toList_ofList, String.toList_ofList,
    clockText_lt, fractionText_lt ha hb]

/-- The two texts of one instant, or of two, are never the same. -/
theorem toJson_ne_isoformat : a.toJson ≠ b.isoformat := by
  intro h
  have hlast := congrArg (fun s : String => s.toList.getLast?) h
  have hz : ∀ us, (a.clockText (fractionText us ['Z'])).getLast? = some 'Z' := by
    intro us
    unfold clockText fractionText
    split <;> simp [List.getLast?_append, List.getLast?_cons]
  have hi : ∀ us, (b.clockText (fractionText us ['+', '0', '0', ':', '0', '0'])).getLast? =
      some '0' := by
    intro us
    unfold clockText fractionText
    split <;> simp [List.getLast?_append, List.getLast?_cons]
  simp only [toJson, isoformat, String.toList_ofList, hz, hi] at hlast
  exact absurd hlast (by decide)

theorem toJson_le_isoformat : a.toJson ≤ b.isoformat ↔ a < b ∧ a ≠ b.wholeSecond := by
  rw [le_iff_lt_or_eq, toJson_lt_isoformat]
  simp [toJson_ne_isoformat]

theorem isoformat_le_toJson : b.isoformat ≤ a.toJson ↔ b ≤ a ∨ a = b.wholeSecond := by
  rw [← not_lt, toJson_lt_isoformat, not_and_or, not_lt, not_not]

/-! ## Reading -/

/-- A number of `w` digits and the separator `c` after it, leaving the rest. -/
def readField (w : ℕ) (c : Char) (cs : List Char) : Option (ℕ × List Char) :=
  match readPadded w cs with
  | some (n, x :: rest) => if x = c then some (n, rest) else none
  | _ => none

theorem readField_padded {w n : ℕ} (c : Char) (rest : List Char) (h : n < 10 ^ w) :
    readField w c (padded w n ++ c :: rest) = some (n, rest) := by
  rw [readField, readPadded_padded _ h]
  exact if_pos rfl

/-- The fraction and the zone that end a JSON text. -/
def readFraction : List Char → Option ℕ
  | '.' :: cs =>
    match readField 6 'Z' cs with
    | some (us, []) => some us
    | _ => none
  | ['Z'] => some 0
  | _ => none

/-- `datetime` from its JSON text, as the models read it back from a row. -/
def fromJson (s : String) : Option DateTime := do
  let (year, cs) ← readField 4 '-' s.toList
  let (month, cs) ← readField 2 '-' cs
  let (day, cs) ← readField 2 'T' cs
  let (hour, cs) ← readField 2 ':' cs
  let (minute, cs) ← readField 2 ':' cs
  let (second, cs) ← readPadded 2 cs
  let microsecond ← readFraction cs
  if h : Valid year month day hour minute second microsecond then
    some ⟨year, month, day, hour, minute, second, microsecond, h⟩
  else none

theorem readFraction_fractionText {us : ℕ} (h : us < 1000000) :
    readFraction (fractionText us ['Z']) = some us := by
  unfold fractionText
  split
  · rename_i h0
    rw [h0]
    rfl
  · rw [readFraction, readField_padded _ _ (show us < 10 ^ 6 by omega)]

/-- **Round trip**: the JSON text is read back as the instant it was written for. -/
@[simp] theorem fromJson_toJson (d : DateTime) : fromJson d.toJson = some d := by
  obtain ⟨⟨-, hy⟩, ⟨-, hm⟩, ⟨-, hd⟩, hh, hi, hs, hus⟩ := d.valid
  have hd := hd.trans (daysInMonth_le d.year d.month)
  rw [fromJson, toJson, String.toList_ofList, clockText]
  dsimp only [Option.bind_eq_bind]
  rw [readField_padded _ _ (by omega), Option.bind_some, readField_padded _ _ (by omega),
    Option.bind_some, readField_padded _ _ (by omega), Option.bind_some,
    readField_padded _ _ (by omega), Option.bind_some, readField_padded _ _ (by omega),
    Option.bind_some, readPadded_padded _ (by omega), Option.bind_some,
    readFraction_fractionText hus, Option.bind_some, dif_pos d.valid]

theorem toJson_injective : Function.Injective toJson := by
  intro a b h
  have hread := congrArg fromJson h
  rwa [fromJson_toJson, fromJson_toJson, Option.some.injEq] at hread

/-- Two instants of one second are both whole or both have a fraction. -/
def Alike (a b : DateTime) : Prop := a.clock = b.clock → (a.microsecond = 0 ↔ b.microsecond = 0)

instance : Decidable (Alike a b) := by
  unfold Alike
  infer_instance

/-- **The texts of two instants** are in their order exactly when the instants are alike. -/
theorem alike_iff : Alike a b ↔ (a.toJson < b.toJson ↔ a < b) ∧ (b.toJson < a.toJson ↔ b < a) := by
  unfold Alike
  rw [toJson_lt, toJson_lt, lt_iff, lt_iff]
  rcases lt_trichotomy a.clock b.clock with h | h | h
  · simp [h, h.ne, h.ne', h.not_gt]
  · simp only [h, lt_irrefl, false_or, true_and, forall_const]
    omega
  · simp [h, h.ne, h.ne', h.not_gt]

/-- An instant column that may be NULL. -/
def optionalInstant : Option String → Option (Option DateTime)
  | none => some none
  | some s => (fromJson s).map some

@[simp] theorem optionalInstant_toJson (d : Option DateTime) :
    optionalInstant (d.map toJson) = some d := by
  cases d with
  | none => rfl
  | some d => rw [Option.map_some, optionalInstant, fromJson_toJson, Option.map_some]

end DateTime

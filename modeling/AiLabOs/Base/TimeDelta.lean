import AiLabOs.Base.DateTime

/-!
# Time arithmetic

Instants counted in microseconds from the first day of year 1, and sums with a `timedelta`. A sum
that leaves the years 1 to 9999 has no value: the code raises `OverflowError` there.

## Main definitions

* `DateTime.microseconds`, `DateTime.ofMicroseconds`: an instant as a count, and back
* `DateTime.plus`: an instant and a `timedelta`
* `DateTime.atMinute`: a minute of the same day
-/

namespace DateTime

/-- The days before the first of January of a year. -/
def daysBeforeYear (year : ℕ) : ℕ :=
  let y := year - 1
  y * 365 + y / 4 - y / 100 + y / 400

/-- The days of a year before a month. -/
def daysBeforeMonth (year month : ℕ) : ℕ :=
  ((List.range (month - 1)).map fun m => daysInMonth year (m + 1)).sum

/-- `toordinal()`, from zero. -/
def ordinal (d : DateTime) : ℕ :=
  daysBeforeYear d.year + daysBeforeMonth d.year d.month + (d.day - 1)

/-- The microseconds since the start of year 1. -/
def microseconds (d : DateTime) : ℕ :=
  (((d.ordinal * 24 + d.hour) * 60 + d.minute) * 60 + d.second) * 1000000 + d.microsecond

/-- The year of a day, and the days of that year before it. -/
def yearOfOrdinal (n : ℕ) : ℕ × ℕ :=
  let n400 := n / 146097
  let n := n % 146097
  let n100 := n / 36524
  let n := n % 36524
  let n4 := n / 1461
  let n := n % 1461
  let n1 := n / 365
  let year := n400 * 400 + n100 * 100 + n4 * 4 + n1 + 1
  -- the last day of a leap cycle starts no fifth year
  if n1 = 4 ∨ n100 = 4 then (year - 1, 365) else (year, n % 365)

/-- The month of a day of a year: the last one that starts no later. -/
def monthOfDay (year n : ℕ) : ℕ :=
  ((List.range 12).filter fun m => daysBeforeMonth year (m + 1) ≤ n).length

/-- The instant of a count, if its year is one `datetime` has. -/
def ofMicroseconds (t : ℕ) : Option DateTime :=
  let microsecond := t % 1000000
  let seconds := t / 1000000
  let minutes := seconds / 60
  let hours := minutes / 60
  let (year, rest) := yearOfOrdinal (hours / 24)
  let month := monthOfDay year rest
  let day := rest - daysBeforeMonth year month + 1
  if h : Valid year month day (hours % 24) (minutes % 60) (seconds % 60) microsecond then
    some ⟨year, month, day, hours % 24, minutes % 60, seconds % 60, microsecond, h⟩
  else none

/-- The sum with a `timedelta` of that many microseconds. -/
def plus (d : DateTime) (delta : Int) : Option DateTime :=
  let t := (d.microseconds : Int) + delta
  if 0 ≤ t then ofMicroseconds t.toNat else none

/-- `replace(hour=…, minute=…, second=0, microsecond=0)`. -/
def atMinute (d : DateTime) (hour minute : ℕ) : Option DateTime :=
  if h : Valid d.year d.month d.day hour minute 0 0 then
    some ⟨d.year, d.month, d.day, hour, minute, 0, 0, h⟩
  else none

end DateTime

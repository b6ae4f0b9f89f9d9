import AiLabOs.Base.TimeDelta

/-!
# Local times with their offset

An aware `datetime` is a local time and an offset from UTC of less than a day. Its text is that of
the local time, with the offset at the end.

## Main definitions

* `OffsetTime`, `OffsetTime.utc`: a local time with its offset, and its instant
* `OffsetTime.isoformat`: its text

## Main results

* `OffsetTime.isoformat_injective`: the text determines the local time and the offset
* `OffsetTime.mem_isoformat`: the characters of the text
-/

open TextOrder

/-- An aware `datetime`: the local time, and the offset in microseconds. -/
@[ext] structure OffsetTime where
  wall : DateTime
  offset : Int
  valid : offset.natAbs < 86400000000
deriving DecidableEq

namespace OffsetTime

/-- `astimezone(UTC)`, if the instant is one that `datetime` has. -/
def utc (d : OffsetTime) : Option DateTime := d.wall.plus (-d.offset)

/-- The sign of an offset. -/
def sign (offset : Int) : Char := if offset < 0 then '-' else '+'

/-- The seconds of an offset, left out when they are zero. -/
def secondsText (microseconds : ℕ) : List Char :=
  if microseconds % 60000000 = 0 then []
  else ':' :: (padded 2 (microseconds / 1000000 % 60) ++
    DateTime.fractionText (microseconds % 1000000) [])

/-- The text of an offset. -/
def offsetText (offset : Int) : List Char :=
  sign offset :: (padded 2 (offset.natAbs / 3600000000) ++ ':' ::
    (padded 2 (offset.natAbs / 60000000 % 60) ++ secondsText offset.natAbs))

/-- `isoformat()`. -/
def isoformat (d : OffsetTime) : String :=
  String.ofList (d.wall.clockText (DateTime.fractionText d.wall.microsecond (offsetText d.offset)))

/-! ## The text is read back -/

theorem padded_append_inj {w m n : ℕ} {s t : List Char} (hm : m < 10 ^ w) (hn : n < 10 ^ w)
    (h : padded w m ++ s = padded w n ++ t) : m = n ∧ s = t := by
  obtain ⟨hpadded, hrest⟩ := List.append_inj h (by simp)
  exact ⟨padded_inj hm hn hpadded, hrest⟩

theorem clockText_inj {a b : DateTime} {s t : List Char} (h : a.clockText s = b.clockText t) :
    a.clock = b.clock ∧ s = t := by
  obtain ⟨⟨-, hy⟩, ⟨-, hm⟩, ⟨-, hd⟩, hh, hi, hs, -⟩ := a.valid
  obtain ⟨⟨-, hy'⟩, ⟨-, hm'⟩, ⟨-, hd'⟩, hh', hi', hs', -⟩ := b.valid
  have hd := hd.trans (daysInMonth_le a.year a.month)
  have hd' := hd'.trans (daysInMonth_le b.year b.month)
  unfold DateTime.clockText at h
  obtain ⟨hyear, h⟩ := padded_append_inj (by omega) (by omega) h
  obtain ⟨hmonth, h⟩ := padded_append_inj (by omega) (by omega) (List.cons.inj h).2
  obtain ⟨hday, h⟩ := padded_append_inj (by omega) (by omega) (List.cons.inj h).2
  obtain ⟨hhour, h⟩ := padded_append_inj (by omega) (by omega) (List.cons.inj h).2
  obtain ⟨hminute, h⟩ := padded_append_inj (by omega) (by omega) (List.cons.inj h).2
  obtain ⟨hsecond, h⟩ := padded_append_inj (by omega) (by omega) (List.cons.inj h).2
  exact ⟨by rw [DateTime.clock, DateTime.clock, hyear, hmonth, hday, hhour, hminute, hsecond], h⟩

/-- A fraction ends where something that is no point follows. -/
theorem fractionText_inj {m n : ℕ} {s t : List Char} (hm : m < 1000000) (hn : n < 1000000)
    (hs : s.head? ≠ some '.') (ht : t.head? ≠ some '.')
    (h : DateTime.fractionText m s = DateTime.fractionText n t) : m = n ∧ s = t := by
  unfold DateTime.fractionText at h
  by_cases hzero : m = 0 <;> by_cases hzero' : n = 0
  · rw [if_pos hzero, if_pos hzero'] at h
    exact ⟨hzero.trans hzero'.symm, h⟩
  · rw [if_pos hzero, if_neg hzero'] at h
    exact absurd (by rw [h]; rfl) hs
  · rw [if_neg hzero, if_pos hzero'] at h
    exact absurd (by rw [← h]; rfl) ht
  · rw [if_neg hzero, if_neg hzero'] at h
    exact padded_append_inj (by omega) (by omega) (List.cons.inj h).2

theorem secondsText_inj {m n : ℕ} (h : secondsText m = secondsText n) :
    m % 60000000 = n % 60000000 := by
  unfold secondsText at h
  by_cases hzero : m % 60000000 = 0 <;> by_cases hzero' : n % 60000000 = 0
  · rw [hzero, hzero']
  · rw [if_pos hzero, if_neg hzero'] at h
    exact absurd h.symm (List.cons_ne_nil _ _)
  · rw [if_neg hzero, if_pos hzero'] at h
    exact absurd h (List.cons_ne_nil _ _)
  · rw [if_neg hzero, if_neg hzero'] at h
    obtain ⟨hseconds, h⟩ := padded_append_inj (by omega) (by omega) (List.cons.inj h).2
    obtain ⟨hfraction, -⟩ := fractionText_inj (by omega) (by omega) (by simp) (by simp) h
    omega

theorem sign_inj {x y : Int} (h : sign x = sign y) (habs : x.natAbs = y.natAbs) : x = y := by
  unfold sign at h
  by_cases hx : x < 0 <;> by_cases hy : y < 0
  · omega
  · rw [if_pos hx, if_neg hy] at h
    exact absurd h (by decide)
  · rw [if_neg hx, if_pos hy] at h
    exact absurd h (by decide)
  · omega

theorem offsetText_inj {x y : Int} (hx : x.natAbs < 86400000000) (hy : y.natAbs < 86400000000)
    (h : offsetText x = offsetText y) : x = y := by
  obtain ⟨hsign, h⟩ := List.cons.inj h
  obtain ⟨hhours, h⟩ := padded_append_inj (by omega) (by omega) h
  obtain ⟨hminutes, h⟩ := padded_append_inj (by omega) (by omega) (List.cons.inj h).2
  have hseconds := secondsText_inj h
  exact sign_inj hsign (by omega)

theorem offsetText_head {x : Int} : (offsetText x).head? ≠ some '.' := by
  unfold offsetText sign
  split <;> simp

/-- **The text determines** the local time and the offset. -/
theorem isoformat_injective : Function.Injective isoformat := by
  intro a b h
  have htext := congrArg String.toList h
  rw [isoformat, isoformat, String.toList_ofList, String.toList_ofList] at htext
  obtain ⟨hclock, hrest⟩ := clockText_inj htext
  have ha := a.wall.valid.2.2.2.2.2.2
  have hb := b.wall.valid.2.2.2.2.2.2
  obtain ⟨hmicro, hoffset⟩ := fractionText_inj ha hb offsetText_head offsetText_head hrest
  exact OffsetTime.ext (DateTime.eq_iff.mpr ⟨hclock, hmicro⟩)
    (offsetText_inj a.valid b.valid hoffset)

/-! ## The characters of the text -/

/-- The characters of a text, other than digits. -/
def marks : List Char := ['-', 'T', ':', '.', '+']

/-- A digit, or a mark. -/
def IsTimeChar (c : Char) : Prop := (∃ n < 10, c = digitChar n) ∨ c ∈ marks

theorem mem_padded {w n : ℕ} {c : Char} (h : c ∈ padded w n) : IsTimeChar c := by
  induction w generalizing n with
  | zero => exact absurd h List.not_mem_nil
  | succ w ih =>
    rw [padded] at h
    rcases List.mem_append.mp h with h | h
    · exact ih h
    · exact .inl ⟨n % 10, Nat.mod_lt n (by omega), List.mem_singleton.mp h⟩

theorem mem_padded_append {w n : ℕ} {s : List Char} {c : Char} (hs : c ∈ s → IsTimeChar c)
    (h : c ∈ padded w n ++ s) : IsTimeChar c := by
  rcases List.mem_append.mp h with h | h
  · exact mem_padded h
  · exact hs h

theorem mem_mark {x : Char} {s : List Char} {c : Char} (hx : x ∈ marks)
    (hs : c ∈ s → IsTimeChar c) (h : c ∈ x :: s) : IsTimeChar c := by
  rcases List.mem_cons.mp h with rfl | h
  · exact .inr hx
  · exact hs h

theorem mem_fractionText {n : ℕ} {s : List Char} {c : Char} (hs : c ∈ s → IsTimeChar c)
    (h : c ∈ DateTime.fractionText n s) : IsTimeChar c := by
  unfold DateTime.fractionText at h
  split at h
  · exact hs h
  · exact mem_mark (by decide) (mem_padded_append hs) h

theorem mem_offsetText {x : Int} {c : Char} (h : c ∈ offsetText x) : IsTimeChar c := by
  have hsign : sign x ∈ marks := by
    unfold sign
    split <;> decide
  have hseconds : c ∈ secondsText x.natAbs → IsTimeChar c := by
    intro h
    unfold secondsText at h
    split at h
    · exact absurd h List.not_mem_nil
    · exact mem_mark (by decide) (mem_padded_append (mem_fractionText fun h =>
        absurd h List.not_mem_nil)) h
  exact mem_mark hsign (mem_padded_append (mem_mark (by decide) (mem_padded_append hseconds))) h

/-- **The text** has digits and marks only. -/
theorem mem_isoformat {d : OffsetTime} {c : Char} (h : c ∈ d.isoformat.toList) : IsTimeChar c := by
  rw [isoformat, String.toList_ofList] at h
  have hdash : '-' ∈ marks := by decide
  have hcolon : ':' ∈ marks := by decide
  exact mem_padded_append (mem_mark hdash (mem_padded_append (mem_mark hdash (mem_padded_append
    (mem_mark (by decide) (mem_padded_append (mem_mark hcolon (mem_padded_append (mem_mark hcolon
      (mem_padded_append (mem_fractionText mem_offsetText))))))))))) h

/-- A character that is no digit and no mark. -/
theorem not_mem_isoformat {d : OffsetTime} {c : Char} (hc : ¬(48 ≤ c.toNat ∧ c.toNat < 58))
    (hmarks : c ∉ marks) : c ∉ d.isoformat.toList := by
  intro h
  rcases mem_isoformat h with ⟨n, hn, rfl⟩ | h
  · rw [digitChar_toNat hn] at hc
    have hzero : '0'.toNat = 48 := rfl
    omega
  · exact hmarks h

end OffsetTime

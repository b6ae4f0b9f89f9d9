import AiLabOs.Base.Calendar
import Mathlib.Data.Set.Finite.Lemmas
import Mathlib.Order.Bounds.Defs

/-!
# Time zones

A zone gives every UTC instant an offset. A wall time may be shown at no instant, where clocks go
forward, or at several, where they go back. `fold` tells these apart: a wall time with `fold=0` is
read as the first instant that shows it, with `fold=1` as the last. A wall time that is never shown
is read as some instant nevertheless. Every sum that leaves the calendar raises.

## Main definitions

* `Zone`: the offsets of a zone, and its readings of wall times
* `Zone.wall`, `Zone.toUtc`: `astimezone`, to the zone and back
* `Zone.fixed`: a zone of one offset
* `Zone.transition`: a zone whose offset changes once

## Main results

* `Zone.toUtc_wall`: what a wall time is read as, if some instant shows it
* `Zone.exists_offset`: every function from instants to offsets is a zone
-/

/-- `timedelta(days=1)`. -/
@[irreducible] def oneDay : Int := 86400000000

/-- A time zone. -/
structure Zone where
  /-- The offset of an instant, in microseconds. -/
  offset : DateTime → Int
  /-- `utcoffset` of a wall time and its `fold`. -/
  utcoffset : DateTime → Bool → Int
  /-- The `fold` of the wall time of an instant. -/
  fold : DateTime → Bool
  /-- With `fold=0` a wall time is read as the first instant that shows it. -/
  first : ∀ {w u : DateTime}, u.plus (offset u) = some w →
    ∃ v, w.plus (-utcoffset w false) = some v ∧ v.plus (offset v) = some w ∧ v ≤ u
  /-- With `fold=1` it is read as the last one. -/
  last : ∀ {w u : DateTime}, u.plus (offset u) = some w →
    ∃ v, w.plus (-utcoffset w true) = some v ∧ v.plus (offset v) = some w ∧ u ≤ v
  /-- An instant has `fold=1` when an earlier one shows the same wall time. -/
  fold_iff : ∀ {w u : DateTime}, u.plus (offset u) = some w →
    (fold u = true ↔ ∃ v < u, v.plus (offset v) = some w)

namespace Zone

variable {zone : Zone} {u v w : DateTime}

/-- The wall time of an instant. -/
def wall (zone : Zone) (u : DateTime) : Option DateTime := u.plus (zone.offset u)

/-- `astimezone` to the zone: the wall time and its `fold`. -/
def fromUtc (zone : Zone) (u : DateTime) : Option (DateTime × Bool) :=
  (zone.wall u).map fun w => (w, zone.fold u)

/-- `astimezone(UTC)` of a wall time and its `fold`. -/
def toUtc (zone : Zone) (w : DateTime) (fold : Bool) : Option DateTime :=
  w.plus (-zone.utcoffset w fold)

/-- The instants that show a wall time. -/
def Shows (zone : Zone) (w u : DateTime) : Prop := zone.wall u = some w

/-- **What a wall time is read as**, if some instant shows it. -/
theorem toUtc_wall (h : zone.Shows w u) : ∃ first last, zone.toUtc w false = some first ∧
    zone.toUtc w true = some last ∧ IsLeast {u | zone.Shows w u} first ∧
    IsGreatest {u | zone.Shows w u} last := by
  obtain ⟨first, hfirst, hshows, -⟩ := zone.first h
  obtain ⟨last, hlast, hshows', -⟩ := zone.last h
  refine ⟨first, last, hfirst, hlast, ⟨hshows, fun u hu => ?_⟩, ⟨hshows', fun u hu => ?_⟩⟩
  · obtain ⟨v, hv, -, hle⟩ := zone.first hu
    obtain rfl := Option.some.inj (hfirst.symm.trans hv)
    exact hle
  · obtain ⟨v, hv, -, hle⟩ := zone.last hu
    obtain rfl := Option.some.inj (hlast.symm.trans hv)
    exact hle

/-- The first instant that shows a wall time has `fold=0`. -/
theorem fold_first (h : IsLeast {u | zone.Shows w u} u) : zone.fold u = false := by
  rw [Bool.eq_false_iff, ne_eq, zone.fold_iff h.1]
  rintro ⟨v, hlt, hv⟩
  exact hlt.not_ge (h.2 hv)

/-- A later one has `fold=1`. -/
theorem fold_later (h : zone.Shows w u) (hv : zone.Shows w v) (hlt : v < u) :
    zone.fold u = true :=
  (zone.fold_iff h).mpr ⟨v, hlt, hv⟩

/-! ## Every function is a zone -/

section Existence

/-- There are finitely many instants. -/
instance : Finite DateTime :=
  Finite.of_injective
    (fun d => (⟨d.microseconds, d.microseconds_lt_end⟩ :
      Fin (DateTime.lastDay.microseconds + 86400000000)))
    fun _ _ h => DateTime.microseconds_injective (congrArg Fin.val h)

/-- The difference of two instants leads from one to the other. -/
theorem plus_sub (u w : DateTime) : w.plus (-((w.microseconds : Int) - u.microseconds)) = some u :=
  DateTime.plus_eq_some.mpr (by omega)

/-- **Every function from instants to offsets** is a zone. -/
theorem exists_offset (offset : DateTime → Int) : ∃ zone : Zone, zone.offset = offset := by
  classical
  have hpick : ∀ w : DateTime, ∃ first last : DateTime, ∀ u, u.plus (offset u) = some w →
      (first.plus (offset first) = some w ∧ first ≤ u) ∧
        last.plus (offset last) = some w ∧ u ≤ last := by
    intro w
    by_cases h : ∃ u, u ∈ {u : DateTime | u.plus (offset u) = some w}
    · obtain ⟨first, hfirst, hleast⟩ := Set.exists_min_image _ id (Set.toFinite _) h
      obtain ⟨last, hlast, hgreatest⟩ := Set.exists_max_image _ id (Set.toFinite _) h
      exact ⟨first, last, fun u hu => ⟨⟨hfirst, hleast u hu⟩, hlast, hgreatest u hu⟩⟩
    · exact ⟨w, w, fun u hu => absurd ⟨u, hu⟩ h⟩
  choose first last hpick using hpick
  refine ⟨{
    offset := offset
    utcoffset := fun w fold =>
      (w.microseconds : Int) - (if fold then last w else first w).microseconds
    fold := fun u => decide (∃ v < u, ∃ w, u.plus (offset u) = some w ∧ v.plus (offset v) = some w)
    first := fun {w u} h => ⟨first w, plus_sub .., (hpick w u h).1⟩
    last := fun {w u} h => ⟨last w, plus_sub .., (hpick w u h).2⟩
    fold_iff := fun {w u} h => ?_ }, rfl⟩
  rw [decide_eq_true_eq, h]
  simp only [Option.some.injEq, exists_eq_left']

end Existence

/-! ## One offset -/

/-- A zone whose offset never changes. -/
def fixed (offset : Int) : Zone where
  offset _ := offset
  utcoffset _ _ := offset
  fold _ := false
  first {w u} h := by
    have hw := DateTime.plus_eq_some.mp h
    exact ⟨u, DateTime.plus_eq_some.mpr (by omega), h, le_rfl⟩
  last {w u} h := by
    have hw := DateTime.plus_eq_some.mp h
    exact ⟨u, DateTime.plus_eq_some.mpr (by omega), h, le_rfl⟩
  fold_iff {w u} h := by
    have hw := DateTime.plus_eq_some.mp h
    refine ⟨fun hfold => (Bool.false_ne_true hfold).elim, ?_⟩
    rintro ⟨v, hlt, hv⟩
    have hv := DateTime.plus_eq_some.mp hv
    rw [← DateTime.microseconds_lt] at hlt
    omega

/-! ## One change of the offset -/

section Transition

/-- An instant at a distance from another, where the calendar has room. -/
theorem exists_at {t : Int} (hpos : 0 ≤ t)
    (hend : t < (DateTime.lastDay.microseconds + 86400000000 : ℕ)) :
    ∃ d : DateTime, (d.microseconds : Int) = t := by
  obtain ⟨d, hd⟩ := DateTime.exists_microseconds (t := t.toNat) (by omega)
  exact ⟨d, by omega⟩

variable {change : DateTime} {before after bound : Int}

/-- The wall time of an instant, before the change and from it on. -/
theorem plus_ite_eq_some {u w : DateTime} :
    u.plus (if u < change then before else after) = some w ↔
      (u.microseconds < change.microseconds ∧ (w.microseconds : Int) = u.microseconds + before) ∨
        change.microseconds ≤ u.microseconds ∧
          (w.microseconds : Int) = u.microseconds + after := by
  rw [DateTime.plus_eq_some]
  split
  · rename_i hlt
    have := DateTime.microseconds_lt.mpr hlt
    omega
  · rename_i hle
    have := DateTime.microseconds_le.mpr (not_lt.mp hle)
    omega

/-- A zone that goes from one offset to another at an instant, the calendar having room for the
offsets around it. The readings are those of `ZoneInfo`: a wall time that clocks skip is read by the
old offset with `fold=0` and by the new one with `fold=1`. -/
def transition (change : DateTime) (before after bound : Int)
    (hbefore : -bound ≤ before ∧ before ≤ bound) (hafter : -bound ≤ after ∧ after ≤ bound)
    (hlow : 2 * bound ≤ change.microseconds)
    (hhigh : change.microseconds + 2 * bound <
      (DateTime.lastDay.microseconds + 86400000000 : ℕ)) : Zone where
  offset u := if u < change then before else after
  utcoffset w fold :=
    if (w.microseconds : Int) <
      change.microseconds + if fold then min before after else max before after
    then before else after
  fold u := decide (change ≤ u) &&
    decide ((u.microseconds : Int) + after < change.microseconds + before)
  first {w u} h := by
    have hshows := plus_ite_eq_some.mp h
    have hmax := max_choice before after
    have hle := le_max_left before after
    have hle' := le_max_right before after
    rw [if_neg Bool.false_ne_true]
    generalize max before after = greater at *
    split
    · rename_i hread
      -- The old offset is read: clocks go back, or the wall time was before they went forward.
      obtain ⟨v, hv⟩ := exists_at (t := w.microseconds - before) (by omega) (by omega)
      refine ⟨v, DateTime.plus_eq_some.mpr (by omega), plus_ite_eq_some.mpr (by omega), ?_⟩
      exact DateTime.microseconds_le.mp (by omega)
    · rename_i hread
      exact ⟨u, DateTime.plus_eq_some.mpr (by omega), h, le_rfl⟩
  last {w u} h := by
    have hshows := plus_ite_eq_some.mp h
    have hend := u.microseconds_lt_end
    have hmin := min_choice before after
    have hle := min_le_left before after
    have hle' := min_le_right before after
    rw [if_pos rfl]
    generalize min before after = less at *
    split
    · rename_i hread
      exact ⟨u, DateTime.plus_eq_some.mpr (by omega), h, le_rfl⟩
    · rename_i hread
      obtain ⟨v, hv⟩ := exists_at (t := w.microseconds - after) (by omega) (by omega)
      refine ⟨v, DateTime.plus_eq_some.mpr (by omega), plus_ite_eq_some.mpr (by omega), ?_⟩
      exact DateTime.microseconds_le.mp (by omega)
  fold_iff {w u} h := by
    have hshows := plus_ite_eq_some.mp h
    simp only [Bool.and_eq_true, decide_eq_true_eq, ← DateTime.microseconds_le]
    constructor
    · rintro ⟨hafter', hearlier⟩
      obtain ⟨v, hv⟩ := exists_at (t := w.microseconds - before) (by omega) (by omega)
      exact ⟨v, DateTime.microseconds_lt.mp (by omega), plus_ite_eq_some.mpr (by omega)⟩
    · rintro ⟨v, hlt, hv⟩
      have hv := plus_ite_eq_some.mp hv
      rw [← DateTime.microseconds_lt] at hlt
      omega

end Transition

end Zone

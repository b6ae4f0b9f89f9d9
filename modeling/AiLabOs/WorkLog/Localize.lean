import AiLabOs.Base.Zone

/-!
# Work log: local times without an offset

The dates of legacy rows may be local times without an offset. They are read in the zone of the
repository, and only where that leaves no choice: both readings of the wall time are taken back to
the zone, and a reading is kept if the wall time and the `fold` come back.

## Main definitions

* `readingKept`: a reading of a wall time, if the round trip keeps it
* `localizeNaiveFailClosed`: the instant of a wall time

## Main results

* `localize_law`: a wall time is localized exactly when one instant shows it
-/

namespace WorkLogs

variable {zone : Zone} {naive u v : DateTime}

/-- The reading of a wall time with a `fold`, unless the round trip changes one of them. A sum that
leaves the calendar raises. -/
def readingKept (zone : Zone) (naive : DateTime) (fold : Bool) : Option (Option DateTime) := do
  let utc ← zone.toUtc naive fold
  let roundTrip ← zone.fromUtc utc
  return if roundTrip = (naive, fold) then some utc else none

/-- `_localize_naive_fail_closed`, as the instant it returns; it raises where there is none. -/
def localizeNaiveFailClosed (zone : Zone) (naive : DateTime) : Option DateTime := do
  let zero ← readingKept zone naive false
  let one ← readingKept zone naive true
  -- the readings are the keys of a dictionary, so two equal ones count once
  match (zero.toList ++ one.toList).dedup with
  | [utc] => some utc
  | _ => none

/-- A reading that is kept shows the wall time. -/
theorem shows_of_readingKept {fold : Bool} (h : readingKept zone naive fold = some (some u)) :
    zone.Shows naive u := by
  obtain ⟨utc, -, h⟩ := Option.bind_eq_some_iff.mp h
  obtain ⟨roundTrip, hround, h⟩ := Option.bind_eq_some_iff.mp h
  obtain ⟨w, hw, rfl⟩ := Option.map_eq_some_iff.mp hround
  change some (if _ then _ else _) = _ at h
  split at h
  · rename_i hback
    obtain rfl := Option.some.inj (Option.some.inj h)
    rw [Zone.Shows, hw, (Prod.mk.inj hback).1]
  · cases h

/-- The reading with a `fold`, where it shows the wall time. -/
theorem readingKept_eq {fold : Bool} (hread : zone.toUtc naive fold = some u)
    (hshows : zone.Shows naive u) :
    readingKept zone naive fold = some (if zone.fold u = fold then some u else none) := by
  have hround : zone.fromUtc u = some (naive, zone.fold u) := by
    rw [Zone.fromUtc, show zone.wall u = some naive from hshows]
    rfl
  rw [readingKept, hread]
  simp [hround]

/-- **A wall time of one instant** is localized to it. -/
theorem localize_of_unique (hshows : zone.Shows naive u)
    (hunique : ∀ v, zone.Shows naive v → v = u) : localizeNaiveFailClosed zone naive = some u := by
  obtain ⟨first, last, hfirst, hlast, hleast, hgreatest⟩ := Zone.toUtc_wall hshows
  obtain rfl := hunique first hleast.1
  obtain rfl := hunique last hgreatest.1
  have hfold := Zone.fold_first hleast
  rw [localizeNaiveFailClosed, readingKept_eq hfirst hshows, readingKept_eq hlast hshows, hfold]
  rfl

/-- **A wall time of two instants** is not localized. -/
theorem localize_of_two (hu : zone.Shows naive u) (hv : zone.Shows naive v) (hne : u ≠ v) :
    localizeNaiveFailClosed zone naive = none := by
  obtain ⟨first, last, hfirst, hlast, hleast, hgreatest⟩ := Zone.toUtc_wall hu
  have hlt : first < last := by
    rcases lt_or_gt_of_ne hne with h | h
    · exact (hleast.2 hu).trans_lt (h.trans_le (hgreatest.2 hv))
    · exact (hleast.2 hv).trans_lt (h.trans_le (hgreatest.2 hu))
  -- Both readings come back with their `fold`, and they differ.
  have hzero := readingKept_eq hfirst hleast.1
  have hone := readingKept_eq hlast hgreatest.1
  rw [Zone.fold_first hleast, if_pos rfl] at hzero
  rw [Zone.fold_later hgreatest.1 hleast.1 hlt, if_pos rfl] at hone
  have hdedup : ([first] ++ [last]).dedup = [first, last] := by
    simp [List.dedup_cons_of_notMem, hlt.ne]
  rw [localizeNaiveFailClosed, hzero, hone]
  simp only [Option.bind_eq_bind, Option.bind_some, Option.toList_some, hdedup]

/-- What is localized shows the wall time. -/
theorem shows_of_localize (h : localizeNaiveFailClosed zone naive = some u) :
    zone.Shows naive u := by
  obtain ⟨zero, hzero, h⟩ := Option.bind_eq_some_iff.mp h
  obtain ⟨one, hone, h⟩ := Option.bind_eq_some_iff.mp h
  split at h
  · rename_i utc hutc
    obtain rfl := Option.some.inj h
    have hmem : utc ∈ zero.toList ++ one.toList := by
      rw [← List.mem_dedup, hutc]
      exact List.mem_singleton_self utc
    rcases List.mem_append.mp hmem with hmem | hmem
    · rw [Option.mem_toList.mp hmem] at hzero
      exact shows_of_readingKept hzero
    · rw [Option.mem_toList.mp hmem] at hone
      exact shows_of_readingKept hone
  · cases h

/-- **Fail-closed localisation**: a wall time is localized to an instant exactly when that is the
only instant that shows it; it is not when there is none, or more than one. -/
theorem localize_law (zone : Zone) (naive : DateTime) :
    (∀ u, localizeNaiveFailClosed zone naive = some u ↔
      zone.Shows naive u ∧ ∀ v, zone.Shows naive v → v = u) ∧
    (localizeNaiveFailClosed zone naive = none ↔
      (∀ u, ¬zone.Shows naive u) ∨ ∃ u v, u ≠ v ∧ zone.Shows naive u ∧ zone.Shows naive v) := by
  constructor
  · intro u
    constructor
    · intro h
      have hshows := shows_of_localize h
      refine ⟨hshows, fun v hv => ?_⟩
      by_contra hne
      rw [localize_of_two hv hshows hne] at h
      cases h
    · rintro ⟨hshows, hunique⟩
      exact localize_of_unique hshows hunique
  · constructor
    · intro h
      by_contra hnot
      simp only [not_or, not_forall, not_not, not_exists, not_and] at hnot
      obtain ⟨⟨u, hu⟩, honly⟩ := hnot
      have hunique : ∀ v, zone.Shows naive v → v = u := fun v hv => by
        by_contra hne
        exact honly v u hne hv hu
      rw [localize_of_unique hu hunique] at h
      cases h
    · rintro (hnone | ⟨u, v, hne, hu, hv⟩)
      · rcases Option.eq_none_or_eq_some (localizeNaiveFailClosed zone naive) with h | ⟨u, h⟩
        · exact h
        · exact absurd (shows_of_localize h) (hnone u)
      · exact localize_of_two hu hv hne

end WorkLogs

import Mathlib.Data.List.Basic

/-!
# Runs of a state machine

A machine is a partial step function. A run is a sequence of events, each of which can happen where
it stands.

## Main definitions

* `Runs.Reaches step s s'`: some run leads from `s` to `s'`

## Main results

* `Runs.Reaches.induction`: what every step keeps holds after every run
* `Runs.Reaches.relation`: what every step does, runs do
-/

namespace Runs

variable {S Ev : Type} {step : S → Ev → Option S} {s s' s'' : S}

/-- Some run leads from `s` to `s'`. -/
def Reaches (step : S → Ev → Option S) (s s' : S) : Prop :=
  ∃ evs : List Ev, evs.foldlM step s = some s'

theorem Reaches.refl (s : S) : Reaches step s s := ⟨[], rfl⟩

theorem Reaches.trans (h : Reaches step s s') (h' : Reaches step s' s'') : Reaches step s s'' := by
  obtain ⟨evs, he⟩ := h
  obtain ⟨evs', he'⟩ := h'
  refine ⟨evs ++ evs', ?_⟩
  rw [List.foldlM_append, he]
  exact he'

theorem Reaches.of_step {ev : Ev} (h : step s ev = some s') : Reaches step s s' := by
  refine ⟨[ev], ?_⟩
  rw [List.foldlM_cons, h]
  rfl

/-- **The run rule**: what holds at the start and is kept by every step. -/
theorem Reaches.induction {motive : S → Prop} (h : Reaches step s s') (hinit : motive s)
    (hstep : ∀ d ev d', Reaches step s d → motive d → step d ev = some d' → motive d') :
    motive s' := by
  obtain ⟨evs, he⟩ := h
  induction evs generalizing s with
  | nil => exact Option.some.inj he ▸ hinit
  | cons ev evs ih =>
    rw [List.foldlM_cons] at he
    obtain ⟨d, hd, hrest⟩ := Option.bind_eq_some_iff.mp he
    have hsd : Reaches step s d := .of_step hd
    refine ih (hstep s ev d (.refl s) hinit hd) (fun d' ev' d'' hr => ?_) hrest
    exact hstep d' ev' d'' (hsd.trans hr)

/-- **The rule of relations**: what every step does, under an invariant, runs do. -/
theorem Reaches.relation {Inv : S → Prop} {Rel : S → S → Prop} (h : Reaches step s s')
    (hinit : Inv s) (hinv : ∀ d ev d', Inv d → step d ev = some d' → Inv d')
    (hrefl : ∀ d, Rel d d) (htrans : ∀ d d' d'', Rel d d' → Rel d' d'' → Rel d d'')
    (hstep : ∀ d ev d', Inv d → step d ev = some d' → Rel d d') : Rel s s' := by
  have hboth : Inv s' ∧ Rel s s' := by
    refine h.induction (motive := fun d => Inv d ∧ Rel s d) ⟨hinit, hrefl s⟩ ?_
    rintro d ev d' - ⟨hd, hrel⟩ he
    exact ⟨hinv d ev d' hd he, htrans s d d' hrel (hstep d ev d' hd he)⟩
  exact hboth.2

end Runs

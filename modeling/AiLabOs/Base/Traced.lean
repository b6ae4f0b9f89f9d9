import Mathlib.Data.List.Basic

/-!
# Computations with a trace

A computation returns a value or raises an exception, and leaves the events on its way. What it does
first can be told from the text of a program: it passes, it is refused, or it may do something that
is not wanted. Verdicts are put together as the computations are.

## Main definitions

* `Traced`: computations with a trace
* `Verdict`, `Verdict.seq`: what a computation does first
* `Verdict.Sound`, `Verdict.Exact`: a verdict holds of a computation; it is as bad as it says

## Main results

* `Verdict.Sound.bind`, `Verdict.Exact.bind`: the rules of composition
-/

/-- A computation that leaves events and returns or raises. -/
structure Traced (E ε α : Type) where
  trace : List E
  outcome : Except ε α

namespace Traced

variable {E ε α β : Type}

/-- A computation without events. -/
def lift (outcome : Except ε α) : Traced E ε α := ⟨[], outcome⟩

/-- One event. -/
def emit (event : E) : Traced E ε Unit := ⟨[event], .ok ()⟩

/-- One computation after another. -/
def bind (x : Traced E ε α) (f : α → Traced E ε β) : Traced E ε β :=
  match x.outcome with
  | .ok a => ⟨x.trace ++ (f a).trace, (f a).outcome⟩
  | .error e => ⟨x.trace, .error e⟩

instance : Monad (Traced E ε) where
  pure a := ⟨[], .ok a⟩
  bind := bind

theorem bind_of_ok {x : Traced E ε α} {a : α} (h : x.outcome = .ok a) (f : α → Traced E ε β) :
    x >>= f = ⟨x.trace ++ (f a).trace, (f a).outcome⟩ := by
  change bind x f = _
  rw [bind, h]

theorem bind_of_error {x : Traced E ε α} {e : ε} (h : x.outcome = .error e)
    (f : α → Traced E ε β) : x >>= f = ⟨x.trace, .error e⟩ := by
  change bind x f = _
  rw [bind, h]

/-- What returned has returned in both parts. -/
theorem bind_eq_ok {x : Traced E ε α} {f : α → Traced E ε β} {b : β}
    (h : (x >>= f).outcome = .ok b) : ∃ a, x.outcome = .ok a ∧ (f a).outcome = .ok b := by
  cases hx : x.outcome with
  | ok a =>
    rw [bind_of_ok hx] at h
    exact ⟨a, rfl, h⟩
  | error e =>
    rw [bind_of_error hx] at h
    cases h

/-- No event of a kind. -/
def Quiet (p : E → Prop) (x : Traced E ε α) : Prop := ∀ event ∈ x.trace, ¬p event

/-- An exception is raised. -/
def Fails (x : Traced E ε α) : Prop := ∃ e, x.outcome = .error e

section Rules

variable {p : E → Prop} {x : Traced E ε α} {f : α → Traced E ε β}

theorem Quiet.pure (a : α) : Quiet p (Pure.pure a : Traced E ε α) := nofun

theorem Quiet.lift (outcome : Except ε α) : Quiet p (Traced.lift outcome : Traced E ε α) := nofun

theorem Quiet.emit {event : E} (h : ¬p event) : Quiet p (Traced.emit event : Traced E ε Unit) := by
  intro other hother
  rwa [List.mem_singleton.mp hother]

theorem Quiet.bind (h : Quiet p x) (hf : ∀ a, x.outcome = .ok a → Quiet p (f a)) :
    Quiet p (x >>= f) := by
  cases hx : x.outcome with
  | ok a =>
    rw [bind_of_ok hx]
    intro event hevent
    rcases List.mem_append.mp hevent with hfirst | hsecond
    · exact h event hfirst
    · exact hf a hx event hsecond
  | error e =>
    rw [bind_of_error hx]
    exact h

theorem Fails.bind (h : ∀ a, x.outcome = .ok a → Fails (f a)) : Fails (x >>= f) := by
  cases hx : x.outcome with
  | ok a =>
    rw [bind_of_ok hx]
    exact h a hx
  | error e => exact ⟨e, by rw [bind_of_error hx]⟩

end Rules

end Traced

/-- What a computation does first: it passes, it is refused, or it may do something that is not
wanted. -/
inductive Verdict where
  | passes
  | refused
  | unwanted
deriving DecidableEq, Repr

namespace Verdict

/-- The verdict of one computation after another. -/
def seq : Verdict → Verdict → Verdict
  | .passes, w => w
  | .refused, _ => .refused
  | .unwanted, _ => .unwanted

variable {E ε α β : Type} {p : E → Prop} {x : Traced E ε α} {f : α → Traced E ε β} {v w : Verdict}

/-- **A verdict holds**: what passes and what is refused does nothing unwanted, and what is refused
fails. -/
def Sound (p : E → Prop) (v : Verdict) (x : Traced E ε α) : Prop :=
  match v with
  | .passes => x.Quiet p
  | .refused => x.Quiet p ∧ x.Fails
  | .unwanted => True

/-- **A verdict is met**: what passes returns, and what is unwanted is done. -/
def Exact (p : E → Prop) (v : Verdict) (x : Traced E ε α) : Prop :=
  match v with
  | .passes => ∃ a, x.outcome = .ok a
  | .refused => True
  | .unwanted => ∃ event ∈ x.trace, p event

theorem Sound.bind (h : Sound p v x) (hf : ∀ a, x.outcome = .ok a → Sound p w (f a)) :
    Sound p (v.seq w) (x >>= f) := by
  cases v with
  | passes =>
    cases w with
    | passes => exact Traced.Quiet.bind h hf
    | refused =>
      exact ⟨Traced.Quiet.bind h fun a ha => (hf a ha).1, Traced.Fails.bind fun a ha => (hf a ha).2⟩
    | unwanted => trivial
  | refused =>
    obtain ⟨hquiet, e, he⟩ := h
    have hnone : ∀ a, x.outcome ≠ .ok a := by simp [he]
    exact ⟨hquiet.bind fun a ha => absurd ha (hnone a),
      Traced.Fails.bind fun a ha => absurd ha (hnone a)⟩
  | unwanted => trivial

theorem Exact.bind (h : Exact p v x) (hf : ∀ a, x.outcome = .ok a → Exact p w (f a)) :
    Exact p (v.seq w) (x >>= f) := by
  cases v with
  | passes =>
    obtain ⟨a, ha⟩ := h
    have hrest := hf a ha
    rw [Traced.bind_of_ok ha]
    cases w with
    | passes => exact hrest
    | refused => trivial
    | unwanted =>
      obtain ⟨event, hevent, hp⟩ := hrest
      exact ⟨event, List.mem_append_right _ hevent, hp⟩
  | refused => trivial
  | unwanted =>
    obtain ⟨event, hevent, hp⟩ := h
    refine ⟨event, ?_, hp⟩
    cases hx : x.outcome with
    | ok a =>
      rw [Traced.bind_of_ok hx]
      exact List.mem_append_left _ hevent
    | error e =>
      rw [Traced.bind_of_error hx]
      exact hevent

end Verdict

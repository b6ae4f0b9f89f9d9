import Mathlib.Data.Nat.Notation
import Mathlib.Logic.Function.Basic

/-!
# Re-entrant locks

A lock is free, or owned by one call, which may acquire it again and releases it as often as it has
acquired it.

## Main definitions

* `Locks κ`: the locks of some names, with the owner of each
* `Locks.acquire`, `Locks.release`: what a call does to a lock
* `Locks.depth`: how often a call has acquired a lock

## Main results

* `Locks.exclusive`: a lock has one owner
* `Locks.depth_acquire`, `Locks.depth_release`: what the operations do to every depth
-/

namespace Process

/-- The owner of each lock, and how often it has acquired the lock again. -/
abbrev Locks (κ : Type) := κ → Option (ℕ × ℕ)

namespace Locks

variable {κ : Type} [DecidableEq κ]

/-- The call takes the lock, or waits. -/
def acquire (locks : Locks κ) (i : ℕ) (k : κ) : Option (Locks κ) :=
  match locks k with
  | none => some (Function.update locks k (some (i, 0)))
  | some (j, again) =>
    if j = i then some (Function.update locks k (some (i, again + 1))) else none

/-- The owner gives the lock back once; another call cannot. -/
def release (locks : Locks κ) (i : ℕ) (k : κ) : Option (Locks κ) :=
  match locks k with
  | none => none
  | some (j, again) =>
    if j = i then some (Function.update locks k (if again = 0 then none else some (i, again - 1)))
    else none

omit [DecidableEq κ] in
/-- How often the call has acquired the lock. -/
def depth (locks : Locks κ) (i : ℕ) (k : κ) : ℕ :=
  match locks k with
  | none => 0
  | some (j, again) => if j = i then again + 1 else 0

variable {locks locks' : Locks κ} {i j : ℕ} {k k' : κ}

omit [DecidableEq κ] in
theorem depth_pos_iff : 0 < locks.depth i k ↔ ∃ again, locks k = some (i, again) := by
  unfold depth
  cases h : locks k with
  | none => simp
  | some owner =>
    obtain ⟨j, again⟩ := owner
    by_cases hj : j = i <;> simp [hj]

omit [DecidableEq κ] in
/-- **A lock has one owner.** -/
theorem exclusive (hi : 0 < locks.depth i k) (hj : 0 < locks.depth j k) : i = j := by
  obtain ⟨again, hi⟩ := depth_pos_iff.mp hi
  obtain ⟨again', hj⟩ := depth_pos_iff.mp hj
  exact congrArg Prod.fst (Option.some.inj (hi.symm.trans hj))

omit [DecidableEq κ] in
theorem depth_congr (h : locks' k = locks k) : locks'.depth i k = locks.depth i k := by
  rw [depth, depth, h]

theorem depth_acquire (h : locks.acquire i k = some locks') (j : ℕ) (k' : κ) :
    locks'.depth j k' = locks.depth j k' + if i = j ∧ k = k' then 1 else 0 := by
  unfold acquire at h
  by_cases hk : k = k'
  · subst hk
    cases hlock : locks k with
    | none =>
      rw [hlock] at h
      obtain rfl := Option.some.inj h
      by_cases hj : i = j <;> simp [depth, hlock, hj]
    | some owner =>
      obtain ⟨owner, again⟩ := owner
      rw [hlock] at h
      dsimp only at h
      split at h
      · next howner =>
        subst howner
        obtain rfl := Option.some.inj h
        by_cases hj : owner = j <;> simp [depth, hlock, hj]
      · cases h
  · have hsame : locks' k' = locks k' := by
      split at h
      · obtain rfl := Option.some.inj h
        exact Function.update_of_ne (Ne.symm hk) ..
      · split at h
        · obtain rfl := Option.some.inj h
          exact Function.update_of_ne (Ne.symm hk) ..
        · cases h
    rw [depth_congr hsame, if_neg fun hjk => hk hjk.2, Nat.add_zero]

theorem depth_release (h : locks.release i k = some locks') (j : ℕ) (k' : κ) :
    locks'.depth j k' + (if i = j ∧ k = k' then 1 else 0) = locks.depth j k' := by
  unfold release at h
  cases hlock : locks k with
  | none =>
    rw [hlock] at h
    cases h
  | some owner =>
    obtain ⟨owner, again⟩ := owner
    rw [hlock] at h
    dsimp only at h
    split at h
    · next howner =>
      subst howner
      obtain rfl := Option.some.inj h
      by_cases hk : k = k'
      · subst hk
        cases again with
        | zero => by_cases hj : owner = j <;> simp [depth, hlock, hj]
        | succ again => by_cases hj : owner = j <;> simp [depth, hlock, hj]
      · have hsame : Function.update locks k
            (if again = 0 then none else some (owner, again - 1)) k' = locks k' :=
          Function.update_of_ne (Ne.symm hk) ..
        rw [depth_congr hsame, if_neg fun hjk => hk hjk.2, Nat.add_zero]
    · cases h

/-- A call that acquires a lock finds it free or its own. -/
theorem alone_of_acquire (h : locks.acquire i k = some locks') (hj : 0 < locks.depth j k) :
    j = i := by
  obtain ⟨again, hlock⟩ := depth_pos_iff.mp hj
  unfold acquire at h
  rw [hlock] at h
  dsimp only at h
  split at h
  · assumption
  · cases h

end Locks

end Process

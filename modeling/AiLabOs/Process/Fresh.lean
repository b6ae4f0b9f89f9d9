import AiLabOs.Process.Safety

/-!
# Calls that arrive anew

A call may be safe only in a world that knows nothing of it yet: it holds no lock, nothing waits
for it. A call that has not arrived is known nowhere, as long as what the others rely on keeps it
so.

## Main definitions

* `FreshSafe`: every call is safe, and the world knows nothing of those to come

## Main results

* `FreshSafe.reaches`: so it stays in every run
-/

namespace Process

variable {K E : Type} {R : E → Type} {ε α I W : Type}

/-- The invariant holds, every call runs a safe program, and the world is fresh for every call that
has not arrived. -/
structure FreshSafe (P : Protocol W) (handler : Handler E R I W)
    (pre : ℕ → Log E R → E → W → Prop) (post : ℕ → α → Log E R → W → Prop)
    (fail : ℕ → ε → Log E R → W → Prop) (Fresh : ℕ → W → Prop) (c : Config K E R ε α W) :
    Prop where
  inv : P.Inv c.world
  fresh : ∀ j, c.calls.length ≤ j → Fresh j c.world
  safe : ∀ i k log p, c.calls[i]? = some ⟨k, log, p⟩ →
    Safe P handler pre i (post i) (fail i) p log c.world

variable {P : Protocol W} {handler : Handler E R I W} {pre : ℕ → Log E R → E → W → Prop}
variable {post : ℕ → α → Log E R → W → Prop} {fail : ℕ → ε → Log E R → W → Prop}
variable {Fresh : ℕ → W → Prop} {start : K → Program E R ε α} {c c' : Config K E R ε α W}

theorem FreshSafe.idle {w : W} (hinv : P.Inv w) (hfresh : ∀ j, Fresh j w) :
    FreshSafe P handler pre post fail Fresh (idle w : Config K E R ε α W) where
  inv := hinv
  fresh j _ := hfresh j
  safe i k log p hi := by simp [Process.idle] at hi

/-- What makes a run keep it: actions are sound, a call is safe where the world is fresh for it,
and what the others do leaves a world fresh and a conclusion true. -/
structure FreshRules (P : Protocol W) (handler : Handler E R I W)
    (pre : ℕ → Log E R → E → W → Prop) (post : ℕ → α → Log E R → W → Prop)
    (fail : ℕ → ε → Log E R → W → Prop) (Fresh : ℕ → W → Prop) (start : K → Program E R ε α) :
    Prop where
  sound : Sound P handler pre
  start : ∀ i k w, P.Inv w → Fresh i w → Safe P handler pre i (post i) (fail i) (start k) [] w
  fresh : ∀ i w w', P.Rely i w w' → Fresh i w → Fresh i w'
  post : ∀ i a log w w', P.Rely i w w' → post i a log w → post i a log w'
  fail : ∀ i x log w w', P.Rely i w w' → fail i x log w → fail i x log w'

theorem FreshSafe.step (h : FreshSafe P handler pre post fail Fresh c)
    (rules : FreshRules P handler pre post fail Fresh start) {ev : Event K I}
    (he : step handler start c ev = some c') : FreshSafe P handler pre post fail Fresh c' := by
  rcases step_cases he with ⟨k, -, rfl⟩ | ⟨i, input, k, log, e, next, r, w, -, hi, hr, rfl⟩
  · refine ⟨h.inv, fun j hj => h.fresh j ?_, fun j k' log p hj => ?_⟩
    · simp only [List.length_append, List.length_singleton] at hj
      omega
    · rw [List.getElem?_append] at hj
      split at hj
      · exact h.safe j k' log p hj
      · next hlt =>
        rw [List.getElem?_singleton] at hj
        split at hj
        · obtain ⟨rfl, rfl, rfl⟩ := Call.mk.inj (Option.some.inj hj)
          exact rules.start j k c.world h.inv (h.fresh j (Nat.le_of_not_lt hlt))
        · cases hj
  · obtain ⟨hpre, hrest⟩ := (h.safe i k log _ hi).act h.inv
    obtain ⟨hinv', hrely⟩ := rules.sound h.inv hpre hr
    have hlt : i < c.calls.length := (List.getElem?_eq_some_iff.mp hi).1
    refine ⟨hinv', fun j hj => ?_, fun j k' log' p hj => ?_⟩
    · rw [List.length_set] at hj
      exact rules.fresh j c.world w (hrely j (by omega)) (h.fresh j hj)
    · rw [List.getElem?_set] at hj
      split at hj
      · obtain rfl := ‹i = j›
        obtain ⟨rfl, rfl, rfl⟩ := Call.mk.inj (Option.some.inj hj)
        exact hrest hr
      · have hji : j ≠ i := fun heq => ‹¬i = j› heq.symm
        exact (h.safe j k' log' p hj).of_rely (hrely j hji) hinv'
          (fun a log w w' hw _ => rules.post j a log w w' hw)
          fun x log w w' hw _ => rules.fail j x log w w' hw

/-- **The rule of fresh calls**: every interleaving leaves every call safe, and the world fresh for
the calls to come. -/
theorem FreshSafe.reaches (h : FreshSafe P handler pre post fail Fresh c)
    (rules : FreshRules P handler pre post fail Fresh start)
    (hr : Reaches handler start c c') : FreshSafe P handler pre post fail Fresh c' :=
  hr.induction h fun _ _ _ _ hd he => hd.step rules he

end Process

import AiLabOs.Process.Program

/-!
# Undisturbed runs

One call running by itself: no other call acts until it has ended. The environment still chooses
the inputs among those a handler admits, so a handler that admits fewer states what the
environment does meanwhile (that nothing fails, what a clock shows).

## Main definitions

* `Alone handler i p log w o log' w'`: the call `i` runs `p` to its outcome undisturbed
* `runAlone handler i inputs p log w`: that run over given inputs
* `Solo handler i post fail p log w`: such a run is possible at every point, and however it goes it
  ends with `post` or with `fail`

## Main results

* `Solo.bind`, `Solo.tryCatch`, `Solo.perform`: the rules of composition
* `Solo.alone`: what it says of the runs
-/

namespace Process

/-- How a finished program ended. -/
inductive Outcome (ε α : Type) : Type
  | returned (a : α)
  | raised (x : ε)

section Solo

variable {E : Type} {R : E → Type} {ε α β I W : Type}

/-- The call `i` runs `p` to its outcome, no other call acting in between. -/
inductive Alone (handler : Handler E R I W) (i : ℕ) :
    Program E R ε α → Log E R → W → Outcome ε α → Log E R → W → Prop
  | ret (a : α) (log : Log E R) (w : W) : Alone handler i (.ret a) log w (.returned a) log w
  | raise (x : ε) (log : Log E R) (w : W) : Alone handler i (.raise x) log w (.raised x) log w
  | await {e : E} {next : R e → Program E R ε α} {log log' : Log E R} {w w' w'' : W}
      {input : I} {r : R e} {o : Outcome ε α} (hr : handler i e input w = some (r, w'))
      (hrest : Alone handler i (next r) (log ++ [⟨e, r⟩]) w' o log' w'') :
      Alone handler i (.await e next) log w o log' w''

/-- The undisturbed run over the given inputs, if it comes to its outcome with the last of them. -/
def runAlone (handler : Handler E R I W) (i : ℕ) :
    List I → Program E R ε α → Log E R → W → Option (Outcome ε α × Log E R × W)
  | [], .ret a, log, w => some (.returned a, log, w)
  | [], .raise x, log, w => some (.raised x, log, w)
  | input :: inputs, .await e next, log, w =>
    (handler i e input w).bind fun p => runAlone handler i inputs (next p.1) (log ++ [⟨e, p.1⟩]) p.2
  | _, _, _, _ => none

theorem alone_of_run {handler : Handler E R I W} {i : ℕ} {inputs : List I}
    {p : Program E R ε α} {log log' : Log E R} {w w' : W} {o : Outcome ε α}
    (h : runAlone handler i inputs p log w = some (o, log', w')) :
    Alone handler i p log w o log' w' := by
  induction inputs generalizing p log w with
  | nil =>
    cases p with
    | ret a =>
      cases h
      exact .ret ..
    | raise x =>
      cases h
      exact .raise ..
    | await e next => cases h
  | cons input inputs ih =>
    cases p with
    | ret a => cases h
    | raise x => cases h
    | await e next =>
      obtain ⟨⟨r, w₁⟩, hr, hrest⟩ := Option.bind_eq_some_iff.mp h
      exact .await hr (ih hrest)

/-- A run that begins with an action: what the action did, and the run after it. -/
theorem runAlone_perform {handler : Handler E R I W} {i : ℕ} {inputs : List I} {e : E}
    {f : R e → Program E R ε α} {log : Log E R} {w : W} {out : Outcome ε α × Log E R × W}
    (h : runAlone handler i inputs (Program.perform e >>= f) log w = some out) :
    ∃ input rest r w', inputs = input :: rest ∧ handler i e input w = some (r, w') ∧
      runAlone handler i rest (f r) (log ++ [⟨e, r⟩]) w' = some out := by
  cases inputs with
  | nil => cases h
  | cons input rest =>
    obtain ⟨⟨r, w'⟩, hr, hrest⟩ := Option.bind_eq_some_iff.mp h
    exact ⟨input, rest, r, w', rfl, hr, hrest⟩

/-- A run of a program that returns has no input. -/
theorem runAlone_ret {handler : Handler E R I W} {i : ℕ} {inputs : List I} {a : α}
    {log : Log E R} {w : W} {out : Outcome ε α × Log E R × W}
    (h : runAlone handler i inputs (.ret a) log w = some out) :
    inputs = [] ∧ out = (.returned a, log, w) := by
  cases inputs with
  | nil => exact ⟨rfl, (Option.some.inj h).symm⟩
  | cons input rest => cases h

/-- The call `i` running `p` undisturbed: it can go on at every point, and however it goes on it
returns with `post` or raises with `fail`. -/
def Solo (handler : Handler E R I W) (i : ℕ) (post : α → Log E R → W → Prop)
    (fail : ε → Log E R → W → Prop) : Program E R ε α → Log E R → W → Prop
  | .ret a, log, w => post a log w
  | .raise x, log, w => fail x log w
  | .await e next, log, w => (∃ input r w', handler i e input w = some (r, w')) ∧
      ∀ input r w', handler i e input w = some (r, w') →
        Solo handler i post fail (next r) (log ++ [⟨e, r⟩]) w'

/-- The conclusion of such a run, at an outcome. -/
def Outcome.Meets (post : α → Log E R → W → Prop) (fail : ε → Log E R → W → Prop)
    (o : Outcome ε α) (log : Log E R) (w : W) : Prop :=
  match o with
  | .returned a => post a log w
  | .raised x => fail x log w

namespace Solo

variable {handler : Handler E R I W} {i : ℕ}
variable {post post' : α → Log E R → W → Prop} {fail fail' : ε → Log E R → W → Prop}
variable {p : Program E R ε α} {log log' : Log E R} {w w' : W} {o : Outcome ε α}

theorem ret {a : α} (h : post a log w) : Solo handler i post fail (.ret a) log w := h

theorem raise {x : ε} (h : fail x log w) : Solo handler i post fail (.raise x) log w := h

/-- Weaker conclusions hold as well. -/
theorem mono (h : Solo handler i post fail p log w)
    (hpost : ∀ a log w, post a log w → post' a log w)
    (hfail : ∀ x log w, fail x log w → fail' x log w) :
    Solo handler i post' fail' p log w := by
  induction p generalizing log w with
  | ret a => exact hpost a log w h
  | raise x => exact hfail x log w h
  | await e next ih => exact ⟨h.1, fun input r w' hr => ih r (h.2 input r w' hr)⟩

/-- **Sequential composition**: the second program runs from wherever the first one ends. -/
theorem bind {f : α → Program E R ε β} {post : β → Log E R → W → Prop}
    (h : Solo handler i (fun a log w => Solo handler i post fail (f a) log w) fail p log w) :
    Solo handler i post fail (p >>= f) log w := by
  induction p generalizing log w with
  | ret a => exact h
  | raise x => exact h
  | await e next ih => exact ⟨h.1, fun input r w' hr => ih r (h.2 input r w' hr)⟩

/-- **Exceptions**: the handler runs from wherever the exception is raised. -/
theorem tryCatch {f : ε → Program E R ε α}
    (h : Solo handler i post (fun x log w => Solo handler i post fail (f x) log w) p log w) :
    Solo handler i post fail (p.tryCatch f) log w := by
  induction p generalizing log w with
  | ret a => exact h
  | raise x => exact h
  | await e next ih => exact ⟨h.1, fun input r w' hr => ih r (h.2 input r w' hr)⟩

/-- **One action** and what follows it. -/
theorem perform {e : E} {f : R e → Program E R ε α}
    (hcan : ∃ input r w', handler i e input w = some (r, w'))
    (h : ∀ input r w', handler i e input w = some (r, w') →
      Solo handler i post fail (f r) (log ++ [⟨e, r⟩]) w') :
    Solo handler i post fail (Program.perform e >>= f) log w := ⟨hcan, h⟩

/-- Two conclusions hold together. -/
theorem and (h : Solo handler i post fail p log w) (h' : Solo handler i post' fail' p log w) :
    Solo handler i (fun a log w => post a log w ∧ post' a log w)
      (fun x log w => fail x log w ∧ fail' x log w) p log w := by
  induction p generalizing log w with
  | ret a => exact ⟨h, h'⟩
  | raise x => exact ⟨h, h'⟩
  | await e next ih =>
    exact ⟨h.1, fun input r w' hr => ih r (h.2 input r w' hr) (h'.2 input r w' hr)⟩

/-- **What it says of the runs**: every undisturbed run ends so. -/
theorem alone (h : Solo handler i post fail p log w) (hrun : Alone handler i p log w o log' w') :
    o.Meets post fail log' w' := by
  induction hrun with
  | ret a log w => exact h
  | raise x log w => exact h
  | await hr hrest ih => exact ih (h.2 _ _ _ hr)

end Solo

end Solo

-- programs are taken apart by the rules above, never by unfolding
attribute [irreducible] Solo

end Process

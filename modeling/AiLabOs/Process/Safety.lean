import AiLabOs.Process.Program

/-!
# Rely and guarantee

A protocol is an invariant of the world and, for each call, what that call may rely on while the
others act. It is sound for a precondition when every action that meets the precondition keeps the
invariant and gives every other call what that call relies on. A program is safe when, from every
world the others may have led to, each of its actions meets the precondition. When every call is
safe from the moment it arrives, every interleaving keeps the invariant and meets every
precondition, and a fact about the world that each such action keeps holds in every reachable
configuration.

## Main definitions

* `Protocol W`: an invariant and a preorder for each call
* `Sound`: actions that meet their precondition keep a protocol
* `Safe`: a program whose actions meet their preconditions, with what it ensures when it returns
  or raises

## Main results

* `Safe.bind`, `Safe.tryCatch`, `Safe.perform`: the rules of composition
* `Safe.of_rely`: safety survives what the others do
* `AllSafe.reaches`: every call of a reachable configuration is safe, and the invariant holds
* `AllSafe.invariant`, `AllSafe.relation`: further invariants, from what one action does
* `Safe.reaches`, `Reaches.each`, `Reaches.every`: a call that arrives safe for stronger conditions
  keeps them
-/

namespace Process

/-- An invariant of the world and, for the call `i`, how the world may change while others act. -/
structure Protocol (W : Type) where
  Inv : W → Prop
  Rely : ℕ → W → W → Prop
  refl : ∀ i w, Rely i w w
  trans : ∀ {i u v w}, Rely i u v → Rely i v w → Rely i u w

variable {K E : Type} {R : E → Type} {ε α β I W : Type}

/-- An action that the call `i` performs in a world where `pre` holds keeps the invariant and
gives every other call what that call relies on. -/
def Sound (P : Protocol W) (handler : Handler E R I W) (pre : ℕ → Log E R → E → W → Prop) : Prop :=
  ∀ {i log e input r w w'}, P.Inv w → pre i log e w → handler i e input w = some (r, w') →
    P.Inv w' ∧ ∀ j, j ≠ i → P.Rely j w w'

/-- The call `i` running the program from the world `w`: whatever the others do before its next
action, that action meets `pre`. On its return `post` holds, on an exception `fail`. -/
def Safe (P : Protocol W) (handler : Handler E R I W) (pre : ℕ → Log E R → E → W → Prop) (i : ℕ)
    (post : α → Log E R → W → Prop) (fail : ε → Log E R → W → Prop) :
    Program E R ε α → Log E R → W → Prop
  | .ret a, log, w => post a log w
  | .raise x, log, w => fail x log w
  | .await e next, log, w => ∀ w', P.Rely i w w' → P.Inv w' →
      pre i log e w' ∧ ∀ input r w'', handler i e input w' = some (r, w'') →
        Safe P handler pre i post fail (next r) (log ++ [⟨e, r⟩]) w''

namespace Safe

variable {P : Protocol W} {handler : Handler E R I W} {pre : ℕ → Log E R → E → W → Prop} {i : ℕ}
variable {post post' : α → Log E R → W → Prop} {fail fail' : ε → Log E R → W → Prop}
variable {p : Program E R ε α} {log : Log E R} {w : W}

theorem ret {a : α} (h : post a log w) : Safe P handler pre i post fail (.ret a) log w := h

theorem raise {x : ε} (h : fail x log w) : Safe P handler pre i post fail (.raise x) log w := h

theorem of_ret {a : α} (h : Safe P handler pre i post fail (.ret a) log w) : post a log w := h

theorem of_raise {x : ε} (h : Safe P handler pre i post fail (.raise x) log w) : fail x log w := h

/-- Weaker conclusions are ensured as well. -/
theorem mono (h : Safe P handler pre i post fail p log w)
    (hpost : ∀ a log w, post a log w → post' a log w)
    (hfail : ∀ x log w, fail x log w → fail' x log w) :
    Safe P handler pre i post' fail' p log w := by
  induction p generalizing log w with
  | ret a => exact hpost a log w h
  | raise x => exact hfail x log w h
  | await e next ih =>
    intro w' hw' hinv
    obtain ⟨hpre, hact⟩ := h w' hw' hinv
    exact ⟨hpre, fun input r w'' hr => ih r (hact input r w'' hr)⟩

/-- **Sequential composition**: the second program is safe from wherever the first one ends. -/
theorem bind {f : α → Program E R ε β} {post : β → Log E R → W → Prop}
    (h : Safe P handler pre i (fun a log w => Safe P handler pre i post fail (f a) log w) fail
      p log w) : Safe P handler pre i post fail (p >>= f) log w := by
  induction p generalizing log w with
  | ret a => exact h
  | raise x => exact h
  | await e next ih =>
    intro w' hw' hinv
    obtain ⟨hpre, hact⟩ := h w' hw' hinv
    exact ⟨hpre, fun input r w'' hr => ih r (hact input r w'' hr)⟩

/-- **Exceptions**: the handler is safe from wherever the exception is raised. -/
theorem tryCatch {h : ε → Program E R ε α}
    (hp : Safe P handler pre i post (fun x log w => Safe P handler pre i post fail (h x) log w)
      p log w) : Safe P handler pre i post fail (p.tryCatch h) log w := by
  induction p generalizing log w with
  | ret a => exact hp
  | raise x => exact hp
  | await e next ih =>
    intro w' hw' hinv
    obtain ⟨hpre, hact⟩ := hp w' hw' hinv
    exact ⟨hpre, fun input r w'' hr => ih r (hact input r w'' hr)⟩

/-- **One action** and what follows it. -/
theorem perform {e : E} {f : R e → Program E R ε α}
    (h : ∀ w', P.Rely i w w' → P.Inv w' → pre i log e w' ∧
      ∀ input r w'', handler i e input w' = some (r, w'') →
        Safe P handler pre i post fail (f r) (log ++ [⟨e, r⟩]) w'') :
    Safe P handler pre i post fail (Program.perform e >>= f) log w := h

/-- Safety survives what the others do, as far as its conclusions do. -/
theorem of_rely {w' : W} (h : Safe P handler pre i post fail p log w) (hw : P.Rely i w w')
    (hinv : P.Inv w')
    (hpost : ∀ a log w w', P.Rely i w w' → P.Inv w' → post a log w → post a log w')
    (hfail : ∀ x log w w', P.Rely i w w' → P.Inv w' → fail x log w → fail x log w') :
    Safe P handler pre i post fail p log w' := by
  cases p with
  | ret a => exact hpost a log w w' hw hinv h
  | raise x => exact hfail x log w w' hw hinv h
  | await e next => exact fun w'' hw'' hinv' => h w'' (P.trans hw hw'') hinv'

/-- The next action of a safe program, after what the others did. -/
theorem act_rely {e : E} {next : R e → Program E R ε α} {w' : W}
    (h : Safe P handler pre i post fail (.await e next) log w) (hw : P.Rely i w w')
    (hinv : P.Inv w') : pre i log e w' ∧ ∀ input r w'', handler i e input w' = some (r, w'') →
      Safe P handler pre i post fail (next r) (log ++ [⟨e, r⟩]) w'' := h w' hw hinv

/-- The step lemma of safety: the awaited action meets its precondition, and the rest of the
program is safe after it. -/
theorem act {e : E} {next : R e → Program E R ε α}
    (h : Safe P handler pre i post fail (.await e next) log w) (hinv : P.Inv w) :
    pre i log e w ∧ ∀ {input r w'}, handler i e input w = some (r, w') →
      Safe P handler pre i post fail (next r) (log ++ [⟨e, r⟩]) w' := by
  obtain ⟨hpre, hact⟩ := h w (P.refl i w) hinv
  exact ⟨hpre, fun {input r w'} hr => hact input r w' hr⟩

end Safe

-- programs are taken apart by the rules above, never by unfolding
attribute [irreducible] Safe

/-- The invariant holds and every call still runs a safe program. -/
def AllSafe (P : Protocol W) (handler : Handler E R I W) (pre : ℕ → Log E R → E → W → Prop)
    (c : Config K E R ε α W) : Prop :=
  P.Inv c.world ∧ ∀ i k log p, c.calls[i]? = some ⟨k, log, p⟩ →
    Safe P handler pre i (fun _ _ _ => True) (fun _ _ _ => True) p log c.world

section Reaches

variable {P : Protocol W} {handler : Handler E R I W} {pre : ℕ → Log E R → E → W → Prop}
variable {start : K → Program E R ε α} {c c' : Config K E R ε α W}

/-- Every program a call can run is safe on arrival. -/
def StartsSafe (P : Protocol W) (handler : Handler E R I W) (pre : ℕ → Log E R → E → W → Prop)
    (start : K → Program E R ε α) : Prop :=
  ∀ i k w, P.Inv w →
    Safe P handler pre i (fun _ _ _ => True) (fun _ _ _ => True) (start k) [] w

theorem AllSafe.step (hsound : Sound P handler pre) (hs : StartsSafe P handler pre start)
    (h : AllSafe P handler pre c) {ev : Event K I} (he : step handler start c ev = some c') :
    AllSafe P handler pre c' := by
  obtain ⟨hinv, hcalls⟩ := h
  rcases step_cases he with ⟨k, -, rfl⟩ | ⟨i, input, k, log, e, next, r, w, -, hi, hr, rfl⟩
  · refine ⟨hinv, fun j k' log p hj => ?_⟩
    rw [List.getElem?_append] at hj
    split at hj
    · exact hcalls j k' log p hj
    · simp only [List.getElem?_singleton] at hj
      split at hj
      · simp only [Option.some.injEq, Call.mk.injEq] at hj
        obtain ⟨rfl, rfl, rfl⟩ := hj
        exact hs j k c.world hinv
      · simp at hj
  · obtain ⟨hpre, hrest⟩ := (hcalls i k log _ hi).act hinv
    obtain ⟨hinv', hrely⟩ := hsound hinv hpre hr
    refine ⟨hinv', fun j k' log' p hj => ?_⟩
    rw [List.getElem?_set] at hj
    split at hj
    · obtain rfl := ‹i = j›
      split at hj
      · simp only [Option.some.injEq, Call.mk.injEq] at hj
        obtain ⟨rfl, rfl, rfl⟩ := hj
        exact hrest hr
      · simp at hj
    · have hji : j ≠ i := fun h => ‹¬i = j› h.symm
      exact (hcalls j k' log' p hj).of_rely (hrely j hji) hinv' (fun _ _ _ _ _ _ _ => trivial)
        fun _ _ _ _ _ _ _ => trivial

/-- **The rely-guarantee rule**: when every call is safe on arrival, every interleaving keeps the
invariant and leaves every call safe. -/
theorem AllSafe.reaches (hsound : Sound P handler pre) (hs : StartsSafe P handler pre start)
    (h : AllSafe P handler pre c) (hr : Reaches handler start c c') : AllSafe P handler pre c' :=
  hr.induction h fun _ _ _ _ hd he => hd.step hsound hs he

theorem AllSafe.idle {w : W} (h : P.Inv w) :
    AllSafe P handler pre (idle w : Config K E R ε α W) :=
  ⟨h, fun i k log p hi => by simp [Process.idle] at hi⟩

/-- An action about to be performed meets its precondition. -/
theorem AllSafe.meets_pre (h : AllSafe P handler pre c) {i : ℕ} {k : K} {log : Log E R} {e : E}
    {next : R e → Program E R ε α} (hi : c.calls[i]? = some ⟨k, log, .await e next⟩) :
    pre i log e c.world :=
  ((h.2 i k log _ hi).act h.1).1

/-- **Invariants of runs**: a fact about the world that holds at the start and that every action
meeting its precondition keeps holds in every reachable configuration. -/
theorem AllSafe.invariant (hsound : Sound P handler pre) (hs : StartsSafe P handler pre start)
    (h : AllSafe P handler pre c) (hr : Reaches handler start c c') {J : W → Prop}
    (hinit : J c.world)
    (hact : ∀ i log e input r w w', P.Inv w → P.Inv w' → J w → pre i log e w →
      handler i e input w = some (r, w') → J w') : J c'.world := by
  have hboth : AllSafe P handler pre c' ∧ J c'.world :=
    hr.induction (motive := fun d => AllSafe P handler pre d ∧ J d.world) ⟨h, hinit⟩
      fun d ev d' _ hd he => by
    obtain ⟨hall, hj⟩ := hd
    have hall' := hall.step hsound hs he
    refine ⟨hall', ?_⟩
    rcases step_cases he with ⟨k, -, rfl⟩ | ⟨i, input, k, log, e, next, r, w, -, hi, hact', rfl⟩
    · exact hj
    · exact hact i log e input r d.world w hall.1 hall'.1 hj (hall.meets_pre hi) hact'
  exact hboth.2

/-- A preorder on worlds that every action meeting its precondition follows relates the two ends
of every run. -/
theorem AllSafe.relation (hsound : Sound P handler pre) (hs : StartsSafe P handler pre start)
    (h : AllSafe P handler pre c) (hr : Reaches handler start c c') {T : W → W → Prop}
    (hrefl : ∀ w, T w w) (htrans : ∀ u v w, T u v → T v w → T u w)
    (hact : ∀ i log e input r w w', P.Inv w → P.Inv w' → pre i log e w →
      handler i e input w = some (r, w') → T w w') : T c.world c'.world :=
  h.invariant hsound hs hr (J := fun w => T c.world w) (hrefl _)
    fun i log e input r w w' hinv hinv' hj hpre hr =>
      htrans _ _ _ hj (hact i log e input r w w' hinv hinv' hpre hr)

/-- A call that arrives safe for stronger conditions keeps them, whatever the other calls do. -/
theorem Safe.reaches {pre' : ℕ → Log E R → E → W → Prop} {i : ℕ} {k : K}
    {post : α → Log E R → W → Prop} {fail : ε → Log E R → W → Prop}
    {log : Log E R} {p : Program E R ε α} (hsound : Sound P handler pre)
    (hs : StartsSafe P handler pre start) (h : AllSafe P handler pre c)
    (hi : c.calls[i]? = some ⟨k, log, p⟩) (hsafe : Safe P handler pre' i post fail p log c.world)
    (hpost : ∀ a log w w', P.Rely i w w' → P.Inv w' → post a log w → post a log w')
    (hfail : ∀ x log w w', P.Rely i w w' → P.Inv w' → fail x log w → fail x log w')
    (hr : Reaches handler start c c') :
    ∃ log' p', c'.calls[i]? = some ⟨k, log', p'⟩ ∧
      Safe P handler pre' i post fail p' log' c'.world := by
  have hboth : AllSafe P handler pre c' ∧ ∃ log' p', c'.calls[i]? = some ⟨k, log', p'⟩ ∧
      Safe P handler pre' i post fail p' log' c'.world :=
    hr.induction (motive := fun d => AllSafe P handler pre d ∧ ∃ log' p',
        d.calls[i]? = some ⟨k, log', p'⟩ ∧ Safe P handler pre' i post fail p' log' d.world)
      ⟨h, log, p, hi, hsafe⟩ fun d ev d' _ hd he => by
    obtain ⟨hall, log', p', hi', hp'⟩ := hd
    have hall' := hall.step hsound hs he
    refine ⟨hall', ?_⟩
    rcases step_cases he with ⟨k', -, rfl⟩ | ⟨j, input, k', log₁, e, next, r, w, -, hj, hact, rfl⟩
    · have hlt := (List.getElem?_eq_some_iff.mp hi').1
      exact ⟨log', p', by simpa [List.getElem?_append_left hlt] using hi', hp'⟩
    · by_cases hij : j = i
      · subst hij
        obtain ⟨rfl, rfl, rfl⟩ : k = k' ∧ log' = log₁ ∧ p' = .await e next := by
          simpa [hi', eq_comm] using hj
        have hlt := (List.getElem?_eq_some_iff.mp hi').1
        exact ⟨_, _, List.getElem?_set_self hlt, (hp'.act hall.1).2 hact⟩
      · obtain ⟨-, hrely⟩ := hsound hall.1 (hall.meets_pre hj) hact
        refine ⟨log', p', by simpa [List.getElem?_set_ne hij] using hi', ?_⟩
        exact hp'.of_rely (hrely i (fun h => hij h.symm)) hall'.1 hpost hfail
  exact hboth.2

/-- What each call of some requests is safe for on arrival it is safe for throughout. -/
theorem Reaches.each {pre' : ℕ → Log E R → E → W → Prop} {post : ℕ → K → α → Log E R → W → Prop}
    {fail : ℕ → K → ε → Log E R → W → Prop} {w : W} (Q : K → Prop) (hsound : Sound P handler pre)
    (hs : StartsSafe P handler pre start) (h : P.Inv w)
    (hstart : ∀ i k w, Q k → P.Inv w →
      Safe P handler pre' i (post i k) (fail i k) (start k) [] w)
    (hpost : ∀ i k a log w w', P.Rely i w w' → P.Inv w' → post i k a log w → post i k a log w')
    (hfail : ∀ i k x log w w', P.Rely i w w' → P.Inv w' → fail i k x log w → fail i k x log w')
    (hr : Reaches handler start (idle w) c) {i : ℕ} {k : K} {log : Log E R}
    {p : Program E R ε α} (hk : Q k) (hi : c.calls[i]? = some ⟨k, log, p⟩) :
    Safe P handler pre' i (post i k) (fail i k) p log c.world := by
  have hboth : AllSafe P handler pre c ∧ ∀ i k log p, Q k → c.calls[i]? = some ⟨k, log, p⟩ →
      Safe P handler pre' i (post i k) (fail i k) p log c.world :=
    hr.induction (motive := fun d => AllSafe P handler pre d ∧ ∀ i k log p, Q k →
        d.calls[i]? = some ⟨k, log, p⟩ →
          Safe P handler pre' i (post i k) (fail i k) p log d.world)
      ⟨AllSafe.idle h, fun i k log p _ hi => by simp [Process.idle] at hi⟩ fun d ev d' _ hd he => by
    obtain ⟨hall, hcalls⟩ := hd
    have hall' := hall.step hsound hs he
    refine ⟨hall', fun i k log p hk hi => ?_⟩
    rcases step_cases he with ⟨k', -, rfl⟩ | ⟨j, input, k', log', e, next, r, w, -, hj, hact, rfl⟩
    · rw [List.getElem?_append] at hi
      split at hi
      · exact hcalls i k log p hk hi
      · simp only [List.getElem?_singleton] at hi
        split at hi
        · simp only [Option.some.injEq, Call.mk.injEq] at hi
          obtain ⟨rfl, rfl, rfl⟩ := hi
          exact hstart i k' d.world hk hall.1
        · simp at hi
    · rw [List.getElem?_set] at hi
      split at hi
      · obtain rfl := ‹j = i›
        split at hi
        · simp only [Option.some.injEq, Call.mk.injEq] at hi
          obtain ⟨rfl, rfl, rfl⟩ := hi
          exact ((hcalls j _ _ _ hk hj).act hall.1).2 hact
        · simp at hi
      · have hij : i ≠ j := fun h => ‹¬j = i› h.symm
        obtain ⟨-, hrely⟩ := hsound hall.1 (hall.meets_pre hj) hact
        exact (hcalls i k log p hk hi).of_rely (hrely i hij) hall'.1 (hpost i k) (hfail i k)
  exact hboth.2 i k log p hk hi

/-- What the calls of some requests are safe for on arrival they are safe for throughout. -/
theorem Reaches.every {pre' : ℕ → Log E R → E → W → Prop} {post : α → Log E R → W → Prop}
    {fail : ε → Log E R → W → Prop} {w : W} (Q : K → Prop) (hsound : Sound P handler pre)
    (hs : StartsSafe P handler pre start) (h : P.Inv w)
    (hstart : ∀ i k w, Q k → P.Inv w → Safe P handler pre' i post fail (start k) [] w)
    (hpost : ∀ i a log w w', P.Rely i w w' → P.Inv w' → post a log w → post a log w')
    (hfail : ∀ i x log w w', P.Rely i w w' → P.Inv w' → fail x log w → fail x log w')
    (hr : Reaches handler start (idle w) c) {i : ℕ} {k : K} {log : Log E R}
    {p : Program E R ε α} (hk : Q k) (hi : c.calls[i]? = some ⟨k, log, p⟩) :
    Safe P handler pre' i post fail p log c.world :=
  Reaches.each Q hsound hs h hstart (fun i _ => hpost i) (fun i _ => hfail i) hr hk hi

end Reaches

end Process

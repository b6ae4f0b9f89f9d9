import Mathlib.Data.Nat.Notation

/-!
# Programs over atomic actions

A program returns a value, raises an exception, or awaits one atomic action and goes on with its
reply. Any number of calls, each running a program, share one world: an event starts a call or
lets one call perform the action it awaits, the environment supplying what the action needs from
outside. A run is a list of events, so every interleaving is a run, and a call that gets no
further event has crashed where it stood.

## Main definitions

* `Program E R ε α`: programs over the actions `E` with replies `R`
* `Handler E R I W`: what an action does to the world, for the call that performs it
* `Config`, `Event`, `step`, `run`: calls in flight over a world, and their interleavings
* `Reaches handler start c c'`: some run leads from `c` to `c'`

## Main results

* `Reaches.induction`: what the initial configuration has and every step keeps, every reachable
  configuration has
-/

namespace Process

/-- A program over the actions `E`, whose replies are `R`, that raises `ε` or returns `α`. -/
inductive Program (E : Type) (R : E → Type) (ε α : Type) : Type
  | ret (a : α)
  | raise (x : ε)
  | await (e : E) (next : R e → Program E R ε α)

/-- The actions a call has performed, with their replies, oldest first. -/
abbrev Log (E : Type) (R : E → Type) := List (Σ e : E, R e)

namespace Program

variable {E : Type} {R : E → Type} {ε α β : Type}

/-- Sequential composition: an exception of `p` ends the whole. -/
def bind : Program E R ε α → (α → Program E R ε β) → Program E R ε β
  | .ret a, f => f a
  | .raise x, _ => .raise x
  | .await e next, f => .await e fun r => (next r).bind f

/-- Runs `p`, and the handler `h` on the exception it raises. -/
def tryCatch : Program E R ε α → (ε → Program E R ε α) → Program E R ε α
  | .ret a, _ => .ret a
  | .raise x, h => h x
  | .await e next, h => .await e fun r => (next r).tryCatch h

instance : Monad (Program E R ε) where
  pure := .ret
  bind := .bind

/-- The program that performs one action and returns its reply. -/
def perform (e : E) : Program E R ε (R e) := .await e .ret

@[simp] theorem pure_eq (a : α) : (pure a : Program E R ε α) = .ret a := rfl

@[simp] theorem ret_bind (a : α) (f : α → Program E R ε β) : (Program.ret a >>= f) = f a := rfl

@[simp] theorem raise_bind (x : ε) (f : α → Program E R ε β) :
    (Program.raise x >>= f) = .raise x := rfl

@[simp] theorem await_bind (e : E) (next : R e → Program E R ε α) (f : α → Program E R ε β) :
    (Program.await e next >>= f) = .await e fun r => next r >>= f := rfl

/-- A program over other actions, run in a world where each of its actions is one of `E'`. -/
def embed {E' : Type} {R' : E' → Type} {ε' : Type} (act : E → E') (reply : ∀ e, R' (act e) → R e)
    (exn : ε → ε') : Program E R ε α → Program E' R' ε' α
  | .ret a => .ret a
  | .raise x => .raise (exn x)
  | .await e next => .await (act e) fun r => (next (reply e r)).embed act reply exn

/-- Returning the result of a program changes nothing. -/
theorem bind_ret (p : Program E R ε α) : (p >>= fun a => .ret a) = p := by
  induction p with
  | ret a => rfl
  | raise x => rfl
  | await e next ih => exact congrArg (Program.await e) (funext ih)

end Program

/-- What an action does when the call `i` performs it: from what the environment supplies and the
world, the reply and the next world. An action that cannot happen with that supply has no value. -/
abbrev Handler (E : Type) (R : E → Type) (I W : Type) :=
  ℕ → (e : E) → I → W → Option (R e × W)

/-- One call: what was requested, what it has done so far, and what it still has to do. -/
structure Call (K E : Type) (R : E → Type) (ε α : Type) where
  request : K
  log : Log E R
  rest : Program E R ε α

/-- The shared world and the calls made so far, in order of arrival. -/
structure Config (K E : Type) (R : E → Type) (ε α W : Type) where
  world : W
  calls : List (Call K E R ε α)

/-- A call arrives, or the call `i` performs the action it awaits. -/
inductive Event (K I : Type) : Type
  | arrive (k : K)
  | act (i : ℕ) (input : I)

section Runs

variable {K E : Type} {R : E → Type} {ε α I W : Type}

/-- One event. There is none for a finished call or for an action that cannot happen. -/
def step (handler : Handler E R I W) (start : K → Program E R ε α) (c : Config K E R ε α W) :
    Event K I → Option (Config K E R ε α W)
  | .arrive k => some { c with calls := c.calls ++ [⟨k, [], start k⟩] }
  | .act i input =>
    match c.calls[i]? with
    | some ⟨k, log, .await e next⟩ =>
      (handler i e input c.world).map fun (r, w) =>
        { world := w, calls := c.calls.set i ⟨k, log ++ [⟨e, r⟩], next r⟩ }
    | _ => none

/-- A sequence of events, if each of them can happen. -/
def run (handler : Handler E R I W) (start : K → Program E R ε α) (c : Config K E R ε α W) :
    List (Event K I) → Option (Config K E R ε α W)
  | [] => some c
  | ev :: evs => (step handler start c ev).bind fun c' => run handler start c' evs

/-- Some run leads from `c` to `c'`. -/
def Reaches (handler : Handler E R I W) (start : K → Program E R ε α)
    (c c' : Config K E R ε α W) : Prop :=
  ∃ evs, run handler start c evs = some c'

/-- No calls have been made yet. -/
def idle (w : W) : Config K E R ε α W := ⟨w, []⟩

variable {handler : Handler E R I W} {start : K → Program E R ε α}
variable {c c' c'' : Config K E R ε α W}

/-- What one event can do: a call arrives and the world stays, or one call performs the action it
awaits and every other call stays. -/
theorem step_cases {ev : Event K I} (h : step handler start c ev = some c') :
    (∃ k, ev = .arrive k ∧ c' = { c with calls := c.calls ++ [⟨k, [], start k⟩] }) ∨
    ∃ i input k log e next r w, ev = .act i input ∧
      c.calls[i]? = some ⟨k, log, .await e next⟩ ∧
      handler i e input c.world = some (r, w) ∧
      c' = { world := w, calls := c.calls.set i ⟨k, log ++ [⟨e, r⟩], next r⟩ } := by
  cases ev with
  | arrive k => exact .inl ⟨k, rfl, by simpa [step] using h.symm⟩
  | act i input =>
    right
    cases hc : c.calls[i]? with
    | none => simp [step, hc] at h
    | some call =>
      obtain ⟨k, log, a | x | ⟨e, next⟩⟩ := call
      · simp [step, hc] at h
      · simp [step, hc] at h
      · simp only [step, hc] at h
        obtain ⟨⟨r, w⟩, hr, rfl⟩ := Option.map_eq_some_iff.mp h
        exact ⟨i, input, k, log, e, next, r, w, rfl, hc, hr, rfl⟩

theorem run_append (evs evs' : List (Event K I)) :
    run handler start c (evs ++ evs') =
      (run handler start c evs).bind fun c' => run handler start c' evs' := by
  induction evs generalizing c with
  | nil => rfl
  | cons ev evs ih =>
    simp only [List.cons_append, run, Option.bind_assoc]
    congr 1
    funext c'
    exact ih

theorem Reaches.refl (c : Config K E R ε α W) : Reaches handler start c c := ⟨[], rfl⟩

theorem Reaches.trans (h : Reaches handler start c c') (h' : Reaches handler start c' c'') :
    Reaches handler start c c'' := by
  obtain ⟨evs, he⟩ := h
  obtain ⟨evs', he'⟩ := h'
  exact ⟨evs ++ evs', by rw [run_append, he, Option.bind_some, he']⟩

/-- **The run rule**: what holds at the start and is kept by every step that a reachable
configuration takes holds at the end of the run. -/
theorem Reaches.induction {motive : Config K E R ε α W → Prop} (h : Reaches handler start c c')
    (hinit : motive c)
    (hstep : ∀ d ev d', Reaches handler start c d → motive d →
      step handler start d ev = some d' → motive d') : motive c' := by
  obtain ⟨evs, he⟩ := h
  induction evs generalizing c with
  | nil => exact Option.some.inj he ▸ hinit
  | cons ev evs ih =>
    obtain ⟨d, hd, he⟩ := Option.bind_eq_some_iff.mp he
    have hcd : Reaches handler start c d := ⟨[ev], by simp [run, hd]⟩
    exact ih (hstep c ev d (.refl c) hinit hd)
      (fun d' ev' d'' hr => hstep d' ev' d'' (hcd.trans hr)) he

/-- A call stays what was requested. -/
theorem Reaches.request (h : Reaches handler start c c') {i : ℕ} {call : Call K E R ε α}
    (hi : c.calls[i]? = some call) :
    ∃ call', c'.calls[i]? = some call' ∧ call'.request = call.request := by
  refine h.induction (motive := fun d => ∃ call', d.calls[i]? = some call' ∧
    call'.request = call.request) ⟨call, hi, rfl⟩ fun d ev d' _ hd he => ?_
  obtain ⟨call', hi', hk⟩ := hd
  have hlt := (List.getElem?_eq_some_iff.mp hi').1
  rcases step_cases he with ⟨k, -, rfl⟩ | ⟨j, input, k, log, e, next, r, w, -, hj, -, rfl⟩
  · exact ⟨call', by simpa [List.getElem?_append_left hlt] using hi', hk⟩
  · by_cases hij : j = i
    · obtain rfl := hij
      obtain rfl : ⟨k, log, .await e next⟩ = call' := Option.some.inj (hj.symm.trans hi')
      exact ⟨_, List.getElem?_set_self hlt, hk⟩
    · exact ⟨call', by simpa [List.getElem?_set_ne hij] using hi', hk⟩

/-- A call that has returned is over. -/
theorem Reaches.returned (h : Reaches handler start c c') {i : ℕ} {k : K} {log : Log E R} {a : α}
    (hi : c.calls[i]? = some ⟨k, log, .ret a⟩) : c'.calls[i]? = some ⟨k, log, .ret a⟩ := by
  refine h.induction (motive := fun d => d.calls[i]? = some ⟨k, log, .ret a⟩) hi
    fun d ev d' _ hd he => ?_
  have hlt := (List.getElem?_eq_some_iff.mp hd).1
  rcases step_cases he with ⟨k', -, rfl⟩ | ⟨j, input, k', log', e, next, r, w, -, hj, -, rfl⟩
  · simpa [List.getElem?_append_left hlt] using hd
  · by_cases hij : j = i
    · subst hij
      rw [hj] at hd
      cases hd
    · simpa [List.getElem?_set_ne hij] using hd

end Runs

end Process

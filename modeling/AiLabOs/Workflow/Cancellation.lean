import AiLabOs.Workflow.Runtime

/-!
# Workflows: runs and cancellations

What becomes of a run among other runs and cancellations. A run that was not cancelled returns what
its executor returned, or raises what it met; a cancelled one returns nothing; and the machine of a
run stays registered when the run has ended, until another run of its workflow takes its place.

## Main definitions

* `protocol`: what a run may rely on while the others act
* `Holds`: the machine of a run, and where it is
* `RunLaw`: the law of the runs and the cancellations

## Main results

* `sound`: an action of another call leaves the machine of a run, or cancels it
* `guardedRun_safe`: where the machine of a run is when its `try` statement ends
* `run_law`: the law holds in every reachable configuration
-/

namespace Workflows

open Process

attribute [local simp] handler

/-! ## The protocol -/

/-- The machine `n` is one that the call `i` has made, in a status that meets `P`. -/
def Holds (i n : ℕ) (P : WorkflowStatus → Prop) (w : World) : Prop :=
  ∃ m, w.machines[n]? = some m ∧ m.owner = i ∧ P m.current

/-- A machine that was registered for the workflow is, or a later one has taken its place. -/
def Stays (workflowId : String) (n : ℕ) (w : World) : Prop :=
  ∃ n', n ≤ n' ∧ Assoc.get w.active workflowId = some n'

/-- A machine after what the others did: it stays where it is, or is cancelled. -/
structure Machine.Left (m m' : Machine) (i : ℕ) : Prop where
  owner : m'.owner = m.owner
  own : m.owner = i → m'.current = m.current ∨
    m.current.canTransition .cancelled = true ∧ m'.current = .cancelled
  cancelled : m.current = .cancelled → m'.current = .cancelled

/-- What the call `i` may rely on. -/
structure Rely (i : ℕ) (w w' : World) : Prop where
  machines : ∀ (n : ℕ) (m : Machine), w.machines[n]? = some m →
    ∃ m', w'.machines[n]? = some m' ∧ m.Left m' i
  active : ∀ workflowId n, Stays workflowId n w → Stays workflowId n w'

theorem Machine.Left.refl (m : Machine) (i : ℕ) : m.Left m i := ⟨rfl, fun _ => .inl rfl, id⟩

theorem Machine.Left.trans {m m' m'' : Machine} {i : ℕ} (h : m.Left m' i) (h' : m'.Left m'' i) :
    m.Left m'' i where
  owner := h'.owner.trans h.owner
  own hi := by
    rcases h.own hi with heq | ⟨hcan, hcancelled⟩
    · rcases h'.own (h.owner.trans hi) with heq' | ⟨hcan', hcancelled'⟩
      · exact .inl (heq'.trans heq)
      · exact .inr ⟨heq ▸ hcan', hcancelled'⟩
    · exact .inr ⟨hcan, h'.cancelled hcancelled⟩
  cancelled h₀ := h'.cancelled (h.cancelled h₀)

theorem Rely.refl (i : ℕ) (w : World) : Rely i w w :=
  ⟨fun _ m hm => ⟨m, hm, .refl m i⟩, fun _ _ h => h⟩

theorem Rely.trans {i : ℕ} {u v w : World} (h : Rely i u v) (h' : Rely i v w) : Rely i u w where
  machines n m hm := by
    obtain ⟨m', hm', hleft⟩ := h.machines n m hm
    obtain ⟨m'', hm'', hleft'⟩ := h'.machines n m' hm'
    exact ⟨m'', hm'', hleft.trans hleft'⟩
  active workflowId n hstays := h'.active workflowId n (h.active workflowId n hstays)

/-- The machines that are registered are there. -/
def Inv (w : World) : Prop :=
  ∀ workflowId n, Assoc.get w.active workflowId = some n → n < w.machines.length

def protocol : Protocol World where
  Inv := Inv
  Rely := Rely
  refl := Rely.refl
  trans := Rely.trans

/-- The machines a call has registered, with their workflows. -/
def registered (log : Log Action Action.Reply) : List (String × ℕ) :=
  log.filterMap fun
    | ⟨.register workflowId, n⟩ => some (workflowId, n)
    | _ => none

/-- A call registers one machine, and moves its own. -/
def pre : ℕ → Log Action Action.Reply → Action → World → Prop
  | i, _, .transition n _, w => Holds i n (fun _ => True) w
  | _, log, .register _, _ => registered log = []
  | _, _, _, _ => True

/-! ## What an action does -/

section Actions

variable {w w' : World} {i n : ℕ}

theorem transition_cases {m : Machine} {target : WorkflowStatus} {r : Except Exn Unit}
    (h : w.transition n m target = (r, w')) :
    (m.current.canTransition target = true ∧ r = .ok () ∧
      w' = { w with machines := w.machines.set n { m with current := target } }) ∨
    (m.current.canTransition target = false ∧ r = .error (.state m.current target) ∧ w' = w) := by
  unfold World.transition at h
  split at h
  · obtain ⟨rfl, rfl⟩ := Prod.mk.inj h
    exact .inl ⟨‹_›, rfl, rfl⟩
  · obtain ⟨rfl, rfl⟩ := Prod.mk.inj h
    exact .inr ⟨Bool.eq_false_iff.mpr ‹_›, rfl, rfl⟩

/-- A machine that makes a transition, for the others and for the call it is not of. -/
theorem rely_set {m : Machine} {target : WorkflowStatus} (hm : w.machines[n]? = some m)
    (hcan : m.current.canTransition target = true) (hown : m.owner = i → target = .cancelled) :
    Rely i w { w with machines := w.machines.set n { m with current := target } } := by
  refine ⟨fun k mk hk => ?_, fun _ _ h => h⟩
  by_cases hnk : n = k
  · subst hnk
    obtain rfl := Option.some.inj (hm.symm.trans hk)
    refine ⟨{ m with current := target },
      List.getElem?_set_self (List.getElem?_eq_some_iff.mp hk).1, rfl, fun hi => ?_, fun hc => ?_⟩
    · obtain rfl := hown hi
      exact .inr ⟨hcan, rfl⟩
    · rw [hc] at hcan
      cases target <;> exact absurd hcan (by decide)
  · exact ⟨mk, by rwa [List.getElem?_set_ne hnk], .refl mk i⟩

/-- A new machine takes the place of the one that was registered. -/
theorem rely_register (hinv : Inv w) (j : ℕ) (workflowId : String) :
    Rely i w { machines := w.machines ++ [⟨j, .ready⟩]
               active := Assoc.set w.active workflowId w.machines.length } := by
  refine ⟨fun k m hk => ⟨m, ?_, .refl m i⟩, fun other n ⟨n', hle, hget⟩ => ?_⟩
  · exact (List.getElem?_append_left (List.getElem?_eq_some_iff.mp hk).1).trans hk
  · by_cases hid : workflowId = other
    · subst hid
      exact ⟨_, Nat.le_trans hle (Nat.le_of_lt (hinv _ _ hget)), Assoc.get_set_self ..⟩
    · exact ⟨n', hle, (Assoc.get_set_of_ne hid).trans hget⟩

/-- **An action** keeps what is registered there, and leaves the machines of the others or cancels
one. -/
theorem sound : Sound protocol handler pre := by
  intro i log e input r w w' hinv hpre hr
  have hsame : w' = w → Inv w' ∧ ∀ j, j ≠ i → Rely j w w' := by
    rintro rfl
    exact ⟨hinv, fun j _ => .refl j _⟩
  have hset : ∀ {n : ℕ} {m : Machine} {target : WorkflowStatus} {r : Except Exn Unit} {v : World},
      w.machines[n]? = some m → (∀ j, j ≠ i → m.owner = j → target = .cancelled) →
      w.transition n m target = (r, v) → Inv v ∧ ∀ j, j ≠ i → Rely j w v := by
    intro n m target r v hm hown ht
    rcases transition_cases ht with ⟨hcan, -, rfl⟩ | ⟨-, -, rfl⟩
    · refine ⟨fun id k hk => ?_, fun j hj => rely_set hm hcan (hown j hj)⟩
      exact (List.length_set ..).symm ▸ hinv id k hk
    · exact ⟨hinv, fun j _ => .refl j _⟩
  cases e with
  | initializeInstance =>
    obtain ⟨_, _, h⟩ := Option.map_eq_some_iff.mp hr
    exact hsame (Prod.mk.inj h).2.symm
  | shutdown =>
    obtain ⟨_, _, h⟩ := Option.map_eq_some_iff.mp hr
    exact hsame (Prod.mk.inj h).2.symm
  | publish event =>
    obtain ⟨_, _, h⟩ := Option.map_eq_some_iff.mp hr
    exact hsame (Prod.mk.inj h).2.symm
  | plan =>
    cases input <;> simp only [handler, reduceCtorEq, Option.some.injEq, Prod.mk.injEq] at hr
    · exact hsame hr.2.symm
    · exact hsame hr.2.symm
  | executeStep step =>
    cases input <;> simp only [handler, reduceCtorEq, Option.ite_none_right_eq_some,
      Option.some.injEq, Prod.mk.injEq] at hr
    exact hsame hr.2.2.symm
  | register workflowId =>
    cases input <;> simp only [handler, reduceCtorEq, Option.some.injEq, Prod.mk.injEq] at hr
    obtain ⟨-, rfl⟩ := hr
    refine ⟨fun id n hget => ?_, fun j _ => rely_register hinv i workflowId⟩
    rw [List.length_append, List.length_singleton]
    dsimp only at hget
    rw [Assoc.get_set] at hget
    split at hget
    · exact Option.some.inj hget ▸ Nat.lt_succ_self _
    · exact Nat.lt_succ_of_lt (hinv id n hget)
  | transition n target =>
    cases input <;> simp only [handler, reduceCtorEq] at hr
    obtain ⟨m, hm, ht⟩ := Option.map_eq_some_iff.mp hr
    obtain ⟨m', hm', rfl, -⟩ := hpre
    obtain rfl := Option.some.inj (hm.symm.trans hm')
    exact hset hm (fun j hj hjm => absurd hjm.symm hj) ht
  | cancel workflowId =>
    cases input <;> simp only [handler, reduceCtorEq] at hr
    split at hr
    · exact hsame (Prod.mk.inj (Option.some.inj hr)).2.symm
    · obtain ⟨m, hm, ht⟩ := Option.map_eq_some_iff.mp hr
      obtain ⟨-, rfl⟩ := Prod.mk.inj ht
      exact hset hm (fun _ _ _ => rfl) (Prod.eta _).symm

end Actions

/-! ## The machine of a run -/

/-- What an entry of a log has raised. -/
def raises : (Σ e : Action, e.Reply) → Option String
  | ⟨.initializeInstance, .error (.awaited message)⟩ => some message
  | ⟨.shutdown, .error (.awaited message)⟩ => some message
  | ⟨.publish _, .error (.awaited message)⟩ => some message
  | ⟨.plan, .error (.awaited message)⟩ => some message
  | ⟨.executeStep _, .raised message⟩ => some message
  | _ => none

/-- **An exception is one's own**: if it was raised by what was awaited, the log has it. -/
def Own (log : Log Action Action.Reply) (x : Exn) : Prop :=
  ∀ message, x = .awaited message → ∃ entry ∈ log, raises entry = some message

/-- The publication of the last event of a run has raised. -/
def LastRaised (log : Log Action Action.Reply) : Prop :=
  ∃ event message, (event = .completed ∨ event = .failed) ∧
    ⟨.publish event, .error (.awaited message)⟩ ∈ log

/-- A set of statuses that a cancellation does not leave. -/
def Closed (P : WorkflowStatus → Prop) : Prop :=
  ∀ s, P s → s.canTransition .cancelled = true → P .cancelled

/-- It is the exception of a transition. -/
def Exn.OfState (x : Exn) : Prop := ∃ current target, x = .state current target

abbrev Keeps {α : Type} (i : ℕ) (post : α → Log Action Action.Reply → World → Prop)
    (fail : Exn → Log Action Action.Reply → World → Prop) (p : Prog α)
    (log : Log Action Action.Reply) (w : World) : Prop :=
  Safe protocol handler pre i post fail p log w

section Programs

variable {i n : ℕ} {P Q : WorkflowStatus → Prop} {log : Log Action Action.Reply} {w w' : World}

theorem Holds.mono (h : Holds i n P w) (hPQ : ∀ s, P s → Q s) : Holds i n Q w := by
  obtain ⟨m, hm, hown, hP⟩ := h
  exact ⟨m, hm, hown, hPQ _ hP⟩

/-- **What the others leave of the machine of a run.** -/
theorem Holds.rely (h : Holds i n P w) (hP : Closed P) (hrely : Rely i w w') : Holds i n P w' := by
  obtain ⟨m, hm, rfl, hs⟩ := h
  obtain ⟨m', hm', hleft⟩ := hrely.machines n m hm
  refine ⟨m', hm', hleft.owner, ?_⟩
  rcases hleft.own rfl with heq | ⟨hcan, hcancelled⟩
  · exact heq ▸ hs
  · exact hcancelled ▸ hP _ hs hcan

theorem own_mono {x : Exn} (h : Own log x) (rest : Log Action Action.Reply) :
    Own (log ++ rest) x := by
  intro message hx
  obtain ⟨entry, hentry, hraises⟩ := h message hx
  exact ⟨entry, List.mem_append_left rest hentry, hraises⟩

theorem own_awaited {entry : Σ e : Action, e.Reply} {message : String}
    (h : raises entry = some message) : Own (log ++ [entry]) (.awaited message) := by
  intro message' hx
  obtain rfl := Exn.awaited.inj hx
  exact ⟨entry, List.mem_append_right _ (List.mem_singleton_self _), h⟩

theorem LastRaised.mono (h : LastRaised log) (rest : Log Action Action.Reply) :
    LastRaised (log ++ rest) := by
  obtain ⟨event, message, hevent, hmem⟩ := h
  exact ⟨event, message, hevent, List.mem_append_left rest hmem⟩

/-- What the environment supplies for an await that has no value. -/
theorem awaitedReply_cases {input : Input} {r : Except Exn Unit} (h : awaitedReply input = some r) :
    r = .ok () ∨ ∃ message, r = .error (.awaited message) := by
  cases input <;> simp only [awaitedReply, reduceCtorEq, Option.some.injEq] at h
  · exact .inl h.symm
  · exact .inr ⟨_, h.symm⟩

/-- **A publication** leaves the machine where it is. -/
theorem publish_safe (hP : Closed P) (hw : Holds i n P w) (event : WorkflowEvent) :
    Keeps i (fun _ log' w' => log' = log ++ [⟨.publish event, .ok ()⟩] ∧ Holds i n P w')
      (fun x log' w' => ∃ message, x = .awaited message ∧
        log' = log ++ [⟨.publish event, .error (.awaited message)⟩] ∧ Holds i n P w')
      (publish event) log w := by
  refine .perform fun w' hrely _ => ⟨trivial, fun input r w'' hr => ?_⟩
  obtain ⟨r', hreply, hr⟩ := Option.map_eq_some_iff.mp hr
  obtain ⟨rfl, rfl⟩ := Prod.mk.inj hr
  have hw' := hw.rely hP hrely
  rcases awaitedReply_cases hreply with rfl | ⟨message, rfl⟩
  · exact .ret ⟨rfl, hw'⟩
  · exact .raise ⟨message, rfl, rfl, hw'⟩

/-- **A transition** of the machine, from a status it may be in. -/
theorem transition_safe (hP : Closed P) (hw : Holds i n P w) (target : WorkflowStatus) :
    Keeps i (fun _ log' w' => (∃ s, P s ∧ s.canTransition target = true) ∧
        log' = log ++ [⟨.transition n target, .ok ()⟩] ∧ Holds i n (· = target) w')
      (fun x log' w' => ∃ s, P s ∧ s.canTransition target = false ∧ x = .state s target ∧
        (∃ r, log' = log ++ [⟨.transition n target, r⟩]) ∧ Holds i n (· = s) w')
      (transition n target) log w := by
  refine .perform fun w' hrely _ => ⟨(hw.rely hP hrely).mono fun _ _ => trivial, ?_⟩
  intro input r w'' hr
  obtain ⟨m, hm, hown, hs⟩ := hw.rely hP hrely
  cases input <;> simp only [handler, hm, reduceCtorEq, Option.map_some, Option.some.injEq] at hr
  rcases transition_cases hr with ⟨hcan, rfl, rfl⟩ | ⟨hcan, rfl, rfl⟩
  · refine .ret ⟨⟨m.current, hs, hcan⟩, rfl, { m with current := target }, ?_, hown, rfl⟩
    exact List.getElem?_set_self (List.getElem?_eq_some_iff.mp hm).1
  · exact .raise ⟨m.current, hs, hcan, rfl, ⟨_, rfl⟩, m, hm, hown, rfl⟩

/-- **What a program awaits** leaves the machine where it is, and the exceptions are its own. -/
abbrev Awaits {α : Type} (i n : ℕ) (P : WorkflowStatus → Prop) (p : Prog α)
    (log : Log Action Action.Reply) (w : World) : Prop :=
  Keeps i (fun _ _ w' => Holds i n P w')
    (fun x log' w' => Own log' x ∧ ¬x.OfState ∧ Holds i n P w') p log w

theorem not_ofState_awaited (message : String) : ¬(Exn.awaited message).OfState := by
  rintro ⟨_, _, h⟩
  cases h

theorem publish_awaits (hP : Closed P) (hw : Holds i n P w) (event : WorkflowEvent) :
    Awaits i n P (publish event) log w := by
  refine (publish_safe hP hw event).mono (fun _ _ _ h => h.2) ?_
  rintro x log' w' ⟨message, rfl, rfl, hw'⟩
  exact ⟨own_awaited rfl, not_ofState_awaited message, hw'⟩

theorem handleStepError_awaits (hP : Closed P) (hw : Holds i n P w) (p : Progress)
    (step : WorkflowStep) : Awaits i n P (handleStepError p step) log w := by
  unfold handleStepError
  refine .bind ((publish_awaits hP hw _).mono (fun _ log₁ w₁ hw₁ => ?_) fun _ _ _ h => h)
  split
  · refine .bind ((publish_awaits hP hw₁ _).mono (fun _ log₂ w₂ hw₂ => ?_) fun _ _ _ h => h)
    refine .perform fun w₃ hrely _ => ⟨trivial, fun input r w₄ hr => .ret ?_⟩
    cases input <;> simp only [handler, reduceCtorEq, Option.ite_none_right_eq_some,
      Option.some.injEq, Prod.mk.injEq] at hr
    exact hr.2.2 ▸ hw₂.rely hP hrely
  · exact .ret hw₁

theorem executeStep_awaits (hP : Closed P) (hw : Holds i n P w) (p : Progress)
    (step : WorkflowStep) : Awaits i n P (executeStep p step) log w := by
  unfold executeStep
  split
  · exact .ret hw
  · refine .bind ((publish_awaits hP hw _).mono (fun _ log₁ w₁ hw₁ => ?_) fun _ _ _ h => h)
    refine .perform fun w₂ hrely _ => ⟨trivial, fun input outcome w₃ hr => ?_⟩
    cases input <;> simp only [handler, reduceCtorEq, Option.ite_none_right_eq_some,
      Option.some.injEq, Prod.mk.injEq] at hr
    obtain ⟨-, -, rfl⟩ := hr
    have hw₃ := hw₁.rely hP hrely
    cases outcome with
    | output value =>
      exact .bind ((publish_awaits hP hw₃ _).mono (fun _ _ _ h => .ret h) fun _ _ _ h => h)
    | stepError message => exact handleStepError_awaits hP hw₃ _ step
    | raised message => exact .raise ⟨own_awaited rfl, not_ofState_awaited message, hw₃⟩

theorem executeSteps_awaits (hP : Closed P) (hw : Holds i n P w) (p : Progress)
    (steps : List WorkflowStep) : Awaits i n P (executeSteps p steps) log w := by
  induction steps generalizing p log w with
  | nil => exact .ret hw
  | cons step steps ih =>
    exact .bind ((executeStep_awaits hP hw p step).mono (fun p' _ _ hw' => ih hw' p')
      fun _ _ _ h => h)

/-- **The executor** leaves the machine where it is. -/
theorem execute_awaits (hP : Closed P) (hw : Holds i n P w) (plan : WorkflowPlan) :
    Awaits i n P (execute plan) log w :=
  .bind ((executeSteps_awaits hP hw {} plan.steps).mono (fun _ _ _ hw' => .ret hw')
    fun _ _ _ h => h)

theorem planOf_awaits (hP : Closed P) (hw : Holds i n P w) : Awaits i n P planOf log w := by
  refine .perform fun w' hrely _ => ⟨trivial, fun input r w'' hr => ?_⟩
  cases input <;> simp only [handler, reduceCtorEq, Option.some.injEq, Prod.mk.injEq] at hr
  · obtain ⟨rfl, rfl⟩ := hr
    exact .raise ⟨own_awaited rfl, not_ofState_awaited _, hw.rely hP hrely⟩
  · obtain ⟨rfl, rfl⟩ := hr
    exact .ret (hw.rely hP hrely)

theorem planning_awaits (hP : Closed P) (hw : Holds i n P w) (config : WorkflowConfig)
    (workflowId : String) : Awaits i n P (planning config workflowId) log w := by
  unfold planning
  split
  · refine .bind ((planOf_awaits hP hw).mono (fun plan _ w₁ hw₁ => ?_) fun _ _ _ h => h)
    split
    · refine .bind ((planOf_awaits hP hw₁).mono (fun _ _ w₂ hw₂ => .raise ?_) fun _ _ _ h => h)
      exact ⟨nofun, nofun, hw₂⟩
    · exact .ret hw₁
  · exact .raise ⟨nofun, nofun, hw⟩

/-! ## A run -/

/-- Where the machine of a run is as long as the run has not decided its outcome. -/
def Undecided (s : WorkflowStatus) : Prop := s = .planning ∨ s = .running ∨ s = .cancelled

/-- The status that a result is reported with. -/
def WorkflowResult.final (result : WorkflowResult) : WorkflowStatus :=
  if result.status = .completed then .completed else .failed

/-- What a `try` block leaves that raises. -/
inductive Raised (i n : ℕ) (x : Exn) (log : Log Action Action.Reply) (w : World) : Prop
  /-- Its outcome is not decided, and only a cancelled machine refuses a transition. -/
  | undecided (hw : Holds i n Undecided w) (hstate : x.OfState → Holds i n (· = .cancelled) w)
  /-- The publication of the last event has raised. -/
  | decided (hw : Holds i n (fun s => s = .completed ∨ s = .failed) w) (hstate : ¬x.OfState)
    (hlast : LastRaised log)

theorem closed_cancelled : Closed (· = .cancelled) := by
  rintro s rfl h
  exact absurd h (by decide)

theorem closed_ready : Closed fun s => s = .ready ∨ s = .cancelled := fun _ _ _ => .inr rfl

theorem closed_planning : Closed fun s => s = .planning ∨ s = .cancelled := fun _ _ _ => .inr rfl

theorem closed_running : Closed fun s => s = .running ∨ s = .cancelled := fun _ _ _ => .inr rfl

theorem closed_undecided : Closed Undecided := fun _ _ _ => .inr (.inr rfl)

theorem closed_terminal : Closed (·.isTerminal = true) := fun _ _ _ => rfl

theorem closed_decided : Closed fun s => s = .completed ∨ s = .failed := by
  rintro s (rfl | rfl) h <;> exact absurd h (by decide)

theorem closed_final (result : WorkflowResult) : Closed (· = result.final) := by
  rintro s rfl h
  unfold WorkflowResult.final at h
  split at h <;> exact absurd h (by decide)

/-- A transition that a run makes is refused to a cancelled machine only. -/
theorem refused {s₀ target : WorkflowStatus} (hP : Closed fun s => s = s₀ ∨ s = .cancelled)
    (hcan : s₀.canTransition target = true) (hw : Holds i n (fun s => s = s₀ ∨ s = .cancelled) w) :
    Keeps i (fun _ _ w' => Holds i n (· = target) w')
      (fun x log' w' => Own log' x ∧ Raised i n x log' w') (transition n target) log w := by
  refine (transition_safe hP hw target).mono (fun _ _ _ h => h.2.2) ?_
  rintro x log' w' ⟨s, hs, hno, rfl, -, hw'⟩
  rcases hs with rfl | rfl
  · rw [hcan] at hno
    cases hno
  · exact ⟨nofun, .undecided (hw'.mono fun _ h => .inr (.inr h)) fun _ => hw'⟩

/-- The last transition of a run, and its event. -/
theorem decide_safe {target : WorkflowStatus} {event : WorkflowEvent}
    (htarget : target = .completed ∧ event = .completed ∨ target = .failed ∧ event = .failed)
    (hw : Holds i n (fun s => s = .running ∨ s = .cancelled) w) (result : WorkflowResult) :
    Keeps i (fun r _ w' => r = result ∧ Holds i n (· = target) w')
      (fun x log' w' => Own log' x ∧ Raised i n x log' w')
      (do transition n target; publish event; pure result) log w := by
  have hclosed : Closed (· = target) := by
    rintro s rfl h
    rcases htarget with ⟨rfl, -⟩ | ⟨rfl, -⟩ <;> exact absurd h (by decide)
  have hcan : WorkflowStatus.running.canTransition target = true := by
    rcases htarget with ⟨rfl, -⟩ | ⟨rfl, -⟩ <;> rfl
  have hdecided : ∀ s, s = target → s = .completed ∨ s = .failed := by
    rintro s rfl
    exact htarget.imp And.left And.left
  refine .bind ((refused closed_running hcan hw).mono (fun _ log₁ w₁ hw₁ => ?_) fun _ _ _ h => h)
  refine .bind ((publish_safe hclosed hw₁ event).mono ?_ ?_)
  · rintro _ log₂ w₂ ⟨-, hw₂⟩
    exact .ret ⟨rfl, hw₂⟩
  · rintro x log₂ w₂ ⟨message, rfl, rfl, hw₂⟩
    refine ⟨own_awaited rfl, .decided (hw₂.mono hdecided) (not_ofState_awaited message) ?_⟩
    exact ⟨event, message, htarget.imp And.right And.right,
      List.mem_append_right _ (List.mem_singleton_self _)⟩

/-- **The `try` block**: the machine follows the run unless it is cancelled. -/
theorem carryOut_safe (hw : Holds i n (fun s => s = .ready ∨ s = .cancelled) w)
    (config : WorkflowConfig) (workflowId : String) :
    Keeps i (fun r _ w' => Holds i n (· = r.final) w')
      (fun x log' w' => Own log' x ∧ Raised i n x log' w') (carryOut config workflowId n) log
      w := by
  have hawaits : ∀ {P : WorkflowStatus → Prop} {x log w}, (∀ s, P s → Undecided s) →
      Own log x ∧ ¬x.OfState ∧ Holds i n P w → Own log x ∧ Raised i n x log w :=
    fun hP ⟨hown, hstate, hw⟩ =>
      ⟨hown, .undecided (hw.mono hP) fun h => absurd h hstate⟩
  have hplanning : ∀ s : WorkflowStatus, s = .planning ∨ s = .cancelled → Undecided s :=
    fun _ h => h.imp_right .inr
  have hrunning : ∀ s : WorkflowStatus, s = .running ∨ s = .cancelled → Undecided s :=
    fun _ h => .inr h
  unfold carryOut
  refine .bind ((refused closed_ready rfl hw).mono (fun _ log₁ w₁ hw₁ => ?_) fun _ _ _ h => h)
  have hw₁' : Holds i n (fun s => s = .planning ∨ s = .cancelled) w₁ := hw₁.mono fun _ => .inl
  refine .bind ((planning_awaits closed_planning hw₁' config workflowId).mono
    (fun plan log₂ w₂ hw₂ => ?_) fun _ _ _ h => hawaits hplanning h)
  refine .bind ((refused closed_planning rfl hw₂).mono (fun _ log₃ w₃ hw₃ => ?_) fun _ _ _ h => h)
  have hw₃' : Holds i n (fun s => s = .running ∨ s = .cancelled) w₃ := hw₃.mono fun _ => .inl
  refine .bind ((publish_awaits closed_running hw₃' _).mono (fun _ log₄ w₄ hw₄ => ?_)
    fun _ _ _ h => hawaits hrunning h)
  refine .bind ((execute_awaits closed_running hw₄ plan).mono (fun result log₅ w₅ hw₅ => ?_)
    fun _ _ _ h => hawaits hrunning h)
  unfold complete
  split
  · rename_i hcompleted
    refine (decide_safe (.inl ⟨rfl, rfl⟩) hw₅ result).mono ?_ fun _ _ _ h => h
    rintro r _ w₆ ⟨rfl, hw₆⟩
    rwa [WorkflowResult.final, if_pos hcompleted]
  · rename_i hfailed
    refine (decide_safe (.inr ⟨rfl, rfl⟩) hw₅ result).mono ?_ fun _ _ _ h => h
    rintro r _ w₆ ⟨rfl, hw₆⟩
    rwa [WorkflowResult.final, if_neg hfailed]

/-- What a run leaves that raises: its machine is in a final status, and it raises the exception of
a transition only if it was cancelled or the publication of its last event has raised. -/
structure Failed (i n : ℕ) (x : Exn) (log : Log Action Action.Reply) (w : World) : Prop where
  own : Own log x
  terminal : Holds i n (·.isTerminal = true) w
  state : x.OfState → Holds i n (· = .cancelled) w ∨ LastRaised log

/-- **The `except` block**: the machine of a run whose outcome is not decided fails, unless it is
cancelled. -/
theorem handleException_safe {x : Exn} (hown : Own log x) (h : Raised i n x log w) :
    Keeps i (fun _ _ _ => False) (Failed i n) (handleException n x) log w := by
  unfold handleException
  cases h with
  | decided hw hstate hlast =>
    refine .bind ((transition_safe closed_decided hw .failed).mono ?_ ?_)
    · rintro _ log₁ w₁ ⟨⟨s, rfl | rfl, hcan⟩, -, -⟩ <;> exact absurd hcan (by decide)
    · rintro y log₁ w₁ ⟨s, hs, -, rfl, ⟨r, rfl⟩, hw₁⟩
      refine ⟨nofun, hw₁.mono ?_, fun _ => .inr (hlast.mono _)⟩
      rintro t rfl
      rcases hs with rfl | rfl <;> rfl
  | undecided hw hstate =>
    have hrefused : ∀ {y : Exn} {log₁ w₁}, Own log₁ y → Holds i n (· = .cancelled) w₁ →
        Failed i n y log₁ w₁ :=
      fun hown hw₁ => ⟨hown, hw₁.mono fun _ h => h ▸ rfl, fun _ => .inl hw₁⟩
    by_cases hx : x.OfState
    · refine .bind ((transition_safe closed_cancelled (hstate hx) .failed).mono ?_ ?_)
      · rintro _ log₁ w₁ ⟨⟨s, rfl, hcan⟩, -, -⟩
        exact absurd hcan (by decide)
      · rintro y log₁ w₁ ⟨s, rfl, -, rfl, -, hw₁⟩
        exact hrefused nofun hw₁
    · refine .bind ((transition_safe closed_undecided hw .failed).mono ?_ ?_)
      · rintro _ log₁ w₁ ⟨-, rfl, hw₁⟩
        have hfailed : Closed (· = WorkflowStatus.failed) := by
          rintro s rfl h
          exact absurd h (by decide)
        have hterminal : ∀ s : WorkflowStatus, s = .failed → s.isTerminal = true := by
          rintro s rfl
          rfl
        refine .bind ((publish_safe hfailed hw₁ _).mono ?_ ?_)
        · rintro _ log₂ w₂ ⟨rfl, hw₂⟩
          exact .raise ⟨own_mono (own_mono hown _) _, hw₂.mono hterminal, fun h => absurd h hx⟩
        · rintro y log₂ w₂ ⟨message, rfl, rfl, hw₂⟩
          exact ⟨own_awaited rfl, hw₂.mono hterminal,
            fun h => absurd h (not_ofState_awaited message)⟩
      · rintro y log₁ w₁ ⟨s, rfl | rfl | rfl, hcan, rfl, -, hw₁⟩
        · exact absurd hcan (by decide)
        · exact absurd hcan (by decide)
        · exact hrefused nofun hw₁

/-- **The `try` statement** of a run. -/
theorem guardedRun_safe (hw : Holds i n (fun s => s = .ready ∨ s = .cancelled) w)
    (config : WorkflowConfig) (workflowId : String) :
    Keeps i (fun r _ w' => Holds i n (· = r.final) w') (Failed i n)
      (guardedRun config workflowId n) log w := by
  refine .tryCatch ((carryOut_safe hw config workflowId).mono (fun _ _ _ h => h) ?_)
  rintro x log₁ w₁ ⟨hown, hraised⟩
  exact (handleException_safe hown hraised).mono (fun _ _ _ h => h.elim) fun _ _ _ h => h

/-- What a run leaves: the machine of one that returns is where its result is reported. -/
def Outcome (i n : ℕ) : Except Exn WorkflowResult → Log Action Action.Reply → World → Prop
  | .ok r, _, w => Holds i n (· = r.final) w
  | .error x, log, w => Failed i n x log w

theorem Outcome.terminal {r : Except Exn WorkflowResult} (h : Outcome i n r log w) :
    Holds i n (·.isTerminal = true) w := by
  cases r with
  | ok r =>
    have hw : Holds i n (· = r.final) w := h
    refine hw.mono ?_
    rintro s rfl
    unfold WorkflowResult.final
    split <;> rfl
  | error x => exact Failed.terminal h

/-- What a run leaves stays, whatever the others do and it does itself. -/
theorem Outcome.rely {r : Except Exn WorkflowResult} (h : Outcome i n r log w)
    (hrely : Rely i w w') (rest : Log Action Action.Reply) : Outcome i n r (log ++ rest) w' := by
  cases r with
  | ok r =>
    have hw : Holds i n (· = r.final) w := h
    exact hw.rely (closed_final r) hrely
  | error x =>
    have hfailed : Failed i n x log w := h
    refine ⟨own_mono hfailed.own rest, hfailed.terminal.rely closed_terminal hrely, fun hx => ?_⟩
    exact (hfailed.state hx).imp (·.rely closed_cancelled hrely) (·.mono rest)

theorem attempt_safe {p : Prog WorkflowResult}
    (h : Keeps i (fun r _ w' => Holds i n (· = r.final) w') (Failed i n) p log w) :
    Keeps i (Outcome i n) (fun _ _ _ => False) (attempt p) log w := by
  refine .tryCatch (.bind (h.mono (fun _ _ _ hr => .ret hr) fun _ _ _ hx => .ret hx))

/-- **The `finally` block** of a run. -/
theorem finishing_safe {p : Prog WorkflowResult}
    (h : Keeps i (fun r _ w' => Holds i n (· = r.final) w') (Failed i n) p log w) :
    Keeps i (fun r log' w' => Outcome i n (.ok r) log' w')
      (fun x log' w' => Outcome i n (.error x) log' w') (finishing p) log w := by
  refine .bind ((attempt_safe h).mono (fun outcome log₁ w₁ houtcome => ?_) fun _ _ _ h => h.elim)
  refine .bind (.perform fun w₂ hrely _ => ⟨trivial, fun input r w₃ hr => ?_⟩)
  obtain ⟨r', hreply, hr⟩ := Option.map_eq_some_iff.mp hr
  obtain ⟨rfl, rfl⟩ := Prod.mk.inj hr
  rcases awaitedReply_cases hreply with rfl | ⟨message, rfl⟩
  · refine .ret ?_
    cases outcome with
    | ok r => exact .ret (houtcome.rely hrely _)
    | error x => exact .raise (houtcome.rely hrely _)
  · refine .raise ⟨own_awaited rfl, houtcome.terminal.rely closed_terminal hrely, fun h => ?_⟩
    exact absurd h (not_ofState_awaited message)

/-- The publication of the first event of a run has raised. -/
def FirstRaised (log : Log Action Action.Reply) : Prop :=
  ∃ message, ⟨.publish .created, .error (.awaited message)⟩ ∈ log

/-- **How a run ends**: before it has registered a machine, before its first event is published, or
with its outcome. -/
inductive Ends (i : ℕ) : Except Exn WorkflowResult → Log Action Action.Reply → World → Prop
  | unregistered {x : Exn} {log : Log Action Action.Reply} {w : World} (hown : Own log x)
    (hstate : ¬x.OfState) (hnone : registered log = []) : Ends i (.error x) log w
  | unannounced {x : Exn} {log : Log Action Action.Reply} {w : World} {workflowId : String} {n : ℕ}
    (hown : Own log x) (hstate : ¬x.OfState) (hregistered : registered log = [(workflowId, n)])
    (hstays : Stays workflowId n w) (hfirst : FirstRaised log) : Ends i (.error x) log w
  | decided {r : Except Exn WorkflowResult} {log : Log Action Action.Reply} {w : World}
    {workflowId : String} {n : ℕ} (houtcome : Outcome i n r log w)
    (hregistered : registered log = [(workflowId, n)]) (hstays : Stays workflowId n w) :
    Ends i r log w

theorem Ends.rely {r : Except Exn WorkflowResult} (h : Ends i r log w) (hrely : Rely i w w') :
    Ends i r log w' := by
  cases h with
  | unregistered hown hstate hnone => exact .unregistered hown hstate hnone
  | unannounced hown hstate hregistered hstays hfirst =>
    exact .unannounced hown hstate hregistered (hrely.active _ _ hstays) hfirst
  | decided houtcome hregistered hstays =>
    have houtcome' := houtcome.rely hrely []
    rw [List.append_nil] at houtcome'
    exact .decided houtcome' hregistered (hrely.active _ _ hstays)

/-- What a call has registered stays registered. -/
theorem stable_registered (i : ℕ) (workflowId : String) (n : ℕ) :
    Stable protocol handler pre i fun log w =>
      registered log = [(workflowId, n)] ∧ Stays workflowId n w where
  others _ _ _ hrely _ h := ⟨h.1, hrely.active _ _ h.2⟩
  own log e input r w w' hinv hpre hr h := by
    refine ⟨?_, ((sound hinv hpre hr).2 (i + 1) (Nat.succ_ne_self i)).active _ _ h.2⟩
    have hgrows : registered (log ++ [⟨e, r⟩]) = registered log ++ registered [⟨e, r⟩] :=
      List.filterMap_append ..
    rw [hgrows, h.1]
    cases e with
    | register other =>
      have hnone : registered log = [] := hpre
      exact absurd (h.1.symm.trans hnone) (List.cons_ne_nil _ _)
    | initializeInstance => rfl
    | plan => rfl
    | shutdown => rfl
    | publish event => rfl
    | executeStep step => rfl
    | transition n target => rfl
    | cancel workflowId => rfl

/-- A run that has registered its machine. -/
theorem announced_safe (hw : Holds i n (· = .ready) w) (config : WorkflowConfig)
    (workflowId : String) :
    Keeps i (fun r log' w' => Outcome i n (.ok r) log' w')
      (fun x log' w' => Outcome i n (.error x) log' w' ∨
        Own log' x ∧ ¬x.OfState ∧ FirstRaised log')
      (do publish .created; finishing (guardedRun config workflowId n)) log w := by
  have hw' : Holds i n (fun s => s = .ready ∨ s = .cancelled) w := hw.mono fun _ => .inl
  refine .bind ((publish_safe closed_ready hw' _).mono ?_ ?_)
  · rintro _ log₁ w₁ ⟨-, hw₁⟩
    exact (finishing_safe (guardedRun_safe hw₁ config workflowId)).mono (fun _ _ _ h => h)
      fun _ _ _ h => .inl h
  · rintro x log₁ w₁ ⟨message, rfl, rfl, -⟩
    exact .inr ⟨own_awaited rfl, not_ofState_awaited message, message,
      List.mem_append_right _ (List.mem_singleton_self _)⟩

/-- **A run is safe**, and ends in one of the three ways. -/
theorem run_safe (config : WorkflowConfig) (registry : String → Option String)
    (request : WorkflowRequest) :
    Keeps i (fun r log' w' => Ends i (.ok r) log' w') (fun x log' w' => Ends i (.error x) log' w')
      (run config registry request) [] w := by
  unfold run
  cases registry request.workflowName with
  | none => exact .raise (.unregistered nofun nofun rfl)
  | some workflowId =>
    refine .bind (.perform fun w₁ _ _ => ⟨trivial, fun input r w₂ hr => ?_⟩)
    obtain ⟨r', hreply, hr⟩ := Option.map_eq_some_iff.mp hr
    obtain ⟨rfl, rfl⟩ := Prod.mk.inj hr
    rcases awaitedReply_cases hreply with rfl | ⟨message, rfl⟩
    · refine .ret (.perform fun w₂ _ hinv => ⟨rfl, fun input n w₃ hr => ?_⟩)
      cases input <;> simp only [handler, reduceCtorEq, Option.some.injEq, Prod.mk.injEq] at hr
      obtain ⟨rfl, rfl⟩ := hr
      refine ((announced_safe ⟨⟨i, .ready⟩, ?_, rfl, rfl⟩ config workflowId).frame
        (stable_registered i workflowId w₂.machines.length) ⟨rfl, ?_⟩).mono ?_ ?_
      · exact List.getElem?_concat_length ..
      · exact ⟨_, Nat.le_refl _, Assoc.get_set_self ..⟩
      · rintro r log w ⟨houtcome, hregistered, hstays⟩
        exact .decided houtcome hregistered hstays
      · rintro x log w ⟨houtcome | ⟨hown, hstate, hfirst⟩, hregistered, hstays⟩
        · exact .decided houtcome hregistered hstays
        · exact .unannounced hown hstate hregistered hstays hfirst
    · exact .raise (.unregistered (@own_awaited [] _ message rfl) (not_ofState_awaited message) rfl)

/-- What a call of `cancel` has cancelled: the machine is cancelled. -/
def Announced (workflowId : String) (log : Log Action Action.Reply) (w : World) : Answer → Prop
  | .found true => ∃ n m, ⟨.cancel workflowId, .ok (some n)⟩ ∈ log ∧
    w.machines[n]? = some m ∧ m.current = .cancelled
  | _ => True

theorem Announced.rely {workflowId : String} {a : Answer} (h : Announced workflowId log w a)
    (hrely : Rely i w w') : Announced workflowId log w' a := by
  cases a with
  | result result => trivial
  | found found =>
    cases found with
    | false => trivial
    | true =>
      obtain ⟨n, m, hmem, hm, hcancelled⟩ := h
      obtain ⟨m', hm', hleft⟩ := hrely.machines n m hm
      exact ⟨n, m', hmem, hm', hleft.cancelled hcancelled⟩

/-- **A cancellation** that returns true has cancelled a machine. -/
theorem cancel_safe (workflowId : String) :
    Keeps i (fun found log' w' => Announced workflowId log' w' (.found found)) (fun _ _ _ => True)
      (cancel workflowId) [] w := by
  refine .bind (.perform fun w₁ _ _ => ⟨trivial, fun input r w₂ hr => ?_⟩)
  cases r with
  | error e => exact .raise trivial
  | ok found =>
    refine .ret ?_
    cases found with
    | none => exact .ret trivial
    | some n =>
      have hcancelled : ∃ m, w₂.machines[n]? = some m ∧ m.current = .cancelled := by
        cases input <;> simp only [handler, reduceCtorEq] at hr
        split at hr
        · cases hr
        · obtain ⟨m, hm, ht⟩ := Option.map_eq_some_iff.mp hr
          obtain ⟨hreply, rfl⟩ := Prod.mk.inj ht
          rename_i n' _
          rcases transition_cases (w := w₁) (m := m) (n := n') (Prod.eta _).symm with
            ⟨-, hok, hw₂⟩ | ⟨-, herror, -⟩
          · rw [hok] at hreply
            obtain rfl := Option.some.inj (Except.ok.inj hreply)
            rw [hw₂]
            exact ⟨_, List.getElem?_set_self (List.getElem?_eq_some_iff.mp hm).1, rfl⟩
          · rw [herror] at hreply
            cases hreply
      obtain ⟨m, hm, hcurrent⟩ := hcancelled
      refine .bind (.perform fun w₃ hrely _ => ⟨trivial, fun input' r w₄ hr' => ?_⟩)
      obtain ⟨r', -, hr'⟩ := Option.map_eq_some_iff.mp hr'
      obtain ⟨rfl, rfl⟩ := Prod.mk.inj hr'
      cases r' with
      | error e => exact .raise trivial
      | ok _ =>
        refine .ret (.ret ?_)
        obtain ⟨m', hm', hleft⟩ := hrely.machines n m hm
        exact ⟨n, m', by simp, hm', hleft.cancelled hcurrent⟩

/-! ## Calls -/

/-- What a call leaves that returns. -/
def Returned (i : ℕ) : Request → Answer → Log Action Action.Reply → World → Prop
  | .run _, .result r, log, w => Ends i (.ok r) log w
  | .run _, .found _, _, _ => False
  | .cancel workflowId, a, log, w => Announced workflowId log w a

/-- What a call leaves that raises. -/
def RaisedBy (i : ℕ) : Request → Exn → Log Action Action.Reply → World → Prop
  | .run _, x, log, w => Ends i (.error x) log w
  | .cancel _, _, _, _ => True

theorem start_safe (config : WorkflowConfig) (registry : String → Option String) (i : ℕ)
    (k : Request) (w : World) :
    Keeps i (fun a log' w' => Returned i k a log' w') (fun x log' w' => RaisedBy i k x log' w')
      (start config registry k) [] w := by
  cases k with
  | run request =>
    exact .bind ((run_safe config registry request).mono (fun _ _ _ h => .ret h) fun _ _ _ h => h)
  | cancel workflowId =>
    exact .bind ((cancel_safe workflowId).mono (fun _ _ _ h => .ret h) fun _ _ _ _ => trivial)

end Programs

/-! ## The executor's result -/

section Paths

variable {α β : Type} {log : Log Action Action.Reply}

/-- A path through a composition that returns passes the first program. -/
theorem leads_bind {p : Prog α} {f : α → Prog β} {b : β} (h : Leads (p >>= f) log (.ret b)) :
    ∃ a log₁ log₂, log = log₁ ++ log₂ ∧ Leads p log₁ (.ret a) ∧ Leads (f a) log₂ (.ret b) :=
  (Leads.of_bind h trivial).resolve_left fun ⟨_, _, h⟩ => by cases h

theorem leads_attempt {p : Prog α} {a : α} (h : Leads (attempt p) log (.ret (.ok a))) :
    Leads p log (.ret a) := by
  rcases Leads.of_tryCatch h trivial with ⟨r, hp, hr⟩ | ⟨x, log₁, log₂, rfl, -, hx⟩
  · obtain ⟨a', log₁, log₂, rfl, hp', ha'⟩ := leads_bind hp
    obtain ⟨rfl, hend⟩ := ha'.of_ret
    obtain rfl := Except.ok.inj (Program.ret.inj (hr.trans hend))
    rwa [List.append_nil]
  · obtain ⟨-, hx⟩ := hx.of_ret
    cases Program.ret.inj hx

/-- The `except` block returns nothing. -/
theorem not_leads_handleException {n : ℕ} {x : Exn} {r : WorkflowResult} :
    ¬Leads (handleException n x) log (.ret r) := by
  intro h
  obtain ⟨_, _, log₁, -, -, h⟩ := leads_bind h
  obtain ⟨_, _, log₂, -, -, h⟩ := leads_bind h
  obtain ⟨-, h⟩ := h.of_raise
  cases h

theorem leads_complete {n : ℕ} {result r : WorkflowResult}
    (h : Leads (complete n result) log (.ret r)) : r = result := by
  unfold complete at h
  split at h <;>
  · obtain ⟨_, _, log₁, -, -, h⟩ := leads_bind h
    obtain ⟨_, _, log₂, -, -, h⟩ := leads_bind h
    obtain ⟨-, h⟩ := h.of_ret
    exact Program.ret.inj h

/-- The executor has returned the result, in the part `log₂` of the log. -/
def Executed (result : WorkflowResult) (log : Log Action Action.Reply) : Prop :=
  ∃ plan log₁ log₂ log₃, log = log₁ ++ log₂ ++ log₃ ∧ Leads (execute plan) log₂ (.ret result)

theorem Executed.append {result : WorkflowResult} (h : Executed result log)
    (before after : Log Action Action.Reply) : Executed result (before ++ (log ++ after)) := by
  obtain ⟨plan, log₁, log₂, log₃, rfl, hexecute⟩ := h
  exact ⟨plan, before ++ log₁, log₂, log₃ ++ after, by simp, hexecute⟩

theorem executed_carryOut {config : WorkflowConfig} {workflowId : String} {n : ℕ}
    {r : WorkflowResult} (h : Leads (carryOut config workflowId n) log (.ret r)) :
    Executed r log := by
  obtain ⟨-, log₁, rest, rfl, -, h⟩ := leads_bind h
  obtain ⟨plan, log₂, rest, rfl, -, h⟩ := leads_bind h
  obtain ⟨-, log₃, rest, rfl, -, h⟩ := leads_bind h
  obtain ⟨-, log₄, rest, rfl, -, h⟩ := leads_bind h
  obtain ⟨result, log₅, rest, rfl, hexecute, h⟩ := leads_bind h
  obtain rfl := leads_complete h
  exact ⟨plan, log₁ ++ (log₂ ++ (log₃ ++ log₄)), log₅, rest, by simp, hexecute⟩

/-- **A run returns what its executor has returned.** -/
theorem executed_run {config : WorkflowConfig} {registry : String → Option String}
    {request : WorkflowRequest} {r : WorkflowResult}
    (h : Leads (run config registry request) log (.ret r)) : Executed r log := by
  unfold run at h
  cases hregistry : registry request.workflowName with
  | none =>
    rw [hregistry] at h
    obtain ⟨-, h⟩ := h.of_raise
    cases h
  | some workflowId =>
    rw [hregistry] at h
    obtain ⟨-, log₁, rest, rfl, -, h⟩ := leads_bind h
    obtain ⟨n, log₂, rest, rfl, -, h⟩ := leads_bind h
    obtain ⟨-, log₃, rest, rfl, -, h⟩ := leads_bind h
    obtain ⟨outcome, log₄, rest, rfl, hattempt, h⟩ := leads_bind h
    obtain ⟨-, log₅, log₆, rfl, -, h⟩ := leads_bind h
    cases outcome with
    | error x =>
      obtain ⟨-, h⟩ := h.of_raise
      cases h
    | ok r' =>
      obtain ⟨rfl, hend⟩ := h.of_ret
      obtain rfl := Program.ret.inj hend
      rcases Leads.of_tryCatch (leads_attempt hattempt) trivial with
        ⟨r', hcarry, hr⟩ | ⟨x, l, l', -, -, hexcept⟩
      · obtain rfl := Program.ret.inj hr
        have hexecuted := (executed_carryOut hcarry).append (log₁ ++ (log₂ ++ log₃)) (log₅ ++ [])
        simpa using hexecuted
      · exact absurd hexcept not_leads_handleException

end Paths

/-! ## The law -/

/-- **The law of the runs and the cancellations.** -/
structure RunLaw (c : Calls) : Prop where
  /-- A run returns what its executor has returned. -/
  returns : ∀ (i : ℕ) (request : WorkflowRequest) (log : Log Action Action.Reply)
    (result : WorkflowResult), c.calls[i]? = some ⟨.run request, log, .ret (.result result)⟩ →
    Executed result log
  /-- What a run raises is its own, and no exception of a transition unless its machine is
  cancelled or the publication of its last event has raised. -/
  raises : ∀ (i : ℕ) (request : WorkflowRequest) (log : Log Action Action.Reply) (x : Exn),
    c.calls[i]? = some ⟨.run request, log, .raise x⟩ → Own log x ∧ (x.OfState →
      (∃ workflowId n, (workflowId, n) ∈ registered log ∧
        Holds i n (· = .cancelled) c.world) ∨ LastRaised log)
  /-- The run that a cancellation has cancelled does not return. -/
  cancels : ∀ (j : ℕ) (workflowId : String) (log : Log Action Action.Reply),
    c.calls[j]? = some ⟨.cancel workflowId, log, .ret (.found true)⟩ →
    ∃ n, ⟨.cancel workflowId, .ok (some n)⟩ ∈ log ∧
      ∀ (i : ℕ) (request : WorkflowRequest) (log' : Log Action Action.Reply)
        (result : WorkflowResult),
        c.calls[i]? = some ⟨.run request, log', .ret (.result result)⟩ →
        ∀ other, (other, n) ∉ registered log'
  /-- The machine of a run that has ended stays registered until a later one of its workflow takes
  its place, and a cancellation of it raises. -/
  stays : ∀ (i : ℕ) (request : WorkflowRequest) (log : Log Action Action.Reply) (p : Prog Answer),
    c.calls[i]? = some ⟨.run request, log, p⟩ → p.Ended → ¬FirstRaised log →
    ∀ workflowId n, (workflowId, n) ∈ registered log → ∃ n', n ≤ n' ∧
      (workflowId, n') ∈ c.world.active ∧ (n' = n → ∀ j, ∃ s,
        handler j (.cancel workflowId) .done c.world =
          some (.error (.state s .cancelled), c.world))

section Law

variable {config : WorkflowConfig} {registry : String → Option String} {c : Calls} {i n : ℕ}
variable {log : Log Action Action.Reply} {request : WorkflowRequest}

/-- What every call leaves that has ended. -/
theorem call_safe (h : Reachable config registry c) {k : Request} {p : Prog Answer}
    (hi : c.calls[i]? = some ⟨k, log, p⟩) :
    Keeps i (fun a log' w' => Returned i k a log' w') (fun x log' w' => RaisedBy i k x log' w') p
      log c.world := by
  have hinv : Inv {} := fun _ _ h => by cases h
  have hstarts : StartsSafe protocol handler pre (start config registry) := fun i k w _ =>
    (start_safe config registry i k w).mono (fun _ _ _ _ => trivial) fun _ _ _ _ => trivial
  refine Reaches.each (fun _ => True) sound hstarts hinv
    (fun i k w _ _ => start_safe config registry i k w) ?_ ?_ h trivial hi
  · intro i k a log w w' hrely _ ha
    cases k with
    | run request =>
      cases a with
      | result r => exact Ends.rely ha hrely
      | found found => exact ha
    | cancel workflowId => exact Announced.rely ha hrely
  · intro i k x log w w' hrely _ hx
    cases k with
    | run request => exact Ends.rely hx hrely
    | cancel workflowId => trivial

/-- How a run has ended. -/
theorem ends_of (h : Reachable config registry c) {p : Prog Answer}
    (hi : c.calls[i]? = some ⟨.run request, log, p⟩) (hended : p.Ended) :
    ∃ r, Ends i r log c.world := by
  have hsafe := call_safe h hi
  cases p with
  | ret a =>
    have ha : Returned i (.run request) a log c.world := hsafe.of_ret
    cases a with
    | result r => exact ⟨.ok r, ha⟩
    | found found => exact ha.elim
  | raise x =>
    have hx : RaisedBy i (.run request) x log c.world := hsafe.of_raise
    exact ⟨.error x, hx⟩
  | await e next => exact hended.elim

/-- A terminal machine is not cancelled. -/
theorem cancel_terminal (hw : Holds i n (·.isTerminal = true) c.world) {workflowId : String}
    (hactive : Assoc.get c.world.active workflowId = some n) (j : ℕ) :
    ∃ s, handler j (.cancel workflowId) .done c.world =
      some (.error (.state s .cancelled), c.world) := by
  obtain ⟨m, hm, -, hterminal⟩ := hw
  have hno : m.current.canTransition .cancelled = false := by
    cases hcurrent : m.current <;> rw [hcurrent] at hterminal <;> first | rfl | cases hterminal
  refine ⟨m.current, ?_⟩
  simp only [handler, hactive, hm, World.transition, hno, Option.map_some]
  rfl

/-- **The law of the runs and the cancellations** holds in every reachable configuration. -/
theorem run_law (h : Reachable config registry c) : RunLaw c where
  returns i request log result hi := by
    have hleads := Reaches.leads h hi
    obtain ⟨r, log₁, log₂, rfl, hrun, hret⟩ := leads_bind hleads
    obtain ⟨rfl, hend⟩ := hret.of_ret
    obtain rfl : result = r := by simpa using hend
    rw [List.append_nil]
    exact executed_run hrun
  raises i request log x hi := by
    have hends : Ends i (.error x) log c.world := (call_safe h hi).of_raise
    cases hends with
    | unregistered hown hstate hnone => exact ⟨hown, fun hx => absurd hx hstate⟩
    | unannounced hown hstate hregistered hstays hfirst =>
      exact ⟨hown, fun hx => absurd hx hstate⟩
    | decided houtcome hregistered hstays =>
      have hfailed : Failed i _ x log c.world := houtcome
      refine ⟨hfailed.own, fun hx => (hfailed.state hx).imp_left fun hcancelled => ?_⟩
      exact ⟨_, _, by rw [hregistered]; exact List.mem_singleton_self _, hcancelled⟩
  cancels j workflowId log hj := by
    have hannounced : Announced workflowId log c.world (.found true) := (call_safe h hj).of_ret
    obtain ⟨n, m, hmem, hm, hcancelled⟩ := hannounced
    refine ⟨n, hmem, fun i request log' result hi other hother => ?_⟩
    have hends : Ends i (.ok result) log' c.world := (call_safe h hi).of_ret
    cases hends with
    | decided houtcome hregistered hstays =>
      rw [hregistered] at hother
      obtain ⟨-, rfl⟩ := Prod.mk.inj (List.mem_singleton.mp hother)
      have hfinal : Holds i n (· = result.final) c.world := houtcome
      obtain ⟨m', hm', -, hcurrent⟩ := hfinal
      obtain rfl := Option.some.inj (hm.symm.trans hm')
      rw [hcancelled, WorkflowResult.final] at hcurrent
      split at hcurrent <;> cases hcurrent
  stays i request log p hi hended hfirst workflowId n hmem := by
    obtain ⟨r, hends⟩ := ends_of h hi hended
    cases hends with
    | unregistered hown hstate hnone =>
      rw [hnone] at hmem
      cases hmem
    | unannounced hown hstate hregistered hstays hraised => exact absurd hraised hfirst
    | decided houtcome hregistered hstays =>
      rw [hregistered] at hmem
      obtain ⟨rfl, rfl⟩ := Prod.mk.inj (List.mem_singleton.mp hmem)
      obtain ⟨n', hle, hactive⟩ := hstays
      refine ⟨n', hle, Assoc.mem_of_get hactive, ?_⟩
      rintro rfl
      exact cancel_terminal houtcome.terminal hactive

end Law

/-! ## Runs that stay registered -/

namespace Scenario

/-- One workflow is registered. -/
def oneWorkflow : String → Option String := fun name => if name = "report" then some "wf1" else none

/-- The call `i` is a run of one step, and is completed. -/
def oneRun (i : ℕ) : List (Event Request Input) :=
  [.arrive (.run { workflowName := "report" }), .act i .done, .act i .done, .act i .done,
    .act i .done, .act i (.plan { steps := [{ id := "s1", stepType := .wait }] }), .act i .done,
    .act i .done, .act i .done, .act i (.step (.output .null)), .act i .done, .act i .done,
    .act i .done, .act i .done]

/-- The run is cancelled while it awaits its step, and goes on; then another one is completed. -/
def cancelledRun : List (Event Request Input) :=
  (oneRun 0).take 9 ++ ([.arrive (.cancel "wf1"), .act 1 .done, .act 1 .done,
    .act 0 (.step (.output .null)), .act 0 .done, .act 0 .done, .act 0 .done, .act 0 .done] :
    List (Event Request Input)) ++ oneRun 2

/-- The configuration it leads to. -/
def after (events : List (Event Request Input)) : Calls :=
  (Process.run handler (start {} oneWorkflow) (idle {}) events).getD (idle {})

theorem reachable_after (events : List (Event Request Input)) :
    Reachable {} oneWorkflow (after events) := by
  unfold after
  cases h : Process.run handler (start {} oneWorkflow) (idle {}) events with
  | none => exact .refl _
  | some c => exact ⟨events, h⟩

/-- What a call has come to. -/
def ended (c : Calls) (i : ℕ) : Option (Except Exn Answer) :=
  match c.calls[i]?.map Call.rest with
  | some (.ret a) => some (.ok a)
  | some (.raise x) => some (.error x)
  | _ => none

end Scenario

/-- The cancelled run raises, the run after it returns, and it is the machine of that one that is
registered. -/
theorem run_law_cancelledRun :
    Scenario.ended (Scenario.after Scenario.cancelledRun) 0 =
        some (.error (.state .cancelled .failed)) ∧
      Scenario.ended (Scenario.after Scenario.cancelledRun) 1 = some (.ok (.found true)) ∧
      Scenario.ended (Scenario.after Scenario.cancelledRun) 2 =
        some (.ok (.result ⟨"wf1", .completed, 1, 0, [("s1", .null)], []⟩)) ∧
      (Scenario.after Scenario.cancelledRun).world.active = [("wf1", 1)] ∧
      RunLaw (Scenario.after Scenario.cancelledRun) :=
  ⟨rfl, rfl, rfl, rfl, run_law (Scenario.reachable_after Scenario.cancelledRun)⟩

/-- The machine of a run that has ended is still registered, and a cancellation raises. -/
theorem afterRun_registered : ¬ ∀ c, Reachable {} Scenario.oneWorkflow c →
    ∀ (i : ℕ) (request : WorkflowRequest) (log : Log Action Action.Reply) (p : Prog Answer),
      c.calls[i]? = some ⟨.run request, log, p⟩ → p.Ended →
      ∀ workflowId n, (workflowId, n) ∈ registered log →
      (handler i (.cancel workflowId) .done c.world).map Prod.fst = some (.ok none) := by
  intro h
  obtain ⟨request, log, p, hi, hended, hregistered⟩ : ∃ request log p,
      (Scenario.after (Scenario.oneRun 0)).calls[0]? = some ⟨.run request, log, p⟩ ∧ p.Ended ∧
        ("wf1", 0) ∈ registered log := by
    refine ⟨_, _, _, rfl, trivial, ?_⟩
    decide +kernel
  have hcancel := h _ (Scenario.reachable_after (Scenario.oneRun 0)) 0 request log p hi hended
    "wf1" 0 hregistered
  exact absurd hcancel (by decide +kernel)

end Workflows

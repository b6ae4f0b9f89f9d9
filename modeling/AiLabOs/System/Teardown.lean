import AiLabOs.Process.Conditioned
import AiLabOs.System.Container

/-!
# System: a container closes what it has initialised

As long as no caller of `shutdown` comes while the container is starting, only the call that starts
it initialises components, and only before a shutdown has begun. The task of a shutdown then finds
all of them, and closes them. A caller that comes in between has the task close components that are
not there yet, and the start-up initialises them behind its back.

## Main definitions

* `Inv`, `Rely`: what holds of a container, and what its calls rely on
* `timely`: no caller shuts a container down that is starting

## Main results

* `guarded_sound`, `starts_safe`: what holds of every run of such calls
* `closes_what_it_initialises`
-/

namespace Containers

open Process

attribute [local simp] handler

/-! ## The invariant -/

/-- The call is starting the container, and no shutdown has begun. -/
structure World.Starting (w : World) (i : ℕ) : Prop where
  starter : w.starter = some i
  state : w.state = .starting
  shutdownTask : w.shutdownTask = none

/-- A component of the start-up. -/
def SystemContainer.Opens (s : SystemContainer) (component : Component) : Prop :=
  ∃ opening ∈ s.openings, opening.component = component

/-- **What holds of a container.** -/
structure Inv (s : SystemContainer) (w : World) : Prop where
  created : w.state = .created →
    w.shutdownTask = none ∧ w.shutdownFailures = [] ∧ ∀ x, w.status x = .fresh
  draining : w.state = .draining → w.shutdownTask ≠ none
  waiting : w.shutdownTask = some .created → w.state = .starting ∨ w.state = .ready
  running : ∀ i, w.shutdownTask = some (.running i) → w.state = .draining
  ended : ∀ outcome, w.shutdownTask = some (.ended outcome) → w.state = .stopped ∨ w.state = .failed
  opened : ∀ x, w.status x = .initialized → s.Opens x
  tools : ∀ name, w.status (.tool name) = .initialized → name ∈ w.toolInstances
  closed : w.state = .stopped ∨ w.state = .failed →
    ∀ x, s.closable x = true → w.status x ≠ .initialized
  failures : ∀ x, w.status x = .closeFailed → s.closeName x ∈ w.shutdownFailures
  stopped : w.state = .stopped → w.shutdownFailures = []

/-- **What a call relies on**: while it starts the container or runs the shutdown, nobody else
does. -/
structure Rely (i : ℕ) (w w' : World) : Prop where
  starting : w.Starting i → w'.Starting i
  running : w.shutdownTask = some (.running i) → w'.shutdownTask = some (.running i) ∧
    w'.status = w.status ∧ w'.toolInstances = w.toolInstances

/-- The protocol of a container. -/
def container (s : SystemContainer) : Protocol World where
  Inv := Inv s
  Rely := Rely
  refl _ _ := ⟨id, fun h => ⟨h, rfl, rfl⟩⟩
  trans h h' := by
    refine ⟨fun hw => h'.starting (h.starting hw), fun hw => ?_⟩
    obtain ⟨htask, hstatus, htools⟩ := h.running hw
    obtain ⟨htask', hstatus', htools'⟩ := h'.running htask
    exact ⟨htask', hstatus'.trans hstatus, htools'.trans htools⟩

/-- **What an action may do.** -/
def pre (s : SystemContainer) (i : ℕ) (_ : Log Action Action.Reply) (e : Action) (w : World) :
    Prop :=
  match e with
  | .initializer opening => w.Starting i ∧ opening ∈ s.openings
  | .ready => w.Starting i
  | .requestShutdown true => w.Starting i
  | .close _ => w.shutdownTask = some (.running i)
  | .clearTools => w.shutdownTask = some (.running i) ∧
    ∀ name, w.status (.tool name) ≠ .initialized
  | .finish => w.shutdownTask = some (.running i) ∧
    ∀ x, s.closable x = true → w.status x ≠ .initialized
  | _ => True

/-- A caller shuts the container down only while it is not starting, or once a shutdown has
begun. -/
def timely (_ : ℕ) (e : Action) (_ : Input) (w : World) : Bool :=
  match e with
  | .requestShutdown false => w.state ≠ .starting || w.shutdownTask.isSome
  | _ => true

/-! ## What an action keeps -/

section Sound

variable {s : SystemContainer} {w : World} {i j : ℕ}

theorem World.Starting.unique (h : w.Starting i) (h' : w.Starting j) : i = j :=
  Option.some.inj (h.starter.symm.trans h'.starter)

theorem Inv.initial (s : SystemContainer) : Inv s {} where
  created _ := ⟨rfl, rfl, fun _ => rfl⟩
  draining h := nomatch h
  waiting h := nomatch h
  running i h := nomatch h
  ended outcome h := nomatch h
  opened x h := nomatch h
  tools name h := nomatch h
  closed h := by simp at h
  failures x h := nomatch h
  stopped h := nomatch h

/-- The container begins to start. -/
theorem Inv.enter (h : Inv s w) (hstate : w.state = .created) :
    Inv s { w with state := .starting, starter := some i } where
  created h' := nomatch h'
  draining h' := nomatch h'
  waiting _ := .inl rfl
  running j h' := by rw [(h.created hstate).1] at h'; cases h'
  ended outcome h' := by rw [(h.created hstate).1] at h'; cases h'
  opened := h.opened
  tools := h.tools
  closed h' := by simp at h'
  failures := h.failures
  stopped h' := nomatch h'

/-- A component of the start-up is initialised. -/
theorem Inv.initialized (h : Inv s w) (hw : w.Starting i) {opening : Opening}
    (hopening : opening ∈ s.openings) : Inv s (w.initialized opening) where
  created h' := nomatch hw.state.symm.trans h'
  draining h' := nomatch hw.state.symm.trans h'
  waiting _ := .inl hw.state
  running j h' := nomatch hw.shutdownTask.symm.trans h'
  ended outcome h' := nomatch hw.shutdownTask.symm.trans h'
  opened x hx := by
    by_cases hc : x = opening.component
    · exact ⟨opening, hopening, hc.symm⟩
    · exact h.opened x ((Function.update_of_ne hc ..).symm.trans hx)
  tools name hname := by
    show name ∈ w.toolInstances ++ opening.tools
    by_cases hc : .tool name = opening.component
    · refine List.mem_append_right _ ?_
      cases opening with
      | initializer component =>
        obtain rfl : .tool name = component := hc
        exact List.mem_singleton_self name
      | startScheduler => cases hc
    · have hold := h.tools name ((Function.update_of_ne hc ..).symm.trans hname)
      exact List.mem_append_left _ hold
  closed h' := by
    have hstate : w.state = .stopped ∨ w.state = .failed := h'
    rw [hw.state] at hstate
    simp at hstate
  failures x hx := by
    by_cases hc : x = opening.component
    · subst hc
      exact nomatch (Function.update_self ..).symm.trans hx
    · exact h.failures x ((Function.update_of_ne hc ..).symm.trans hx)
  stopped h' := nomatch hw.state.symm.trans h'

theorem Inv.recordStartup (h : Inv s w) (failed : Bool) : Inv s (w.recordStartup failed) :=
  ⟨h.created, h.draining, h.waiting, h.running, h.ended, h.opened, h.tools, h.closed, h.failures,
    h.stopped⟩

/-- A shutdown is asked for. -/
theorem Inv.requestShutdown (h : Inv s w) : Inv s w.requestShutdown.2 := by
  unfold World.requestShutdown
  split
  · exact h
  · rename_i hstate
    split
    · -- nothing has been initialised yet
      rename_i hcreated
      obtain ⟨htask, hfailures, hfresh⟩ := h.created hcreated
      have hnext : tryTransition w.state .stopped = .stopped := by rw [hcreated]; rfl
      refine ⟨fun h' => ?_, fun h' => ?_, fun h' => ?_, fun j h' => ?_, fun outcome h' => ?_,
        h.opened, h.tools, fun _ x _ => ?_, h.failures, fun _ => hfailures⟩
      · exact nomatch hnext.symm.trans h'
      · exact nomatch hnext.symm.trans h'
      · exact nomatch htask.symm.trans h'
      · exact nomatch htask.symm.trans h'
      · exact nomatch htask.symm.trans h'
      · exact fun h' => nomatch (hfresh x).symm.trans h'
    · rename_i hcreated
      cases htask : w.shutdownTask with
      | none =>
        refine ⟨fun h' => absurd h' hcreated, fun _ => nofun, fun _ => ?_, nofun, nofun, h.opened,
          h.tools, fun h' => absurd h' hstate, h.failures, h.stopped⟩
        show w.state = .starting ∨ w.state = .ready
        have hdraining := fun hd => h.draining hd htask
        cases hw : w.state <;> simp_all
      | some task =>
        exact ⟨fun h' => absurd h' hcreated, fun _ => nofun, fun h' => h.waiting (htask.trans h'),
          fun j h' => h.running j (htask.trans h'), fun o h' => h.ended o (htask.trans h'),
          h.opened, h.tools, h.closed, h.failures, h.stopped⟩

/-- The container is ready. -/
theorem Inv.ready (h : Inv s w) (hw : w.Starting i) : Inv s { w with state := .ready } where
  created h' := nomatch h'
  draining h' := nomatch h'
  waiting _ := .inr rfl
  running j h' := nomatch hw.shutdownTask.symm.trans h'
  ended outcome h' := nomatch hw.shutdownTask.symm.trans h'
  opened := h.opened
  tools := h.tools
  closed h' := by simp at h'
  failures := h.failures
  stopped h' := nomatch h'

/-- The shutdown task begins. -/
theorem Inv.drain (h : Inv s w) :
    Inv s { w with state := .draining, shutdownTask := some (.running i) } where
  created h' := nomatch h'
  draining _ := Option.some_ne_none _
  waiting h' := nomatch h'
  running _ _ := rfl
  ended outcome h' := nomatch h'
  opened := h.opened
  tools := h.tools
  closed h' := by simp at h'
  failures := h.failures
  stopped h' := nomatch h'

/-- A closer ends. -/
theorem Inv.close (h : Inv s w) (hw : w.shutdownTask = some (.running i)) (component : Component)
    (input : Input) : Inv s (w.closed s component input) := by
  have hstate := h.running i hw
  have hother : ∀ x st, st ≠ .initialized →
      Function.update w.status component st x = .initialized → w.status x = .initialized := by
    intro x st hst hx
    by_cases hc : x = component
    · rw [hc, Function.update_self] at hx
      exact absurd hx hst
    · exact (Function.update_of_ne hc ..).symm.trans hx
  cases input with
  | done =>
    refine ⟨fun h' => absurd (hstate.symm.trans h') nofun,
      h.draining, h.waiting, h.running, h.ended,
      fun x hx => h.opened x (hother x .closed nofun hx),
      fun name hx => h.tools name (hother _ .closed nofun hx), fun h' => ?_, fun x hx => ?_,
      h.stopped⟩
    · simp [World.closed, hstate] at h'
    · by_cases hc : x = component
      · subst hc
        exact nomatch (Function.update_self ..).symm.trans hx
      · exact h.failures x ((Function.update_of_ne hc ..).symm.trans hx)
  | raised message =>
    refine ⟨fun h' => absurd (hstate.symm.trans h') nofun,
      h.draining, h.waiting, h.running, h.ended,
      fun x hx => h.opened x (hother x .closeFailed nofun hx),
      fun name hx => h.tools name (hother _ .closeFailed nofun hx), fun h' => ?_, fun x hx => ?_,
      fun h' => absurd (hstate.symm.trans h') nofun⟩
    · simp [World.closed, hstate] at h'
    · by_cases hc : x = component
      · rw [hc]
        exact List.mem_append_right _ (List.mem_singleton_self _)
      · have hold := h.failures x ((Function.update_of_ne hc ..).symm.trans hx)
        exact List.mem_append_left _ hold

/-- A shutdown ends. -/
theorem Inv.finish (h : Inv s w) (hclosed : ∀ x, s.closable x = true → w.status x ≠ .initialized)
    (hstopped : w.finalState = .stopped → w.shutdownFailures = []) :
    Inv s { w with state := w.finalState, shutdownTask := some (.ended (.ok ())) } where
  created h' := by
    revert h'
    simp only [World.finalState]
    split <;> nofun
  draining _ := nofun
  waiting h' := nomatch h'
  running j h' := nomatch h'
  ended outcome _ := by
    simp only [World.finalState]
    split <;> simp
  opened := h.opened
  tools := h.tools
  closed _ := hclosed
  failures := h.failures
  stopped := hstopped

/-- What an action leaves to the call that is starting the container. -/
theorem World.Starting.of_eq {w' : World} (h : w.Starting i) (hstarter : w'.starter = w.starter)
    (hstate : w'.state = w.state) (htask : w'.shutdownTask = w.shutdownTask) : w'.Starting i :=
  ⟨hstarter.trans h.starter, hstate.trans h.state, htask.trans h.shutdownTask⟩

/-- What leaves the container alone. -/
theorem Rely.same (i : ℕ) (w : World) : Rely i w w := ⟨id, fun h => ⟨h, rfl, rfl⟩⟩

/-- **What an action keeps**, and leaves to the others. -/
theorem guarded_sound (s : SystemContainer) :
    Process.Sound (container s) (guarded (handler s) timely) (pre s) := by
  intro i log e input r w w' hinv hpre hr
  obtain ⟨hmay, hr⟩ := guarded_eq_some.mp hr
  have hinv : Inv s w := hinv
  show Inv s w' ∧ ∀ j, j ≠ i → Rely j w w'
  cases e with
  | enter =>
    cases input <;> simp only [handler, reduceCtorEq] at hr
    split at hr
    · rename_i hcreated
      obtain ⟨-, rfl⟩ := Prod.mk.inj (Option.some.inj hr)
      rw [show tryTransition w.state .starting = .starting by rw [hcreated]; rfl]
      refine ⟨hinv.enter hcreated, fun j _ => ⟨fun h => ?_, fun h => ?_⟩⟩
      · exact nomatch hcreated.symm.trans h.state
      · exact nomatch (hinv.created hcreated).1.symm.trans h
    · obtain ⟨-, rfl⟩ := Prod.mk.inj (Option.some.inj hr)
      exact ⟨hinv, fun j _ => .same j w⟩
  | initializer opening =>
    obtain ⟨hw, hopening⟩ := hpre
    cases input <;> simp only [handler, Option.some.injEq, Prod.mk.injEq] at hr
    · obtain ⟨-, rfl⟩ := hr
      refine ⟨hinv.initialized hw hopening, fun j hj => ⟨fun h => ?_, fun h => ?_⟩⟩
      · exact absurd (h.unique hw) hj
      · exact nomatch hw.shutdownTask.symm.trans h
    · obtain ⟨-, rfl⟩ := hr
      exact ⟨hinv, fun j _ => .same j w⟩
  | ready =>
    have hw : w.Starting i := hpre
    cases input <;> simp only [handler, reduceCtorEq] at hr
    rw [show transition w.state .ready = .ok .ready by rw [hw.state]; rfl] at hr
    obtain ⟨-, rfl⟩ := Prod.mk.inj (Option.some.inj hr)
    refine ⟨hinv.ready hw, fun j hj => ⟨fun h => ?_, fun h => ?_⟩⟩
    · exact absurd (h.unique hw) hj
    · exact nomatch hw.shutdownTask.symm.trans h
  | requestShutdown startupFailed =>
    cases input <;> simp only [handler, reduceCtorEq] at hr
    obtain rfl : (w.recordStartup startupFailed).requestShutdown.2 = w' :=
      congrArg Prod.snd (Option.some.inj hr)
    refine ⟨(hinv.recordStartup startupFailed).requestShutdown, fun j hj => ⟨fun h => ?_, ?_⟩⟩
    · -- another call is starting the container: this one is a caller, and may not act
      cases startupFailed with
      | true => exact absurd (h.unique hpre) hj
      | false => simp [timely, h.state, h.shutdownTask] at hmay
    · intro h
      unfold World.requestShutdown
      split
      · exact ⟨h, rfl, rfl⟩
      · split
        · rename_i hcreated
          exact nomatch (hinv.running j h).symm.trans hcreated
        · refine ⟨?_, rfl, rfl⟩
          show some (w.shutdownTask.getD .created) = _
          rw [h]
          rfl
  | join =>
    cases input <;> simp only [handler, reduceCtorEq] at hr
    split at hr
    · obtain ⟨-, rfl⟩ := Prod.mk.inj (Option.some.inj hr)
      exact ⟨hinv, fun j _ => .same j w⟩
    · cases hr
  | drain =>
    cases input <;> simp only [handler, reduceCtorEq] at hr
    split at hr
    · rename_i htask
      obtain ⟨-, rfl⟩ := Prod.mk.inj (Option.some.inj hr)
      have hdraining : tryTransition w.state .draining = .draining := by
        rcases hinv.waiting htask with hstate | hstate <;> rw [hstate] <;> rfl
      rw [hdraining]
      refine ⟨hinv.drain, fun j hj => ⟨fun h => ?_, fun h => ?_⟩⟩
      · exact nomatch htask.symm.trans h.shutdownTask
      · exact nomatch htask.symm.trans h
    · cases hr
  | close component =>
    have hw : w.shutdownTask = some (.running i) := hpre
    obtain ⟨-, rfl⟩ := Prod.mk.inj (Option.some.inj hr)
    refine ⟨hinv.close hw component input, fun j hj => ⟨fun h => ?_, fun h => ?_⟩⟩
    · exact nomatch hw.symm.trans h.shutdownTask
    · exact absurd (by simpa using hw.symm.trans h : i = j).symm hj
  | toolInstances =>
    cases input <;> simp only [handler, reduceCtorEq] at hr
    obtain ⟨-, rfl⟩ := Prod.mk.inj (Option.some.inj hr)
    exact ⟨hinv, fun j _ => .same j w⟩
  | clearTools =>
    obtain ⟨hw, htools⟩ := hpre
    cases input <;> simp only [handler, reduceCtorEq] at hr
    obtain ⟨-, rfl⟩ := Prod.mk.inj (Option.some.inj hr)
    refine ⟨?_, fun j hj => ⟨fun h => ?_, fun h => ?_⟩⟩
    · exact ⟨hinv.created, hinv.draining, hinv.waiting, hinv.running, hinv.ended, hinv.opened,
        fun name h => absurd h (htools name), hinv.closed, hinv.failures, hinv.stopped⟩
    · exact nomatch hw.symm.trans h.shutdownTask
    · exact absurd (by simpa using hw.symm.trans h : i = j).symm hj
  | finish =>
    obtain ⟨hw, hclosed⟩ := hpre
    cases input <;> simp only [handler, reduceCtorEq] at hr
    have hfinal : transition w.state w.finalState = .ok w.finalState := by
      rw [hinv.running i hw, World.finalState]
      split <;> rfl
    rw [hfinal] at hr
    obtain ⟨-, rfl⟩ := Prod.mk.inj (Option.some.inj hr)
    refine ⟨hinv.finish hclosed fun h => ?_, fun j hj => ⟨fun h => ?_, fun h => ?_⟩⟩
    · by_contra hne
      rw [World.finalState, if_pos (.inl hne)] at h
      cases h
    · exact nomatch hw.symm.trans h.shutdownTask
    · exact absurd (by simpa using hw.symm.trans h : i = j).symm hj

end Sound

/-! ## What a call does -/

section Programs

variable {s : SystemContainer} {w : World} {i : ℕ} {log : Log Action Action.Reply}

/-- Safety under the protocol of a container. -/
abbrev SafeRun (s : SystemContainer) {α : Type} (i : ℕ) (post : World → Prop) (p : Prog α)
    (log : Log Action Action.Reply) (w : World) : Prop :=
  Safe (container s) (guarded (handler s) timely) (pre s) i (fun _ _ w => post w)
    (fun _ _ w => post w) p log w

theorem orRaise_safe {α : Type} {post : World → Prop} {result : Except Exn α} (h : post w) :
    SafeRun s i post (orRaise result) log w := by
  cases result with
  | ok a => exact .ret h
  | error exn => exact .raise h

/-- The initialisers are run by the call that is starting the container. -/
theorem initializeAll_safe {openings : List Opening} (hall : ∀ o ∈ openings, o ∈ s.openings)
    (hw : w.Starting i) : SafeRun s i (fun w => w.Starting i) (initializeAll openings) log w := by
  induction openings generalizing w log with
  | nil => exact .ret hw
  | cons opening rest ih =>
    refine .perform fun w₁ hrely _ => ⟨⟨hrely.starting hw, hall _ List.mem_cons_self⟩, ?_⟩
    intro input r w₂ hr
    have hw₁ := hrely.starting hw
    have hw₂ : w₂.Starting i := by
      obtain ⟨-, hr⟩ := guarded_eq_some.mp hr
      cases input <;> simp only [handler, Option.some.injEq, Prod.mk.injEq] at hr
      · obtain ⟨-, rfl⟩ := hr
        exact hw₁.of_eq rfl rfl rfl
      · obtain ⟨-, rfl⟩ := hr
        exact hw₁
    cases r with
    | ok _ => exact ih (fun o ho => hall o (List.mem_cons_of_mem _ ho)) hw₂
    | error exn => exact .raise hw₂

/-- A shutdown that the call may ask for. -/
theorem shutdown_safe {startupFailed : Bool} (hw : startupFailed = true → w.Starting i) :
    SafeRun s i (fun _ => True) (shutdown startupFailed) log w := by
  refine .perform fun w₁ hrely _ => ⟨?_, fun input waits w₂ _ => ?_⟩
  · cases startupFailed with
    | true => exact hrely.starting (hw rfl)
    | false => trivial
  · split
    · exact .perform fun w₃ _ _ => ⟨trivial, fun input outcome w₄ _ => orRaise_safe trivial⟩
    · exact .ret trivial

theorem startSystem_safe : SafeRun s i (fun _ => True) (startSystem s) log w := by
  refine .perform fun w₁ hrely hinv => ⟨trivial, fun input state w₂ hr => ?_⟩
  obtain ⟨-, hr⟩ := guarded_eq_some.mp hr
  have hw₂ : state = .created → w₂.Starting i := by
    rintro rfl
    cases input <;> simp only [handler, reduceCtorEq] at hr
    split at hr
    · rename_i hcreated
      obtain ⟨-, rfl⟩ := Prod.mk.inj (Option.some.inj hr)
      exact ⟨rfl, by rw [hcreated]; rfl, (hinv.created hcreated).1⟩
    · obtain ⟨hstate, -⟩ := Prod.mk.inj (Option.some.inj hr)
      exact absurd hstate ‹_›
  cases state with
  | ready => exact .ret trivial
  | starting => exact .raise trivial
  | draining => exact .raise trivial
  | stopped => exact .raise trivial
  | failed => exact .raise trivial
  | created =>
    have hbody : Safe (container s) (guarded (handler s) timely) (pre s) i
        (fun _ _ _ => True) (fun _ _ w => w.Starting i)
        (do initializeAll s.openings; let result ← Program.perform Action.ready; orRaise result)
        (log ++ [⟨.enter, .created⟩]) w₂ := by
      refine .bind (.mono (initializeAll_safe (fun _ h => h) (hw₂ rfl)) (fun _ log w hw => ?_)
        fun _ _ _ hw => hw)
      refine .perform fun w₃ hrely₃ _ => ⟨hrely₃.starting hw, fun input r w₄ hr => ?_⟩
      -- the transition is not refused while the call is starting the container
      have hw₃ := hrely₃.starting hw
      obtain ⟨-, hr⟩ := guarded_eq_some.mp hr
      cases input <;> simp only [handler, reduceCtorEq] at hr
      rw [show transition w₃.state .ready = .ok .ready by rw [hw₃.state]; rfl] at hr
      obtain ⟨rfl, -⟩ := Prod.mk.inj (Option.some.inj hr)
      exact .ret trivial
    refine .tryCatch (.mono hbody (fun _ _ _ _ => trivial) fun exn log w hw => ?_)
    refine .bind (.mono (shutdown_safe fun _ => hw) (fun _ _ _ _ => .raise trivial)
      fun _ _ _ _ => trivial)

/-- The call runs the shutdown, and these components are closed. -/
structure World.Closing (w : World) (i : ℕ) (done : Component → Prop) : Prop where
  task : w.shutdownTask = some (.running i)
  closed : ∀ x, done x → w.status x ≠ .initialized

theorem World.Closing.rely {done : Component → Prop} {w' : World} (h : w.Closing i done)
    (hrely : Rely i w w') : w'.Closing i done := by
  obtain ⟨htask, hstatus, -⟩ := hrely.running h.task
  exact ⟨htask, fun x hx => hstatus ▸ h.closed x hx⟩

/-- The closers are run by the call that runs the shutdown, whether they raise or not. -/
theorem closeAll_safe {components : List Component} {done : Component → Prop}
    (hw : w.Closing i done) :
    Safe (container s) (guarded (handler s) timely) (pre s) i
      (fun _ _ w => w.Closing i fun x => done x ∨ x ∈ components) (fun _ _ _ => True)
      (closeAll components) log w := by
  induction components generalizing w log done with
  | nil => exact .ret ⟨hw.task, fun x hx => hw.closed x (by simpa using hx)⟩
  | cons component rest ih =>
    refine .perform fun w₁ hrely _ => ⟨(hw.rely hrely).task, fun input r w₂ hr => ?_⟩
    have hw₁ := hw.rely hrely
    obtain ⟨-, hr⟩ := guarded_eq_some.mp hr
    obtain ⟨-, rfl⟩ := Prod.mk.inj (Option.some.inj hr)
    have hw₂ : (w₁.closed s component input).Closing i fun x => done x ∨ x = component := by
      refine ⟨?_, fun x hx => ?_⟩
      · cases input <;> exact hw₁.task
      · by_cases hc : x = component
        · subst hc
          cases input <;> simp [World.closed]
        · have hold := hw₁.closed x (hx.resolve_right hc)
          cases input <;> simpa [World.closed, Function.update_of_ne hc] using hold
    refine .mono (ih hw₂) (fun _ _ w hw => ⟨hw.task, fun x hx => hw.closed x ?_⟩) fun _ _ _ h => h
    simpa [or_assoc] using hx

theorem mem_optional {α : Type} {present : Bool} {a b : α} :
    b ∈ optional present a ↔ present = true ∧ b = a := by
  unfold optional
  split <;> simp [*]

/-- **What a start-up initialises a shutdown closes**, unless it is a tool, or a bridge that cannot
be closed. -/
theorem SystemContainer.Opens.closed {x : Component} (h : s.Opens x) (hx : s.closable x = true) :
    x ∈ s.closingsBeforeTools ∨ x ∈ s.closingsAfterTools ∨ ∃ name, x = .tool name := by
  obtain ⟨opening, hopening, rfl⟩ := h
  simp only [SystemContainer.openings, List.flatten_cons, List.flatten_nil, List.append_nil,
    List.mem_append, List.mem_cons, List.not_mem_nil, or_false, List.mem_map, List.mem_range,
    mem_optional, or_assoc] at hopening
  simp only [SystemContainer.closingsBeforeTools, SystemContainer.closingsAfterTools,
    List.flatten_cons, List.flatten_nil, List.append_nil, List.mem_append, List.mem_cons,
    List.not_mem_nil, or_false, List.mem_map, List.mem_reverse, List.mem_range, mem_optional]
  rcases hopening with rfl | ⟨k, hk, rfl⟩ | ⟨k, hk, rfl⟩ | rfl | rfl | ⟨h, rfl⟩ | rfl | rfl |
    ⟨h, rfl⟩ | ⟨h, rfl⟩ | ⟨name, -, rfl⟩ | rfl | rfl | ⟨h, rfl⟩ | ⟨h, rfl⟩ | ⟨h, rfl⟩ | rfl |
    ⟨h, rfl⟩ | rfl <;> simp_all [Opening.component, SystemContainer.closable]

theorem runShutdown_safe : SafeRun s i (fun _ => True) (runShutdown s) log w := by
  refine .perform fun w₁ _ _ => ⟨trivial, fun input r w₂ hr => ?_⟩
  have hw₂ : w₂.Closing i fun _ => False := by
    refine ⟨?_, fun _ h => h.elim⟩
    obtain ⟨-, hr⟩ := guarded_eq_some.mp hr
    cases input <;> simp only [handler, reduceCtorEq] at hr
    split at hr
    · obtain ⟨-, rfl⟩ := Prod.mk.inj (Option.some.inj hr)
      rfl
    · cases hr
  refine .bind (.mono (closeAll_safe hw₂) (fun _ log w hw => ?_) fun _ _ _ h => h)
  refine .perform fun w₃ hrely hinv => ⟨trivial, fun input tools w₄ hr => ?_⟩
  have hw₃ := hw.rely hrely
  -- a tool that is not among the instances is not there
  have hw₄ : w₄.Closing i fun x => x ∈ s.closingsBeforeTools ∨
      ∃ name, name ∉ tools ∧ x = .tool name := by
    obtain ⟨-, hr⟩ := guarded_eq_some.mp hr
    cases input <;> simp only [handler, reduceCtorEq] at hr
    obtain ⟨rfl, rfl⟩ := Prod.mk.inj (Option.some.inj hr)
    refine ⟨hw₃.task, fun x hx => ?_⟩
    rcases hx with hx | ⟨name, hname, rfl⟩
    · exact hw₃.closed x (.inr hx)
    · exact fun h => hname (hinv.tools name h)
  refine .bind (.mono (closeAll_safe hw₄) (fun _ log w hw => ?_) fun _ _ _ h => h)
  have htools : ∀ name, w.status (.tool name) ≠ .initialized := by
    intro name
    refine hw.closed _ ?_
    by_cases hname : name ∈ tools
    · exact .inr (by simpa using hname)
    · exact .inl (.inr ⟨name, hname, rfl⟩)
  have hw' : w.Closing i fun x => x ∈ s.closingsBeforeTools ∨ ∃ name, x = .tool name := by
    refine ⟨hw.task, fun x hx => ?_⟩
    rcases hx with hx | ⟨name, rfl⟩
    · exact hw.closed x (.inl (.inl hx))
    · exact htools name
  refine .perform fun w₅ hrely _ => ⟨⟨(hw'.rely hrely).task, fun name => ?_⟩, ?_⟩
  · exact (hw'.rely hrely).closed _ (.inr ⟨name, rfl⟩)
  intro input r w₆ hr
  have hw₆ : w₆.Closing i fun x => x ∈ s.closingsBeforeTools ∨ ∃ name, x = .tool name := by
    have hw₅ := hw'.rely hrely
    obtain ⟨-, hr⟩ := guarded_eq_some.mp hr
    cases input <;> simp only [handler, reduceCtorEq] at hr
    obtain ⟨-, rfl⟩ := Prod.mk.inj (Option.some.inj hr)
    exact ⟨hw₅.task, hw₅.closed⟩
  refine .bind (.mono (closeAll_safe hw₆) (fun _ log w hw => ?_) fun _ _ _ h => h)
  refine .perform fun w₇ hrely hinv => ⟨⟨(hw.rely hrely).task, fun x hx hstatus => ?_⟩, ?_⟩
  · refine (hw.rely hrely).closed x ?_ hstatus
    rcases (hinv.opened x hstatus).closed hx with h | h | h
    · exact .inl (.inl h)
    · exact .inr h
    · exact .inl (.inr h)
  · exact fun input r w₈ _ => orRaise_safe trivial

theorem starts_safe (s : SystemContainer) :
    StartsSafe (container s) (guarded (handler s) timely) (pre s) (start s) := by
  intro i k w _
  cases k with
  | start => exact startSystem_safe
  | shutdown => exact shutdown_safe nofun
  | shutdownTask => exact runShutdown_safe

end Programs

/-! ## The law -/

/-- Every call has returned or raised. -/
def finished (c : Calls) : Bool :=
  c.calls.all fun call => match call.rest with
    | .await _ _ => false
    | _ => true

/-- **A container that has shut down has closed what it initialised**: the closer of a component
has ended since its initialiser did, or has raised and is among the failures. -/
def World.Emptied (s : SystemContainer) (w : World) : Prop :=
  w.state = .stopped ∨ w.state = .failed → ∀ x, s.closable x = true →
    w.status x ≠ .initialized ∧
    (w.status x = .closeFailed → w.state = .failed ∧ s.closeName x ∈ w.shutdownFailures)

theorem Inv.emptied {s : SystemContainer} {w : World} (h : Inv s w) : w.Emptied s := by
  intro hstate x hx
  refine ⟨h.closed hstate x hx, fun hfailed => ?_⟩
  have hname := h.failures x hfailed
  rcases hstate with hstate | hstate
  · rw [h.stopped hstate] at hname
    cases hname
  · exact ⟨hstate, hname⟩

/-- **A container closes what it has initialised**, and initialises nothing once a shutdown has
begun, if no caller shuts it down while it is starting. -/
theorem closes_what_it_initialises (s : SystemContainer) (c : Calls)
    (h : ReachesIf (handler s) (start s) (meets timely) (idle {}) c) :
    c.world.Emptied s ∧
    ∀ i opening, awaited c i = some (.initializer opening) → c.world.shutdownBegun = false := by
  have hall : AllSafe (container s) (guarded (handler s) timely) (pre s) c :=
    (AllSafe.idle (Inv.initial s)).reaches (guarded_sound s) (starts_safe s) h.guarded
  refine ⟨Inv.emptied hall.1, fun i opening hi => ?_⟩
  unfold awaited at hi
  split at hi
  · rename_i k log e next hcall
    obtain rfl := Option.some.inj hi
    obtain ⟨hw, -⟩ := hall.meets_pre hcall
    simp [World.shutdownBegun, hw.shutdownTask, hw.state]
  · cases hi

namespace Scenario

/-- A container with one provider. -/
def s : SystemContainer := { providers := ["openai"] }

/-- The call `i` goes on this many times. -/
def acts (i n : ℕ) : List (Event Request Input) := List.replicate n (.act i .done)

/-- The container is started, then shut down. -/
def inTurn : List (Event Request Input) :=
  .arrive .start :: acts 0 12 ++ .arrive .shutdown :: acts 1 1 ++
    .arrive .shutdownTask :: acts 2 15 ++ acts 1 1

/-- The container is shut down while the provider is being initialised. -/
def during : List (Event Request Input) :=
  .arrive .start :: acts 0 2 ++ .arrive .shutdown :: acts 1 1 ++
    .arrive .shutdownTask :: acts 2 15 ++ acts 1 1 ++ acts 0 11

/-- The configuration events lead to. -/
def after (events : List (Event Request Input)) : Calls :=
  (run (handler s) (start s) (idle {}) events).getD (idle {})

theorem reachable (events : List (Event Request Input)) : Reachable s (after events) := by
  unfold after
  cases h : run (handler s) (start s) (idle {}) events with
  | none => exact .refl _
  | some c => exact ⟨_, h⟩

theorem inTurn_timely :
    ReachesIf (handler s) (start s) (meets timely) (idle {}) (after inTurn) := by
  have h : (runIf (handler s) (start s) (meets timely) (idle {}) inTurn).isSome = true := by
    decide +kernel
  obtain ⟨c, hc⟩ := Option.isSome_iff_exists.mp h
  have hrun : after inTurn = c := by rw [after, run_of_runIf hc]; rfl
  exact hrun ▸ ⟨_, hc⟩

end Scenario

/-- A container that is started and then shut down is empty. -/
theorem closes_what_it_initialises_scenario :
    (Scenario.after Scenario.inTurn).world.Emptied Scenario.s ∧
    (Scenario.after Scenario.inTurn).world.state = .stopped :=
  ⟨(closes_what_it_initialises Scenario.s _ Scenario.inTurn_timely).1, by decide +kernel⟩

/-- A provider that is being initialised when the container is shut down is never closed. -/
theorem shutdown_leaks : ¬ ∀ (s : SystemContainer) (c : Calls), Reachable s c →
    finished c = true → c.world.Emptied s := by
  intro hall
  have hstate : (Scenario.after Scenario.during).world.state = .stopped := by decide +kernel
  have hstatus : (Scenario.after Scenario.during).world.status (.provider 0) = .initialized := by
    decide +kernel
  have hfinished : finished (Scenario.after Scenario.during) = true := by decide +kernel
  have h := hall _ _ (Scenario.reachable Scenario.during) hfinished (.inl hstate) (.provider 0) rfl
  exact h.1 hstatus

end Containers

import AiLabOs.Process.Conditioned
import AiLabOs.Process.Frames
import AiLabOs.Task.Runtime
import Mathlib.Logic.Relation

/-!
# Task runtime: runs under control calls

A run takes its transitions after awaits in which other calls have moved the task. It comes through
if it begins with a task that has just been created, no call cancels the task before its outcome is
decided, the task is not left paused when it goes on, and no call retries the task while its outcome
is being published. Then it returns the state it has left the task in.

## Main definitions

* `unimpeded`: the condition on what the calls do
* `TaskEntry.Sound`, `TaskEntry.Later`: what holds of a task, and what a run relies on

## Main results

* `handler_allowed`: a task only takes transitions of the table
* `guarded_sound`, `starts_safe`: what holds of every run that is not impeded
* `run_total`
-/

namespace Tasks

open Process

/-! ## What a run relies on -/

/-- A status a run ends in. -/
def TaskStatus.Outcome (status : TaskStatus) : Prop :=
  status = .completed ∨ status = .failed ∨ status = .timeout ∨ status = .cancelled

/-- The call is deciding the outcome of the task. -/
def TaskEntry.activeCall (entry : TaskEntry) : Option ℕ :=
  match entry.phase with
  | .active i => some i
  | _ => none

/-- The call is publishing the outcome of the task. -/
def TaskEntry.settlingCall (entry : TaskEntry) : Option ℕ :=
  match entry.phase with
  | .settling i => some i
  | _ => none

/-- **The condition on the calls**: a run begins with a created task, goes on with one that is not
paused, and nobody cancels the task before the outcome, or retries it while a failure or timeout is
published. A publication does not fail. -/
def unimpeded (_ : ℕ) (e : Action) (input : Input) (w : World) : Bool :=
  match e with
  | .move taskId .ready => (w.tasks taskId).any fun entry => entry.machine = .created
  | .move taskId _ => (w.tasks taskId).all fun entry => entry.machine ≠ .paused
  | .cancel taskId => (w.tasks taskId).all fun entry => entry.activeCall.isNone
  | .retry taskId => (w.tasks taskId).all fun entry =>
    entry.settlingCall.isNone || !entry.machine.canTransition .retrying
  | .publish _ _ => input = .done
  | .report _ _ => input = .done
  | _ => true

/-- The task is between its first transition and its outcome. -/
def TaskStatus.Started (status : TaskStatus) : Prop :=
  status = .ready ∨ status = .running ∨ status = .paused

/-- **What holds of a task** while a call runs it. -/
structure TaskEntry.Sound (entry : TaskEntry) : Prop where
  active : ∀ i, entry.phase = .active i → entry.machine.Started
  settling : ∀ i, entry.phase = .settling i → entry.machine.Outcome ∧ entry.status = entry.machine

/-- **What the call `i` relies on**: the task it runs stays ready until it goes on, may be paused
and resumed then, and keeps its outcome. -/
structure TaskEntry.Later (i : ℕ) (entry entry' : TaskEntry) : Prop where
  active : entry.phase = .active i → entry'.phase = .active i ∧
    (entry.machine = .ready → entry'.machine = .ready) ∧
    (entry.machine = .running ∨ entry.machine = .paused →
      entry'.machine = .running ∨ entry'.machine = .paused)
  settling : entry.phase = .settling i → entry'.phase = .settling i ∧
    entry'.machine = entry.machine ∧ entry'.status = entry.status

theorem TaskEntry.Later.refl (i : ℕ) (entry : TaskEntry) : entry.Later i entry :=
  ⟨fun h => ⟨h, id, id⟩, fun h => ⟨h, rfl, rfl⟩⟩

theorem TaskEntry.Later.trans {i : ℕ} {a b c : TaskEntry} (h : a.Later i b) (h' : b.Later i c) :
    a.Later i c := by
  refine ⟨fun hphase => ?_, fun hphase => ?_⟩
  · obtain ⟨hphase, hready, hrunning⟩ := h.active hphase
    obtain ⟨hphase', hready', hrunning'⟩ := h'.active hphase
    exact ⟨hphase', hready' ∘ hready, hrunning' ∘ hrunning⟩
  · obtain ⟨hphase, hmachine, hstatus⟩ := h.settling hphase
    obtain ⟨hphase', hmachine', hstatus'⟩ := h'.settling hphase
    exact ⟨hphase', hmachine'.trans hmachine, hstatus'.trans hstatus⟩

/-- A call that does not run the task relies on nothing. -/
theorem TaskEntry.Later.of_ne {i j : ℕ} {entry entry' : TaskEntry} (hij : j ≠ i)
    (h : entry.phase = .active i ∨ entry.phase = .settling i ∨ entry.phase = .idle) :
    entry.Later j entry' := by
  refine ⟨fun hphase => ?_, fun hphase => ?_⟩
  · rw [hphase] at h
    simp [hij] at h
  · rw [hphase] at h
    simp [hij] at h

/-- The protocol of the runtime. -/
def runtime : Protocol World where
  Inv w := ∀ taskId entry, w.tasks taskId = some entry → entry.Sound
  Rely i w w' := ∀ taskId entry, w.tasks taskId = some entry →
    ∃ entry', w'.tasks taskId = some entry' ∧ entry.Later i entry'
  refl i w := fun _ entry h => ⟨entry, h, .refl i entry⟩
  trans h h' := by
    intro taskId entry hentry
    obtain ⟨entry', hentry', hlater⟩ := h taskId entry hentry
    obtain ⟨entry'', hentry'', hlater'⟩ := h' taskId entry' hentry'
    exact ⟨entry'', hentry'', hlater.trans hlater'⟩

/-- The call `i` runs the task, whose state machine is as required. -/
def World.Runs (w : World) (taskId : String) (i : ℕ) (required : TaskStatus → Prop) : Prop :=
  ∃ entry, w.tasks taskId = some entry ∧ entry.phase = .active i ∧ required entry.machine

/-- The call `i` has decided the outcome of the task. -/
def World.Settles (w : World) (taskId : String) (i : ℕ) (status : TaskStatus) : Prop :=
  ∃ entry, w.tasks taskId = some entry ∧ entry.phase = .settling i ∧ entry.machine = status ∧
    entry.status = status

/-- The task is running, unless another call has paused it. -/
def TaskStatus.Underway (status : TaskStatus) : Prop := status = .running ∨ status = .paused

/-- **What an action of a run may do.** -/
def pre (i : ℕ) (log : Log Action Action.Reply) (e : Action) (w : World) : Prop :=
  match e with
  | .move taskId target => target = .ready ∨
    target = .running ∧ w.Runs taskId i (· = .ready) ∨
    target.Outcome ∧ w.Runs taskId i TaskStatus.Underway
  | .report taskId _ => ∃ status, log.getLast? = some ⟨.move taskId status, .ok ()⟩ ∧
    w.Settles taskId i status
  | _ => True

/-! ## What an action keeps -/

section Sound

variable {w w' : World} {i j : ℕ} {taskId : String} {entry entry' : TaskEntry}

/-- A task that is changed as its run allows. -/
theorem set_sound (hinv : runtime.Inv w) (hentry : w.tasks taskId = some entry)
    (hsound : entry'.Sound) (hlater : ∀ j, j ≠ i → entry.Later j entry') :
    runtime.Inv (w.set taskId entry') ∧ ∀ j, j ≠ i → runtime.Rely j w (w.set taskId entry') := by
  refine ⟨fun id other hother => ?_, fun j hj id other hother => ?_⟩
  · by_cases hid : id = taskId
    · subst hid
      obtain rfl : entry' = other := by simpa [World.set] using hother
      exact hsound
    · exact hinv id other ((Function.update_of_ne hid ..).symm.trans hother)
  · by_cases hid : id = taskId
    · subst hid
      obtain rfl : entry = other := Option.some.inj (hentry.symm.trans hother)
      exact ⟨entry', Function.update_self .., hlater j hj⟩
    · exact ⟨other, (Function.update_of_ne hid ..).trans hother, .refl j other⟩

/-- **A transition of a run** is one of the table, made by the call that runs the task. -/
theorem move_sound {target : TaskStatus} (hpre : pre i [] (.move taskId target) w)
    (hmay : unimpeded i (.move taskId target) .done w) :
    ∃ entry, w.tasks taskId = some entry ∧ entry.machine.canTransition target = true ∧
      (entry.phase = .active i ∨ entry.machine = .created) := by
  rcases hpre with rfl | ⟨rfl, entry, hentry, hphase, hmachine⟩ |
    ⟨htarget, entry, hentry, hphase, hmachine⟩
  · obtain ⟨entry, hentry, hcreated⟩ : ∃ entry, w.tasks taskId = some entry ∧
        entry.machine = .created := by
      simpa [unimpeded, Option.any_eq_true] using hmay
    exact ⟨entry, hentry, by rw [hcreated]; rfl, .inr hcreated⟩
  · exact ⟨entry, hentry, by rw [hmachine]; rfl, .inl hphase⟩
  · have hunpaused : entry.machine ≠ .paused := by
      rcases htarget with rfl | rfl | rfl | rfl <;>
        simpa [unimpeded, hentry] using hmay
    have hrunning : entry.machine = .running := hmachine.resolve_right hunpaused
    refine ⟨entry, hentry, ?_, .inl hphase⟩
    rw [hrunning]
    rcases htarget with rfl | rfl | rfl | rfl <;> rfl

/-- Outside of its run nobody relies on a task. -/
theorem TaskEntry.Later.of_idle (h : entry.phase = .idle) (j : ℕ) : entry.Later j entry' :=
  ⟨fun hphase => absurd (h.symm.trans hphase) nofun,
    fun hphase => absurd (h.symm.trans hphase) nofun⟩

theorem TaskEntry.Sound.of_idle (h : entry.phase = .idle) : entry.Sound :=
  ⟨fun _ hphase => absurd (h.symm.trans hphase) nofun,
    fun _ hphase => absurd (h.symm.trans hphase) nofun⟩

/-- A task whose state is neither of a run underway nor of an outcome is not run by a call. -/
theorem TaskEntry.Sound.idle (h : entry.Sound)
    (hactive : entry.machine.Started → ∀ i, entry.phase ≠ .active i)
    (hsettling : entry.machine.Outcome → ∀ i, entry.phase ≠ .settling i) : entry.phase = .idle := by
  cases hphase : entry.phase with
  | idle => rfl
  | active i => exact absurd hphase (hactive (h.active i hphase) i)
  | settling i => exact absurd hphase (hsettling (h.settling i hphase).1 i)

theorem not_outcome_of_can {machine target : TaskStatus} (h : machine.canTransition target = true)
    (htarget : target = .cancelled ∨ target = .paused) : ¬machine.Outcome := by
  rintro (rfl | rfl | rfl | rfl) <;> rcases htarget with rfl | rfl <;> cases h

/-- A task that is new. -/
theorem register_sound {request : TaskRequest} (hinv : runtime.Inv w)
    (hnew : (w.tasks taskId).isNone = true) :
    runtime.Inv (w.set taskId { request }) ∧
      ∀ j, j ≠ i → runtime.Rely j w (w.set taskId { request }) := by
  have hother : ∀ id entry, w.tasks id = some entry → id ≠ taskId := by
    rintro id entry hentry rfl
    rw [hentry] at hnew
    cases hnew
  refine ⟨fun id entry hentry => ?_, fun j _ id entry hentry => ⟨entry, ?_, .refl j entry⟩⟩
  · by_cases hid : id = taskId
    · subst hid
      obtain rfl : _ = entry := by simpa [World.set] using hentry
      exact .of_idle rfl
    · exact hinv id entry ((Function.update_of_ne hid ..).symm.trans hentry)
  · exact (Function.update_of_ne (hother id entry hentry) ..).trans hentry

/-- **What an action keeps**, and leaves to the others. -/
theorem guarded_sound : Process.Sound runtime (guarded handler unimpeded) pre := by
  intro i log e input r w w' hinv hpre hr
  obtain ⟨hmay, hr⟩ := guarded_eq_some.mp hr
  have hsame : runtime.Inv w ∧ ∀ j, j ≠ i → runtime.Rely j w w :=
    ⟨hinv, fun j _ => runtime.refl j w⟩
  cases e with
  | register request =>
    cases input with
    | id taskId =>
      simp only [handler] at hr
      split at hr
      · rename_i hnew
        obtain ⟨-, rfl⟩ := Prod.mk.inj (Option.some.inj hr)
        exact register_sound hinv hnew
      · cases hr
    | _ => simp [handler] at hr
  | move taskId target =>
    -- a run moves its task, at first to ready or running and at last to its outcome
    cases input <;> simp only [handler, reduceCtorEq, Option.some.injEq] at hr
    have hpre' : pre i [] (.move taskId target) w := hpre
    obtain ⟨entry, hentry, hcan, howner⟩ := move_sound hpre' hmay
    have hidle : entry.machine = .created → entry.phase = .idle := fun hcreated =>
      (hinv _ _ hentry).idle (fun h => by simp [hcreated, TaskStatus.Started] at h)
        fun h => by simp [hcreated, TaskStatus.Outcome] at h
    obtain rfl : _ = w' := by
      simpa [World.move, hentry, hcan] using congrArg Prod.snd hr
    refine set_sound hinv hentry ?_ fun j hj => ?_
    · rcases hpre' with rfl | ⟨rfl, -⟩ | ⟨htarget, -⟩
      · exact ⟨fun _ _ => .inl rfl, fun _ h => nomatch h⟩
      · exact ⟨fun _ _ => .inr (.inl rfl), fun _ h => nomatch h⟩
      · refine ⟨fun j h => ?_, fun _ _ => ⟨htarget, rfl⟩⟩
        rcases htarget with rfl | rfl | rfl | rfl <;> cases h
    · rcases howner with hphase | hcreated
      · exact .of_ne hj (.inl hphase)
      · exact .of_idle (hidle hcreated) j
  | publish taskId eventType =>
    cases input <;> simp only [handler, reduceCtorEq, Option.some.injEq, Prod.mk.injEq] at hr <;>
      exact hr.2 ▸ hsame
  | report taskId eventType =>
    -- with the report of its outcome the run gives its task up
    obtain ⟨status, -, entry, hentry, hphase, -, -⟩ := hpre
    have hw' : w' = w.set taskId { entry with phase := .idle } := by
      cases input <;> simp only [handler, reduceCtorEq, Option.some.injEq, Prod.mk.injEq] at hr <;>
        rw [← hr.2, World.reported, hentry]
    rw [hw']
    exact set_sound hinv hentry (.of_idle rfl) fun j hj => .of_ne hj (.inr (.inl hphase))
  | load taskId =>
    cases input <;> simp only [handler, reduceCtorEq, Option.some.injEq, Prod.mk.injEq] at hr
    exact hr.2 ▸ hsame
  | cancelFlag taskId =>
    cases input <;> simp only [handler, reduceCtorEq, Option.some.injEq, Prod.mk.injEq] at hr
    exact hr.2 ▸ hsame
  | runWorkflow name traceId timeout =>
    cases input <;> simp only [handler, reduceCtorEq, Option.some.injEq, Prod.mk.injEq] at hr
    exact hr.2 ▸ hsame
  | checkpoint taskId name index completed retryCount =>
    cases input <;> simp only [handler, reduceCtorEq, Option.some.injEq, Prod.mk.injEq] at hr
    obtain ⟨-, rfl⟩ := hr
    unfold World.recordWorkflow
    split
    · exact hsame
    · rename_i entry hentry
      have hsound := hinv _ _ hentry
      refine set_sound hinv hentry ⟨hsound.active, fun j h => ⟨(hsound.settling j h).1, rfl⟩⟩ ?_
      exact fun j _ => ⟨fun h => ⟨h, id, id⟩, fun h => ⟨h, rfl, (hsound.settling j h).2.symm⟩⟩
  | pause taskId =>
    cases input <;> simp only [handler, reduceCtorEq, Option.some.injEq] at hr
    unfold World.control at hr
    split at hr
    · obtain rfl : w = w' := congrArg Prod.snd hr
      exact hsame
    · rename_i entry hentry
      split at hr
      · rename_i hcan
        obtain rfl := congrArg Prod.snd hr
        have hsound := hinv _ _ hentry
        have hnone := not_outcome_of_can hcan (.inr rfl)
        refine set_sound hinv hentry ⟨fun _ _ => .inr (.inr rfl), fun j h => ?_⟩ fun j _ => ?_
        · exact absurd (hsound.settling j h).1 hnone
        · refine ⟨fun h => ⟨h, fun hready => ?_, fun _ => .inr rfl⟩, fun h => ?_⟩
          · rw [hready] at hcan
            cases hcan
          · exact absurd (hsound.settling j h).1 hnone
      · obtain rfl : w = w' := congrArg Prod.snd hr
        exact hsame
  | resume taskId =>
    cases input <;> simp only [handler, reduceCtorEq, Option.some.injEq] at hr
    unfold World.control at hr
    split at hr
    · obtain rfl : w = w' := congrArg Prod.snd hr
      exact hsame
    · rename_i entry hentry
      split at hr
      · rename_i hpaused
        obtain rfl := congrArg Prod.snd hr
        have hsound := hinv _ _ hentry
        have hpaused : entry.machine = .paused := by simpa using hpaused
        have hnone : ¬entry.machine.Outcome := by simp [hpaused, TaskStatus.Outcome]
        refine set_sound hinv hentry ⟨fun _ _ => .inr (.inl rfl), fun j h => ?_⟩ fun j _ => ?_
        · exact absurd (hsound.settling j h).1 hnone
        · refine ⟨fun h => ⟨h, fun hready => ?_, fun _ => .inl rfl⟩, fun h => ?_⟩
          · exact nomatch hpaused.symm.trans hready
          · exact absurd (hsound.settling j h).1 hnone
      · obtain rfl : w = w' := congrArg Prod.snd hr
        exact hsame
  | cancel taskId =>
    cases input <;> simp only [handler, reduceCtorEq, Option.some.injEq] at hr
    unfold World.cancel at hr
    split at hr
    · obtain rfl : w.flagged taskId = w' := congrArg Prod.snd hr
      exact hsame
    · rename_i entry hentry
      split at hr
      · rename_i hcan
        obtain rfl := congrArg Prod.snd hr
        have hsound := hinv _ _ hentry
        -- the guard keeps a cancellation from a task that a run works at
        have hactive : entry.activeCall.isNone = true := by simpa [unimpeded, hentry] using hmay
        have hidle : entry.phase = .idle := by
          refine hsound.idle (fun _ j h => ?_) fun h =>
            absurd h (not_outcome_of_can hcan (.inl rfl))
          simp [TaskEntry.activeCall, h] at hactive
        exact set_sound (w := w.flagged taskId) hinv hentry (.of_idle hidle) fun j _ =>
          .of_idle hidle j
      · obtain rfl : w.flagged taskId = w' := congrArg Prod.snd hr
        exact hsame
  | retry taskId =>
    cases input <;> simp only [handler, reduceCtorEq, Option.some.injEq] at hr
    unfold World.control at hr
    split at hr
    · obtain rfl : w = w' := congrArg Prod.snd hr
      exact hsame
    · rename_i entry hentry
      split at hr
      · rename_i hcan
        obtain rfl := congrArg Prod.snd hr
        have hsound := hinv _ _ hentry
        -- and a retry from one whose outcome is not reported yet
        have hsettling : entry.settlingCall.isNone = true := by
          simpa [unimpeded, hentry, hcan] using hmay
        have hidle : entry.phase = .idle := by
          refine hsound.idle (fun h => ?_) fun _ j h => ?_
          · rcases h with h | h | h <;> rw [h] at hcan <;> cases hcan
          · simp [TaskEntry.settlingCall, h] at hsettling
        exact set_sound hinv hentry (.of_idle hidle) fun j _ => .of_idle hidle j
      · obtain rfl : w = w' := congrArg Prod.snd hr
        exact hsame

end Sound

/-! ## What a call does -/

section Programs

variable {w : World} {i : ℕ} {taskId : String} {log : Log Action Action.Reply}

attribute [local simp] handler

/-- Safety under the protocol of the runtime: the program does not raise. -/
abbrev SafeRun {α : Type} (i : ℕ) (post : α → Log Action Action.Reply → World → Prop)
    (p : Prog α) (log : Log Action Action.Reply) (w : World) : Prop :=
  Safe runtime (guarded handler unimpeded) pre i post (fun _ _ _ => False) p log w

/-- A fact about the task that the other calls leave to the one that runs it. -/
def Kept (i : ℕ) (S : World → Prop) : Prop := ∀ w w', runtime.Rely i w w' → S w → S w'

theorem runs_ready_kept : Kept i fun w => w.Runs taskId i (· = .ready) := by
  rintro w w' hrely ⟨entry, hentry, hphase, hmachine⟩
  obtain ⟨entry', hentry', hlater⟩ := hrely taskId entry hentry
  obtain ⟨hphase', hready, -⟩ := hlater.active hphase
  exact ⟨entry', hentry', hphase', hready hmachine⟩

theorem runs_underway_kept : Kept i fun w => w.Runs taskId i TaskStatus.Underway := by
  rintro w w' hrely ⟨entry, hentry, hphase, hmachine⟩
  obtain ⟨entry', hentry', hlater⟩ := hrely taskId entry hentry
  obtain ⟨hphase', -, hrunning⟩ := hlater.active hphase
  exact ⟨entry', hentry', hphase', hrunning hmachine⟩

theorem settles_kept {status : TaskStatus} : Kept i fun w => w.Settles taskId i status := by
  rintro w w' hrely ⟨entry, hentry, hphase, rfl, hstatus⟩
  obtain ⟨entry', hentry', hlater⟩ := hrely taskId entry hentry
  obtain ⟨hphase', hmachine, hstatus'⟩ := hlater.settling hphase
  exact ⟨entry', hentry', hphase', hmachine, hstatus'.trans hstatus⟩

/-- A publication does not disturb a fact that the others leave alone. -/
theorem publish_safe {S : World → Prop} (hkept : Kept i S) {eventType : String} (hw : S w) :
    SafeRun i (fun _ _ w => S w) (publish taskId eventType) log w := by
  refine .perform fun w₁ hrely _ => ⟨trivial, fun input r w₂ hr => ?_⟩
  obtain ⟨hmay, hr⟩ := guarded_eq_some.mp hr
  obtain rfl : input = .done := by simpa [unimpeded] using hmay
  obtain ⟨rfl, rfl⟩ := Prod.mk.inj (Option.some.inj hr)
  exact .ret (hkept w w₁ hrely hw)

/-- **A transition of a run** is made. -/
theorem move_safe {S : World → Prop} (hkept : Kept i S) (taskId : String) (target : TaskStatus)
    (hpre : ∀ w, S w → pre i [] (.move taskId target) w) (hw : S w) :
    SafeRun i (fun _ log' w => log' = log ++ [⟨.move taskId target, .ok ()⟩] ∧
      ∃ entry, w.tasks taskId = some entry ∧ entry.machine = target ∧ entry.status = target ∧
        entry.phase = World.phaseAfter i target) (move taskId target) log w := by
  refine .perform fun w₁ hrely _ => ?_
  have hpre₁ := hpre w₁ (hkept w w₁ hrely hw)
  refine ⟨hpre₁, fun input r w₂ hr => ?_⟩
  obtain ⟨hmay, hr⟩ := guarded_eq_some.mp hr
  cases input <;> simp only [handler, reduceCtorEq, Option.some.injEq] at hr
  obtain ⟨entry, hentry, hcan, -⟩ := move_sound hpre₁ hmay
  simp only [World.move, hentry, hcan, if_true, Prod.mk.injEq] at hr
  obtain ⟨rfl, rfl⟩ := hr
  exact .ret ⟨rfl, _, Function.update_self .., rfl, rfl, rfl⟩

/-- What a run returns is the outcome it has just decided. -/
def Reported (taskId : String) (result : TaskResult) (log : Log Action Action.Reply) : Prop :=
  result.taskId = taskId ∧ ∃ log₀ eventType, log = log₀ ++
    [⟨.move taskId result.status, .ok ()⟩, ⟨.report taskId eventType, .ok ()⟩]

/-- **The end of a run**: its outcome is decided, and published. -/
theorem settle_safe {target : TaskStatus} (htarget : target.Outcome) {eventType : String}
    {result : TaskResult} (hid : result.taskId = taskId) (hresult : result.status = target)
    (hw : w.Runs taskId i TaskStatus.Underway) :
    SafeRun i (fun result log _ => Reported taskId result log)
      (move taskId target >>= fun _ => report taskId eventType result) log w := by
  refine .bind (.mono (move_safe runs_underway_kept taskId target
    (fun w h => .inr (.inr ⟨htarget, h⟩)) hw) (fun _ log₁ w₁ h => ?_) fun _ _ _ h => h.elim)
  obtain ⟨rfl, entry, hentry, hmachine, hstatus, hphase⟩ := h
  have hsettles : w₁.Settles taskId i target := by
    refine ⟨entry, hentry, ?_, hmachine, hstatus⟩
    rw [hphase]
    rcases htarget with rfl | rfl | rfl | rfl <;> rfl
  refine .perform fun w₂ hrely _ => ⟨⟨target, by simp, settles_kept w₁ w₂ hrely hsettles⟩, ?_⟩
  intro input r w₃ hr
  obtain ⟨hmay, hr⟩ := guarded_eq_some.mp hr
  obtain rfl : input = .done := by simpa [unimpeded] using hmay
  obtain ⟨rfl, -⟩ := Prod.mk.inj (Option.some.inj hr)
  exact .ret ⟨hid, log, eventType, by simp [hresult]⟩

theorem terminalFailure_safe {failure : FailureInfo} {status : TaskStatus} {retryCount : ℕ}
    {outputs : List (String × Payload)} (hstatus : status.Outcome)
    (hw : w.Runs taskId i TaskStatus.Underway) :
    SafeRun i (fun result log _ => Reported taskId result log)
      (terminalFailure taskId failure status retryCount outputs) log w :=
  settle_safe hstatus rfl rfl hw

/-- A failed attempt leads to FAILED or to TIMEOUT. -/
theorem WorkflowOutcome.result_outcome {outcome : WorkflowOutcome} {name traceId : String}
    {attempt : ℕ} {failure : FailureInfo} {status : TaskStatus}
    (h : outcome.result name traceId attempt = .error (failure, status)) : status.Outcome := by
  cases outcome <;> simp only [WorkflowOutcome.result, reduceCtorEq, Except.error.injEq,
    Prod.mk.injEq] at h
  · exact h.2 ▸ .inr (.inl rfl)
  · exact h.2 ▸ .inr (.inr (.inl rfl))
  · exact h.2 ▸ .inr (.inl rfl)
  · exact h.2 ▸ .inr (.inl rfl)

/-- The attempts at a workflow leave the task to its run. -/
theorem attempts_safe {name traceId : String} {timeout : ℤ} {attempt retryCount left : ℕ}
    (hw : w.Runs taskId i TaskStatus.Underway) :
    SafeRun i (fun made _ w => w.Runs taskId i TaskStatus.Underway ∧
      ∀ failure status, made.1 = .error (failure, status) → status.Outcome)
      (attempts taskId name traceId timeout attempt retryCount left) log w := by
  induction left generalizing attempt retryCount log w with
  | zero =>
    refine .perform fun w₁ hrely _ => ⟨trivial, fun input outcome w₂ hr => ?_⟩
    obtain ⟨-, hr⟩ := guarded_eq_some.mp hr
    cases input <;> simp only [handler, reduceCtorEq, Option.some.injEq, Prod.mk.injEq] at hr
    obtain ⟨-, rfl⟩ := hr
    exact .ret ⟨runs_underway_kept w w₁ hrely hw, fun _ _ h => outcome.result_outcome h⟩
  | succ left ih =>
    refine .perform fun w₁ hrely _ => ⟨trivial, fun input outcome w₂ hr => ?_⟩
    obtain ⟨-, hr⟩ := guarded_eq_some.mp hr
    cases input <;> simp only [handler, reduceCtorEq, Option.some.injEq, Prod.mk.injEq] at hr
    obtain ⟨-, rfl⟩ := hr
    have hw₁ := runs_underway_kept w w₁ hrely hw
    split
    · exact .ret ⟨hw₁, fun _ _ h => nomatch h⟩
    · exact .bind (.mono (publish_safe runs_underway_kept hw₁) (fun _ _ _ hw => ih hw)
        fun _ _ _ h => h)

/-- The workflows leave the task to its run, which ends with an outcome. -/
theorem runWorkflows_safe {traceId : String} {timeout : ℤ} {maxRetries : ℕ} {names : List String}
    {index : ℕ} {outputs : List (String × Payload)} {retryCount : ℕ}
    (hw : w.Runs taskId i TaskStatus.Underway) :
    SafeRun i (fun result log _ => Reported taskId result log)
      (runWorkflows taskId traceId timeout maxRetries names index outputs retryCount) log w := by
  induction names generalizing index outputs retryCount log w with
  | nil => exact settle_safe (.inl rfl) rfl rfl hw
  | cons name rest ih =>
    refine .perform fun w₁ hrely _ => ⟨trivial, fun input flag w₂ hr => ?_⟩
    obtain ⟨-, hr⟩ := guarded_eq_some.mp hr
    cases input <;> simp only [handler, reduceCtorEq, Option.some.injEq, Prod.mk.injEq] at hr
    obtain ⟨-, rfl⟩ := hr
    have hw₁ := runs_underway_kept w w₁ hrely hw
    split
    · exact settle_safe (.inr (.inr (.inr rfl))) rfl rfl hw₁
    · refine .bind (.mono (attempts_safe hw₁) (fun made log w hmade => ?_) fun _ _ _ h => h)
      obtain ⟨hw, houtcome⟩ := hmade
      obtain ⟨made, retryCount'⟩ := made
      cases made with
      | error failed => exact terminalFailure_safe (houtcome _ _ rfl) hw
      | ok made =>
        refine .perform fun w₃ hrely _ => ⟨trivial, fun input r w₄ hr => ?_⟩
        obtain ⟨-, hr⟩ := guarded_eq_some.mp hr
        cases input <;> simp only [handler, reduceCtorEq, Option.some.injEq, Prod.mk.injEq] at hr
        obtain ⟨-, rfl⟩ := hr
        obtain ⟨entry, hentry, hphase, hmachine⟩ := runs_underway_kept w w₃ hrely hw
        refine ih ?_
        rw [World.recordWorkflow, hentry]
        exact ⟨_, Function.update_self taskId _ w₃.tasks, hphase, hmachine⟩

/-- **A run comes through**, and returns the outcome it has decided. -/
theorem run_safe {workflowRuntime : Bool} :
    SafeRun i (fun result log _ => Reported taskId result log) (run workflowRuntime taskId) log
      w := by
  refine .bind (.mono (move_safe (S := fun _ => True) (fun _ _ _ h => h) taskId .ready
    (fun _ _ => .inl rfl) trivial) (fun _ log w h => ?_) fun _ _ _ h => h)
  obtain ⟨-, entry, hentry, hmachine, -, hphase⟩ := h
  have hw : w.Runs taskId i (· = .ready) := ⟨entry, hentry, hphase, hmachine⟩
  refine .bind (.mono (publish_safe runs_ready_kept hw) (fun _ log w hw => ?_) fun _ _ _ h => h)
  refine .bind (.mono (move_safe runs_ready_kept taskId .running
    (fun w h => .inr (.inl ⟨rfl, h⟩)) hw) (fun _ log w h => ?_) fun _ _ _ h => h)
  obtain ⟨-, entry, hentry, hmachine, -, hphase⟩ := h
  have hw : w.Runs taskId i TaskStatus.Underway := ⟨entry, hentry, hphase, .inl hmachine⟩
  refine .bind (.mono (publish_safe runs_underway_kept hw) (fun _ log w hw => ?_) fun _ _ _ h => h)
  refine .perform fun w₁ hrely _ => ⟨trivial, fun input r w₂ hr => ?_⟩
  obtain ⟨-, hr⟩ := guarded_eq_some.mp hr
  cases input <;> simp only [handler, reduceCtorEq, Option.some.injEq, Prod.mk.injEq] at hr
  obtain ⟨-, rfl⟩ := hr
  have hw₁ := runs_underway_kept w w₁ hrely hw
  obtain ⟨request, checkpoint⟩ := r
  simp only
  split
  · exact terminalFailure_safe (.inr (.inl rfl)) hw₁
  · split
    · exact terminalFailure_safe (.inr (.inl rfl)) hw₁
    · exact runWorkflows_safe hw₁

/-- An action that any call may perform. -/
def Free : Action → Prop
  | .move _ _ => False
  | .report _ _ => False
  | _ => True

theorem orRaise_free {α : Type} {result : Except Exn α} : (orRaise result).All Free := by
  cases result <;> trivial

theorem publish_free {eventType : String} : (publish taskId eventType).All Free :=
  .bind (.perform trivial) fun _ => orRaise_free

theorem createTask_free {request : TaskRequest} : (createTask request).All Free :=
  .bind (.perform trivial) fun _ => .bind publish_free fun _ => trivial

theorem pause_free : (pause taskId).All Free := by
  refine .bind (.perform trivial) fun changed => ?_
  split
  · exact .bind publish_free fun _ => trivial
  · trivial

theorem resume_free : (resume taskId).All Free := by
  refine .bind (.perform trivial) fun changed => ?_
  split
  · exact .bind publish_free fun _ => trivial
  · trivial

theorem cancel_free : (cancel taskId).All Free :=
  .bind (.perform trivial) fun _ => .bind orRaise_free fun _ => .bind publish_free fun _ => trivial

theorem retry_free : (retry taskId).All Free := by
  refine .bind (.perform trivial) fun changed => ?_
  split
  · exact .bind publish_free fun _ => trivial
  · trivial

theorem free_safe {p : Prog Answer} (h : p.All Free) :
    Safe runtime (guarded handler unimpeded) pre i (fun _ _ _ => True) (fun _ _ _ => True) p log
      w := by
  refine .of_all h fun log e w he => ?_
  cases e with
  | move taskId target => exact he.elim
  | report taskId eventType => exact he.elim
  | _ => trivial

/-- What the call of a run returns. -/
def Returned (taskId : String) (answer : Answer) (log : Log Action Action.Reply) : Prop :=
  ∃ result, answer = .result result ∧ Reported taskId result log

theorem start_run_safe {workflowRuntime : Bool} :
    SafeRun i (fun answer log _ => Returned taskId answer log)
      (start workflowRuntime (.run taskId)) log w :=
  .bind (.mono run_safe (fun result _ _ h => .ret ⟨result, rfl, h⟩) fun _ _ _ h => h)

theorem starts_safe (workflowRuntime : Bool) :
    StartsSafe runtime (guarded handler unimpeded) pre (start workflowRuntime) := by
  intro i k w _
  cases k with
  | createTask request => exact free_safe (.bind createTask_free fun _ => trivial)
  | run taskId => exact start_run_safe.mono (fun _ _ _ _ => trivial) fun _ _ _ _ => trivial
  | pause taskId => exact free_safe (.bind pause_free fun _ => trivial)
  | resume taskId => exact free_safe (.bind resume_free fun _ => trivial)
  | cancel taskId => exact free_safe (.bind cancel_free fun _ => trivial)
  | retry taskId => exact free_safe (.bind retry_free fun _ => trivial)

end Programs

/-! ## Transitions -/

/-- The table allows the transition. -/
def Allowed (s t : TaskStatus) : Prop := s.canTransition t = true

section Transitions

variable {w w' : World} {i : ℕ} {taskId : String} {entry : TaskEntry}

theorem set_allowed {id : String} {entry' : TaskEntry} (hentry : w.tasks taskId = some entry)
    (h : ∀ other, w.tasks id = some other →
      entry'.machine = other.machine ∨ Allowed other.machine entry'.machine) :
    ∃ next, (w.set id entry').tasks taskId = some next ∧
      (next.machine = entry.machine ∨ Allowed entry.machine next.machine) := by
  by_cases hid : taskId = id
  · subst hid
    exact ⟨entry', Function.update_self .., h entry hentry⟩
  · exact ⟨entry, (Function.update_of_ne hid ..).trans hentry, .inl rfl⟩

/-- **A task only takes transitions of the table**, whatever the calls do. -/
theorem handler_allowed {e : Action} {input : Input} {r : e.Reply}
    (hr : handler i e input w = some (r, w')) (hentry : w.tasks taskId = some entry) :
    ∃ next, w'.tasks taskId = some next ∧
      (next.machine = entry.machine ∨ Allowed entry.machine next.machine) := by
  have hsame : w = w' → ∃ next, w'.tasks taskId = some next ∧
      (next.machine = entry.machine ∨ Allowed entry.machine next.machine) := by
    rintro rfl
    exact ⟨entry, hentry, .inl rfl⟩
  -- the control calls change an entry only where the table lets them
  have hcontrol : ∀ id allowed change, (∀ other : TaskEntry, allowed other.machine = true →
      Allowed other.machine (change other).machine) → ∃ next,
        (w.control id allowed change).2.tasks taskId = some next ∧
          (next.machine = entry.machine ∨ Allowed entry.machine next.machine) := by
    intro id allowed change hallowed
    unfold World.control
    split
    · exact ⟨entry, hentry, .inl rfl⟩
    · rename_i other hother
      split
      · refine set_allowed hentry fun another hanother => .inr ?_
        obtain rfl : other = another := Option.some.inj (hother.symm.trans hanother)
        exact hallowed other ‹_›
      · exact ⟨entry, hentry, .inl rfl⟩
  cases e with
  | register request =>
    cases input with
    | id id =>
      simp only [handler] at hr
      split at hr
      · rename_i hnew
        obtain ⟨-, rfl⟩ := Prod.mk.inj (Option.some.inj hr)
        refine set_allowed hentry fun other hother => ?_
        rw [hother] at hnew
        cases hnew
      · cases hr
    | _ => simp [handler] at hr
  | move id target =>
    cases input <;> simp only [handler, reduceCtorEq, Option.some.injEq] at hr
    unfold World.move at hr
    split at hr
    · exact hsame (congrArg Prod.snd hr)
    · rename_i other hother
      split at hr
      · rename_i hcan
        obtain rfl := congrArg Prod.snd hr
        refine set_allowed hentry fun another hanother => .inr ?_
        obtain rfl : other = another := Option.some.inj (hother.symm.trans hanother)
        exact hcan
      · exact hsame (congrArg Prod.snd hr)
  | report id eventType =>
    have hw' : w.reported id = w' := by
      cases input <;> simp only [handler, reduceCtorEq, Option.some.injEq, Prod.mk.injEq] at hr <;>
        exact hr.2
    subst hw'
    unfold World.reported
    split
    · exact ⟨entry, hentry, .inl rfl⟩
    · rename_i other hother
      refine set_allowed hentry fun another hanother => .inl ?_
      obtain rfl : other = another := Option.some.inj (hother.symm.trans hanother)
      rfl
  | checkpoint id name index completed retryCount =>
    cases input <;> simp only [handler, reduceCtorEq, Option.some.injEq, Prod.mk.injEq] at hr
    obtain ⟨-, rfl⟩ := hr
    unfold World.recordWorkflow
    split
    · exact ⟨entry, hentry, .inl rfl⟩
    · rename_i other hother
      refine set_allowed hentry fun another hanother => .inl ?_
      obtain rfl : other = another := Option.some.inj (hother.symm.trans hanother)
      rfl
  | pause id =>
    cases input <;> simp only [handler, reduceCtorEq, Option.some.injEq] at hr
    obtain rfl := congrArg Prod.snd hr
    exact hcontrol id _ _ fun _ h => h
  | resume id =>
    cases input <;> simp only [handler, reduceCtorEq, Option.some.injEq] at hr
    obtain rfl := congrArg Prod.snd hr
    refine hcontrol id _ _ fun other h => ?_
    have hpaused : other.machine = .paused := by simpa using h
    rw [hpaused]
    rfl
  | cancel id =>
    cases input <;> simp only [handler, reduceCtorEq, Option.some.injEq] at hr
    unfold World.cancel at hr
    split at hr
    · obtain rfl : w.flagged id = w' := congrArg Prod.snd hr
      exact ⟨entry, hentry, .inl rfl⟩
    · rename_i other hother
      split at hr
      · rename_i hcan
        obtain rfl := congrArg Prod.snd hr
        refine set_allowed (w := w.flagged id) hentry fun another hanother => .inr ?_
        obtain rfl : other = another := Option.some.inj (hother.symm.trans hanother)
        exact hcan
      · obtain rfl : w.flagged id = w' := congrArg Prod.snd hr
        exact ⟨entry, hentry, .inl rfl⟩
  | retry id =>
    cases input <;> simp only [handler, reduceCtorEq, Option.some.injEq] at hr
    obtain rfl := congrArg Prod.snd hr
    exact hcontrol id _ _ fun _ h => h
  | _ =>
    cases input <;> simp only [handler, reduceCtorEq, Option.some.injEq, Prod.mk.injEq] at hr <;>
      exact hsame hr.2

/-- A task goes from state to state along the table. -/
theorem reaches_allowed {workflowRuntime : Bool} {c c' : Calls}
    (hr : Reaches handler (start workflowRuntime) c c')
    (hentry : c.world.tasks taskId = some entry) : ∃ entry', c'.world.tasks taskId = some entry' ∧
      Relation.ReflTransGen Allowed entry.machine entry'.machine := by
  refine hr.induction (motive := fun d => ∃ entry', d.world.tasks taskId = some entry' ∧
    Relation.ReflTransGen Allowed entry.machine entry'.machine) ⟨entry, hentry, .refl⟩
    fun d ev d' _ hd he => ?_
  obtain ⟨mid, hmid, hpath⟩ := hd
  rcases step_cases he with ⟨k, -, rfl⟩ | ⟨i, input, k, log, e, next, r, w, -, -, hact, rfl⟩
  · exact ⟨mid, hmid, hpath⟩
  · obtain ⟨entry', hentry', hsame | hallowed⟩ := handler_allowed hact hmid
    · exact ⟨entry', hentry', hsame ▸ hpath⟩
    · exact ⟨entry', hentry', hpath.tail hallowed⟩

end Transitions

/-! ## The law -/

/-- An action no call has to wait for. -/
def Ready : Action → Prop
  | .register _ => False
  | _ => True

section Law

variable {workflowRuntime : Bool} {c : Calls}

theorem runtime_initial : runtime.Inv {} := fun _ _ h => nomatch h

theorem unimpeded_every
    (h : ReachesIf handler (start workflowRuntime) (meets unimpeded) (idle {}) c) {i : ℕ}
    {taskId : String} {log : Log Action Action.Reply} {p : Prog Answer}
    (hi : c.calls[i]? = some ⟨.run taskId, log, p⟩) :
    SafeRun i (fun answer log _ => Returned taskId answer log) p log c.world :=
  Reaches.every (fun k => k = .run taskId) guarded_sound (starts_safe workflowRuntime)
    (w := {}) runtime_initial (fun _ _ _ hk _ => hk ▸ start_run_safe)
    (fun _ _ _ _ _ _ _ h => h) (fun _ _ _ _ _ _ _ h => h) h.guarded rfl hi

theorem Ready.enabled {i : ℕ} {e : Action} {w : World} (h : Ready e) :
    ∃ input, (handler i e input w).isSome = true := by
  cases e with
  | register request => exact h.elim
  | runWorkflow name traceId timeout => exact ⟨.outcome (.completed []), rfl⟩
  | _ => exact ⟨.done, rfl⟩

section Programs

variable {taskId : String}

theorem orRaise_ready {α : Type} {result : Except Exn α} : (orRaise result).All Ready := by
  cases result <;> trivial

theorem publish_ready {eventType : String} : (publish taskId eventType).All Ready :=
  .bind (.perform trivial) fun _ => orRaise_ready

theorem move_ready {target : TaskStatus} : (move taskId target).All Ready :=
  .bind (.perform trivial) fun _ => orRaise_ready

theorem report_ready {eventType : String} {result : TaskResult} :
    (report taskId eventType result).All Ready :=
  .bind (.perform trivial) fun _ => .bind orRaise_ready fun _ => trivial

theorem terminalFailure_ready {failure : FailureInfo} {status : TaskStatus} {retryCount : ℕ}
    {outputs : List (String × Payload)} :
    (terminalFailure taskId failure status retryCount outputs).All Ready :=
  .bind move_ready fun _ => report_ready

theorem attempts_ready {name traceId : String} {timeout : ℤ} {attempt retryCount left : ℕ} :
    (attempts taskId name traceId timeout attempt retryCount left).All Ready := by
  induction left generalizing attempt retryCount with
  | zero => exact .bind (.perform trivial) fun _ => trivial
  | succ left ih =>
    refine .bind (.perform trivial) fun outcome => ?_
    split
    · trivial
    · exact .bind publish_ready fun _ => ih

theorem runWorkflows_ready {traceId : String} {timeout : ℤ} {maxRetries : ℕ}
    {names : List String} {index : ℕ} {outputs : List (String × Payload)} {retryCount : ℕ} :
    (runWorkflows taskId traceId timeout maxRetries names index outputs retryCount).All Ready := by
  induction names generalizing index outputs retryCount with
  | nil => exact .bind move_ready fun _ => report_ready
  | cons name rest ih =>
    refine .bind (.perform trivial) fun flag => ?_
    split
    · exact .bind move_ready fun _ => report_ready
    · refine .bind attempts_ready fun made => ?_
      obtain ⟨made, retryCount'⟩ := made
      cases made with
      | error failed => exact terminalFailure_ready
      | ok made => exact .bind (.perform trivial) fun _ => ih

end Programs

/-- The run of a task never waits for another call. -/
theorem run_enabled {taskId : String} : (start workflowRuntime (.run taskId)).All Ready := by
  have hrun : (run workflowRuntime taskId).All Ready := by
    refine .bind move_ready fun _ => .bind publish_ready fun _ => .bind move_ready fun _ =>
      .bind publish_ready fun _ => .bind (.perform trivial) fun r => ?_
    obtain ⟨request, checkpoint⟩ := r
    simp only
    split
    · exact terminalFailure_ready
    · split
      · exact terminalFailure_ready
      · exact runWorkflows_ready
  exact .bind hrun fun _ => trivial

/-- **A run is total** under control calls that do not impede it: it never raises, it returns the
state its task is in, and it can always go on. Whatever the calls do, a task only takes transitions
of the table. -/
theorem run_total (workflowRuntime : Bool) (c : Calls)
    (h : ReachesIf handler (start workflowRuntime) (meets unimpeded) (idle {}) c) :
    (∀ (i : ℕ) taskId log exn, c.calls[i]? ≠ some ⟨.run taskId, log, .raise exn⟩) ∧
    (∀ (i : ℕ) input c' taskId log answer, meets unimpeded c (.act i input) = true →
      step handler (start workflowRuntime) c (.act i input) = some c' →
      c'.calls[i]? = some ⟨.run taskId, log, .ret answer⟩ →
      ∃ result entry, answer = .result result ∧ result.taskId = taskId ∧
        c'.world.tasks taskId = some entry ∧ entry.machine = result.status ∧
        entry.status = result.status) ∧
    (∀ (i : ℕ) taskId log e next, c.calls[i]? = some ⟨.run taskId, log, .await e next⟩ →
      ∃ input, (handler i e input c.world).isSome = true) ∧
    ∀ c', Reaches handler (start workflowRuntime) c c' → ∀ taskId entry,
      c.world.tasks taskId = some entry → ∃ entry', c'.world.tasks taskId = some entry' ∧
        Relation.ReflTransGen Allowed entry.machine entry'.machine := by
  refine ⟨fun i taskId log exn hi => ?_, ?_, ?_, fun c' hr taskId entry hentry =>
    reaches_allowed hr hentry⟩
  · exact (unimpeded_every h hi).of_raise
  · intro i input c' taskId log answer hok he hi'
    have h' : ReachesIf handler (start workflowRuntime) (meets unimpeded) (idle {}) c' :=
      h.trans ⟨[.act i input], by simp only [runIf, hok, he, if_true, Option.bind_some]⟩
    obtain ⟨result, rfl, hid, log₀, eventType, hlog⟩ := (unimpeded_every h' hi').of_ret
    have hall : AllSafe runtime (guarded handler unimpeded) pre c :=
      (AllSafe.idle runtime_initial).reaches guarded_sound (starts_safe workflowRuntime) h.guarded
    rcases step_cases he with ⟨k, hk, -⟩ | ⟨j, input', k, log', e, next, r, w, hj, hi, hact, rfl⟩
    · cases hk
    · -- the last action of the call is the publication of the outcome it has decided
      obtain ⟨rfl, rfl⟩ : i = j ∧ input = input' := by simpa using hj
      have hlt := (List.getElem?_eq_some_iff.mp hi).1
      rw [List.getElem?_set_self hlt] at hi'
      obtain ⟨rfl, hlog', hnext⟩ : k = .run taskId ∧ log' ++ [⟨e, r⟩] = log ∧
        next r = .ret (.result result) := by simpa using hi'
      have hends : log' ++ [⟨e, r⟩] = (log₀ ++ [⟨.move taskId result.status, .ok ()⟩]) ++
          [⟨.report taskId eventType, .ok ()⟩] := by
        rw [hlog', hlog, List.append_assoc]
        rfl
      obtain ⟨rfl, hlast⟩ := List.append_inj' hends rfl
      obtain ⟨rfl, hr⟩ : e = .report taskId eventType ∧ HEq r (.ok () : Except Exn Unit) := by
        simpa using hlast
      obtain ⟨status, hstatus, entry, hentry, -, hmachine, hentryStatus⟩ := hall.meets_pre hi
      obtain rfl : result.status = status := by simpa using hstatus
      have hw : c.world.reported taskId = w := by
        cases input <;> simp only [handler, reduceCtorEq, Option.some.injEq, Prod.mk.injEq] at hact
          <;> exact hact.2
      refine ⟨result, { entry with phase := .idle }, rfl, hid, ?_, hmachine, hentryStatus⟩
      rw [← hw, World.reported, hentry]
      exact Function.update_self ..
  · intro i taskId log e next hi
    have hsafe : Safe runtime (guarded handler unimpeded) (fun _ _ e _ => Ready e) i
        (fun _ _ _ => True) (fun _ _ _ => True) (.await e next) log c.world :=
      Reaches.every (fun k => k = .run taskId) guarded_sound (starts_safe workflowRuntime)
        (w := {}) runtime_initial
        (fun _ _ _ hk _ => hk ▸ .of_all run_enabled fun _ _ _ h => h)
        (fun _ _ _ _ _ _ _ h => h) (fun _ _ _ _ _ _ _ h => h) h.guarded rfl hi
    have hinv : runtime.Inv c.world :=
      ((AllSafe.idle runtime_initial).reaches guarded_sound (starts_safe workflowRuntime)
        h.guarded).1
    exact Ready.enabled (hsafe.act hinv).1

end Law

namespace Scenario

/-- A task of one workflow is created. -/
def created : List (Event Request Input) := [
  .arrive (.createTask { taskName := "report", workflowNames := ["collect"] }),
  .act 0 (.id "t1"), .act 0 .done]

/-- The task is run as far as its workflow. -/
def running : List (Event Request Input) := created ++ ([
  .arrive (.run "t1"), .act 1 .done, .act 1 .done, .act 1 .done, .act 1 .done, .act 1 .done,
  .act 1 .done] : List (Event Request Input))

/-- The workflow completes, and the run goes on. -/
def completes : List (Event Request Input) := [
  .act 1 (.outcome (.completed [])), .act 1 .done, .act 1 .done, .act 1 .done]

/-- The task is cancelled while its workflow runs, which then completes. -/
def cancelled : List (Event Request Input) := running ++ ([
  .arrive (.cancel "t1"), .act 2 .done, .act 2 .done,
  .act 1 (.outcome (.completed [])), .act 1 .done, .act 1 .done] : List (Event Request Input))

/-- The configuration events lead to. -/
def after (events : List (Event Request Input)) : Calls :=
  (Process.run handler (start true) (idle {}) events).getD (idle {})

theorem reachable (events : List (Event Request Input)) : Reachable true (after events) := by
  unfold after
  cases h : Process.run handler (start true) (idle {}) events with
  | none => exact .refl _
  | some c => exact ⟨_, h⟩

/-- The task is paused and resumed while its workflow runs, which then completes. A retry while the
outcome is published is refused. -/
def resumed : List (Event Request Input) := running ++ ([
  .arrive (.pause "t1"), .act 2 .done, .act 2 .done, .arrive (.resume "t1"), .act 3 .done,
  .act 3 .done] : List (Event Request Input)) ++ completes.take 3 ++ ([
  .arrive (.retry "t1"), .act 4 .done] : List (Event Request Input))

theorem resumed_unimpeded :
    ReachesIf handler (start true) (meets unimpeded) (idle {}) (after resumed) := by
  have h : (runIf handler (start true) (meets unimpeded) (idle {}) resumed).isSome = true := by
    decide +kernel
  obtain ⟨c, hc⟩ := Option.isSome_iff_exists.mp h
  have hrun : after resumed = c := by rw [after, run_of_runIf hc]; rfl
  exact hrun ▸ ⟨_, hc⟩

/-- What a call has raised. -/
def raised (c : Calls) (i : ℕ) : Option Exn :=
  c.calls[i]?.bind fun call => match call.rest with
    | .raise exn => some exn
    | _ => none

/-- What a call has returned. -/
def returned (c : Calls) (i : ℕ) : Option Answer :=
  c.calls[i]?.bind fun call => match call.rest with
    | .ret answer => some answer
    | _ => none

end Scenario

/-- The run of a task that was paused and resumed returns the state its task is in. -/
theorem run_total_scenario : ∃ c' log answer result entry,
    step handler (start true) (Scenario.after Scenario.resumed) (.act 1 .done) = some c' ∧
    c'.calls[1]? = some ⟨.run "t1", log, .ret answer⟩ ∧ answer = .result result ∧
    result.taskId = "t1" ∧ c'.world.tasks "t1" = some entry ∧ entry.machine = result.status ∧
    entry.status = result.status := by
  have hdone : (step handler (start true) (Scenario.after Scenario.resumed) (.act 1 .done)).map
      (fun c' => (c'.calls[1]?.map Call.request, (Scenario.returned c' 1).isSome)) =
        some (some (.run "t1"), true) := by
    decide +kernel
  have hmeets : meets unimpeded (Scenario.after Scenario.resumed) (.act 1 .done) = true := by
    decide +kernel
  obtain ⟨c', hstep, heq⟩ := Option.map_eq_some_iff.mp hdone
  obtain ⟨hrequest, hreturned⟩ := Prod.mk.inj heq
  obtain ⟨⟨request, log, rest⟩, hcall, rfl⟩ := Option.map_eq_some_iff.mp hrequest
  obtain ⟨answer, hanswer⟩ := Option.isSome_iff_exists.mp hreturned
  simp only [Scenario.returned, hcall, Option.bind_some] at hanswer
  split at hanswer
  · next _ answer =>
    obtain ⟨result, entry, hresult, hlaw⟩ := (run_total true _ Scenario.resumed_unimpeded).2.1
      1 .done c' "t1" log answer hmeets hstep hcall
    exact ⟨c', log, answer, result, entry, hstep, hcall, hresult, hlaw⟩
  · cases hanswer

/-- A run whose task is cancelled while its workflow runs raises. -/
theorem cancelled_run_raises : ¬ ∀ (workflowRuntime : Bool) (c : Calls),
    Reachable workflowRuntime c → ∀ (i : ℕ) taskId log current target,
      c.calls[i]? ≠ some ⟨.run taskId, log, .raise (.state current target)⟩ := by
  intro hall
  have hraised : Scenario.raised (Scenario.after Scenario.cancelled) 1 =
      some (.state .cancelled .completed) := by decide +kernel
  have hrequest : ((Scenario.after Scenario.cancelled).calls[1]?.map Call.request) =
      some (.run "t1") := by decide +kernel
  obtain ⟨⟨request, log, rest⟩, hcall, hrequest⟩ := Option.map_eq_some_iff.mp hrequest
  obtain rfl : request = .run "t1" := hrequest
  simp only [Scenario.raised, hcall, Option.bind_some] at hraised
  split at hraised
  · obtain rfl := Option.some.inj hraised
    exact hall true _ (Scenario.reachable _) 1 "t1" log .cancelled .completed hcall
  · cases hraised

end Tasks

import AiLabOs.Process.Frames
import AiLabOs.Reminder.Effects

/-!
# Reminders: the service keeps the protocol

Every program of the services meets the preconditions of its actions, whatever the other calls do
in between. Most of what they do concerns the tasks and the jobs and asks for nothing; what remains
is that an update is based on a reminder that was read.

## Main definitions

* `Quiet`: the actions that need nothing
* `Keeps`: a program that meets its preconditions
* `Knows`: a reminder that was read, with a job that may be newer

## Main results

* `keeps_of_quiet`, `Keeps.bind`, `Keeps.tryCatch`: the rules
* `keeps_transition`, `keeps_prepareReschedule`, `keeps_createPending`: the reminder service
-/

namespace Reminders

open Process UserTasks

variable {g : Granularity} {i : ℕ} {log : Log Action Action.Reply} {w : World} {α β : Type}

/-- A program of the call `i` that meets its preconditions, and what it ensures on its return. -/
abbrev Keeps (g : Granularity) (i : ℕ) (post : α → Log Action Action.Reply → World → Prop)
    (p : Prog α) (log : Log Action Action.Reply) (w : World) : Prop :=
  Safe protocol handler (pre g) i post (fun _ _ _ => True) p log w

/-- A fact that no action disturbs. -/
abbrev Steady (g : Granularity) (i : ℕ) (S : Log Action Action.Reply → World → Prop) : Prop :=
  Stable protocol handler (pre g) i S

/-! ## Rules -/

/-- The actions that need nothing. -/
def Quiet : Action → Prop
  | .create _ => False
  | .update _ _ => False
  | .trigger _ _ _ => False
  | .triggerWrite _ _ _ => False
  | _ => True

theorem pre_of_quiet {log : Log Action Action.Reply} {e : Action} {w : World} (h : Quiet e) :
    pre g i log e w := by
  cases e <;> first | exact h.elim | trivial

/-- What survives the evolution of the reminders survives every action. -/
theorem steady {S : World → Prop}
    (h : ∀ w w', S w → Evolves w.reminders w'.reminders → S w') : Steady g i fun _ w => S w where
  others _ w w' hrely _ hs := h w w' hs hrely
  own _ _ _ _ w w' hw hpre hr hs := h w w' hs ((pre.effect hw hpre hr).evolves hw)

theorem steady_true : Steady g i fun _ _ => True := steady fun _ _ _ _ => trivial

theorem steady_seen (reminder : Reminder) : Steady g i fun _ w => Seen w reminder :=
  steady fun _ _ => Seen.of_evolves

/-- What the call has done stays done. -/
theorem steady_mem (entry : Σ e : Action, e.Reply) : Steady g i fun log _ => entry ∈ log where
  others _ _ _ _ _ hs := hs
  own _ _ _ _ _ _ _ _ _ hs := List.mem_append_left _ hs

theorem Steady.and {S T : Log Action Action.Reply → World → Prop} (hS : Steady g i S)
    (hT : Steady g i T) : Steady g i fun log w => S log w ∧ T log w where
  others log w w' hrely hw hs :=
    ⟨hS.others log w w' hrely hw hs.1, hT.others log w w' hrely hw hs.2⟩
  own log e input r w w' hw hpre hr hs :=
    ⟨hS.own log e input r w w' hw hpre hr hs.1, hT.own log e input r w w' hw hpre hr hs.2⟩

section Rules

variable {post : α → Log Action Action.Reply → World → Prop}
variable {postβ : β → Log Action Action.Reply → World → Prop}
variable {S : Log Action Action.Reply → World → Prop}

theorem keeps_of_quiet {p : Prog α} (h : p.All Quiet) : Keeps g i (fun _ _ _ => True) p log w :=
  Safe.of_all h fun _ _ _ => pre_of_quiet

theorem Keeps.mono {post' : α → Log Action Action.Reply → World → Prop} {p : Prog α}
    (h : Keeps g i post p log w) (hpost : ∀ a log w, post a log w → post' a log w) :
    Keeps g i post' p log w :=
  Safe.mono h hpost fun _ _ _ h => h

theorem Keeps.weaken {p : Prog α} (h : Keeps g i post p log w) :
    Keeps g i (fun _ _ _ => True) p log w :=
  h.mono fun _ _ _ _ => trivial

/-- Sequential composition, with a fact that lasts over the first program. -/
theorem Keeps.bind {p : Prog α} {f : α → Prog β} (hp : Keeps g i post p log w)
    (hS : Steady g i S) (hs : S log w)
    (hf : ∀ a log w, post a log w → S log w → Keeps g i postβ (f a) log w) :
    Keeps g i postβ (p >>= f) log w :=
  Safe.bind ((Safe.frame hS hp hs).mono (fun a log w h => hf a log w h.1 h.2)
    fun _ _ _ _ => trivial)

/-- A quiet program before another one. -/
theorem Keeps.quiet_bind {p : Prog α} {f : α → Prog β} (hp : p.All Quiet)
    (hS : Steady g i S) (hs : S log w)
    (hf : ∀ a log w, S log w → Keeps g i postβ (f a) log w) : Keeps g i postβ (p >>= f) log w :=
  (keeps_of_quiet hp).bind hS hs fun a log w _ => hf a log w

/-- Exceptions, with a fact that lasts up to them. -/
theorem Keeps.tryCatch {p : Prog α} {f : Exn → Prog α} (hp : Keeps g i post p log w)
    (hS : Steady g i S) (hs : S log w)
    (hf : ∀ exn log w, S log w → Keeps g i post (f exn) log w) :
    Keeps g i post (p.tryCatch f) log w :=
  Safe.tryCatch ((Safe.frame hS hp hs).mono (fun _ _ _ h => h.1) fun exn log w h =>
    hf exn log w h.2)

theorem keeps_rethrow {p : Prog α} {f : Exn → Exn} (hp : Keeps g i post p log w) :
    Keeps g i post (rethrow f p) log w :=
  hp.tryCatch steady_true trivial fun _ _ _ _ => Safe.raise trivial

theorem keeps_logged {p : Prog Unit} (hp : Keeps g i (fun _ _ _ => True) p log w) :
    Keeps g i (fun _ _ _ => True) (logged p) log w :=
  hp.tryCatch steady_true trivial fun _ _ _ _ => Safe.ret trivial

/-- The reply of a transaction, returned or raised. -/
theorem keeps_orRaise {reply : Except Exn α} (h : ∀ a, reply = .ok a → post a log w) :
    Keeps g i post (orRaise reply) log w := by
  cases reply with
  | ok a => exact Safe.ret (h a rfl)
  | error exn => exact Safe.raise trivial

theorem keeps_orInvalid {result : Except Invalid α} (h : ∀ a, result = .ok a → post a log w) :
    Keeps g i post (orInvalid result) log w := by
  cases result with
  | ok a => exact Safe.ret (h a rfl)
  | error invalid => exact Safe.raise trivial

end Rules

/-! ## Quiet programs -/

theorem quiet_orRaise (reply : Except Exn α) : (orRaise reply).All Quiet := by
  cases reply <;> trivial

theorem quiet_orInvalid (result : Except Invalid α) : (orInvalid result).All Quiet := by
  cases result <;> trivial

theorem quiet_rethrow {p : Prog α} {f : Exn → Exn} (h : p.All Quiet) : (rethrow f p).All Quiet :=
  h.tryCatch fun _ => trivial

theorem quiet_logged {p : Prog Unit} (h : p.All Quiet) : (logged p).All Quiet :=
  h.tryCatch fun _ => trivial

theorem quiet_clockNow : clockNow.All Quiet := .perform trivial

theorem quiet_getTask (workspaceKey : WorkspaceKey) (taskId traceId : String) :
    (getTask workspaceKey taskId traceId).All Quiet :=
  .bind (.perform trivial) fun reply => by cases reply <;> trivial

theorem quiet_repositoryUpdateTask (workspaceKey : WorkspaceKey) (task : UserTask) (revision : ℕ) :
    (repositoryUpdateTask workspaceKey task revision).All Quiet :=
  .bind (.perform trivial) quiet_orRaise

theorem quiet_createTask (env : Environment) (workspaceKey : WorkspaceKey) (task : NewTask) :
    (createTask env workspaceKey task).All Quiet := by
  apply quiet_rethrow
  refine .bind quiet_clockNow fun now => .bind (quiet_orInvalid _) fun task => ?_
  exact .bind (.perform trivial) quiet_orRaise

section Updates

-- An edit of a task is taken apart by the rules for its parts only.
attribute [local irreducible] Program.All

theorem quiet_writeMetadata (env : Environment) (workspaceKey : WorkspaceKey) (current : UserTask)
    (metadata : Metadata) (revision : Option ℕ) (traceId : String) (now : DateTime) :
    (writeMetadata env workspaceKey current metadata revision traceId now).All Quiet := by
  unfold writeMetadata
  apply Program.All.bind (quiet_orInvalid _)
  intro candidate
  apply quiet_repositoryUpdateTask

theorem quiet_updateTask (env : Environment) (workspaceKey : WorkspaceKey) (taskId : String)
    (metadata : Metadata) (revision : Option ℕ) (traceId : String) :
    (updateTask env workspaceKey taskId metadata revision traceId).All Quiet := by
  unfold updateTask
  apply Program.All.bind (quiet_getTask workspaceKey taskId traceId)
  intro current
  split
  · apply Program.All.raise
  · apply Program.All.bind quiet_clockNow
    intro now
    apply quiet_rethrow
    apply quiet_writeMetadata

end Updates

theorem quiet_repositoryGet (reminderId : String) : (repositoryGet reminderId).All Quiet :=
  .bind (.perform trivial) quiet_orRaise

theorem quiet_cancelledNow (reminder : Reminder) (status : ReminderStatus) :
    (cancelledNow reminder status).All Quiet := by
  unfold cancelledNow
  split
  · exact .bind quiet_clockNow fun now => trivial
  · trivial

theorem quiet_requireScheduler (node : Node) : (requireScheduler node).All Quiet := by
  unfold requireScheduler
  split <;> trivial

theorem quiet_getJob (jobId : String) : (getJob jobId).All Quiet :=
  .bind (.perform trivial) quiet_orRaise

theorem quiet_syncRegistry (node : Node) : (syncRegistry node).All Quiet :=
  .bind (.perform trivial) quiet_orRaise

theorem quiet_cancelJob (node : Node) (jobId : String) : (cancelJob node jobId).All Quiet := by
  refine .bind (quiet_getJob jobId) fun job => ?_
  split
  · trivial
  · refine .bind (.perform trivial) fun reply => .bind (quiet_orRaise reply) fun cancelled => ?_
    exact .bind (quiet_syncRegistry node) fun _ => trivial

theorem quiet_moveJob (node : Node) (reminder : Reminder) (jobId : String) :
    (moveJob node reminder jobId).All Quiet := by
  refine .bind (quiet_getJob jobId) fun job => ?_
  split
  · trivial
  · split
    · trivial
    · refine .bind (.perform trivial) fun reply => .bind (quiet_orRaise reply) fun changed => ?_
      exact .bind (quiet_syncRegistry node) fun _ => trivial

theorem quiet_createJob (node : Node) (reminder : Reminder) : (createJob node reminder).All Quiet :=
  .bind (quiet_requireScheduler node) fun _ => .bind (.perform trivial) quiet_orRaise

theorem quiet_ensureJob (node : Node) (reminder : Reminder) :
    (ensureJob node reminder).All Quiet := by
  have hcreate : (some <$> createJob node reminder).All Quiet :=
    .bind (quiet_createJob node reminder) fun _ => trivial
  refine .bind (quiet_requireScheduler node) fun _ => ?_
  split
  · exact hcreate
  · refine .bind (quiet_getJob _) fun existing => ?_
    split
    · exact hcreate
    · refine .bind (quiet_moveJob node reminder _) fun changed => ?_
      split
      · exact quiet_getJob _
      · exact hcreate

theorem quiet_takeBack (node : Node) (job : Option Scheduler.Job) :
    (takeBack node job).All Quiet := by
  cases job with
  | none => trivial
  | some job => exact quiet_logged (.bind (quiet_cancelJob node job.id) fun _ => trivial)

theorem quiet_refuseRunning (reminder : Reminder) : (refuseRunning reminder).All Quiet := by
  unfold refuseRunning
  split
  · trivial
  · refine .bind (quiet_getJob _) fun job => ?_
    split <;> trivial

theorem quiet_moveKnownJob (node : Node) (reminder : Reminder) :
    (moveKnownJob node reminder).All Quiet := by
  unfold moveKnownJob
  split
  · trivial
  · refine .bind (quiet_moveJob node reminder _) fun changed => ?_
    split
    · trivial
    · refine .bind (quiet_getJob _) fun latest => ?_
      split <;> trivial

theorem quiet_cancelReminderJob (node : Node) (reminder : Reminder) :
    (cancelReminderJob node reminder).All Quiet := by
  unfold cancelReminderJob
  split
  · trivial
  · split
    · trivial
    · refine .bind (quiet_cancelJob node _) fun cancelled => .bind (quiet_getJob _) fun job => ?_
      split <;> trivial

theorem quiet_knownJob (node : Node) (reminder : Reminder) :
    (knownJob node reminder).All Quiet := by
  unfold knownJob
  split
  · trivial
  · split
    · trivial
    · exact quiet_getJob _

/-! ## Replies -/

/-- A reminder as a row. -/
def Written (w : World) (reminder : Reminder) : Prop := reminder.stored ∈ w.reminders.reminders

theorem Written.seen {w : World} {reminder : Reminder} (h : Written w reminder) : Seen w reminder :=
  ⟨reminder.stored, h, rfl, Nat.le_refl _, fun _ => rfl⟩

theorem Written.ended {w : World} {reminder : Reminder} (h : Written w reminder)
    (hterminal : reminder.status.terminal = true) : Over w reminder.id :=
  ⟨reminder.stored, h, rfl, hterminal⟩

theorem update_reply {w w' : World} {candidate updated : Reminder} {revision : ℕ} {input : Input}
    (hw : w.reminders.WellFormed)
    (hr : handler i (.update candidate revision) input w = some (.ok updated, w')) :
    Written w' updated ∧ ∃ now, updated = updatedRow candidate revision now := by
  cases input with
  | scheduler input => cases hr
  | supply supply =>
    have hpair : w.update candidate revision supply = (.ok updated, w') := Option.some.inj hr
    unfold World.update at hpair
    split at hpair
    · cases hpair
    · cases hok : w.reminders.update candidate revision supply.now with
      | error e =>
        rw [hok] at hpair
        cases hpair
      | ok result =>
        rw [hok] at hpair
        cases hpair
        obtain ⟨heq, old, hold, hid, -, hdb⟩ := Database.update_ok hw hok
        refine ⟨?_, supply.now, heq⟩
        have hkey : old.id = result.1.stored.id := by
          rw [hid, heq]
          rfl
        show result.1.stored ∈ result.2.reminders
        rw [hdb]
        exact Table.mem_put_self hold hkey

theorem get_reply {w w' : World} {reminderId : String} {reminder : Reminder} {input : Input}
    (hr : handler i (.get reminderId) input w = some (.ok reminder, w')) :
    w' = w ∧ reminder ∈ w.reminders.reminders ∧ reminder.id = reminderId := by
  cases input with
  | scheduler input => cases hr
  | supply supply =>
    have hpair := Option.some.inj hr
    obtain ⟨hreply, rfl⟩ := Prod.mk.inj hpair
    unfold reading at hreply
    split at hreply
    · cases hreply
    · unfold Database.get at hreply
      split at hreply
      · cases hreply
      · rename_i row hfind
        cases hreply
        exact ⟨rfl, List.mem_of_find?_eq_some hfind, by simpa using List.find?_some hfind⟩

theorem mem_list {db : Database} {p : Reminder → Bool} {reminder : Reminder} :
    reminder ∈ db.list p ↔ reminder ∈ db.reminders ∧ p reminder = true := by
  unfold Database.list
  rw [List.mem_insertionSort, List.mem_filter]

theorem listForTask_reply {w w' : World} {taskId : String} {reminders : List Reminder}
    {input : Input} (hr : handler i (.listForTask taskId) input w = some (.ok reminders, w')) :
    w' = w ∧ ∀ reminder, reminder ∈ reminders ↔
      reminder ∈ w.reminders.reminders ∧ reminder.userTaskId = taskId := by
  cases input with
  | scheduler input => cases hr
  | supply supply =>
    obtain ⟨hreply, rfl⟩ := Prod.mk.inj (Option.some.inj hr)
    unfold reading at hreply
    split at hreply
    · cases hreply
    · cases hreply
      refine ⟨rfl, fun reminder => ?_⟩
      rw [Database.listForTask, mem_list, decide_eq_true_eq]

theorem listAll_reply {w w' : World} {reminders : List Reminder} {input : Input}
    (hr : handler i .listAll input w = some (.ok reminders, w')) :
    w' = w ∧ ∀ reminder, reminder ∈ reminders ↔ reminder ∈ w.reminders.reminders := by
  cases input with
  | scheduler input => cases hr
  | supply supply =>
    obtain ⟨hreply, rfl⟩ := Prod.mk.inj (Option.some.inj hr)
    unfold reading at hreply
    split at hreply
    · cases hreply
    · cases hreply
      refine ⟨rfl, fun reminder => ?_⟩
      rw [Database.listAll, mem_list]
      simp

theorem create_reply {w w' : World} {reminder created : Reminder} {input : Input}
    (hr : handler i (.create reminder) input w = some (.ok created, w')) :
    created = reminder ∧ Written w' created := by
  cases input with
  | scheduler input => cases hr
  | supply supply =>
    have hpair : w.create reminder supply = (.ok created, w') := Option.some.inj hr
    unfold World.create at hpair
    split at hpair
    · cases hpair
    · cases hok : w.reminders.create reminder with
      | error e =>
        rw [hok] at hpair
        cases hpair
      | ok result =>
        rw [hok] at hpair
        cases hpair
        obtain ⟨heq, -, hdb⟩ := Database.create_ok hok
        refine ⟨heq, ?_⟩
        show result.1.stored ∈ result.2.reminders
        rw [hdb, heq]
        exact List.mem_append_right _ (List.mem_singleton_self _)

/-! ## The reminder service -/

theorem keeps_repositoryUpdate {seen candidate : Reminder} (hseen : Seen w seen)
    (hfollows : Follows seen candidate) :
    Keeps g i (fun updated _ w => Written w updated ∧ ∃ now,
      updated = updatedRow candidate seen.revision now)
      (repositoryUpdate candidate seen.revision) log w := by
  refine Safe.perform fun w' hw' hinv => ⟨?_, fun input r w'' hr => ?_⟩
  · exact ⟨seen, hseen.of_evolves hw', rfl, hfollows⟩
  · refine keeps_orRaise fun updated hok => ?_
    subst hok
    exact update_reply hinv hr

theorem keeps_repositoryGet (reminderId : String) :
    Keeps g i (fun reminder _ w => reminder ∈ w.reminders.reminders ∧ reminder.id = reminderId)
      (repositoryGet reminderId) log w := by
  refine Safe.perform fun w' hw' hinv => ⟨trivial, fun input r w'' hr => ?_⟩
  refine keeps_orRaise fun reminder hok => ?_
  subst hok
  obtain ⟨rfl, hmem, hid⟩ := get_reply hr
  exact ⟨hmem, hid⟩

theorem keeps_getReminder (reminderId traceId : String) :
    Keeps g i (fun reminder _ w => reminder ∈ w.reminders.reminders ∧ reminder.id = reminderId)
      (getReminder reminderId traceId) log w :=
  keeps_rethrow (keeps_repositoryGet reminderId)

/-- A reminder that was read, or whose job has been replaced since. -/
def Knows (w : World) (reminder : Reminder) : Prop :=
  ∃ schedulerJobId, Seen w { reminder with schedulerJobId }

theorem Seen.knows {w : World} {reminder : Reminder} (h : Seen w reminder) : Knows w reminder :=
  ⟨reminder.schedulerJobId, h⟩

theorem steady_knows (reminder : Reminder) : Steady g i fun _ w => Knows w reminder :=
  steady fun _ _ ⟨schedulerJobId, h⟩ he => ⟨schedulerJobId, h.of_evolves he⟩

/-- **A transition** keeps the protocol when it is one of the changes of status. -/
theorem keeps_transition {reminder : Reminder} {status : ReminderStatus} (changes : Changes)
    (traceId : String) (hknows : Knows w reminder)
    (hadvances : reminder.status.advances status = true) :
    Keeps g i (fun updated _ w => Written w updated ∧ updated.status = status ∧
      updated.id = reminder.id) (transition reminder status changes traceId) log w := by
  refine .quiet_bind (quiet_cancelledNow reminder status) (steady_knows reminder) hknows
    fun cancelledAt log w hknows => ?_
  obtain ⟨schedulerJobId, hseen⟩ := hknows
  have hfollows : Follows { reminder with schedulerJobId }
      (changed reminder status changes traceId cancelledAt) :=
        ⟨rfl, rfl, rfl, .inl ⟨hadvances, rfl⟩⟩
  refine keeps_rethrow ((keeps_repositoryUpdate hseen hfollows).mono ?_)
  rintro updated log w ⟨hwritten, now, rfl⟩
  exact ⟨hwritten, rfl, rfl⟩

/-- A transition whose result is not used. -/
theorem keeps_transition_unit {reminder : Reminder} {status : ReminderStatus} (changes : Changes)
    (traceId : String) (hknows : Knows w reminder)
    (hadvances : reminder.status.advances status = true) :
    Keeps g i (fun _ _ _ => True)
      (transition reminder status changes traceId >>= fun _ => .ret ()) log w :=
  (keeps_transition changes traceId hknows hadvances).bind steady_true trivial
    fun _ _ _ _ _ => Safe.ret trivial

theorem keeps_updatePlan (env : Environment) {reminder : Reminder} (plan : Plan)
    (hseen : Seen w reminder) (hrunning : reminder.status.terminal = false) :
    Keeps g i (fun updated _ w => Written w updated ∧ updated.status = .pendingReschedule)
      (updatePlan env reminder plan) log w := by
  have hchecked : Keeps g i (fun candidate _ _ => replanned env reminder plan = .ok candidate)
      (orInvalid (replanned env reminder plan)) log w := keeps_orInvalid fun _ h => h
  refine hchecked.bind (steady_seen reminder) hseen fun candidate log w hplan hseen => ?_
  obtain ⟨hfollows, hstatus⟩ := Follows.replanned hrunning hplan
  refine .quiet_bind quiet_clockNow (steady_seen reminder) hseen fun now log w hseen => ?_
  split
  · exact Safe.raise trivial
  · refine (keeps_repositoryUpdate hseen hfollows).mono ?_
    rintro updated log w ⟨hwritten, now, rfl⟩
    exact ⟨hwritten, hstatus⟩

/-- **A new plan** keeps the protocol: it is refused to a reminder that has ended. -/
theorem keeps_prepareReschedule (env : Environment) (reminderId : String) (plan : Plan) :
    Keeps g i (fun updated _ w => Written w updated ∧ updated.status = .pendingReschedule)
      (prepareReschedule env reminderId plan) log w := by
  refine (keeps_getReminder reminderId plan.traceId).bind steady_true trivial
    fun reminder log w hgot _ => ?_
  split
  · exact Safe.raise trivial
  · rename_i hrunning
    split
    · exact Safe.raise trivial
    · exact keeps_rethrow (keeps_updatePlan env plan (.of_mem hgot.1) (by simpa using hrunning))

theorem draftReminder_ok {env : Environment} {workspaceKey : WorkspaceKey} {args : ReminderArgs}
    {draft : Draft} {reminder : Reminder}
    (h : draftReminder env workspaceKey args draft = .ok reminder) :
    reminder.status = .pendingSchedule ∧ reminder.userTaskId = args.userTaskId := by
  obtain ⟨remindAt, -, h⟩ := Except.of_bind_ok h
  cases h
  exact ⟨rfl, rfl⟩

/-- **A new reminder** keeps the protocol: its task was found active by the action before. -/
theorem keeps_createPending (env : Environment) (workspaceKey : WorkspaceKey)
    (args : ReminderArgs) :
    Keeps g i (fun reminder _ w => Written w reminder ∧ reminder.status = .pendingSchedule)
      (createPending env workspaceKey args) log w := by
  apply keeps_rethrow
  refine Safe.perform fun w' hw' hinv => ⟨trivial, ?_⟩
  rintro input ⟨reply, draft⟩ w'' -
  cases reply with
  | error exn => exact Safe.raise trivial
  | ok task =>
    show Keeps g i _ (if task.status ≠ .active then _ else _) _ _
    split
    · exact Safe.raise trivial
    · rename_i hactive
      cases hdraft : draftReminder env workspaceKey args draft with
      | error invalid => exact Safe.raise trivial
      | ok reminder =>
        obtain ⟨hstatus, htask⟩ := draftReminder_ok hdraft
        show Keeps g i _ (if reminder.remindAt ≤ draft.now then _ else _) _ _
        split
        · exact Safe.raise trivial
        · refine Safe.perform fun w₁ hw₁ hinv₁ => ⟨⟨hstatus, ?_⟩, fun input r w₂ hr => ?_⟩
          · rw [htask]
            exact ⟨log, workspaceKey, task, draft, rfl, Decidable.not_not.mp hactive⟩
          · refine keeps_orRaise fun created hok => ?_
            subst hok
            obtain ⟨rfl, hwritten⟩ := create_reply hr
            exact ⟨hwritten, hstatus⟩

end Reminders

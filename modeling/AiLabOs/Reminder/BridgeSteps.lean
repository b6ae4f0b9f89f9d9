import AiLabOs.Reminder.Steps

/-!
# Reminders: the bridge keeps the protocol

The operations of the bridge base every update on a reminder they have read or written, also where
an exception takes them to the record of a failure. A cancellation that returns has ended its
reminder, and the cancellation of a task's reminders that returns has ended all it has listed.

## Main results

* `keeps_bridgeCreate`, `keeps_bridgeReschedule`, `keeps_bridgeCancel`, `keeps_reconcile`
* `keeps_cancelForTask`: every reminder that was listed is over
-/

namespace Reminders

open Process UserTasks

variable {g : Granularity} {i : ℕ} {log : Log Action Action.Reply} {w : World} {α : Type}

/-! ## Create -/

theorem keeps_compensate {post : α → Log Action Action.Reply → World → Prop} (node : Node)
    {reminder : Reminder} (job : Option Scheduler.Job) (traceId : String) (exn : Exn)
    (hknows : Knows w reminder) (hstatus : reminder.status = .pendingSchedule) :
    Keeps g i post (compensate node reminder job traceId exn) log w := by
  refine .quiet_bind (quiet_takeBack node job) (steady_knows reminder) hknows
    fun _ log w hknows => ?_
  have hrecord : Keeps g i (fun _ _ _ => True) ((transition reminder .failed
      ⟨some (job.map Scheduler.Job.id), some (some (bridgeFailure exn "schedule" reminder))⟩
      traceId).tryCatch fun _ => .ret reminder) log w :=
    (keeps_transition _ traceId hknows (by rw [hstatus]; rfl)).weaken.tryCatch steady_true trivial
      fun _ _ _ _ => Safe.ret trivial
  exact hrecord.bind steady_true trivial fun _ _ _ _ _ => Safe.raise trivial

/-- **Create** keeps the protocol. -/
theorem keeps_bridgeCreate (env : Environment) (node : Node) (workspaceKey : WorkspaceKey)
    (args : ReminderArgs) :
    Keeps g i (fun _ _ _ => True) (bridgeCreate env node workspaceKey args) log w := by
  refine (keeps_createPending env workspaceKey args).bind steady_true trivial
    fun reminder log w hcreated _ => ?_
  have hknows := hcreated.1.seen.knows
  have hjob : Keeps g i (fun _ _ _ => True)
      ((createJob node reminder).tryCatch (compensate node reminder none args.traceId)) log w :=
    (keeps_of_quiet (quiet_createJob node reminder)).tryCatch (steady_knows reminder) hknows
      fun exn log w hknows => keeps_compensate node none args.traceId exn hknows hcreated.2
  refine hjob.bind (steady_knows reminder) hknows fun job log w _ hknows => ?_
  refine (keeps_transition _ args.traceId hknows (by rw [hcreated.2]; rfl)).weaken.tryCatch
    (steady_knows reminder) hknows fun exn log w hknows => ?_
  exact keeps_compensate node (some job) args.traceId exn hknows hcreated.2

/-! ## Reschedule -/

theorem keeps_failReschedule {post : α → Log Action Action.Reply → World → Prop}
    {reminder : Reminder} (traceId : String) (exn : Exn) (hknows : Knows w reminder)
    (hstatus : reminder.status = .pendingReschedule) :
    Keeps g i post (failReschedule reminder traceId exn) log w := by
  refine (keeps_logged ?_).bind steady_true trivial fun _ _ _ _ _ => Safe.raise trivial
  exact keeps_transition_unit _ traceId hknows (by rw [hstatus]; rfl)

/-- A reminder whose job has been replaced. -/
theorem Knows.of_job {reminder : Reminder} (h : Knows w reminder) (schedulerJobId : Option String) :
    Knows w { reminder with schedulerJobId } := by
  obtain ⟨jobId, hseen⟩ := h
  exact ⟨jobId, hseen⟩

theorem keeps_followPlan (node : Node) (reminder : Reminder) :
    Keeps g i (fun followed _ _ => ∃ schedulerJobId, followed = { reminder with schedulerJobId })
      (followPlan node reminder) log w := by
  refine .quiet_bind (quiet_moveKnownJob node reminder) steady_true trivial
    fun changed log w _ => ?_
  split
  · exact Safe.ret ⟨reminder.schedulerJobId, rfl⟩
  · refine .quiet_bind (quiet_createJob node reminder) steady_true trivial fun job log w _ => ?_
    exact Safe.ret ⟨some job.id, rfl⟩

/-- **Reschedule** keeps the protocol. -/
theorem keeps_bridgeReschedule (env : Environment) (node : Node) (reminderId : String)
    (plan : Plan) :
    Keeps g i (fun _ _ _ => True) (bridgeReschedule env node reminderId plan) log w := by
  refine .quiet_bind (quiet_requireScheduler node) steady_true trivial fun _ log w _ => ?_
  refine (keeps_getReminder reminderId plan.traceId).bind steady_true trivial
    fun current log w _ _ => ?_
  refine .quiet_bind (quiet_refuseRunning current) steady_true trivial fun _ log w _ => ?_
  refine (keeps_prepareReschedule env reminderId plan).bind steady_true trivial
    fun reminder log w hprepared _ => ?_
  have hknows := hprepared.1.seen.knows
  have hstatus := hprepared.2
  have hfollow : Keeps g i
      (fun followed _ _ => ∃ schedulerJobId, followed = { reminder with schedulerJobId })
      ((followPlan node reminder).tryCatch (failReschedule reminder plan.traceId)) log w :=
    (keeps_followPlan node reminder).tryCatch (steady_knows reminder) hknows
      fun exn log w hknows => keeps_failReschedule plan.traceId exn hknows hstatus
  refine hfollow.bind (steady_knows reminder) hknows fun followed log w hfollowed hknows => ?_
  obtain ⟨schedulerJobId, rfl⟩ := hfollowed
  have hknows' := hknows.of_job schedulerJobId
  refine (keeps_transition _ plan.traceId hknows' (by rw [hstatus]; rfl)).weaken.tryCatch
    (steady_knows _) hknows' fun exn log w hknows => ?_
  exact keeps_failReschedule plan.traceId exn hknows hstatus

/-! ## Cancel -/

theorem ReminderStatus.advances_pendingCancel {status : ReminderStatus}
    (h : status.terminal = false) : status.advances .pendingCancel = true := by
  cases status <;> first | rfl | cases h

theorem keeps_failCancel {post : α → Log Action Action.Reply → World → Prop}
    {pending : Reminder} (traceId : String) (exn : Exn) (hknows : Knows w pending)
    (hstatus : pending.status = .pendingCancel) :
    Keeps g i post (failCancel pending traceId exn) log w := by
  refine (keeps_logged ?_).bind steady_true trivial fun _ _ _ _ _ => Safe.raise trivial
  exact keeps_transition_unit _ traceId hknows (by rw [hstatus]; rfl)

/-- The end of a cancellation: if it returns, the reminder is over. -/
theorem keeps_finishCancel (node : Node) {pending : Reminder} (traceId : String)
    (hknows : Knows w pending) (hstatus : pending.status = .pendingCancel) :
    Keeps g i (fun _ _ w => Over w pending.id) (finishCancel node pending traceId) log w := by
  refine Keeps.tryCatch ?_ (steady_knows pending) hknows fun exn log w hknows =>
    keeps_failCancel traceId exn hknows hstatus
  refine .quiet_bind (quiet_cancelReminderJob node pending) (steady_knows pending) hknows
    fun _ log w hknows => ?_
  refine (keeps_transition _ traceId hknows (by rw [hstatus]; rfl)).mono ?_
  rintro updated log w ⟨hwritten, hcancelled, hid⟩
  rw [← hid]
  exact hwritten.ended (by rw [hcancelled]; rfl)

/-- **Cancel** keeps the protocol, and when it returns the reminder is over. -/
theorem keeps_bridgeCancel (node : Node) (reminderId traceId : String) :
    Keeps g i (fun _ _ w => Over w reminderId) (bridgeCancel node reminderId traceId) log w := by
  refine (keeps_getReminder reminderId traceId).bind steady_true trivial
    fun reminder log w hgot _ => ?_
  obtain ⟨hmem, rfl⟩ := hgot
  split
  · rename_i hcancelled
    exact Safe.ret ⟨reminder, hmem, rfl, by rw [hcancelled]; rfl⟩
  · rename_i hcancelled
    split
    · exact Safe.raise trivial
    · rename_i htriggered
      have hrunning : reminder.status.terminal = false := by
        simp [ReminderStatus.terminal, hcancelled, htriggered]
      refine (keeps_transition {} traceId (Seen.of_mem hmem).knows
        (ReminderStatus.advances_pendingCancel hrunning)).bind steady_true trivial
        fun pending log w hpending _ => ?_
      obtain ⟨hwritten, hstatus, hid⟩ := hpending
      rw [← hid]
      exact keeps_finishCancel node traceId hwritten.seen.knows hstatus

theorem keeps_recordPendingCancel (reminderId traceId : String) (exn : Exn) :
    Keeps g i (fun _ _ _ => True) (recordPendingCancel reminderId traceId exn) log w := by
  refine (keeps_repositoryGet reminderId).bind steady_true trivial fun current log w hgot _ => ?_
  split
  · exact Safe.ret trivial
  · rename_i hrunning
    exact keeps_transition_unit _ traceId (Seen.of_mem hgot.1).knows
      (ReminderStatus.advances_pendingCancel (by simpa using hrunning))

/-- One reminder of a task that ends: unless its cancellation fails, it is over. -/
theorem keeps_cancelListed (node : Node) {reminder : Reminder} (traceId : String)
    (hseen : reminder.status.terminal = true → Over w reminder.id) :
    Keeps g i (fun failed _ w => failed = false → Over w reminder.id)
      (cancelListed node reminder traceId) log w := by
  unfold cancelListed
  split
  · rename_i hterminal
    exact Safe.ret fun _ => hseen hterminal
  · refine Keeps.tryCatch ?_ steady_true trivial fun exn log w _ => ?_
    · exact (keeps_bridgeCancel node reminder.id traceId).bind steady_true trivial
        fun _ log w hover _ => Safe.ret fun _ => hover
    · refine (keeps_logged (keeps_recordPendingCancel reminder.id traceId exn)).bind steady_true
        trivial fun _ log w _ _ => Safe.ret fun hfailed => ?_
      cases hfailed

/-- The reminders of a task that ends: when none has failed, all are over. -/
theorem keeps_cancelAll (node : Node) (traceId : String) (reminders : List Reminder)
    (hseen : ∀ reminder ∈ reminders, reminder.status.terminal = true → Over w reminder.id) :
    Keeps g i (fun failures _ w => failures = [] → ∀ reminder ∈ reminders, Over w reminder.id)
      (cancelAll node traceId reminders) log w := by
  induction reminders generalizing log w with
  | nil => exact Safe.ret fun _ _ h => absurd h List.not_mem_nil
  | cons reminder reminders ih =>
    have hrest : Steady g i fun _ w => ∀ reminder ∈ reminders,
        reminder.status.terminal = true → Over w reminder.id :=
      steady fun _ _ h he reminder hmem hterminal => (h reminder hmem hterminal).of_evolves he
    refine (keeps_cancelListed node traceId (hseen reminder (List.mem_cons_self ..))).bind hrest
      (fun other hmem => hseen other (List.mem_cons_of_mem _ hmem))
      fun failed log w hfirst hlater => ?_
    have hsteady : Steady g i fun _ w => failed = false → Over w reminder.id :=
      steady fun _ _ h he hfailed => (h hfailed).of_evolves he
    refine (ih hlater).bind hsteady hfirst fun failures log w hall hfirst => ?_
    refine Safe.ret fun hnone other hmem => ?_
    cases failed with
    | true => cases hnone
    | false =>
      rcases List.mem_cons.mp hmem with rfl | hmem
      · exact hfirst rfl
      · exact hall hnone other hmem

/-- What a call knows that has cancelled the reminders of a task. -/
def Cancelled (taskId : String) (log : Log Action Action.Reply) (w : World) : Prop :=
  ∃ reminders, (⟨.listForTask taskId, .ok reminders⟩ : Σ e : Action, e.Reply) ∈ log ∧
    ∀ reminder ∈ reminders, Over w reminder.id

/-- **The cancellation of a task's reminders** keeps the protocol, and when it returns, those it has
listed are over. -/
theorem keeps_cancelForTask (node : Node) (taskId traceId : String) :
    Keeps g i (fun _ log w => Cancelled taskId log w) (cancelForTask node taskId traceId) log
      w := by
  refine Safe.perform fun w' hw' hinv => ⟨trivial, fun input r w'' hr => ?_⟩
  cases r with
  | error exn => exact Safe.raise trivial
  | ok reminders =>
    obtain ⟨rfl, hlisted⟩ := listForTask_reply hr
    have hseen : ∀ reminder ∈ reminders, reminder.status.terminal = true →
        Over w'' reminder.id :=
      fun reminder hmem hterminal => ⟨reminder, ((hlisted reminder).mp hmem).1, rfl, hterminal⟩
    refine (keeps_cancelAll node traceId reminders hseen).bind
      (steady_mem ⟨.listForTask taskId, .ok reminders⟩)
      (List.mem_append_right _ (List.mem_singleton_self _)) fun failures log w hall hmem => ?_
    split
    · rename_i hnone
      exact Safe.ret ⟨reminders, hmem, hall hnone⟩
    · exact Safe.raise trivial

/-! ## Reconcile -/

theorem keeps_restoreSchedule (node : Node) {reminder : Reminder} (hseen : Seen w reminder)
    (hadvances : reminder.status.advances .scheduled = true) :
    Keeps g i (fun _ _ _ => True) (restoreSchedule node reminder) log w := by
  refine .quiet_bind (quiet_ensureJob node reminder) (steady_seen reminder) hseen
    fun job log w hseen => ?_
  split
  · exact Safe.raise trivial
  · exact (keeps_transition _ reminder.traceId hseen.knows hadvances).bind steady_true trivial
      fun _ _ _ _ _ => Safe.ret trivial

theorem keeps_restoreTriggered (node : Node) {reminder : Reminder} (job : Option Scheduler.Job)
    (hseen : Seen w reminder) (hstatus : reminder.status = .triggered) :
    Keeps g i (fun _ _ _ => True) (restoreTriggered node reminder job) log w := by
  cases job with
  | none =>
    refine .quiet_bind (quiet_createJob node reminder) (steady_seen reminder) hseen
      fun job log w hseen => ?_
    exact (keeps_transition _ reminder.traceId hseen.knows (by rw [hstatus]; rfl)).bind steady_true
      trivial fun _ _ _ _ _ => Safe.ret trivial
  | some job =>
    rw [restoreTriggered]
    split
    · exact Safe.ret trivial
    · refine .quiet_bind (quiet_moveJob node reminder job.id) steady_true trivial
        fun changed log w _ => ?_
      split
      · exact Safe.ret trivial
      · exact Safe.raise trivial

/-- The reminders whose job is made sure of may be scheduled. -/
theorem advances_of_needsJob {reminder : Reminder} {job : Option Scheduler.Job}
    (h : needsJob reminder job = true) : reminder.status.advances .scheduled = true := by
  unfold needsJob recoverableFailed at h
  cases hstatus : reminder.status <;> simp_all [ReminderStatus.advances]

theorem keeps_reconcileActive (env : Environment) (node : Node) {reminder : Reminder}
    (hseen : Seen w reminder) :
    Keeps g i (fun _ _ _ => True) (reconcileActive env node reminder) log w := by
  refine .quiet_bind (quiet_knownJob node reminder) (steady_seen reminder) hseen
    fun job log w hseen => ?_
  split
  · rename_i hneeds
    exact keeps_restoreSchedule node hseen (advances_of_needsJob hneeds)
  · split
    · exact (keeps_bridgeReschedule env node reminder.id _).bind steady_true trivial
        fun _ _ _ _ _ => Safe.ret trivial
    · exact (keeps_bridgeCancel node reminder.id reminder.traceId).bind steady_true trivial
        fun _ _ _ _ _ => Safe.ret trivial
    · split
      · split
        · exact Safe.ret trivial
        · exact .quiet_bind (quiet_cancelJob node _) steady_true trivial
            fun _ _ _ _ => Safe.ret trivial
      · exact Safe.ret trivial
    · rename_i hstatus
      exact keeps_restoreTriggered node job hseen hstatus
    · exact Safe.ret trivial

theorem keeps_reconcileItem (env : Environment) (node : Node) {reminder : Reminder}
    (hseen : Seen w reminder) :
    Keeps g i (fun _ _ _ => True) (reconcileItem env node reminder) log w := by
  refine .quiet_bind (quiet_getTask _ _ _) (steady_seen reminder) hseen fun task log w hseen => ?_
  split
  · split
    · exact Safe.ret trivial
    · exact (keeps_bridgeCancel node reminder.id reminder.traceId).bind steady_true trivial
        fun _ _ _ _ _ => Safe.ret trivial
  · exact keeps_reconcileActive env node hseen

theorem keeps_reconcileAll (env : Environment) (node : Node) (reminders : List Reminder)
    (result : ReconciliationResult) (hseen : ∀ reminder ∈ reminders, Seen w reminder) :
    Keeps g i (fun _ _ _ => True) (reconcileAll env node reminders result) log w := by
  induction reminders generalizing result log w with
  | nil => exact Safe.ret trivial
  | cons reminder reminders ih =>
    have hrest : Steady g i fun _ w => ∀ reminder ∈ reminders, Seen w reminder :=
      steady fun _ _ h he reminder hmem => (h reminder hmem).of_evolves he
    have hitem : Keeps g i (fun _ _ _ => True)
        ((some <$> reconcileItem env node reminder).tryCatch fun _ => .ret none) log w := by
      refine Keeps.tryCatch ?_ steady_true trivial fun _ _ _ _ => Safe.ret trivial
      exact (keeps_reconcileItem env node (hseen reminder (List.mem_cons_self ..))).bind steady_true
        trivial fun _ _ _ _ _ => Safe.ret trivial
    exact hitem.bind hrest (fun other hmem => hseen other (List.mem_cons_of_mem _ hmem))
      fun reconciled log w _ hlater => ih _ hlater

/-- **Reconcile** keeps the protocol. -/
theorem keeps_reconcile (env : Environment) (node : Node) :
    Keeps g i (fun _ _ _ => True) (reconcile env node) log w := by
  refine Safe.perform fun w' hw' hinv => ⟨trivial, fun input r w'' hr => ?_⟩
  cases r with
  | error exn => exact Safe.raise trivial
  | ok reminders =>
    obtain ⟨rfl, hlisted⟩ := listAll_reply hr
    exact keeps_reconcileAll env node reminders {} fun reminder hmem =>
      .of_mem ((hlisted reminder).mp hmem)

end Reminders

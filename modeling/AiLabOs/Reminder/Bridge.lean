import AiLabOs.Reminder.Service

/-!
# Reminders: scheduler bridge

The saga that keeps a reminder and its job in step. Every operation moves the reminder to a
pending status, changes the job, and moves the reminder on; an exception in between leaves a
failure on record. `reconcile` goes over all reminders and takes up what was left half done.

## Main definitions

* `createJob`, `ensureJob`: the job of a reminder
* `bridgeCreate`, `bridgeReschedule`, `bridgeCancel`, `cancelForTask`: the operations
* `reconcileItem`, `reconcile`: recovery
* `transitionTask`, `reopenTask`: the changes of a task's status, with the coordination of its
  reminders
-/

namespace Reminders

open Process UserTasks

/-- `_payload`. -/
def payload (reminder : Reminder) : Payload :=
  [("reminder_id", .str reminder.id), ("scheduled_at", .str reminder.remindAt.isoformat)]

/-- The job of a reminder, where it has one. -/
def Reminder.jobId (reminder : Reminder) : Option String :=
  reminder.schedulerJobId.filter fun jobId => jobId ≠ ""

/-- The request of `_create_job`. -/
def jobRequest (reminder : Reminder) : Scheduler.ScheduleRequest where
  jobName := "reminder:" ++ reminder.id
  trigger := {
    triggerType := .oneShot
    runAt := some reminder.remindAt
    timezone := reminder.timezone }
  actionType := "reminder"
  actionPayload := payload reminder
  traceId := reminder.traceId

/-- `_create_job`. -/
def createJob (node : Node) (reminder : Reminder) : Prog Scheduler.Job := do
  requireScheduler node
  scheduleJob node (jobRequest reminder)

/-- The job of a reminder, moved to its instant, if there is one that can be moved. -/
def moveJob (node : Node) (reminder : Reminder) (jobId : String) : Prog Bool :=
  rescheduleOneShot node jobId reminder.remindAt reminder.timezone (payload reminder)

/-- `_ensure_job`: the job of a reminder that is to be scheduled, which may turn out to be gone. -/
def ensureJob (node : Node) (reminder : Reminder) : Prog (Option Scheduler.Job) := do
  requireScheduler node
  match reminder.jobId with
  | none => some <$> createJob node reminder
  | some jobId => do
    let existing ← getJob jobId
    match existing with
    | none => some <$> createJob node reminder
    | some job => do
      let changed ← moveJob node reminder job.id
      if changed then getJob job.id else some <$> createJob node reminder

/-- `_failure`. -/
def bridgeFailure (exn : Exn) (operation : String) (reminder : Reminder) : FailureInfo :=
  let category := match exn with
    | .failure info => info.category
    | .unavailable _ => .notConfigured
    | .conflict _ => .conflict
    | _ => .dependencyFailure
  { code := "reminders.bridge." ++ operation ++ "_failed"
    category
    message := "Reminder " ++ operation ++ " failed"
    component := "reminder_bridge"
    operation
    retryable := match exn with
      | .failure info => info.retryable
      | _ => category ≠ .conflict
    traceId := match exn with
      | .failure info => if reminder.traceId = "" then info.traceId else reminder.traceId
      | _ => reminder.traceId
    details := [("reminder_id", .str reminder.id),
      ("recovery_state", .str reminder.status.value)] }

/-- Runs a program whose exception is only logged. -/
def logged (p : Prog Unit) : Prog Unit := p.tryCatch fun _ => .ret ()

/-! ## Create -/

/-- The job of a reminder that could not be scheduled, cancelled as far as that succeeds. -/
def takeBack (node : Node) : Option Scheduler.Job → Prog Unit
  | none => return ()
  | some job => logged (cancelJob node job.id >>= fun _ => .ret ())

/-- The exception branch of `create`: the job is taken back and the failure recorded. -/
def compensate {α : Type} (node : Node) (reminder : Reminder) (job : Option Scheduler.Job)
    (traceId : String) (exn : Exn) : Prog α := do
  let failure := bridgeFailure exn "schedule" reminder
  takeBack node job
  let recorded ← (transition reminder .failed
      ⟨some (job.map Scheduler.Job.id), some (some failure)⟩ traceId).tryCatch
    fun _ => .ret reminder
  .raise (.failure { failure with details := [("reminder_id", .str recorded.id),
    ("recovery_state", .str recorded.status.value)] })

/-- `create`. -/
def bridgeCreate (env : Environment) (node : Node) (workspaceKey : WorkspaceKey)
    (args : ReminderArgs) : Prog Reminder := do
  let reminder ← createPending env workspaceKey args
  let job ← (createJob node reminder).tryCatch (compensate node reminder none args.traceId)
  (transition reminder .scheduled ⟨some (some job.id), some none⟩ args.traceId).tryCatch
    (compensate node reminder (some job) args.traceId)

/-! ## Reschedule -/

/-- A reminder whose job runs is not rescheduled. -/
def refuseRunning (reminder : Reminder) : Prog Unit :=
  match reminder.jobId with
  | none => return ()
  | some jobId => do
    let job ← getJob jobId
    if job.any fun job => job.status = .running then
      .raise (.failure (bridgeFailure (.conflict "Running Reminder Job cannot be rescheduled")
        "reschedule" reminder))
    else return ()

/-- The exception branch of `reschedule`. -/
def failReschedule {α : Type} (reminder : Reminder) (traceId : String) (exn : Exn) : Prog α := do
  let failure := bridgeFailure exn "reschedule" reminder
  logged (transition reminder .pendingReschedule ⟨none, some (some failure)⟩ traceId >>=
    fun _ => .ret ())
  .raise (.failure failure)

/-- Whether the job of a reminder that is rescheduled could be moved. -/
def moveKnownJob (node : Node) (reminder : Reminder) : Prog Bool :=
  match reminder.jobId with
  | none => return false
  | some jobId => do
    let changed ← moveJob node reminder jobId
    if changed then return true
    else do
      let latest ← getJob jobId
      if latest.isSome then
        .raise (.conflict "Reminder Job changed concurrently and cannot be rescheduled")
      else return false

/-- The job of a reminder that is rescheduled, moved or replaced. -/
def followPlan (node : Node) (reminder : Reminder) : Prog Reminder := do
  let changed ← moveKnownJob node reminder
  if changed then return reminder
  else do
    let job ← createJob node reminder
    return { reminder with schedulerJobId := some job.id }

/-- `reschedule`. -/
def bridgeReschedule (env : Environment) (node : Node) (reminderId : String) (plan : Plan) :
    Prog Reminder := do
  requireScheduler node
  let current ← getReminder reminderId plan.traceId
  refuseRunning current
  let reminder ← prepareReschedule env reminderId plan
  let followed ← (followPlan node reminder).tryCatch (failReschedule reminder plan.traceId)
  (transition followed .scheduled ⟨some followed.schedulerJobId, some none⟩ plan.traceId).tryCatch
    (failReschedule followed plan.traceId)

/-! ## Cancel -/

/-- The job of a reminder that is being cancelled, cancelled. -/
def cancelReminderJob (node : Node) (reminder : Reminder) : Prog Unit :=
  match reminder.jobId with
  | none => return ()
  | some jobId =>
    if !node.hasScheduler then return ()
    else do
      let cancelled ← cancelJob node jobId
      let job ← getJob jobId
      if !cancelled && job.any fun job => job.status ≠ .cancelled && job.status ≠ .completed then
        .raise (.unavailable "Scheduler Job is currently running")
      else return ()

/-- The exception branch of `cancel`. -/
def failCancel {α : Type} (pending : Reminder) (traceId : String) (exn : Exn) : Prog α := do
  let failure := bridgeFailure exn "cancel" pending
  logged (transition pending .pendingCancel ⟨none, some (some failure)⟩ traceId >>=
    fun _ => .ret ())
  .raise (.failure failure)

/-- The job of a reminder that is pending is cancelled, and then the reminder. -/
def settleCancel (node : Node) (pending : Reminder) (traceId : String) : Prog Reminder := do
  cancelReminderJob node pending
  transition pending .cancelled ⟨none, some none⟩ traceId

/-- The end of `cancel`, of a reminder that is pending. -/
def finishCancel (node : Node) (pending : Reminder) (traceId : String) : Prog Reminder :=
  (settleCancel node pending traceId).tryCatch (failCancel pending traceId)

/-- `cancel`. -/
def bridgeCancel (node : Node) (reminderId traceId : String) : Prog Reminder := do
  let reminder ← getReminder reminderId traceId
  if reminder.status = .cancelled then return reminder
  else if reminder.status = .triggered then
    .raise (.failure { bridgeFailure (.conflict "Triggered Reminder cannot be cancelled") "cancel"
        reminder with
      category := .conflict
      retryable := false })
  else do
    let pending ← transition reminder .pendingCancel {} traceId
    finishCancel node pending traceId

/-- The exception branch of `cancel_for_task`, for one reminder. -/
def recordPendingCancel (reminderId traceId : String) (exn : Exn) : Prog Unit := do
  let current ← repositoryGet reminderId
  if current.status.terminal then return ()
  else do
    let _ ← transition current .pendingCancel
      ⟨none, some (some (bridgeFailure exn "cancel" current))⟩ traceId
    return ()

/-- One reminder of `cancel_for_task`: whether its cancellation failed. -/
def cancelListed (node : Node) (reminder : Reminder) (traceId : String) : Prog Bool :=
  if reminder.status.terminal then return false
  else (bridgeCancel node reminder.id traceId >>= fun _ => .ret false).tryCatch fun exn => do
    logged (recordPendingCancel reminder.id traceId exn)
    return true

/-- The reminders of `cancel_for_task`, one after the other: those that failed. -/
def cancelAll (node : Node) (traceId : String) : List Reminder → Prog (List String)
  | [] => return []
  | reminder :: reminders => do
    let failed ← cancelListed node reminder traceId
    let failures ← cancelAll node traceId reminders
    return if failed then reminder.id :: failures else failures

/-- The failure of `cancel_for_task`. -/
def lifecycleFailure (reminderId traceId : String) : FailureInfo where
  code := "reminders.lifecycle.reconciliation_required"
  category := .dependencyFailure
  message := "Reminder lifecycle reconciliation required"
  component := "reminder_bridge"
  operation := "user_task_terminal"
  retryable := true
  traceId
  details := [("reminder_id", .str reminderId),
    ("recovery_state", .str ReminderStatus.pendingCancel.value)]

/-- `first_failed_id`: the first of them that is not empty. -/
def firstFailed (failures : List String) : String := (failures.find? fun id => id ≠ "").getD ""

/-- `cancel_for_task`. -/
def cancelForTask (node : Node) (taskId traceId : String) : Prog Unit := do
  let reply ← Program.perform (Action.listForTask taskId)
  let reminders ← orRaise reply
  let failures ← cancelAll node traceId reminders
  if failures = [] then return ()
  else .raise (.failure (lifecycleFailure (firstFailed failures) traceId))

/-! ## Reconcile -/

/-- What `reconcile` counts. -/
inductive Reconciled where
  | repaired
  | skipped
deriving DecidableEq, Repr

/-- A failure the bridge has recorded. -/
def recoverableFailed (reminder : Reminder) : Bool :=
  reminder.status = .failed && reminder.lastFailure.any fun failure =>
    failure.component = "reminder_bridge"

/-- The reminders whose job `reconcile` makes sure of. -/
def needsJob (reminder : Reminder) (job : Option Scheduler.Job) : Bool :=
  reminder.status = .pendingSchedule || recoverableFailed reminder ||
    (reminder.status = .scheduled && job.all fun job =>
      job.status = .failed || job.status = .cancelled)

/-- A reminder that is due gets its job. A job that is gone at once has no identifier to note. -/
def restoreSchedule (node : Node) (reminder : Reminder) : Prog Reconciled := do
  let job ← ensureJob node reminder
  match job with
  | none => .raise (.other "'NoneType' object has no attribute 'info'")
  | some job => do
    let _ ← transition reminder .scheduled ⟨some (some job.id), some none⟩ reminder.traceId
    return .repaired

/-- A reminder that is triggered keeps a job on record. -/
def restoreTriggered (node : Node) (reminder : Reminder) : Option Scheduler.Job → Prog Reconciled
  | none => do
    let job ← createJob node reminder
    let _ ← transition reminder .triggered ⟨some (some job.id), some none⟩ reminder.traceId
    return .repaired
  | some job =>
    if job.status = .completed then return .skipped
    else do
      let changed ← moveJob node reminder job.id
      if changed then return .repaired
      else .raise (.unavailable "Triggered Reminder Job could not be recovered")

/-- The job of a reminder, as `reconcile` reads it. -/
def knownJob (node : Node) (reminder : Reminder) : Prog (Option Scheduler.Job) :=
  if !node.hasScheduler then return none
  else
    match reminder.jobId with
    | none => return none
    | some jobId => getJob jobId

/-- `reconcile`, of one reminder whose task is active. -/
def reconcileActive (env : Environment) (node : Node) (reminder : Reminder) : Prog Reconciled := do
  let job ← knownJob node reminder
  if needsJob reminder job then restoreSchedule node reminder
  else
    match reminder.status with
    | .pendingReschedule => do
      let _ ← bridgeReschedule env node reminder.id {
        remindAt := .utc reminder.remindAt
        timezone := reminder.timezone
        expectedRevision := some reminder.revision
        traceId := reminder.traceId }
      return .repaired
    | .pendingCancel => do
      let _ ← bridgeCancel node reminder.id reminder.traceId
      return .repaired
    | .cancelled =>
      match job with
      | some job =>
        if job.status = .cancelled || job.status = .completed then return .skipped
        else do
          let _ ← cancelJob node job.id
          return .repaired
      | none => return .skipped
    | .triggered => restoreTriggered node reminder job
    | _ => return .skipped

/-- The workspace of a reminder. -/
def reminderWorkspace (reminder : Reminder) : WorkspaceKey :=
  { workspaceKeyFromEvidence reminder.metadata.workspace with traceId := reminder.traceId }

/-- `reconcile`, of one reminder. -/
def reconcileItem (env : Environment) (node : Node) (reminder : Reminder) : Prog Reconciled := do
  let task ← getTask (reminderWorkspace reminder) reminder.userTaskId reminder.traceId
  if task.status ≠ .active then
    if reminder.status.terminal then return .skipped
    else do
      let _ ← bridgeCancel node reminder.id reminder.traceId
      return .repaired
  else reconcileActive env node reminder

/-- `ReconciliationResult`, with one more reminder counted. -/
def ReconciliationResult.count (result : ReconciliationResult) :
    Option Reconciled → ReconciliationResult
  | some .repaired => { result with repaired := result.repaired + 1 }
  | some .skipped => { result with skipped := result.skipped + 1 }
  | none => { result with failed := result.failed + 1 }

/-- The loop of `reconcile`: an exception ends one reminder only. -/
def reconcileAll (env : Environment) (node : Node) :
    List Reminder → ReconciliationResult → Prog ReconciliationResult
  | [], result => return result
  | reminder :: reminders, result => do
    let reconciled ← (some <$> reconcileItem env node reminder).tryCatch fun _ => .ret none
    reconcileAll env node reminders (result.count reconciled)

/-- `reconcile`. -/
def reconcile (env : Environment) (node : Node) : Prog ReconciliationResult := do
  let reply ← Program.perform Action.listAll
  let reminders ← orRaise reply
  reconcileAll env node reminders {}

/-! ## Tasks that end -/

/-- The task that `_transition` writes. -/
def ended (current : UserTask) (target : UserTaskStatus) (now : DateTime) (traceId : String) :
    UserTask :=
  { current with
    status := target
    updatedAt := now
    traceId := if traceId = "" then current.traceId else traceId
    completedAt := if target = .completed then some now else current.completedAt
    cancelledAt := if target = .completed then current.cancelledAt else some now }

/-- `_transition` of a task, with the coordination of its reminders. -/
def transitionTask (node : Node) (workspaceKey : WorkspaceKey) (taskId : String)
    (target : UserTaskStatus) (expectedRevision : Option ℕ) (traceId : String) :
    Prog UserTask := do
  let current ← getTask workspaceKey taskId traceId
  if expectedRevision.any fun revision => revision ≠ current.revision then
    .raise (raiseTaskFailure (.conflict "stale expected_revision") target.value traceId)
  else if current.status = target then do
    cancelForTask node current.id traceId
    return current
  else if current.status ≠ .active then
    .raise (raiseTaskFailure (.conflict "invalid terminal state transition") target.value traceId)
  else do
    let now ← clockNow
    let result ← rethrow (raiseTaskFailure · target.value traceId)
      (repositoryUpdateTask workspaceKey (ended current target now traceId)
        (expectedRevision.getD current.revision))
    cancelForTask node result.id traceId
    return result

/-- `reopen`. -/
def reopenTask (workspaceKey : WorkspaceKey) (taskId traceId : String) : Prog UserTask := do
  let current ← getTask workspaceKey taskId traceId
  if current.status = .active then return current
  else do
    let now ← clockNow
    rethrow (raiseTaskFailure · "reopen" traceId) (repositoryUpdateTask workspaceKey {
      current with
        status := .active
        updatedAt := now
        completedAt := none
        cancelledAt := none } current.revision)

end Reminders

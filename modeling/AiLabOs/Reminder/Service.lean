import AiLabOs.Reminder.Actions

/-!
# Reminders: services

The calls of the task service, of the reminder service and of the scheduler's runtime that the
bridge is made of. A call that changes a reminder reads it, checks it, and updates it on the basis
of the revision it read; in between, others may act.

## Main definitions

* `getTask`, `createTask`, `updateTask`: the calls of the task service
* `createPending`, `transition`, `prepareReschedule`: the calls of the reminder service
* `getJob`, `scheduleJob`, `cancelJob`, `rescheduleOneShot`: the calls of the scheduler
-/

namespace Reminders

open Process UserTasks

/-- What a transaction returns, or its exception. -/
def orRaise {α : Type} : Except Exn α → Prog α
  | .ok a => .ret a
  | .error exn => .raise exn

/-- What a validator returns, or its exception. -/
def orInvalid {α : Type} : Except Invalid α → Prog α
  | .ok a => .ret a
  | .error invalid => .raise (.ofInvalid invalid)

/-- `except Exception as exc: raise f(exc)`. -/
def rethrow {α : Type} (f : Exn → Exn) (p : Prog α) : Prog α := p.tryCatch fun exn => .raise (f exn)

/-- `clock.now()`. -/
def clockNow : Prog DateTime := .perform Action.now

/-! ## Tasks -/

/-- The reply of the task repository, as `UserTaskService.get` passes it on. -/
def taskOrRaise (traceId : String) : Except Exn UserTask → Prog UserTask
  | .ok task => .ret task
  | .error exn => .raise (raiseTaskFailure exn "get" traceId)

/-- `UserTaskService.get`. -/
def getTask (workspaceKey : WorkspaceKey) (taskId traceId : String) : Prog UserTask := do
  let reply ← Program.perform (Action.getTask workspaceKey taskId)
  taskOrRaise traceId reply

/-- The values of a task that is created. -/
structure NewTask where
  id : String
  title : String
  description : String := ""
  status : UserTaskStatus := .active
  priority : UserTaskPriority := .medium
  dueAt : Option DateTimeArg := none
  timezone : String := "UTC"
  createdAt : Option DateTimeArg := none
  completedAt : Option DateTimeArg := none
  cancelledAt : Option DateTimeArg := none
  source : String := "api"
  sessionId : String := ""
  agentId : String := ""
  traceId : String := ""
  metadata : Metadata := {}
  legacySourceId : Option String := none

/-- The task that `UserTaskService.create` makes. -/
def draftTask (env : Environment) (workspaceKey : WorkspaceKey) (task : NewTask) (now : DateTime) :
    Except Invalid UserTask := do
  let createdAt ← normalizeDatetime "created_at" (task.createdAt.getD (.utc now))
  let dueAt ← normalizeOptional "due_at" task.dueAt
  let completedAt ← normalizeOptional "completed_at" task.completedAt
  let cancelledAt ← normalizeOptional "cancelled_at" task.cancelledAt
  validateTask env {
    id := task.id
    title := task.title
    description := task.description
    status := task.status
    priority := task.priority
    dueAt
    timezone := task.timezone
    createdAt
    updatedAt := createdAt
    completedAt, cancelledAt
    source := task.source
    sessionId := task.sessionId
    agentId := task.agentId
    traceId := task.traceId
    metadata := { task.metadata with workspace := canonicalWorkspaceMetadata workspaceKey }
    legacySourceId := task.legacySourceId }

/-- The body of `UserTaskService.create`. -/
def insertTask (env : Environment) (workspaceKey : WorkspaceKey) (task : NewTask) :
    Prog UserTask := do
  let now ← clockNow
  let task ← orInvalid (draftTask env workspaceKey task now)
  let reply ← Program.perform (Action.createTask task)
  orRaise reply

/-- `UserTaskService.create`. -/
def createTask (env : Environment) (workspaceKey : WorkspaceKey) (task : NewTask) :
    Prog UserTask :=
  rethrow (raiseTaskFailure · "create" task.traceId) (insertTask env workspaceKey task)

/-- `UserTaskRepository.update`. -/
def repositoryUpdateTask (workspaceKey : WorkspaceKey) (task : UserTask) (expectedRevision : ℕ) :
    Prog UserTask := do
  let reply ← Program.perform (Action.updateTask workspaceKey task expectedRevision)
  orRaise reply

/-- The end of `UserTaskService.update`: new metadata for a task that is active. -/
def writeMetadata (env : Environment) (workspaceKey : WorkspaceKey) (current : UserTask)
    (metadata : Metadata) (expectedRevision : Option ℕ) (traceId : String) (now : DateTime) :
    Prog UserTask := do
  let candidate ← orInvalid (validateTask env { current with
    updatedAt := now
    traceId := if traceId = "" then current.traceId else traceId
    metadata := { metadata with workspace := canonicalWorkspaceMetadata workspaceKey } })
  repositoryUpdateTask workspaceKey candidate (expectedRevision.getD current.revision)

/-- `UserTaskService.update`, of the metadata. -/
def updateTask (env : Environment) (workspaceKey : WorkspaceKey) (taskId : String)
    (metadata : Metadata) (expectedRevision : Option ℕ) (traceId : String) : Prog UserTask := do
  let current ← getTask workspaceKey taskId traceId
  if current.status ≠ .active then
    .raise (raiseTaskFailure (.conflict "terminal task cannot be edited") "update" traceId)
  else do
    let now ← clockNow
    rethrow (raiseTaskFailure · "update" traceId)
      (writeMetadata env workspaceKey current metadata expectedRevision traceId now)

/-! ## Reminders -/

/-- `ReminderRepository.update`. -/
def repositoryUpdate (reminder : Reminder) (expectedRevision : ℕ) : Prog Reminder := do
  let reply ← Program.perform (Action.update reminder expectedRevision)
  orRaise reply

/-- `ReminderRepository.get`. -/
def repositoryGet (reminderId : String) : Prog Reminder := do
  let reply ← Program.perform (Action.get reminderId)
  orRaise reply

/-- `ReminderService.get`. -/
def getReminder (reminderId traceId : String) : Prog Reminder :=
  rethrow (raiseFailure · "get" traceId reminderId "") (repositoryGet reminderId)

/-- The values of a reminder that is requested. -/
structure ReminderArgs where
  userTaskId : String
  remindAt : DateTimeArg
  timezone : String
  traceId : String := ""
  metadata : ReminderMetadata := {}

/-- The reminder that `create_pending` makes. -/
def draftReminder (env : Environment) (workspaceKey : WorkspaceKey) (args : ReminderArgs)
    (draft : Draft) : Except Invalid Reminder := do
  let metadata := { args.metadata with workspace := canonicalWorkspaceMetadata workspaceKey }
  let remindAt ← validateReminder env args.remindAt args.timezone metadata
  return {
    id := draft.id
    userTaskId := args.userTaskId
    remindAt
    timezone := args.timezone
    createdAt := draft.createdAt
    updatedAt := draft.updatedAt
    traceId := args.traceId
    metadata }

/-- The reading of the task that `create_pending` makes, with what it draws for the reminder. -/
def checkTask (workspaceKey : WorkspaceKey) (taskId : String) :
    Prog (Except Exn UserTask × Draft) :=
  .perform (Action.checkTask workspaceKey taskId)

/-- The body of `create_pending`. Its reading of the task and its insertion are two transactions. -/
def insertPending (env : Environment) (workspaceKey : WorkspaceKey) (args : ReminderArgs) :
    Prog Reminder := do
  let (reply, draft) ← checkTask workspaceKey args.userTaskId
  let task ← taskOrRaise args.traceId reply
  if task.status ≠ .active then .raise (.conflict "Terminal UserTask cannot receive a Reminder")
  else do
    let reminder ← orInvalid (draftReminder env workspaceKey args draft)
    if reminder.remindAt ≤ draft.now then .raise (.invalid "remind_at must be in the future")
    else do
      let reply ← Program.perform (Action.create reminder)
      orRaise reply

/-- `create_pending`. -/
def createPending (env : Environment) (workspaceKey : WorkspaceKey) (args : ReminderArgs) :
    Prog Reminder :=
  rethrow (raiseFailure · "create" args.traceId "" "") (insertPending env workspaceKey args)

/-- What `transition` changes apart from the status: a job and a failure, where it is given one. -/
structure Changes where
  schedulerJobId : Option (Option String) := none
  failure : Option (Option FailureInfo) := none

/-- The candidate of `transition`. -/
def changed (reminder : Reminder) (status : ReminderStatus) (changes : Changes) (traceId : String)
    (cancelledAt : Option DateTime) : Reminder :=
  { reminder with
    status
    traceId := if traceId = "" then reminder.traceId else traceId
    schedulerJobId := changes.schedulerJobId.getD reminder.schedulerJobId
    lastFailure := changes.failure.getD reminder.lastFailure
    cancelledAt }

/-- The instant of a cancellation. -/
def cancelledNow (reminder : Reminder) (status : ReminderStatus) : Prog (Option DateTime) :=
  if status = .cancelled then do
    let now ← clockNow
    return some now
  else return reminder.cancelledAt

/-- `transition`. -/
def transition (reminder : Reminder) (status : ReminderStatus) (changes : Changes)
    (traceId : String) : Prog Reminder := do
  let cancelledAt ← cancelledNow reminder status
  rethrow (raiseFailure · "transition" traceId reminder.id status.value)
    (repositoryUpdate (changed reminder status changes traceId cancelledAt) reminder.revision)

/-- The new plan of a reminder. -/
structure Plan where
  remindAt : DateTimeArg
  timezone : String
  expectedRevision : Option ℕ := none
  traceId : String := ""
  managementMetadata : Option Dict := none

/-- The candidate of `prepare_reschedule`. -/
def replanned (env : Environment) (reminder : Reminder) (plan : Plan) :
    Except Invalid Reminder := do
  let metadata := { reminder.metadata with
    managementReschedule := plan.managementMetadata.or reminder.metadata.managementReschedule }
  let remindAt ← validateReminder env plan.remindAt plan.timezone metadata
  return { reminder with
    remindAt
    timezone := plan.timezone
    status := .pendingReschedule
    lastFailure := none
    traceId := if plan.traceId = "" then reminder.traceId else plan.traceId
    metadata }

/-- The update of `prepare_reschedule`, of a reminder that may be rescheduled. -/
def updatePlan (env : Environment) (reminder : Reminder) (plan : Plan) : Prog Reminder := do
  let candidate ← orInvalid (replanned env reminder plan)
  let now ← clockNow
  if candidate.remindAt ≤ now then .raise (.invalid "remind_at must be in the future")
  else repositoryUpdate candidate reminder.revision

/-- `prepare_reschedule`. -/
def prepareReschedule (env : Environment) (reminderId : String) (plan : Plan) : Prog Reminder := do
  let reminder ← getReminder reminderId plan.traceId
  if reminder.status.terminal then
    .raise (raiseFailure (.conflict "Terminal Reminder cannot be rescheduled") "reschedule"
      plan.traceId reminderId "")
  else if plan.expectedRevision.any fun revision => revision ≠ reminder.revision then
    .raise (raiseFailure (.conflict "Reminder was modified concurrently") "reschedule"
      plan.traceId reminderId "")
  else
    rethrow (raiseFailure · "reschedule" plan.traceId reminderId "") (updatePlan env reminder plan)

/-! ## Jobs -/

/-- One process: its number, and whether it has a scheduler. -/
structure Node where
  process : ℕ
  hasScheduler : Bool := true

/-- `_require_scheduler`. -/
def requireScheduler (node : Node) : Prog Unit :=
  if node.hasScheduler then return ()
  else .raise (.unavailable "Scheduler is disabled or not configured")

/-- `SchedulerRuntime.get_job`. -/
def getJob (jobId : String) : Prog (Option Scheduler.Job) := do
  let reply ← Program.perform (Action.getJob jobId)
  orRaise reply

/-- `SchedulerRuntime.schedule`. -/
def scheduleJob (node : Node) (request : Scheduler.ScheduleRequest) : Prog Scheduler.Job := do
  let reply ← Program.perform (Action.schedule node.process request)
  orRaise reply

/-- `_sync_registry_from_persistence`. -/
def syncRegistry (node : Node) : Prog Unit := do
  let reply ← Program.perform (Action.sync node.process)
  orRaise reply

/-- `SchedulerRuntime.cancel_job`. -/
def cancelJob (node : Node) (jobId : String) : Prog Bool := do
  let job ← getJob jobId
  if job.isNone then return false
  else do
    let reply ← Program.perform (Action.cancelJob jobId)
    let cancelled ← orRaise reply
    syncRegistry node
    return cancelled

/-- `SchedulerRuntime.reschedule_one_shot`. -/
def rescheduleOneShot (node : Node) (jobId : String) (runAt : DateTime) (timezone : String)
    (actionPayload : Payload) : Prog Bool := do
  let job ← getJob jobId
  match job with
  | none => return false
  | some job =>
    if job.trigger.triggerType ≠ .oneShot then return false
    else do
      let reply ← Program.perform
        (Action.rescheduleJob jobId job.revision runAt timezone actionPayload)
      let changed ← orRaise reply
      syncRegistry node
      return changed

end Reminders

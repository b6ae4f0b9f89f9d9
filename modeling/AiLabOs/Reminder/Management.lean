import AiLabOs.Reminder.Bridge

/-!
# Reminders: management

What the API, the command line and the assistant call. A request to reschedule may carry an
idempotency key; the record of the last plan that was accepted holds the hash of its key.

## Main definitions

* `aggregateReminderStatus`, `buildStatusView`: what is shown of a reminder
* `byId`: a reminder with its task
* `reschedule`: the request
-/

namespace Reminders

open Process UserTasks

/-! ## Views -/

/-- `ReminderStatusView`. The planned instant is shown as a wall time of the zone and its `fold`. -/
structure ReminderStatusView where
  status : String
  taskId : String
  taskTitle : String
  taskStatus : UserTaskStatus
  reminderId : String
  reminderStatus : ReminderStatus
  scheduledFor : DateTime × Bool
  timezone : String
  schedulerJobId : Option String
  schedulerStatus : Option Scheduler.JobStatus
  occurrenceId : Option String
  occurrenceStatus : Option ReminderOccurrenceStatus
  triggeredAt : Option DateTime
  lastFailure : Option FailureInfo
  retryable : Bool
  revision : ℕ

/-- `aggregate_reminder_status`. -/
def aggregateReminderStatus (reminder : Reminder) (job : Option Scheduler.Job)
    (occurrence : Option ReminderOccurrence) : String :=
  if reminder.status = .cancelled then "cancelled"
  else if reminder.status = .triggered || occurrence.any (·.status = .triggered) then "triggered"
  else if (reminder.status = .pendingCancel || reminder.status = .pendingReschedule) &&
      reminder.lastFailure.isSome then "failed"
  else if job.any (·.status = .retrying) then "retrying"
  else if reminder.status = .failed || job.any (·.status = .failed) then "failed"
  else "scheduled"

/-- `datetime.astimezone(ZoneInfo(name))`. A wall time beyond the calendar raises. -/
def inZone (env : Environment) (instant : DateTime) (name : String) :
    Except Exn (DateTime × Bool) :=
  match env.zone name with
  | none => .error (.other ("No time zone found with key " ++ name))
  | some zone =>
    match zone.fromUtc instant with
    | none => .error (.other "date value out of range")
    | some reading => .ok reading

/-- `build_reminder_status_view`. -/
def buildStatusView (env : Environment) (reminder : Reminder) (task : UserTask)
    (job : Option Scheduler.Job) (occurrence : Option ReminderOccurrence) :
    Except Exn ReminderStatusView := do
  let failure := (occurrence.bind (·.failure)).or
    (reminder.lastFailure.or (job.bind (·.lastError)))
  let scheduledFor ← inZone env reminder.remindAt reminder.timezone
  return {
    status := aggregateReminderStatus reminder job occurrence
    taskId := task.id
    taskTitle := task.title
    taskStatus := task.status
    reminderId := reminder.id
    reminderStatus := reminder.status
    scheduledFor
    timezone := reminder.timezone
    schedulerJobId := reminder.schedulerJobId
    schedulerStatus := job.map (·.status)
    occurrenceId := occurrence.map (·.id)
    occurrenceStatus := occurrence.map (·.status)
    triggeredAt := occurrence.bind (·.triggeredAt)
    lastFailure := failure
    retryable := failure.any (·.retryable)
    revision := reminder.revision }

/-! ## Resolution -/

/-- `ReminderManagementService._raise`. -/
def managementFailure (code : String) (category : ErrorCategory) (message operation : String)
    (traceId : String) (retryable : Bool) (details : Payload) : Exn :=
  .failure {
    code, category, message
    component := "reminder.management"
    operation, retryable, traceId, details }

/-- The exception branch of `_by_id`: what is missing and what is hidden look the same. -/
def hideMissing (traceId : String) : Exn → Exn
  | .failure info =>
    if info.category = .notFound then
      managementFailure "reminder.not_found" .notFound "Reminder was not found" "resolve" traceId
        false []
    else .failure info
  | exn => exn

/-- The reads of `_by_id`. -/
def readReminder (workspaceKey : WorkspaceKey) (reminderId traceId : String) :
    Prog (Reminder × UserTask) := do
  let reminder ← getReminder reminderId traceId
  let task ← getTask workspaceKey reminder.userTaskId traceId
  return (reminder, task)

/-- `ReminderService.list_occurrences`. -/
def listOccurrences (reminderId traceId : String) : Prog (List ReminderOccurrence) := do
  let _ ← getReminder reminderId traceId
  rethrow (raiseFailure · "list_occurrences" traceId reminderId "")
    (Program.perform (Action.listOccurrences reminderId) >>= orRaise)

/-- The job that is shown with a reminder. -/
def shownJob (reminder : Reminder) : Prog (Option Scheduler.Job) :=
  match reminder.jobId with
  | none => return none
  | some jobId => getJob jobId

/-- `_view`. -/
def statusView (env : Environment) (reminder : Reminder) (task : UserTask) (traceId : String) :
    Prog ReminderStatusView := do
  let job ← shownJob reminder
  let occurrences ← listOccurrences reminder.id traceId
  orRaise (buildStatusView env reminder task job occurrences.getLast?)

/-- `ReminderResolution`. -/
structure Resolution where
  reminder : Reminder
  task : UserTask
  view : ReminderStatusView

/-- `_by_id`. -/
def byId (env : Environment) (workspaceKey : WorkspaceKey) (reminderId traceId : String) :
    Prog Resolution := do
  let read ← rethrow (hideMissing traceId) (readReminder workspaceKey reminderId traceId)
  let view ← statusView env read.1 read.2 traceId
  return ⟨read.1, read.2, view⟩

/-! ## Reschedule -/

/-- The arguments of `reschedule`, of a reminder that is named by its identifier. A `remind_at`
without a time zone is read in the zone of the machine. -/
structure RescheduleArgs where
  workspaceKey : WorkspaceKey
  remindAt : DateTimeArg
  localInstant : Option DateTime := none
  timezone : String
  reminderId : String
  expectedRevision : Option ℕ := none
  idempotencyKey : String := ""
  traceId : String := ""

/-- `ReminderManagementResult`. -/
structure ManagementResult where
  action : String
  previousStatus : String
  previousScheduledFor : DateTime × Bool
  current : ReminderStatusView

namespace RescheduleArgs

variable (env : Environment) (a : RescheduleArgs)

/-- `remind_at.astimezone(UTC)`, unless it overflows. -/
def instant : Option DateTime :=
  match a.remindAt with
  | .aware utc => utc
  | .naive => a.localInstant

/-- `idempotency_key.strip()`. -/
def key : String := Text.strip a.idempotencyKey

/-- `operation_metadata`. -/
def operationMetadata (target : String) (reminder : Reminder) : Dict :=
  [("target", target), ("previous_failure_code", (reminder.lastFailure.map (·.code)).getD "")] ++
    if a.key = "" then [] else [("key_hash", env.sha256 a.key)]

/-- The record of the last plan, if that came with the key of this request. -/
def remembered (reminder : Reminder) : Option Dict :=
  if a.key = "" then none
  else reminder.metadata.managementReschedule.filter fun previous =>
    previous.lookup "key_hash" = some (env.sha256 a.key)

/-- The plan that the bridge is given. -/
def plan (target : String) (reminder : Reminder) : Plan where
  remindAt := a.remindAt
  timezone := a.timezone
  expectedRevision := a.expectedRevision
  traceId := a.traceId
  managementMetadata := some (a.operationMetadata env target reminder)

end RescheduleArgs

/-- What a request returns. -/
def rescheduled (resolution : Resolution) (current : ReminderStatusView) : ManagementResult where
  action := "reschedule"
  previousStatus := resolution.view.status
  previousScheduledFor := resolution.view.scheduledFor
  current := current

/-- A failure of the bridge, as it is passed on. -/
def reschedulingFailed (reminderId traceId : String) : Exn → Exn
  | .failure info => managementFailure "reminder.rescheduling_failed" info.category
      "Reminder rescheduling failed" "reschedule" traceId info.retryable
      [("reminder_id", .str reminderId)]
  | exn => exn

/-- The end of `reschedule`: the bridge is called. -/
def carryOut (env : Environment) (node : Node) (a : RescheduleArgs) (target : String)
    (resolution : Resolution) : Prog ManagementResult := do
  let reminder ← rethrow (reschedulingFailed resolution.reminder.id a.traceId)
    (bridgeReschedule env node resolution.reminder.id (a.plan env target resolution.reminder))
  let current ← byId env a.workspaceKey reminder.id a.traceId
  return rescheduled resolution current.view

/-- The check of the key: a request whose plan is in force is answered with what is stored. -/
def answerOrCarryOut (env : Environment) (node : Node) (a : RescheduleArgs) (target : String)
    (resolution : Resolution) : Prog ManagementResult :=
  match a.remembered env resolution.reminder with
  | none => carryOut env node a target resolution
  | some previous =>
    if previous.lookup "target" ≠ some target then
      .raise (managementFailure "reminder.idempotency_conflict" .conflict
        "Idempotency key was already used for another schedule" "reschedule" a.traceId false [])
    else if resolution.reminder.status = .scheduled ∧
        resolution.reminder.remindAt.isoformat = target then
      return rescheduled resolution resolution.view
    else carryOut env node a target resolution

/-- `ReminderManagementService.reschedule`. -/
def reschedule (env : Environment) (node : Node) (a : RescheduleArgs) : Prog ManagementResult := do
  let resolution ← byId env a.workspaceKey a.reminderId a.traceId
  if resolution.reminder.status.terminal then
    .raise (managementFailure "reminder.terminal_state" .conflict
      "Terminal Reminder cannot be rescheduled" "reschedule" a.traceId false
      [("reminder_id", .str resolution.reminder.id)])
  else
    match a.instant with
    | none => .raise (.other "date value out of range")
    | some instant => answerOrCarryOut env node a instant.isoformat resolution

end Reminders

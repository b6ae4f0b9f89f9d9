import AiLabOs.Process.Conditioned
import AiLabOs.Reminder.Bridge

/-!
# Reminders: the system

What reaches the services: the calls of the scheduler's action handler, of the orchestrator that
makes a task and its reminder for one idempotency key, of the bridge and of the task service, and
the scheduler's runtimes over the jobs. Any number of calls are in flight, from any number of
processes.

## Main definitions

* `execute`: the handler of a reminder's job
* `createForTask`: a task and a reminder for an idempotency key
* `Request`, `start`, `Reachable`: calls in flight over the tables
-/

namespace Reminders

open Process UserTasks

/-! ## The handler -/

/-- `str(job.action_payload.get(...))` of the two entries of a payload, the instant as
`datetime.fromisoformat` reads it, and of the run its trace and its attempt. -/
structure Delivery where
  reminderId : String
  scheduledAt : Option DateTimeArg
  traceId : String
  attempt : ℕ

/-- `trigger`, by one transaction or by two. -/
def triggerReminder (g : Granularity) (reminderId : String) (scheduledAt : DateTime)
    (traceId : String) : Prog (Reminder × ReminderOccurrence × Bool) :=
  match g with
  | .call => do
    let reply ← Program.perform (Action.trigger reminderId scheduledAt traceId)
    orRaise reply
  | .statement => do
    let reply ← Program.perform (Action.triggerRead reminderId scheduledAt)
    let selected ← orRaise reply
    match selected with
    | .done reminder occurrence => return (reminder, occurrence, true)
    | .proceed reminder => do
      let reply ← Program.perform (Action.triggerWrite reminder scheduledAt traceId)
      orRaise reply

/-- The failure the handler records. -/
def handlerFailure (exn : Exn) (delivery : Delivery) : FailureInfo :=
  match exn with
  | .failure info => { info with
      traceId := if info.traceId = "" then delivery.traceId else info.traceId
      message := "Reminder trigger failed" }
  | _ => {
      code := "reminders.trigger.failed"
      category := .persistenceFailure
      message := "Reminder trigger failed"
      component := "reminder_handler"
      operation := "trigger"
      retryable := true
      traceId := delivery.traceId
      details := [("reminder_id", .str delivery.reminderId), ("attempt", .int delivery.attempt)] }

/-- The exception branches of `execute`: a conflict with a cancellation ends well, another one is
passed on, and any other exception is recorded first. -/
def triggerFailed (delivery : Delivery) (scheduledAt : DateTime) : Exn → Prog Unit
  | .conflict message => do
    let reminder ← repositoryGet delivery.reminderId
    if reminder.status = .cancelled || reminder.status = .pendingCancel then return ()
    else .raise (.conflict message)
  | exn => do
    let reply ← Program.perform (Action.recordTriggerFailure delivery.reminderId scheduledAt
      delivery.traceId (handlerFailure exn delivery))
    orRaise reply
    -- the reminder is read again for an event
    logged (repositoryGet delivery.reminderId >>= fun _ => .ret ())
    .raise exn

/-- `ReminderActionHandler.execute`. -/
def execute (g : Granularity) (delivery : Delivery) : Prog Unit :=
  match delivery.scheduledAt with
  | some (.aware (some scheduledAt)) =>
    if delivery.reminderId = "" then
      .raise (.invalid "Reminder action requires reminder_id and scheduled_at")
    else (triggerReminder g delivery.reminderId scheduledAt delivery.traceId >>=
      fun _ => .ret ()).tryCatch (triggerFailed delivery scheduledAt)
  | some (.aware none) => .raise (.other "date value out of range")
  | _ => .raise (.invalid "Reminder scheduled_at must include timezone information")

/-! ## The orchestrator -/

/-- The arguments of `create_for_task`. `dueText` is the text of `due_at`, with its own offset. -/
structure ReminderIntent where
  title : String
  dueAt : DateTimeArg
  dueText : String
  timezone : String
  priority : UserTaskPriority := .medium
  description : String := ""
  sessionId : String := ""
  traceId : String := ""
  workspaceKey : WorkspaceKey
  idempotencyKey : String

namespace ReminderIntent

variable (env : Environment) (intent : ReminderIntent)

/-- `"|".join(workspace_identity(…))`. -/
def workspaceScope : String :=
  let workspace := workspaceIdentity intent.workspaceKey
  workspace.tenantId ++ "|" ++ workspace.workspaceId ++ "|" ++ workspace.nameSpace

/-- `key_hash`. -/
def keyHash : String := env.sha256 intent.idempotencyKey

/-- The identifier of the task of a workspace and an idempotency key. -/
def taskId : String :=
  "ut_nlr_" ++ String.ofList
    ((env.sha256 (intent.workspaceScope ++ "|" ++ intent.keyHash env)).toList.take 24)

/-- `intent_hash`. -/
def intentHash : String :=
  env.sha256 (intent.workspaceScope ++ "|" ++ intent.title ++ "|" ++ intent.dueText ++ "|" ++
    intent.timezone)

/-- The values of the task. -/
def newTask : NewTask where
  id := intent.taskId env
  title := intent.title
  description := intent.description
  priority := intent.priority
  dueAt := some intent.dueAt
  timezone := intent.timezone
  source := "ceo_assistant"
  sessionId := intent.sessionId
  agentId := "ceo-assistant"
  traceId := intent.traceId
  metadata := { intentHash := some (intent.intentHash env) }

/-- The values of the reminder. -/
def reminderArgs (taskId : String) : ReminderArgs where
  userTaskId := taskId
  remindAt := intent.dueAt
  timezone := intent.timezone
  traceId := intent.traceId
  metadata := {
    workspace := canonicalWorkspaceMetadata intent.workspaceKey
    intentHash := some (intent.intentHash env)
    idempotencyHash := some (intent.keyHash env) }

end ReminderIntent

/-- A failure of the orchestrator. -/
def orchestrationFailure (code message traceId : String) (category : ErrorCategory)
    (retryable : Bool) (details : Payload := []) : Exn :=
  .failure {
    code, category, message
    component := "reminder.orchestration"
    operation := "create_natural_language_reminder"
    retryable, traceId, details }

/-- The task of an intent, created, or the one that was created before for the same intent. -/
def claimTask (env : Environment) (intent : ReminderIntent) : Prog UserTask :=
  (createTask env intent.workspaceKey (intent.newTask env)).tryCatch fun exn =>
    match exn with
    | .failure info =>
      if info.category ≠ .conflict then .raise exn
      else do
        let task ← getTask intent.workspaceKey (intent.taskId env) intent.traceId
        if task.metadata.intentHash ≠ some (intent.intentHash env) then
          .raise (orchestrationFailure "reminder.idempotency_conflict"
            "Idempotency key was already used for another reminder" intent.traceId .conflict false)
        else return task
    | _ => .raise exn

/-- `ReminderService.list_for_task`. -/
def listReminders (workspaceKey : WorkspaceKey) (taskId traceId : String) :
    Prog (List Reminder) :=
  rethrow (raiseFailure · "list" traceId "" "") do
    let _ ← getTask workspaceKey taskId traceId
    let reply ← Program.perform (Action.listForTask taskId)
    orRaise reply

/-- The reminder of an intent, created. A failure is noted on the task. -/
def createReminder (env : Environment) (node : Node) (intent : ReminderIntent) (task : UserTask) :
    Prog Reminder :=
  (bridgeCreate env node intent.workspaceKey (intent.reminderArgs env task.id)).tryCatch fun exn =>
    match exn with
    | .failure info => do
      let _ ← updateTask env intent.workspaceKey task.id task.metadata (some task.revision)
        intent.traceId
      .raise (orchestrationFailure "reminder.scheduling_failed" "Reminder scheduling failed"
        intent.traceId info.category info.retryable info.details)
    | _ => .raise exn

/-- A reminder that has failed, after one more reconciliation. -/
def retryFailed (env : Environment) (node : Node) (intent : ReminderIntent) (reminder : Reminder) :
    Prog Reminder := do
  let _ ← reconcile env node
  let reminder ← getReminder reminder.id intent.traceId
  if reminder.status = .failed then
    match reminder.lastFailure with
    | some failure => .raise (.failure failure)
    | none => .raise (orchestrationFailure "reminder.scheduling_failed"
        "Reminder scheduling failed" intent.traceId .dependencyFailure true)
  else return reminder

/-- The reminder of an intent: the one the task has, or a new one. -/
def claimReminder (env : Environment) (node : Node) (intent : ReminderIntent) (task : UserTask) :
    Prog Reminder := do
  let reminders ← listReminders intent.workspaceKey task.id intent.traceId
  match reminders.find? fun reminder =>
    reminder.metadata.intentHash = some (intent.intentHash env) with
  | none => createReminder env node intent task
  | some reminder =>
    if reminder.status = .failed then retryFailed env node intent reminder
    else return reminder

/-- `_create_for_task_locked`. -/
def createForTaskLocked (env : Environment) (node : Node) (intent : ReminderIntent) :
    Prog Reminder := do
  let task ← claimTask env intent
  let reminder ← claimReminder env node intent task
  if reminder.jobId.isNone then
    .raise (orchestrationFailure "reminder.scheduling_failed"
      "Reminder scheduling did not produce a job" intent.traceId .dependencyFailure true
      [("reminder_id", .str reminder.id)])
  else do
    let _ ← updateTask env intent.workspaceKey task.id task.metadata (some task.revision)
      intent.traceId
    return reminder

/-- `async with lock`, of a lock of the process. -/
def withLock {α : Type} (node : Node) (name : String) (body : Prog α) : Prog α := do
  Program.perform (Action.acquire node.process name)
  let a ← body.tryCatch fun exn =>
    Program.perform (Action.release node.process name) >>= fun _ => .raise exn
  Program.perform (Action.release node.process name)
  return a

/-- `create_for_task`. -/
def createForTask (env : Environment) (node : Node) (intent : ReminderIntent) : Prog Reminder :=
  withLock node (intent.taskId env) (createForTaskLocked env node intent)

/-! ## Calls -/

/-- The calls of the services, and of the scheduler's runtimes. -/
inductive Request where
  | createTask (workspaceKey : WorkspaceKey) (task : NewTask)
  | completeTask (node : Node) (workspaceKey : WorkspaceKey) (taskId : String)
      (expectedRevision : Option ℕ) (traceId : String)
  | cancelTask (node : Node) (workspaceKey : WorkspaceKey) (taskId : String)
      (expectedRevision : Option ℕ) (traceId : String)
  | reopenTask (workspaceKey : WorkspaceKey) (taskId traceId : String)
  | create (node : Node) (workspaceKey : WorkspaceKey) (args : ReminderArgs)
  | reschedule (node : Node) (reminderId : String) (plan : Plan)
  | cancel (node : Node) (reminderId traceId : String)
  | reconcile (node : Node)
  | execute (delivery : Delivery)
  | createForTask (node : Node) (intent : ReminderIntent)
  | resolveToReminder (node : Node) (inboxItemId : String) (intent : ReminderIntent)
  | recoverJobs (node : Node)
  | scheduler (request : Scheduler.Request)

/-- The intent of an inbox item. -/
def inboxIntent (inboxItemId : String) (intent : ReminderIntent) : ReminderIntent :=
  { intent with idempotencyKey := "inbox:" ++ inboxItemId ++ ":reminder" }

/-- A program of the scheduler. -/
def ofScheduler {α : Type} (p : Scheduler.Prog α) : Prog α :=
  p.embed Action.scheduler (fun _ reply => reply) fun x => .other x.message

/-- The program of a request. -/
def start (env : Environment) (g : Granularity) : Request → Prog Unit
  | .createTask workspaceKey task => createTask env workspaceKey task >>= fun _ => .ret ()
  | .completeTask node workspaceKey taskId revision traceId =>
    transitionTask node workspaceKey taskId .completed revision traceId >>= fun _ => .ret ()
  | .cancelTask node workspaceKey taskId revision traceId =>
    transitionTask node workspaceKey taskId .cancelled revision traceId >>= fun _ => .ret ()
  | .reopenTask workspaceKey taskId traceId =>
    reopenTask workspaceKey taskId traceId >>= fun _ => .ret ()
  | .create node workspaceKey args => bridgeCreate env node workspaceKey args >>= fun _ => .ret ()
  | .reschedule node reminderId plan =>
    bridgeReschedule env node reminderId plan >>= fun _ => .ret ()
  | .cancel node reminderId traceId => bridgeCancel node reminderId traceId >>= fun _ => .ret ()
  | .reconcile node => reconcile env node >>= fun _ => .ret ()
  | .execute delivery => execute g delivery
  | .createForTask node intent => createForTask env node intent >>= fun _ => .ret ()
  | .resolveToReminder node inboxItemId intent =>
    createForTask env node (inboxIntent inboxItemId intent) >>= fun _ => .ret ()
  | .recoverJobs node =>
    Program.perform (Action.recover node.process) >>= fun reply => orRaise reply
  | .scheduler request => ofScheduler (Scheduler.start request)

/-- Calls in flight. -/
abbrev Calls := Process.Config Request Action Action.Reply Exn Unit World

/-- Some run from empty tables leads to `c`. -/
def Reachable (env : Environment) (g : Granularity) (c : Calls) : Prop :=
  Reaches handler (start env g) (idle World.initial) c

end Reminders

import AiLabOs.Process.Safety
import AiLabOs.Reminder.Repository
import AiLabOs.Scheduler.Runtime
import AiLabOs.UserTask.Repository
import Mathlib.Logic.Function.Basic

/-!
# Reminders: actions

The services share three databases: the tasks, the reminders and the scheduler's. Every process
has, besides, a registry of the jobs it knows, by identifier and by name, and locks of its own. An
action is one transaction, with what the process does to its registry around it, or one reading of
the clock. The scheduler's runtimes act on their tables with programs of their own.

## Main definitions

* `Registry`: the jobs a process knows; `Registry.register`, `recover`, `sync`
* `Action`, `World`, `handler`: what a call awaits and what that does
* `Granularity`: whether a trigger is one transaction or the statements it consists of
-/

namespace Reminders

open Process UserTasks

/-! ## Registries -/

/-- `SchedulerRegistry`: the identifiers and the names of the jobs in it. -/
abbrev Registry := List (String × String)

namespace Registry

/-- `get_by_name(name) is not None`. -/
def hasName (registry : Registry) (name : String) : Bool := registry.any fun entry => entry.2 = name

/-- `exists`. -/
def hasId (registry : Registry) (jobId : String) : Bool := registry.any fun entry => entry.1 = jobId

/-- `register`. There is none for a job whose identifier or name is in use. -/
def register (registry : Registry) (job : Scheduler.Job) : Option Registry :=
  if registry.hasId job.id || registry.hasName job.name then none
  else some (registry ++ [(job.id, job.name)])

/-- `_recover_jobs`: a job that cannot be registered is left out. -/
def recover (registry : Registry) (jobs : List Scheduler.Job) : Registry :=
  jobs.foldl (fun registry job => (registry.register job).getD registry) registry

/-- The first loop of `_sync_registry_from_persistence`: whether it ended, and the registry. -/
def merge (registry : Registry) : List Scheduler.Job → Bool × Registry
  | [] => (true, registry)
  | job :: jobs =>
    if registry.hasId job.id then registry.merge jobs
    else
      match registry.register job with
      | none => (false, registry)
      | some registry => merge registry jobs

/-- `_sync_registry_from_persistence`. -/
def sync (registry : Registry) (jobs : List Scheduler.Job) : Bool × Registry :=
  match registry.merge jobs with
  | (false, registry) => (false, registry)
  | (true, registry) =>
    (true, registry.filter fun entry => jobs.any fun job => job.id = entry.1)

end Registry

/-! ## Actions -/

/-- Whether a trigger is one transaction, or a read followed by a write transaction. -/
inductive Granularity where
  | call
  | statement
deriving DecidableEq, Repr

/-- The readings of the clock and the identifier of a reminder that is made. -/
structure Draft where
  id : String
  createdAt : DateTime
  updatedAt : DateTime
  now : DateTime

/-- What a call awaits. -/
inductive Action where
  | now
  | acquire (process : ℕ) (name : String)
  | release (process : ℕ) (name : String)
  | getTask (workspaceKey : WorkspaceKey) (taskId : String)
  | createTask (task : UserTask)
  | updateTask (workspaceKey : WorkspaceKey) (task : UserTask) (expectedRevision : ℕ)
  | checkTask (workspaceKey : WorkspaceKey) (taskId : String)
  | create (reminder : Reminder)
  | get (reminderId : String)
  | listForTask (taskId : String)
  | listAll
  | listOccurrences (reminderId : String)
  | update (reminder : Reminder) (expectedRevision : ℕ)
  | trigger (reminderId : String) (scheduledAt : DateTime) (traceId : String)
  | triggerRead (reminderId : String) (scheduledAt : DateTime)
  | triggerWrite (reminder : Reminder) (scheduledAt : DateTime) (traceId : String)
  | recordTriggerFailure (reminderId : String) (scheduledAt : DateTime) (traceId : String)
      (failure : FailureInfo)
  | getJob (jobId : String)
  | schedule (process : ℕ) (request : Scheduler.ScheduleRequest)
  | cancelJob (jobId : String)
  | rescheduleJob (jobId : String) (expectedRevision : ℕ) (runAt : DateTime) (timezone : String)
      (actionPayload : Payload)
  | sync (process : ℕ)
  | recover (process : ℕ)
  | scheduler (action : Scheduler.Action)

/-- The reply to an action. -/
@[reducible] def Action.Reply : Action → Type
  | .now => DateTime
  | .acquire _ _ => Unit
  | .release _ _ => Unit
  | .getTask _ _ => Except Exn UserTask
  | .createTask _ => Except Exn UserTask
  | .updateTask _ _ _ => Except Exn UserTask
  | .checkTask _ _ => Except Exn UserTask × Draft
  | .create _ => Except Exn Reminder
  | .get _ => Except Exn Reminder
  | .listForTask _ => Except Exn (List Reminder)
  | .listAll => Except Exn (List Reminder)
  | .listOccurrences _ => Except Exn (List ReminderOccurrence)
  | .update _ _ => Except Exn Reminder
  | .trigger _ _ _ => Except Exn (Reminder × ReminderOccurrence × Bool)
  | .triggerRead _ _ => Except Exn Selected
  | .triggerWrite _ _ _ => Except Exn (Reminder × ReminderOccurrence × Bool)
  | .recordTriggerFailure _ _ _ _ => Except Exn Unit
  | .getJob _ => Except Exn (Option Scheduler.Job)
  | .schedule _ _ => Except Exn Scheduler.Job
  | .cancelJob _ => Except Exn Bool
  | .rescheduleJob _ _ _ _ _ => Except Exn Bool
  | .sync _ => Except Exn Unit
  | .recover _ => Except Exn Unit
  | .scheduler action => action.Reply

/-- What the environment supplies for one action: readings of the clock, the digits of an
identifier, and whether the transaction fails. -/
structure Supply where
  now : DateTime
  createdAt : DateTime := now
  updatedAt : DateTime := now
  hex : String := ""
  fault : Bool := false

inductive Input where
  | supply (supply : Supply)
  | scheduler (input : Scheduler.Input)

/-- The tables, and the registry and the locks of each process. -/
structure World where
  tasks : UserTasks.Database
  reminders : Database
  scheduler : Scheduler.World
  registries : ℕ → Registry
  locks : ℕ → List String

def World.initial : World := ⟨⟨[]⟩, .empty, .initial, fun _ => [], fun _ => []⟩

/-! ## What an action does -/

/-- An exception of the task repository. -/
def Exn.ofTask : UserTasks.RepositoryError → Exn
  | .persistence message => .persistence message
  | .notFound message => .notFound message
  | .conflict message => .conflict message

/-- A result of the task repository. -/
def ofTask {α : Type} : Except UserTasks.RepositoryError α → Except Exn α
  | .error e => .error (.ofTask e)
  | .ok a => .ok a

/-- A transaction that reads, unless it fails. -/
def reading {α : Type} (supply : Supply) (message : String) (result : Except Exn α) :
    Except Exn α :=
  if supply.fault then .error (.persistence message) else result

namespace World

variable (w : World)

/-- A transaction over the reminders: it commits, or it leaves the tables as they were. -/
def onReminders {α : Type} : Except Exn (α × Database) → Except Exn α × World
  | .error e => (.error e, w)
  | .ok (a, reminders) => (.ok a, { w with reminders })

/-- A transaction over the jobs that reports whether it changed one. -/
def onJobs (supply : Supply) (message : String) (result : Bool × Scheduler.Database) :
    Except Exn Bool × World :=
  if supply.fault then (.error (.scheduler message), w)
  else (.ok result.1, { w with scheduler := { w.scheduler with db := result.2 } })

/-- The registry of a process, replaced. -/
def setRegistry (process : ℕ) (registry : Registry) : World :=
  { w with registries := Function.update w.registries process registry }

/-- `UserTaskRepository.create`. -/
def createTask (task : UserTask) (supply : Supply) : Except Exn UserTask × World :=
  if supply.fault then (.error (.persistence "UserTask create failed"), w)
  else
    match w.tasks.create task with
    | .error e => (.error (.ofTask e), w)
    | .ok tasks => (.ok task, { w with tasks })

/-- `UserTaskRepository.update`. -/
def updateTask (workspaceKey : WorkspaceKey) (task : UserTask) (expectedRevision : ℕ)
    (supply : Supply) : Except Exn UserTask × World :=
  if supply.fault then (.error (.persistence "UserTask update failed"), w)
  else
    match w.tasks.update workspaceKey task expectedRevision with
    | .error e => (.error (.ofTask e), w)
    | .ok (updated, tasks) => (.ok updated, { w with tasks })

/-- `ReminderRepository.create`. -/
def create (reminder : Reminder) (supply : Supply) : Except Exn Reminder × World :=
  if supply.fault then (.error (.persistence "Reminder create failed"), w)
  else w.onReminders (w.reminders.create reminder)

/-- `ReminderRepository.update`. -/
def update (reminder : Reminder) (expectedRevision : ℕ) (supply : Supply) :
    Except Exn Reminder × World :=
  if supply.fault then (.error (.persistence "Reminder update failed"), w)
  else w.onReminders (w.reminders.update reminder expectedRevision supply.now)

/-- What a trigger returns, apart from the tables. -/
def triggered : Except Exn (Reminder × ReminderOccurrence × Bool × Database) →
    Except Exn ((Reminder × ReminderOccurrence × Bool) × Database)
  | .error e => .error e
  | .ok (reminder, occurrence, idempotent, db) => .ok ((reminder, occurrence, idempotent), db)

/-- `ReminderRepository.trigger`. -/
def trigger (reminderId : String) (scheduledAt : DateTime) (traceId : String) (supply : Supply) :
    Except Exn (Reminder × ReminderOccurrence × Bool) × World :=
  if supply.fault then (.error (.persistence "Reminder trigger failed"), w)
  else w.onReminders (triggered
    (w.reminders.trigger reminderId scheduledAt traceId supply.now ("occ_" ++ supply.hex)))

/-- The write transaction of `ReminderRepository.trigger`. -/
def triggerWrite (reminder : Reminder) (scheduledAt : DateTime) (traceId : String)
    (supply : Supply) : Except Exn (Reminder × ReminderOccurrence × Bool) × World :=
  if supply.fault then (.error (.persistence "Reminder trigger failed"), w)
  else w.onReminders (triggered
    (w.reminders.triggerWrite reminder scheduledAt traceId supply.now ("occ_" ++ supply.hex)))

/-- `ReminderRepository.record_trigger_failure`. -/
def recordTriggerFailure (reminderId : String) (scheduledAt : DateTime) (traceId : String)
    (failure : FailureInfo) (supply : Supply) : Except Exn Unit × World :=
  if supply.fault then (.error (.persistence "Reminder trigger failure save failed"), w)
  else
    match w.reminders.recordTriggerFailure reminderId scheduledAt traceId failure supply.now
      ("occ_" ++ supply.hex) with
    | .error e => (.error e, w)
    | .ok reminders => (.ok (), { w with reminders })

/-- The first run of a trigger, computed at `now`. -/
def firstRun (trigger : Scheduler.Trigger) (now : DateTime) : Except Raised (Option DateTime) :=
  if trigger.triggerType = .manual then .ok trigger.nextRunAt
  else Scheduler.computeNext trigger now

/-- The job of a request. -/
def newJob (request : Scheduler.ScheduleRequest) (next : Option DateTime) (supply : Supply) :
    Scheduler.Job where
  id := supply.hex
  name := request.jobName
  trigger := { request.trigger with nextRunAt := next }
  actionType := request.actionType
  actionPayload := request.actionPayload
  traceId := request.traceId
  updatedAt := supply.createdAt

/-- `SchedulerRuntime.schedule`: nothing of it can be observed by another process but the row. A
save that fails takes the job back from the registry. -/
def schedule (process : ℕ) (request : Scheduler.ScheduleRequest) (supply : Supply) :
    Except Exn Scheduler.Job × World :=
  if (w.registries process).hasName request.jobName then
    (.error (.scheduler ("Job already exists: " ++ request.jobName)), w)
  else if !request.trigger.validate then (.error (.scheduler "Invalid trigger"), w)
  else
    match firstRun request.trigger supply.now with
    | .error x => (.error (.other x.message), w)
    | .ok next =>
      let job := newJob request next supply
      match (w.registries process).register job with
      | none => (.error (.scheduler ("Job already exists: " ++ request.jobName)), w)
      | some registry =>
        if supply.fault then (.error (.scheduler "Scheduler job save failed"), w)
        else
          match w.scheduler.db.saveJob job with
          | .error _ => (.error (.scheduler "Scheduler job save failed"), w)
          | .ok db => (.ok job,
              { w with scheduler := { w.scheduler with db } }.setRegistry process registry)

/-- `_sync_registry_from_persistence`. -/
def sync (process : ℕ) (supply : Supply) : Except Exn Unit × World :=
  if supply.fault then (.error (.scheduler "Scheduler jobs load failed"), w)
  else
    match (w.registries process).sync w.scheduler.db.jobs with
    | (true, registry) => (.ok (), w.setRegistry process registry)
    | (false, registry) =>
      (.error (.scheduler "Job already exists"), w.setRegistry process registry)

/-- `_recover_jobs`. -/
def recover (process : ℕ) (supply : Supply) : Except Exn Unit × World :=
  if supply.fault then (.error (.scheduler "Scheduler jobs load failed"), w)
  else (.ok (), w.setRegistry process ((w.registries process).recover w.scheduler.db.jobs))

end World

/-- The clock readings and the identifier of a reminder. -/
def Supply.draft (supply : Supply) : Draft where
  id := "rem_" ++ supply.hex
  createdAt := supply.createdAt
  updatedAt := supply.updatedAt
  now := supply.now

/-- The reply of `UserTaskRepository.get`. -/
def World.getTask (w : World) (workspaceKey : WorkspaceKey) (taskId : String) (supply : Supply) :
    Except Exn UserTask :=
  reading supply "UserTask query failed" (ofTask (w.tasks.get workspaceKey taskId))

/-- The reply of `SchedulerPersistence.get_job`. -/
def World.getJob (w : World) (jobId : String) (supply : Supply) :
    Except Exn (Option Scheduler.Job) :=
  if supply.fault then .error (.scheduler "Scheduler job query failed")
  else .ok (w.scheduler.db.getJob jobId)

/-- What an action of a service does. -/
def act (supply : Supply) (w : World) : (e : Action) → Option (e.Reply × World)
  | .now => some (supply.now, w)
  | .acquire process name =>
    if name ∈ w.locks process then none
    else some ((), { w with locks := Function.update w.locks process (name :: w.locks process) })
  | .release process name =>
    some ((), { w with
      locks := Function.update w.locks process ((w.locks process).filter (· ≠ name)) })
  | .getTask workspaceKey taskId => some (w.getTask workspaceKey taskId supply, w)
  | .createTask task => some (w.createTask task supply)
  | .updateTask workspaceKey task revision => some (w.updateTask workspaceKey task revision supply)
  | .checkTask workspaceKey taskId =>
    some ((w.getTask workspaceKey taskId supply, supply.draft), w)
  | .create reminder => some (w.create reminder supply)
  | .get reminderId =>
    some (reading supply "Reminder query failed" (w.reminders.get reminderId), w)
  | .listForTask taskId =>
    some (reading supply "Reminder list failed" (.ok (w.reminders.listForTask taskId)), w)
  | .listAll => some (reading supply "Reminder list failed" (.ok w.reminders.listAll), w)
  | .listOccurrences reminderId =>
    some (reading supply "Reminder occurrence query failed"
      (.ok (w.reminders.listOccurrences reminderId)), w)
  | .update reminder revision => some (w.update reminder revision supply)
  | .trigger reminderId scheduledAt traceId =>
    some (w.trigger reminderId scheduledAt traceId supply)
  | .triggerRead reminderId scheduledAt =>
    some (reading supply "Reminder trigger failed"
      (w.reminders.triggerRead reminderId scheduledAt), w)
  | .triggerWrite reminder scheduledAt traceId =>
    some (w.triggerWrite reminder scheduledAt traceId supply)
  | .recordTriggerFailure reminderId scheduledAt traceId failure =>
    some (w.recordTriggerFailure reminderId scheduledAt traceId failure supply)
  | .getJob jobId => some (w.getJob jobId supply, w)
  | .schedule process request => some (w.schedule process request supply)
  | .cancelJob jobId =>
    some (w.onJobs supply "Scheduler job cancellation failed"
      (w.scheduler.db.cancelJob jobId supply.now))
  | .rescheduleJob jobId revision runAt timezone payload =>
    some (w.onJobs supply "Scheduler job reschedule failed"
      (w.scheduler.db.rescheduleJob jobId revision runAt timezone payload supply.now))
  | .sync process => some (w.sync process supply)
  | .recover process => some (w.recover process supply)
  | .scheduler _ => none

/-- What an action does. The runtimes of the scheduler act on their own tables. -/
def handler : Handler Action Action.Reply Input World
  | _, e, .supply supply, w => act supply w e
  | i, .scheduler action, .scheduler input, w =>
    (Scheduler.handler i action input w.scheduler).map fun (reply, scheduler) =>
      (reply, { w with scheduler })
  | _, _, .scheduler _, _ => none

/-- Programs over these actions. -/
abbrev Prog := Program Action Action.Reply Exn

end Reminders

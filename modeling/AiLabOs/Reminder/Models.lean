import AiLabOs.Base.Validation
import AiLabOs.Base.Failure
import AiLabOs.Base.Zone
import AiLabOs.UserTask.Models

/-!
# Reminders: models

A reminder belongs to a task and is due at an instant. Each attempt to trigger it is recorded as
an occurrence, one for each reminder and planned instant.

## Main definitions

* `Reminder`, `ReminderOccurrence`: the two kinds of rows
* `Environment`: the libraries the services call
* `validateReminder`, `validateTask`: the validators of a reminder and of a task
* `Exn`: the exceptions of the services
* `raiseFailure`: the failure a service makes of an exception
-/

namespace Reminders

open UserTasks

inductive ReminderStatus where
  | pendingSchedule
  | scheduled
  | pendingReschedule
  | pendingCancel
  | triggered
  | cancelled
  | failed
deriving DecidableEq, Repr

/-- The text of a status. -/
def ReminderStatus.value : ReminderStatus → String
  | .pendingSchedule => "pending_schedule"
  | .scheduled => "scheduled"
  | .pendingReschedule => "pending_reschedule"
  | .pendingCancel => "pending_cancel"
  | .triggered => "triggered"
  | .cancelled => "cancelled"
  | .failed => "failed"

/-- Nothing happens to the reminder any more. -/
def ReminderStatus.terminal (status : ReminderStatus) : Bool :=
  status = .triggered || status = .cancelled

inductive ReminderOccurrenceStatus where
  | processing
  | triggered
  | failed
deriving DecidableEq, Repr

/-- A metadata document, by the entries that are read. -/
structure ReminderMetadata where
  workspace : Evidence := .other
  intentHash : Option String := none
  idempotencyHash : Option String := none
  managementReschedule : Option Dict := none
  others : JsonDoc := ⟨"{}"⟩
deriving DecidableEq

/-- `Reminder`. -/
structure Reminder where
  id : String
  userTaskId : String
  remindAt : DateTime
  timezone : String
  status : ReminderStatus := .pendingSchedule
  schedulerJobId : Option String := none
  createdAt : DateTime
  updatedAt : DateTime
  cancelledAt : Option DateTime := none
  lastFailure : Option FailureInfo := none
  traceId : String := ""
  metadata : ReminderMetadata := {}
  revision : ℕ := 1
deriving DecidableEq

/-- `ReminderOccurrence`. -/
structure ReminderOccurrence where
  id : String
  reminderId : String
  userTaskId : String
  scheduledAt : DateTime
  triggeredAt : Option DateTime := none
  status : ReminderOccurrenceStatus := .processing
  traceId : String := ""
  failure : Option FailureInfo := none
  idempotencyKey : String
  attempt : ℕ := 1
deriving DecidableEq

/-- `ReconciliationResult`. -/
structure ReconciliationResult where
  repaired : ℕ := 0
  skipped : ℕ := 0
  failed : ℕ := 0
deriving DecidableEq, Repr

/-! ## Validation -/

/-- What the code asks of its libraries: the time zones `ZoneInfo` knows, the metadata documents
that have no sensitive key and are JSON, and `sha256` of a text, as hex digits. -/
structure Environment where
  zone : String → Option Zone
  clean : ReminderMetadata → Bool
  cleanTask : Metadata → Bool
  sha256 : String → String

/-- The names that `ZoneInfo` knows. -/
def Environment.zones (env : Environment) (name : String) : Bool := (env.zone name).isSome

/-- The validators of a reminder: the normalised `remind_at`. -/
def validateReminder (env : Environment) (remindAt : DateTimeArg) (timezone : String)
    (metadata : ReminderMetadata) : Except Invalid DateTime := do
  let remindAt ← normalizeDatetime "remind_at" remindAt
  check (env.zones timezone) "timezone" "timezone must be a valid IANA timezone"
  check (env.clean metadata) "metadata" "reminder metadata contains a sensitive key or value"
  return remindAt

/-- The validators of a task: it has its title and time zone stripped. -/
def validateTask (env : Environment) (task : UserTask) : Except Invalid UserTask := do
  let title := Text.strip task.title
  check (title ≠ "") "title" "task title must not be blank"
  let timezone := Text.strip task.timezone
  check (timezone ≠ "") "timezone" "timezone must not be blank"
  check (env.zones timezone) "timezone" "timezone must be a valid IANA timezone"
  check (env.cleanTask task.metadata) "metadata" "task metadata contains a sensitive key"
  return { task with title, timezone }

/-! ## Exceptions -/

/-- An exception of the services: a classified failure, one of the reminder errors, a rejected
value, an error of the scheduler, or another one. -/
inductive Exn where
  | failure (info : FailureInfo)
  | notFound (message : String)
  | conflict (message : String)
  | persistence (message : String)
  | unavailable (message : String)
  | invalid (message : String)
  | scheduler (message : String)
  | other (message : String)
deriving DecidableEq, Repr

/-- The exception of rejected values. -/
def Exn.ofInvalid : Invalid → Exn
  | .field _ reason => .invalid reason
  | .overflow => .other "date value out of range"

/-- The text of a category. -/
def categoryText : ErrorCategory → String
  | .validation => "validation"
  | .notFound => "not_found"
  | .alreadyExists => "already_exists"
  | .notConfigured => "not_configured"
  | .disabled => "disabled"
  | .unavailable => "unavailable"
  | .timeout => "timeout"
  | .cancelled => "cancelled"
  | .conflict => "conflict"
  | .dependencyFailure => "dependency_failure"
  | .executionFailure => "execution_failure"
  | .persistenceFailure => "persistence_failure"
  | .permissionDenied => "permission_denied"
  | .unauthenticated => "unauthenticated"
  | .rateLimited => "rate_limited"
  | .internal => "internal"

/-- The details that are not empty. -/
def presentDetails (details : List (String × String)) : Payload :=
  (details.filter fun entry => entry.2 ≠ "").map fun entry => (entry.1, .str entry.2)

/-- The category `ReminderService._raise` gives an exception. -/
def serviceCategory : Exn → ErrorCategory
  | .failure info => info.category
  | .notFound _ => .notFound
  | .conflict _ => .conflict
  | .invalid _ => .validation
  | .unavailable _ => .notConfigured
  | _ => .persistenceFailure

/-- `ReminderService._raise`. -/
def raiseFailure (exn : Exn) (operation traceId reminderId recoveryState : String) : Exn :=
  match exn with
  | .failure info => .failure info
  | _ =>
    let category := serviceCategory exn
    .failure {
      code := "reminders." ++ operation ++ "." ++ categoryText category
      category
      message := "Reminder " ++ operation ++ " failed"
      component := "reminders"
      operation
      retryable := category = .persistenceFailure || category = .notConfigured
      traceId
      details := presentDetails [("reminder_id", reminderId), ("recovery_state", recoveryState)] }

/-- The category `UserTaskService._raise` gives an exception. -/
def taskCategory : Exn → ErrorCategory
  | .failure info => info.category
  | .notFound _ => .notFound
  | .conflict _ => .conflict
  | .invalid _ => .validation
  | _ => .persistenceFailure

/-- `UserTaskService._raise`. -/
def raiseTaskFailure (exn : Exn) (operation traceId : String) : Exn :=
  match exn with
  -- `failure_from_exception` keeps a classified failure, with its trace if it has one
  | .failure info => .failure { info with
      traceId := if info.traceId = "" then traceId else info.traceId
      message := "UserTask " ++ operation ++ " failed" }
  | _ =>
    let category := taskCategory exn
    .failure {
      code := "user_tasks." ++ operation ++ "." ++ categoryText category
      category
      message := "UserTask " ++ operation ++ " failed"
      component := "user_tasks"
      operation
      retryable := category = .persistenceFailure
      traceId }

end Reminders

import AiLabOs.Base.Query
import AiLabOs.Base.Table
import AiLabOs.Reminder.Models

/-!
# Reminders: repository

Two tables: the reminders and their occurrences. An update is based on a revision; a trigger and
the record of a failed trigger change both tables in one transaction. Instants are stored as
`isoformat` texts, which are read back exactly, so the tables are given by the values they hold;
of a failure only a part is stored.

## Main definitions

* `storedFailure`, `Reminder.stored`: what a row keeps of a reminder
* `occurrenceKey`: the idempotency key of a reminder and a planned instant
* `Database.create`, `get`, `listForTask`, `listAll`, `listOccurrences`, `update`, `trigger`,
  `recordTriggerFailure`: the repository
* `Database.triggerRead`, `Database.triggerWrite`: the statements of a trigger before and within
  its write transaction
-/

namespace Reminders

/-! ## Rows -/

/-- `_SAFE_FAILURE_DETAILS`. -/
def safeFailureDetails : List String := ["reminder_id", "recovery_state", "attempt", "job_id"]

/-- A failure as it is read back. -/
def storedFailure (failure : FailureInfo) : FailureInfo :=
  { failure with
    message := "Reminder operation failed"
    details := failure.details.filter fun entry => entry.1 ∈ safeFailureDetails }

/-- A reminder as it is read back. -/
def Reminder.stored (reminder : Reminder) : Reminder :=
  { reminder with lastFailure := reminder.lastFailure.map storedFailure }

/-- The columns that `list_for_task` and `list_by_statuses` order by. -/
def Reminder.orderKey (reminder : Reminder) : String ×ₗ String :=
  toLex (reminder.createdAt.isoformat, reminder.id)

/-- `f"{reminder_id}:{scheduled}"`. -/
def occurrenceKey (reminderId : String) (scheduledAt : DateTime) : String :=
  reminderId ++ ":" ++ scheduledAt.isoformat

/-- `reminders.db`. -/
structure Database where
  reminders : List Reminder
  occurrences : List ReminderOccurrence
deriving DecidableEq

/-- What the first statements of a trigger find: the occurrence of a reminder that has been
triggered, or a reminder to trigger. -/
inductive Selected where
  | done (reminder : Reminder) (occurrence : ReminderOccurrence)
  | proceed (reminder : Reminder)
deriving DecidableEq

namespace Database

variable (db : Database)

/-- The empty tables. -/
def empty : Database := ⟨[], []⟩

/-- The row of a reminder. -/
def find (reminderId : String) : Option Reminder :=
  db.reminders.find? fun row => row.id = reminderId

/-- The row of an idempotency key. -/
def findOccurrence (key : String) : Option ReminderOccurrence :=
  db.occurrences.find? fun row => row.idempotencyKey = key

/-- `create`. -/
def create (reminder : Reminder) : Except Exn (Reminder × Database) :=
  if db.reminders.any fun row => row.id = reminder.id then
    .error (.conflict "Reminder already exists")
  else .ok (reminder, { db with reminders := db.reminders ++ [reminder.stored] })

/-- `get`. -/
def get (reminderId : String) : Except Exn Reminder :=
  match db.find reminderId with
  | none => .error (.notFound "Reminder not found")
  | some reminder => .ok reminder

/-- `_list`. -/
def list (p : Reminder → Bool) : List Reminder :=
  (db.reminders.filter p).insertionSort fun a b => a.orderKey ≤ b.orderKey

/-- `list_for_task`. -/
def listForTask (taskId : String) : List Reminder := db.list fun row => row.userTaskId = taskId

/-- `list_by_statuses` of all statuses. -/
def listAll : List Reminder := db.list fun _ => true

/-- `list_occurrences`. -/
def listOccurrences (reminderId : String) : List ReminderOccurrence :=
  (db.occurrences.filter fun row => row.reminderId = reminderId).insertionSort fun a b =>
    toLex (a.scheduledAt.isoformat, a.id) ≤ toLex (b.scheduledAt.isoformat, b.id)

/-- `update`, at the instant `now`. -/
def update (reminder : Reminder) (expectedRevision : ℕ) (now : DateTime) :
    Except Exn (Reminder × Database) :=
  let updated := { reminder with revision := expectedRevision + 1, updatedAt := now }
  let hit := fun row : Reminder => row.id = reminder.id && row.revision = expectedRevision
  if db.reminders.countP hit ≠ 1 then
    match db.find reminder.id with
    | none => .error (.notFound "Reminder not found")
    | some _ => .error (.conflict "Reminder was modified concurrently")
  else .ok (updated,
    { db with reminders := Table.update hit (fun _ => updated.stored) db.reminders })

/-! ## Triggers -/

/-- The statements of `trigger` before its write transaction. -/
def triggerRead (reminderId : String) (scheduledAt : DateTime) : Except Exn Selected :=
  match db.find reminderId with
  | none => .error (.notFound "Reminder not found")
  | some reminder =>
    match reminder.status with
    | .cancelled => .error (.conflict "Cancelled Reminder cannot trigger")
    | .pendingCancel => .error (.conflict "Cancelled Reminder cannot trigger")
    | .triggered =>
      match db.findOccurrence (occurrenceKey reminderId scheduledAt) with
      | none => .error (.conflict "Triggered Reminder has no matching occurrence")
      | some row =>
        if row.status = .triggered then .ok (.done reminder row)
        else .error (.conflict "Triggered Reminder has no matching occurrence")
    | .pendingSchedule => .error (.conflict "Reminder transition prevents this trigger")
    | .pendingReschedule => .error (.conflict "Reminder transition prevents this trigger")
    | .scheduled | .failed =>
      if reminder.remindAt ≠ scheduledAt then
        .error (.conflict "Reminder schedule changed before trigger")
      else .ok (.proceed reminder)

/-- `INSERT OR IGNORE INTO reminder_occurrences`, and whether the row is new. -/
def insertOccurrence (row : ReminderOccurrence) : Bool × Database :=
  if db.occurrences.any fun other => other.id = row.id ||
      other.idempotencyKey = row.idempotencyKey ||
      (other.reminderId = row.reminderId && other.scheduledAt = row.scheduledAt) then
    (false, db)
  else (true, { db with occurrences := db.occurrences ++ [row] })

/-- The row of an occurrence that is triggered. -/
def triggeredRow (now : DateTime) (traceId : String) (row : ReminderOccurrence) :
    ReminderOccurrence :=
  { row with
    status := .triggered
    triggeredAt := some now
    traceId
    failure := none
    attempt := row.attempt + if row.status = .processing then 0 else 1 }

/-- The row of a reminder that is triggered. -/
def triggeredReminder (now : DateTime) (traceId : String) (row : Reminder) : Reminder :=
  { row with
    status := .triggered
    updatedAt := now
    lastFailure := none
    traceId
    revision := row.revision + 1 }

/-- The occurrence a trigger starts with. -/
def newOccurrence (occurrenceId : String) (reminder : Reminder) (scheduledAt : DateTime)
    (traceId : String) : ReminderOccurrence where
  id := occurrenceId
  reminderId := reminder.id
  userTaskId := reminder.userTaskId
  scheduledAt
  traceId
  idempotencyKey := occurrenceKey reminder.id scheduledAt

/-- The write transaction of `trigger`, of a reminder that was selected. -/
def triggerWrite (reminder : Reminder) (scheduledAt : DateTime) (traceId : String)
    (now : DateTime) (occurrenceId : String) :
    Except Exn (Reminder × ReminderOccurrence × Bool × Database) :=
  let key := occurrenceKey reminder.id scheduledAt
  let db := (db.insertOccurrence (newOccurrence occurrenceId reminder scheduledAt traceId)).2
  match db.findOccurrence key with
  | none => .error (.persistence "Reminder trigger failed")
  | some row =>
    let existing : Bool := row.status = .triggered
    let occurrences := if existing then db.occurrences
      else Table.update (fun row => row.idempotencyKey = key) (triggeredRow now traceId)
        db.occurrences
    let hit := fun row : Reminder =>
      row.id = reminder.id && row.status ≠ .cancelled && row.status ≠ .pendingCancel
    if db.reminders.countP hit ≠ 1 then
      .error (.conflict "Reminder was cancelled while triggering")
    else
      let db : Database :=
        ⟨Table.update hit (triggeredReminder now traceId) db.reminders, occurrences⟩
      match db.find reminder.id, db.findOccurrence key with
      | some reminder, some occurrence => .ok (reminder, occurrence, existing, db)
      | _, _ => .error (.persistence "Reminder trigger failed")

/-- `trigger`, at the instant `now`. -/
def trigger (reminderId : String) (scheduledAt : DateTime) (traceId : String) (now : DateTime)
    (occurrenceId : String) : Except Exn (Reminder × ReminderOccurrence × Bool × Database) :=
  match db.triggerRead reminderId scheduledAt with
  | .error e => .error e
  | .ok (.done reminder occurrence) => .ok (reminder, occurrence, true, db)
  | .ok (.proceed reminder) => db.triggerWrite reminder scheduledAt traceId now occurrenceId

/-- The row of an occurrence whose trigger failed. -/
def failedRow (failure : FailureInfo) (traceId : String) (row : ReminderOccurrence) :
    ReminderOccurrence :=
  { row with
    status := .failed
    failure := some (storedFailure failure)
    traceId
    attempt := row.attempt + 1 }

/-- The row of a reminder whose trigger failed. -/
def failedReminder (failure : FailureInfo) (traceId : String) (now : DateTime) (row : Reminder) :
    Reminder :=
  { row with
    status := .failed
    lastFailure := some (storedFailure failure)
    traceId
    updatedAt := now
    revision := row.revision + 1 }

/-- `record_trigger_failure`, at the instant `now`. -/
def recordTriggerFailure (reminderId : String) (scheduledAt : DateTime) (traceId : String)
    (failure : FailureInfo) (now : DateTime) (occurrenceId : String) : Except Exn Database :=
  match db.find reminderId with
  | none => .error (.notFound "Reminder not found")
  | some reminder =>
    let key := occurrenceKey reminderId scheduledAt
    let inserted :=
      db.insertOccurrence { newOccurrence occurrenceId reminder scheduledAt traceId with
      status := .failed
      failure := some (storedFailure failure) }
    let occurrences := if inserted.1 then inserted.2.occurrences
      else Table.update (fun row => row.idempotencyKey = key && row.status ≠ .triggered)
        (failedRow failure traceId) inserted.2.occurrences
    let hit := fun row : Reminder => row.id = reminderId && row.status ≠ .triggered &&
      row.status ≠ .cancelled && row.status ≠ .pendingCancel
    .ok ⟨Table.update hit (failedReminder failure traceId now) inserted.2.reminders, occurrences⟩

end Database

end Reminders

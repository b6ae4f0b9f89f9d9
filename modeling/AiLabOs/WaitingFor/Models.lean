import AiLabOs.Base.Digest
import AiLabOs.Base.Validation
import AiLabOs.Base.Workspace

/-!
# Waiting-For: models

An item is one external dependency: open until it is resolved or cancelled, and open again when it
is reopened. Its history is an append-only list of events.

## Main definitions

* `WaitingFor`: the current snapshot of an item, with the state rules its model enforces
* `WaitingFor.validate`: the model's validators
* `WaitingFor.reviewDue`, `expectedOverdue`, `attentionDue`: what a list view asks of an item
* `WaitingForEvent`: one entry of the history
-/

namespace WaitingFors

inductive WaitingForStatus where
  | opened
  | resolved
  | cancelled
deriving DecidableEq, Repr

/-- The text of a status. -/
def WaitingForStatus.value : WaitingForStatus → String
  | .opened => "open"
  | .resolved => "resolved"
  | .cancelled => "cancelled"

inductive WaitingForEventType where
  | created
  | followedUp
  | snoozed
  | resolved
  | cancelled
  | reopened
deriving DecidableEq, Repr

inductive WaitingForView where
  | opened
  | attention
  | due
  | overdue
  | resolved
  | cancelled
  | all
deriving DecidableEq, Repr

/-- `_validate_state`: which fields each status has. -/
structure ValidState (status : WaitingForStatus) (createdAt updatedAt : DateTime)
    (resolvedAt cancelledAt : Option DateTime) (resolutionNote : String) : Prop where
  ordered : createdAt ≤ updatedAt
  exclusive : resolvedAt.isSome → cancelledAt.isSome → False
  opened : status = .opened → resolvedAt = none ∧ cancelledAt = none ∧ resolutionNote = ""
  resolved : status = .resolved → resolvedAt.isSome ∧ cancelledAt = none
  cancelled : status = .cancelled → cancelledAt.isSome ∧ resolvedAt = none ∧ resolutionNote = ""

/-- `WaitingFor`. -/
structure WaitingFor where
  id : String
  workspaceKey : Workspace
  subject : String
  waitingOn : String
  context : String
  status : WaitingForStatus
  expectedBy : Option DateTime
  nextReviewAt : Option DateTime
  timezone : String
  linkedUserTaskId : Option String
  linkedReminderId : Option String
  source : String
  createdAt : DateTime
  updatedAt : DateTime
  resolvedAt : Option DateTime
  cancelledAt : Option DateTime
  resolutionNote : String
  metadata : JsonDoc
  revision : ℕ
  validState : ValidState status createdAt updatedAt resolvedAt cancelledAt resolutionNote
deriving DecidableEq

/-- A metadata argument: a document, or one with a sensitive key or that is no JSON. -/
inductive MetadataArg where
  | doc (d : JsonDoc)
  | refused
deriving DecidableEq

/-- The values `WaitingFor` is built from. -/
structure WaitingForValues where
  id : String
  workspaceKey : Workspace
  subject : String
  waitingOn : String
  context : String := ""
  status : WaitingForStatus := .opened
  expectedBy : Option DateTimeArg := none
  nextReviewAt : Option DateTimeArg := none
  timezone : String := "UTC"
  linkedUserTaskId : Option String := none
  linkedReminderId : Option String := none
  source : String
  createdAt : DateTimeArg
  updatedAt : DateTimeArg
  resolvedAt : Option DateTimeArg := none
  cancelledAt : Option DateTimeArg := none
  resolutionNote : String := ""
  metadata : MetadataArg := .doc ⟨"{}"⟩
  revision : ℕ := 1

/-- `model_dump()`. -/
def WaitingFor.dump (item : WaitingFor) : WaitingForValues where
  id := item.id
  workspaceKey := item.workspaceKey
  subject := item.subject
  waitingOn := item.waitingOn
  context := item.context
  status := item.status
  expectedBy := item.expectedBy.map .utc
  nextReviewAt := item.nextReviewAt.map .utc
  timezone := item.timezone
  linkedUserTaskId := item.linkedUserTaskId
  linkedReminderId := item.linkedReminderId
  source := item.source
  createdAt := .utc item.createdAt
  updatedAt := .utc item.updatedAt
  resolvedAt := item.resolvedAt.map .utc
  cancelledAt := item.cancelledAt.map .utc
  resolutionNote := item.resolutionNote
  metadata := .doc item.metadata
  revision := item.revision

/-- `_validate_metadata`. -/
def validateMetadata : MetadataArg → Except Invalid JsonDoc
  | .doc d => .ok d
  | .refused => .error (.field "metadata" "waiting-for metadata is refused")

/-- `_validate_state`, with the message of the first rule that fails. -/
def validateState (status : WaitingForStatus) (createdAt updatedAt : DateTime)
    (resolvedAt cancelledAt : Option DateTime) (resolutionNote : String) : Except Invalid Unit := do
  check (createdAt ≤ updatedAt) "" "updated_at must not precede created_at"
  check (resolvedAt.isSome → cancelledAt.isSome → False) ""
    "resolved_at and cancelled_at are mutually exclusive"
  match status with
  | .opened =>
    check (resolvedAt = none ∧ cancelledAt = none) "" "open item cannot contain terminal timestamps"
    check (resolutionNote = "") "" "open item cannot contain a resolution note"
  | .resolved =>
    check (resolvedAt.isSome ∧ cancelledAt = none) "" "resolved item requires only resolved_at"
  | .cancelled =>
    check (cancelledAt.isSome ∧ resolvedAt = none) "" "cancelled item requires only cancelled_at"
    check (resolutionNote = "") "" "cancelled item cannot contain a resolution note"

theorem validateState_ok {status : WaitingForStatus} {createdAt updatedAt : DateTime}
    {resolvedAt cancelledAt : Option DateTime} {resolutionNote : String}
    (h : validateState status createdAt updatedAt resolvedAt cancelledAt resolutionNote = .ok ()) :
    ValidState status createdAt updatedAt resolvedAt cancelledAt resolutionNote := by
  obtain ⟨_, hordered, h⟩ := Except.of_bind_ok h
  obtain ⟨_, hexclusive, h⟩ := Except.of_bind_ok h
  have hordered := check_ok hordered
  have hexclusive := check_ok hexclusive
  cases status with
  | opened =>
    obtain ⟨_, hterminal, hnote⟩ := Except.of_bind_ok h
    obtain ⟨hr, hc⟩ := check_ok hterminal
    exact ⟨hordered, hexclusive, fun _ => ⟨hr, hc, check_ok hnote⟩, nofun, nofun⟩
  | resolved => exact ⟨hordered, hexclusive, nofun, fun _ => check_ok h, nofun⟩
  | cancelled =>
    obtain ⟨_, hterminal, hnote⟩ := Except.of_bind_ok h
    obtain ⟨hc, hr⟩ := check_ok hterminal
    exact ⟨hordered, hexclusive, nofun, nofun, fun _ => ⟨hc, hr, check_ok hnote⟩⟩

/-- `WaitingFor.model_validate`, given the time zones that `ZoneInfo` knows. -/
def WaitingFor.validate (zones : String → Bool) (v : WaitingForValues) :
    Except Invalid WaitingFor := do
  lengthIn "id" 4 80 v.id
  check (v.id.startsWith "wf_") "id" "waiting-for id must start with wf_"
  let subject ← requiredText "subject" 500 v.subject
  let waitingOn ← requiredText "waiting_on" 200 v.waitingOn
  let context ← optionalText "context" 4000 v.context
  let expectedBy ← normalizeOptional "expected_by" v.expectedBy
  let nextReviewAt ← normalizeOptional "next_review_at" v.nextReviewAt
  check (zones v.timezone) "timezone" "timezone must be a valid IANA timezone"
  shortText "linked_user_task_id" 160 v.linkedUserTaskId
  shortText "linked_reminder_id" 160 v.linkedReminderId
  let source ← requiredText "source" 64 v.source
  let createdAt ← normalizeDatetime "created_at" v.createdAt
  let updatedAt ← normalizeDatetime "updated_at" v.updatedAt
  let resolvedAt ← normalizeOptional "resolved_at" v.resolvedAt
  let cancelledAt ← normalizeOptional "cancelled_at" v.cancelledAt
  let resolutionNote ← optionalText "resolution_note" 4000 v.resolutionNote
  let metadata ← validateMetadata v.metadata
  check (1 ≤ v.revision) "revision" "must be at least 1"
  match h : validateState v.status createdAt updatedAt resolvedAt cancelledAt resolutionNote with
  | .error e => .error e
  | .ok () =>
    return {
      id := v.id
      workspaceKey := v.workspaceKey
      subject, waitingOn, context
      status := v.status
      expectedBy, nextReviewAt
      timezone := v.timezone
      linkedUserTaskId := v.linkedUserTaskId
      linkedReminderId := v.linkedReminderId
      source, createdAt, updatedAt, resolvedAt, cancelledAt, resolutionNote, metadata
      revision := v.revision
      validState := validateState_ok h }

/-- **What validation keeps** of the values it accepts. -/
structure WaitingFor.Accepts (v : WaitingForValues) (item : WaitingFor) : Prop where
  id : item.id = v.id
  workspaceKey : item.workspaceKey = v.workspaceKey
  status : item.status = v.status
  nextReviewAt : v.nextReviewAt = item.nextReviewAt.map .utc
  resolutionNote : item.resolutionNote = Text.strip v.resolutionNote
  revision : item.revision = v.revision

theorem WaitingFor.validate_ok {zones : String → Bool} {v : WaitingForValues} {item : WaitingFor}
    (h : validate zones v = .ok item) : Accepts v item := by
  unfold validate at h
  obtain ⟨_, -, h⟩ := Except.of_bind_ok h
  obtain ⟨_, -, h⟩ := Except.of_bind_ok h
  obtain ⟨subject, -, h⟩ := Except.of_bind_ok h
  obtain ⟨waitingOn, -, h⟩ := Except.of_bind_ok h
  obtain ⟨context, -, h⟩ := Except.of_bind_ok h
  obtain ⟨expectedBy, -, h⟩ := Except.of_bind_ok h
  obtain ⟨nextReviewAt, hnext, h⟩ := Except.of_bind_ok h
  obtain ⟨_, -, h⟩ := Except.of_bind_ok h
  obtain ⟨_, -, h⟩ := Except.of_bind_ok h
  obtain ⟨_, -, h⟩ := Except.of_bind_ok h
  obtain ⟨source, -, h⟩ := Except.of_bind_ok h
  obtain ⟨createdAt, -, h⟩ := Except.of_bind_ok h
  obtain ⟨updatedAt, -, h⟩ := Except.of_bind_ok h
  obtain ⟨resolvedAt, -, h⟩ := Except.of_bind_ok h
  obtain ⟨cancelledAt, -, h⟩ := Except.of_bind_ok h
  obtain ⟨resolutionNote, hnote, h⟩ := Except.of_bind_ok h
  obtain ⟨metadata, -, h⟩ := Except.of_bind_ok h
  obtain ⟨_, -, h⟩ := Except.of_bind_ok h
  split at h
  · cases h
  · cases h
    exact ⟨rfl, rfl, rfl, normalizeOptional_ok hnext, optionalText_ok hnote, rfl⟩

/-! ## What the views ask of an item -/

/-- `review_due`. -/
def WaitingFor.reviewDue (item : WaitingFor) (now : DateTime) : Bool :=
  item.status = .opened && item.nextReviewAt.any fun next => next ≤ now

/-- `expected_overdue`. -/
def WaitingFor.expectedOverdue (item : WaitingFor) (now : DateTime) : Bool :=
  item.status = .opened && item.expectedBy.any fun expected => expected < now

/-- `attention_due`. -/
def WaitingFor.attentionDue (item : WaitingFor) (now : DateTime) : Bool :=
  item.reviewDue now || item.expectedOverdue now

/-! ## Events -/

/-- The metadata of an event that moves the next review: the two instants, as `isoformat` writes
them. A text is kept as what it denotes. -/
structure ReviewMove where
  previousNextReviewAt : Option DateTime
  nextReviewAt : DateTimeArg
deriving DecidableEq

/-- `WaitingForEvent`. -/
structure WaitingForEvent where
  id : String
  waitingForId : String
  workspaceKey : Workspace
  sequence : ℕ
  eventType : WaitingForEventType
  occurredAt : DateTime
  note : String
  source : String
  traceId : String
  metadata : Option ReviewMove
deriving DecidableEq

/-- The values `WaitingForEvent` is built from. -/
structure WaitingForEventValues where
  id : String
  waitingForId : String
  workspaceKey : Workspace
  sequence : ℕ
  eventType : WaitingForEventType
  occurredAt : DateTimeArg
  note : String := ""
  source : String
  traceId : String := ""
  metadata : Option ReviewMove := none

/-- `WaitingForEvent.model_validate`. -/
def WaitingForEvent.validate (v : WaitingForEventValues) : Except Invalid WaitingForEvent := do
  lengthIn "id" 5 80 v.id
  check (v.id.startsWith "wfe_") "id" "waiting-for event id must start with wfe_"
  lengthIn "waiting_for_id" 4 80 v.waitingForId
  check (v.waitingForId.startsWith "wf_") "waiting_for_id" "waiting-for id must start with wf_"
  check (1 ≤ v.sequence) "sequence" "must be at least 1"
  let occurredAt ← normalizeDatetime "occurred_at" v.occurredAt
  let note ← optionalText "note" 4000 v.note
  let source ← requiredText "source" 64 v.source
  lengthIn "trace_id" 0 160 v.traceId
  return {
    id := v.id
    waitingForId := v.waitingForId
    workspaceKey := v.workspaceKey
    sequence := v.sequence
    eventType := v.eventType
    occurredAt, note, source
    traceId := v.traceId
    metadata := v.metadata }

/-- What validation keeps of the values of an event. -/
structure WaitingForEvent.Accepts (v : WaitingForEventValues) (event : WaitingForEvent) :
    Prop where
  waitingForId : event.waitingForId = v.waitingForId
  workspaceKey : event.workspaceKey = v.workspaceKey
  sequence : event.sequence = v.sequence
  eventType : event.eventType = v.eventType
  metadata : event.metadata = v.metadata

theorem WaitingForEvent.validate_ok {v : WaitingForEventValues} {event : WaitingForEvent}
    (h : validate v = .ok event) : Accepts v event := by
  unfold validate at h
  obtain ⟨_, -, h⟩ := Except.of_bind_ok h
  obtain ⟨_, -, h⟩ := Except.of_bind_ok h
  obtain ⟨_, -, h⟩ := Except.of_bind_ok h
  obtain ⟨_, -, h⟩ := Except.of_bind_ok h
  obtain ⟨_, -, h⟩ := Except.of_bind_ok h
  obtain ⟨occurredAt, -, h⟩ := Except.of_bind_ok h
  obtain ⟨note, -, h⟩ := Except.of_bind_ok h
  obtain ⟨source, -, h⟩ := Except.of_bind_ok h
  obtain ⟨_, -, h⟩ := Except.of_bind_ok h
  cases h
  exact ⟨rfl, rfl, rfl, rfl, rfl⟩

end WaitingFors

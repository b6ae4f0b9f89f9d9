import AiLabOs.Base.Failure
import AiLabOs.Process.Safety
import AiLabOs.WaitingFor.Repository

/-!
# Waiting-For: service

The calls of the service as programs over its clock, its identifiers and the repository. A call
reads an item, checks it, and commits a new snapshot based on the revision it read.

## Main definitions

* `Action`, `handler`, `World`: what a call does, one transaction at a time
* `create`, `recordFollowUp`, `snooze`, `resolve`, `cancel`, `reopen`: the operations
* `Request`, `start`, `Reachable`: calls in flight over the tables
-/

namespace WaitingFors

open Process

/-! ## Actions -/

/-- What a call awaits. -/
inductive Action where
  | now
  | newId
  | create (item : WaitingFor) (event : WaitingForEvent)
  | get (workspaceKey : WorkspaceKey) (id : String)
  | mutate (workspaceKey : WorkspaceKey) (updated : WaitingFor) (event : WaitingForEvent)
      (expectedRevision : Int)

/-- The reply to an action. -/
@[reducible] def Action.Reply : Action → Type
  | .now => DateTimeArg
  | .newId => String
  | .create _ _ => Except RepositoryError Unit
  | .get _ _ => Except RepositoryError WaitingFor
  | .mutate _ _ _ _ => Except RepositoryError Unit

/-- What the environment supplies: a clock reading, the digits of an identifier, and whether the
database can be reached. -/
inductive Input where
  | clock (reading : DateTimeArg)
  | hex (digits : String)
  | reached
  | fault

/-- A committed transaction: the call that made it, its item, and the revision it is based on. -/
structure Commit where
  call : ℕ
  itemId : String
  basedOn : Int
deriving DecidableEq

/-- The tables, and the history of commits, newest first. -/
structure World where
  db : Database
  commits : List Commit

def World.initial : World := ⟨.empty, []⟩

/-- A transaction of the call `i`: it commits, or it leaves the tables as they were. -/
def World.transact (w : World) (cm : Commit) :
    Except RepositoryError Database → Except RepositoryError Unit × World
  | .error e => (.error e, w)
  | .ok db => (.ok (), ⟨db, cm :: w.commits⟩)

/-- The failure of a transaction that does not reach the database. -/
def unreachable {α : Type} : Except RepositoryError α :=
  .error (.persistence "Waiting-For persistence failed")

/-- What an action does. -/
def handler : Handler Action Action.Reply Input World
  | _, .now, .clock reading, w => some (reading, w)
  | _, .newId, .hex digits, w => some (digits, w)
  | i, .create item event, .reached, w => some (w.transact ⟨i, item.id, 0⟩ (w.db.create item event))
  | _, .create _ _, .fault, w => some (unreachable, w)
  | _, .get workspaceKey id, .reached, w => some (w.db.get workspaceKey id, w)
  | _, .get _ _, .fault, w => some (unreachable, w)
  | i, .mutate workspaceKey updated event expected, .reached, w =>
    some (w.transact ⟨i, updated.id, expected⟩ (w.db.mutate workspaceKey updated event expected))
  | _, .mutate _ _ _ _, .fault, w => some (unreachable, w)
  | _, _, _, _ => none

/-- Programs over these actions. -/
abbrev Prog := Program Action Action.Reply Raised

/-- `clock.now()`. -/
def clockNow : Prog DateTimeArg := .perform Action.now

/-- `uuid4().hex`. -/
def newHex : Prog String := .perform Action.newId

/-- `repository.create`. -/
def repositoryCreate (item : WaitingFor) (event : WaitingForEvent) :
    Prog (Except RepositoryError Unit) :=
  .perform (Action.create item event)

/-- `repository.get`. -/
def repositoryGet (workspaceKey : WorkspaceKey) (id : String) :
    Prog (Except RepositoryError WaitingFor) :=
  .perform (Action.get workspaceKey id)

/-- `repository.mutate`. -/
def repositoryMutate (workspaceKey : WorkspaceKey) (updated : WaitingFor) (event : WaitingForEvent)
    (expectedRevision : Int) : Prog (Except RepositoryError Unit) :=
  .perform (Action.mutate workspaceKey updated event expectedRevision)

/-! ## Failures -/

/-- `_raise_failure`. -/
def fail {α : Type} (operation code : String) (category : ErrorCategory) (message traceId : String)
    (retryable : Bool := false) : Prog α :=
  .raise (.failure {
    code := "waiting_for." ++ operation ++ "." ++ code
    category, message
    component := "waiting_for"
    operation, retryable, traceId })

/-- `_raise_validation`. -/
def raiseValidation {α : Type} (operation traceId : String) : Prog α :=
  fail operation "validation" .validation "Waiting-For request is invalid" traceId

/-- `_raise_conflict`. -/
def raiseConflict {α : Type} (operation traceId : String) : Prog α :=
  fail operation "conflict" .conflict "Waiting-For state or revision conflict" traceId

/-- `_raise_not_found`. -/
def raiseNotFound {α : Type} (operation traceId : String) : Prog α :=
  fail operation "not_found" .notFound "Waiting-For item was not found" traceId

/-- `_raise_persistence`. -/
def raisePersistence {α : Type} (operation traceId : String) : Prog α :=
  fail operation "persistence_failure" .persistenceFailure "Waiting-For persistence failed" traceId
    true

/-- The failure of rejected values: an overflow is not a validation error. -/
def raiseInvalid {α : Type} (operation traceId : String) : Invalid → Prog α
  | .field _ _ => raiseValidation operation traceId
  | .overflow => raisePersistence operation traceId

/-- The failure of a refused transaction. -/
def raiseRepository {α : Type} (operation traceId : String) : RepositoryError → Prog α
  | .conflict _ => raiseConflict operation traceId
  | .notFound _ => raiseNotFound operation traceId
  | .workspaceMismatch _ => raiseNotFound operation traceId
  | .persistence _ => raisePersistence operation traceId

/-! ## Operations -/

/-- `WaitingForMutationResult`. -/
structure MutationResult where
  item : WaitingFor
  event : WaitingForEvent
deriving DecidableEq

/-- The arguments of `create`. -/
structure CreateArgs where
  workspaceKey : WorkspaceKey
  subject : String
  waitingOn : String
  context : String := ""
  expectedBy : Option DateTimeArg := none
  nextReviewAt : Option DateTimeArg := none
  timezone : String := "UTC"
  linkedUserTaskId : Option String := none
  linkedReminderId : Option String := none
  source : String
  traceId : String := ""
  metadata : MetadataArg := .doc ⟨"{}"⟩
  waitingForId : Option String := none

/-- The arguments the other operations share. -/
structure MutationArgs where
  workspaceKey : WorkspaceKey
  waitingForId : String
  expectedRevision : Int
  note : String
  nextReviewAt : Option DateTimeArg := none
  source : String
  traceId : String := ""

/-- `trace_id or workspace_key.trace_id`. -/
def requestTrace (traceId : String) (workspaceKey : WorkspaceKey) : String :=
  if traceId = "" then workspaceKey.traceId else traceId

/-- The trace of a request. -/
def MutationArgs.trace (a : MutationArgs) : String := requestTrace a.traceId a.workspaceKey

/-- The identifier an item is created with. -/
def itemId : Option String → Prog String
  | some id => pure id
  | none => do
    let hex ← newHex
    pure ("wf_" ++ hex)

/-- The values of a new item. -/
def CreateArgs.values (a : CreateArgs) (id : String) (now : DateTimeArg) : WaitingForValues where
  id := id
  workspaceKey := canonicalWorkspace a.workspaceKey
  subject := a.subject
  waitingOn := a.waitingOn
  context := a.context
  expectedBy := a.expectedBy
  nextReviewAt := a.nextReviewAt
  timezone := a.timezone
  linkedUserTaskId := a.linkedUserTaskId
  linkedReminderId := a.linkedReminderId
  source := a.source
  createdAt := now
  updatedAt := now
  metadata := a.metadata

/-- `create`. -/
def create (zones : String → Bool) (a : CreateArgs) : Prog MutationResult := do
  let trace := requestTrace a.traceId a.workspaceKey
  let now ← clockNow
  let id ← itemId a.waitingForId
  match WaitingFor.validate zones (a.values id now) with
  | .error e => raiseInvalid "create" trace e
  | .ok item =>
    let hex ← newHex
    match WaitingForEvent.validate {
        id := "wfe_" ++ hex
        waitingForId := item.id
        workspaceKey := item.workspaceKey
        sequence := 1
        eventType := .created
        occurredAt := now
        source := a.source
        traceId := trace } with
    | .error e => raiseInvalid "create" trace e
    | .ok event =>
      let reply ← repositoryCreate item event
      match reply with
      | .ok () => return { item, event }
      | .error (.conflict _) => raiseConflict "create" trace
      | .error _ => raisePersistence "create" trace

/-- `get`, as the operations call it. -/
def get (workspaceKey : WorkspaceKey) (id : String) : Prog WaitingFor := do
  let reply ← repositoryGet workspaceKey id
  match reply with
  | .ok item => return item
  | .error (.notFound _) => raiseNotFound "get" workspaceKey.traceId
  | .error (.workspaceMismatch _) => raiseNotFound "get" workspaceKey.traceId
  | .error _ => raisePersistence "get" workspaceKey.traceId

/-- `_require_open`. -/
def requireOpen (item : WaitingFor) (operation traceId : String) : Prog Unit :=
  if item.status = .opened then pure () else raiseConflict operation traceId

/-- `_required_note`. -/
def requiredNote (note operation traceId : String) : Prog String :=
  if Text.strip note = "" then raiseValidation operation traceId
  else if 4000 < (Text.strip note).length then raiseValidation operation traceId
  else pure (Text.strip note)

/-- What an operation changes: the values of the snapshot, and the event it appends. -/
structure Change where
  operation : String
  eventType : WaitingForEventType
  note : String
  update : WaitingForValues → WaitingForValues
  metadata : Option ReviewMove := none

/-- The next snapshot's values. -/
def Change.values (ch : Change) (current : WaitingFor) (now : DateTimeArg) : WaitingForValues :=
  { ch.update current.dump with updatedAt := now, revision := current.revision + 1 }

/-- The values of the event. -/
def Change.event (ch : Change) (a : MutationArgs) (current updated : WaitingFor)
    (now : DateTimeArg) (hex : String) : WaitingForEventValues where
  id := "wfe_" ++ hex
  waitingForId := current.id
  workspaceKey := current.workspaceKey
  sequence := updated.revision
  eventType := ch.eventType
  occurredAt := now
  note := ch.note
  source := a.source
  traceId := a.trace
  metadata := ch.metadata

/-- `_mutate`. -/
def mutate (zones : String → Bool) (a : MutationArgs) (current : WaitingFor) (ch : Change) :
    Prog MutationResult :=
  if a.expectedRevision ≠ current.revision then raiseConflict ch.operation a.trace
  else do
    let now ← clockNow
    match WaitingFor.validate zones (ch.values current now) with
    | .error e => raiseInvalid ch.operation a.trace e
    | .ok updated =>
      let hex ← newHex
      match WaitingForEvent.validate (ch.event a current updated now hex) with
      | .error e => raiseInvalid ch.operation a.trace e
      | .ok event =>
        let reply ← repositoryMutate a.workspaceKey updated event a.expectedRevision
        match reply with
        | .ok () => return { item := updated, event }
        | .error e => raiseRepository ch.operation a.trace e

/-- The metadata of a follow-up that moves the next review. -/
def reviewMove (current : WaitingFor) (next : DateTimeArg) : ReviewMove :=
  ⟨current.nextReviewAt, next⟩

/-- `record_follow_up`. -/
def recordFollowUp (zones : String → Bool) (a : MutationArgs) : Prog MutationResult := do
  let note ← requiredNote a.note "follow_up" a.trace
  let current ← get a.workspaceKey a.waitingForId
  requireOpen current "follow_up" a.trace
  mutate zones a current {
    operation := "follow_up"
    eventType := .followedUp
    note
    -- without an argument the next review stays
    update := fun v => { v with nextReviewAt := a.nextReviewAt.or v.nextReviewAt }
    metadata := a.nextReviewAt.map (reviewMove current) }

/-- `snooze`, whose next review is not optional. -/
def snooze (zones : String → Bool) (a : MutationArgs) (nextReviewAt : DateTimeArg) :
    Prog MutationResult := do
  let current ← get a.workspaceKey a.waitingForId
  requireOpen current "snooze" a.trace
  mutate zones a current {
    operation := "snooze"
    eventType := .snoozed
    note := a.note
    update := fun v => { v with nextReviewAt := some nextReviewAt }
    metadata := some (reviewMove current nextReviewAt) }

/-- `resolve`. -/
def resolve (zones : String → Bool) (a : MutationArgs) : Prog MutationResult := do
  let note ← requiredNote a.note "resolve" a.trace
  let current ← get a.workspaceKey a.waitingForId
  requireOpen current "resolve" a.trace
  let now ← clockNow
  mutate zones a current {
    operation := "resolve"
    eventType := .resolved
    note
    update := fun v => { v with
      status := .resolved
      resolvedAt := some now
      cancelledAt := none
      resolutionNote := note
      nextReviewAt := none } }

/-- `cancel`. -/
def cancel (zones : String → Bool) (a : MutationArgs) : Prog MutationResult := do
  let note ← requiredNote a.note "cancel" a.trace
  let current ← get a.workspaceKey a.waitingForId
  requireOpen current "cancel" a.trace
  let now ← clockNow
  mutate zones a current {
    operation := "cancel"
    eventType := .cancelled
    note
    update := fun v => { v with
      status := .cancelled
      cancelledAt := some now
      resolvedAt := none
      resolutionNote := ""
      nextReviewAt := none } }

/-- `reopen`. -/
def reopen (zones : String → Bool) (a : MutationArgs) : Prog MutationResult := do
  let note ← requiredNote a.note "reopen" a.trace
  let current ← get a.workspaceKey a.waitingForId
  if current.status = .opened then raiseConflict "reopen" a.trace
  else mutate zones a current {
    operation := "reopen"
    eventType := .reopened
    note
    update := fun v => { v with
      status := .opened
      resolvedAt := none
      cancelledAt := none
      resolutionNote := ""
      nextReviewAt := a.nextReviewAt } }

/-! ## The system -/

/-- What a call asks for. -/
inductive Request where
  | create (a : CreateArgs)
  | recordFollowUp (a : MutationArgs)
  | snooze (a : MutationArgs) (nextReviewAt : DateTimeArg)
  | resolve (a : MutationArgs)
  | cancel (a : MutationArgs)
  | reopen (a : MutationArgs)

/-- The program of a request. -/
def start (zones : String → Bool) : Request → Prog MutationResult
  | .create a => create zones a
  | .recordFollowUp a => recordFollowUp zones a
  | .snooze a nextReviewAt => snooze zones a nextReviewAt
  | .resolve a => resolve zones a
  | .cancel a => cancel zones a
  | .reopen a => reopen zones a

/-- The calls in flight over the tables. -/
abbrev Calls := Config Request Action Action.Reply Raised MutationResult World

/-- Some run from empty tables leads to `c`. -/
def Reachable (zones : String → Bool) (c : Calls) : Prop :=
  Reaches handler (start zones) (idle World.initial) c

end WaitingFors

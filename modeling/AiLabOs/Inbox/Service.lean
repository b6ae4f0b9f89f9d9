import AiLabOs.Base.Failure
import AiLabOs.Inbox.Repository
import AiLabOs.Process.Program

/-!
# Inbox: service

Any number of calls of the service, in any number of processes, over one pair of tables. An item is
resolved by a saga: its resolution is claimed, the target is created in another store, the target
is recorded in the claim, and item and claim are completed. A call that gets no further event has
crashed. The lock of a process only makes some interleavings rarer, and is left out.

## Main definitions

* `Action`, `World`, `handler`: what a call awaits, and what that does
* `resolve`: the saga
* `capture`, `resolveToTask`, `resolveToReminder`, `resolveToWorkLog`, `resolveToWaitingFor`,
  `resolveAsNote`, `dismiss`: the operations
* `Request`, `start`, `Reachable`: calls in flight over the tables
-/

namespace Inbox

open Process

/-! ## Targets -/

/-- What the code asks of its libraries and its configuration: SHA-256 of a text in hex digits, the
time zones `ZoneInfo` knows, and the services that are configured. -/
structure Environment where
  sha256 : String → String
  zones : String → Bool
  timezoneName : String
  userTasks : Bool
  reminders : Bool
  workLogs : Bool
  waitingFor : Bool

/-- `_target_id`. -/
def targetId (env : Environment) (kind itemId : String) : String :=
  kind ++ "_" ++ String.ofList ((env.sha256 (kind ++ "|" ++ itemId)).toList.take 24)

/-- The identifier of the work log of an item. -/
def workLogId (env : Environment) (itemId : String) : String :=
  "wl_" ++ String.ofList ((env.sha256 ("work_log|" ++ itemId)).toList.take 32)

inductive TaskPriority where
  | low
  | medium
  | high
  | urgent
deriving DecidableEq, Repr

/-- What the metadata of a target says of the item it was made from. -/
structure TargetSource where
  inboxItemId : String
  inboxSource : String
deriving DecidableEq, Repr

/-- The arguments another service creates a target with. -/
inductive TargetDraft where
  | userTask (workspaceKey : WorkspaceKey) (taskId title description : String)
      (priority : TaskPriority) (dueAt : Option DateTimeArg) (timezone : String)
      (createdAt : DateTime) (metadata : TargetSource)
  | reminder (workspaceKey : WorkspaceKey) (title : String) (dueAt : DateTimeArg)
      (timezone : String) (priority : TaskPriority) (description idempotencyKey : String)
  | workLog (workspaceKey : WorkspaceKey) (inboxItemId subject rawText reservedId : String)
  | waitingFor (workspaceKey : WorkspaceKey) (subject waitingOn context : String)
      (expectedBy nextReviewAt : Option DateTimeArg) (timezone : String) (metadata : TargetSource)
      (waitingForId : String)
deriving DecidableEq

/-- A target: the kind of its store, its identifier there, and its source. -/
structure Target where
  kind : InboxResolvedType
  id : String
  source : TargetSource
deriving DecidableEq, Repr

/-- The store a target is created in. -/
def TargetDraft.kind : TargetDraft → InboxResolvedType
  | .userTask .. => .userTask
  | .reminder .. => .reminder
  | .workLog .. => .workLog
  | .waitingFor .. => .waitingFor

/-- The identifier a target is created under, unless the other service chooses it. -/
def TargetDraft.reserved : TargetDraft → Option String
  | .userTask _ taskId _ _ _ _ _ _ _ => some taskId
  | .reminder .. => none
  | .workLog _ _ _ _ reservedId => some reservedId
  | .waitingFor _ _ _ _ _ _ _ _ waitingForId => some waitingForId

/-- The source a target is created with, as far as the arguments name it. -/
def TargetDraft.source : TargetDraft → TargetSource
  | .userTask _ _ _ _ _ _ _ _ metadata => metadata
  | .reminder _ _ _ _ _ _ idempotencyKey => ⟨idempotencyKey, ""⟩
  | .workLog _ inboxItemId _ _ _ => ⟨inboxItemId, ""⟩
  | .waitingFor _ _ _ _ _ _ _ metadata _ => metadata

/-- The identifier the other service returns: a work log is returned under its own. -/
def TargetDraft.returned (env : Environment) (draft : TargetDraft) (id : String) : String :=
  match draft with
  | .workLog _ inboxItemId _ _ _ => workLogId env inboxItemId
  | _ => id

/-! ## Actions -/

/-- An exception of the service: a classified failure, one of the repository, a rejected value, or
another one. -/
inductive Exn where
  | failure (info : FailureInfo)
  | repository (e : RepositoryError)
  | invalid
  | other (message : String)
deriving DecidableEq, Repr

/-- One transaction or one call out at a time. -/
inductive Action where
  | now
  | newId
  | save (item : InboxItem)
  | get (workspace : Workspace) (itemId : String)
  | claimResolution (workspace : Workspace) (itemId : String) (resolvedType : InboxResolvedType)
      (targetKey targetId : Option String) (now : DateTime)
  | getResolutionClaim (workspace : Workspace) (itemId : String)
  | recordTargetCreated (workspace : Workspace) (itemId : String)
      (resolvedType : InboxResolvedType) (targetId : String) (now : DateTime)
  | completeResolution (workspace : Workspace) (itemId : String)
      (resolvedType : InboxResolvedType) (now : DateTime)
  | createTarget (draft : TargetDraft)
  | getTarget (kind : InboxResolvedType) (workspaceKey : WorkspaceKey) (id : String)
deriving DecidableEq

/-- The reply to an action. -/
@[reducible] def Action.Reply : Action → Type
  | .now => DateTime
  | .newId => String
  | .save _ => Except RepositoryError Unit
  | .get _ _ => Except RepositoryError InboxItem
  | .claimResolution _ _ _ _ _ _ => Except RepositoryError InboxResolutionClaim
  | .getResolutionClaim _ _ => Except RepositoryError InboxResolutionClaim
  | .recordTargetCreated _ _ _ _ _ => Except RepositoryError InboxResolutionClaim
  | .completeResolution _ _ _ _ => Except RepositoryError (InboxItem × InboxResolutionClaim)
  | .createTarget _ => Except Exn String
  | .getTarget _ _ _ => Except Exn Target

/-- What the environment supplies: a clock reading, a text, that a store is reached or fails, that
a target is made under an identifier, that it is made and an exception raised, or that it is
refused. -/
inductive Input where
  | clock (reading : DateTime)
  | text (s : String)
  | reached
  | fault
  | created (id : String)
  | lost (id : String) (exn : Exn)
  | refused (exn : Exn)

/-- The tables, and the targets in the other stores. -/
structure World where
  db : Database
  targets : List Target

def World.initial : World := ⟨.empty, []⟩

/-- The targets after one is created: an identifier is never used twice in a store. -/
def World.create (w : World) (target : Target) : World :=
  if w.targets.any fun t => t.kind = target.kind && t.id = target.id then w
  else { w with targets := target :: w.targets }

@[simp] theorem World.create_db (w : World) (target : Target) : (w.create target).db = w.db := by
  unfold World.create
  split <;> rfl

/-- The target of these arguments may be made, or is there already: under the reserved identifier,
and not in the place of a target of another item. -/
def World.admits (w : World) (draft : TargetDraft) (id : String) : Bool :=
  (draft.reserved.all fun reserved => reserved = id) && w.targets.all fun t =>
    t.kind ≠ draft.kind || t.id ≠ id || t.source.inboxItemId = draft.source.inboxItemId

/-- The world after a method that returns the tables it leaves. -/
def World.write {α : Type} (w : World) (result : α × Database) : α × World :=
  (result.1, { w with db := result.2 })

/-- The world after a method whose errors leave the tables alone. -/
def World.transact {α : Type} (w : World) (result : Except RepositoryError (α × Database)) :
    Except RepositoryError α × World :=
  match result with
  | .ok (a, db) => (.ok a, { w with db })
  | .error e => (.error e, w)

/-- What an action does. A transaction that fails leaves the tables as they were. -/
def handler (env : Environment) : Handler Action Action.Reply Input World
  | _, .now, .clock reading, w => some (reading, w)
  | _, .newId, .text hex, w => some ("inbox_" ++ hex, w)
  | _, .save _, .fault, w => some (.error (.failed "Inbox item save failed"), w)
  | _, .save item, .reached, w => some (w.transact ((w.db.save item).map fun db => ((), db)))
  | _, .get _ _, .fault, w => some (.error (.failed "Inbox item query failed"), w)
  | _, .get workspace itemId, .reached, w => some (w.db.get workspace itemId, w)
  | _, .claimResolution _ _ _ _ _ _, .fault, w =>
    some (.error (.failed "Inbox resolution claim failed"), w)
  | _, .claimResolution workspace itemId resolvedType targetKey targetId now, .reached, w =>
    some (w.transact (w.db.claimResolution workspace itemId resolvedType targetKey targetId now))
  | _, .getResolutionClaim _ _, .fault, w =>
    some (.error (.failed "Inbox resolution claim query failed"), w)
  | _, .getResolutionClaim workspace itemId, .reached, w =>
    some (w.db.getResolutionClaim workspace itemId, w)
  | _, .recordTargetCreated _ _ _ _ _, .fault, w =>
    some (.error (.failed "Inbox target claim update failed"), w)
  | _, .recordTargetCreated workspace itemId resolvedType targetId now, .reached, w =>
    some (w.write (w.db.recordTargetCreated workspace itemId resolvedType targetId now))
  | _, .completeResolution _ _ _ _, .fault, w =>
    some (.error (.failed "Inbox resolution completion failed"), w)
  | _, .completeResolution workspace itemId resolvedType now, .reached, w =>
    some (w.write (w.db.completeResolution workspace itemId resolvedType now))
  | _, .createTarget draft, .created id, w =>
    if w.admits draft id then
      some (.ok (draft.returned env id), w.create ⟨draft.kind, id, draft.source⟩)
    else none
  | _, .createTarget draft, .lost id exn, w =>
    if w.admits draft id then
      some (.error exn, w.create ⟨draft.kind, id, draft.source⟩)
    else none
  | _, .createTarget _, .refused exn, w => some (.error exn, w)
  | _, .getTarget kind _ id, .reached, w =>
    (w.targets.find? fun t => t.kind = kind && t.id = id).map fun t => (.ok t, w)
  | _, .getTarget _ _ _, .refused exn, w => some (.error exn, w)
  | _, _, _, _ => none

/-- Programs over these actions. -/
abbrev Prog := Program Action Action.Reply Exn

/-! ## Failures -/

/-- The message of a failure code. -/
def message : String → String
  | "inbox.not_found" => "Inbox item was not found"
  | "inbox.invalid_content" => "Inbox content is invalid"
  | "inbox.invalid_status" => "Inbox status is invalid"
  | "inbox.already_resolved" => "Inbox item has already been resolved"
  | "inbox.resolve_failed" => "Inbox item resolution failed"
  | "inbox.workspace_mismatch" => "Inbox item belongs to another workspace"
  | "inbox.waiting_for.fields_missing" => "Waiting-For confirmation fields are missing"
  | "inbox.waiting_for.timezone_invalid" => "Waiting-For timezone is invalid"
  | "inbox.waiting_for.unavailable" => "Waiting-For service is unavailable"
  | "inbox.waiting_for.source_mismatch" =>
    "Waiting-For source metadata does not match the Inbox item"
  | _ => ""

/-- `_raise`. -/
def failure (code : String) (category : ErrorCategory) (operation traceId : String)
    (details : Payload := []) (retryable : Bool := false) : Exn :=
  .failure {
    code
    category
    message := message code
    component := "inbox"
    operation
    retryable
    traceId
    details }

/-- `_claim_details`. -/
def claimDetails (claim : InboxResolutionClaim) : Payload :=
  [("claimed_type", .str claim.resolvedType.value), ("target_id", .ofOption claim.targetId),
    ("claim_state", .str claim.state.value), ("resolved_type", .str claim.resolvedType.value),
    ("resolved_target_id", .ofOption claim.targetId)]

/-- `_raise_claim_conflict`. -/
def claimConflict (claim : InboxResolutionClaim) (workspaceKey : WorkspaceKey) : Exn :=
  failure "inbox.already_resolved" .conflict "resolve" workspaceKey.traceId (claimDetails claim)

/-! ## The saga -/

/-- `clock.now()`. -/
def clockNow : Prog DateTime := .perform Action.now

/-- `get`. -/
def get (workspaceKey : WorkspaceKey) (itemId : String) : Prog InboxItem := do
  let reply ← Program.perform (Action.get (canonicalWorkspace workspaceKey) itemId)
  match reply with
  | .ok item => return item
  | .error .itemNotFound =>
    .raise (failure "inbox.not_found" .notFound "get" workspaceKey.traceId)
  | .error (.workspaceMismatch _) =>
    .raise (failure "inbox.workspace_mismatch" .permissionDenied "get" workspaceKey.traceId)
  | .error _ =>
    .raise (failure "inbox.resolve_failed" .persistenceFailure "get" workspaceKey.traceId []
      true)

/-- `get_resolution_claim`, whose exceptions pass. -/
def resolutionClaim (workspaceKey : WorkspaceKey) (itemId : String) :
    Prog InboxResolutionClaim := do
  let reply ← Program.perform (Action.getResolutionClaim (canonicalWorkspace workspaceKey) itemId)
  match reply with
  | .ok claim => return claim
  | .error e => .raise (.repository e)

/-- The arguments of `_resolve` but the creation of the target. -/
structure ResolveArgs where
  workspaceKey : WorkspaceKey
  itemId : String
  resolvedType : InboxResolvedType
  targetKey : Option String := none
  reservedTargetId : Option String := none
  returnCompleted : Bool := false
deriving DecidableEq

/-- How the target of a claimed item is created. -/
abbrev CreateTarget := InboxItem → InboxResolutionClaim → Prog String

/-- The outcome of a program, its exception caught. -/
def attempt {α : Type} (p : Prog α) : Prog (Except Exn α) :=
  (p >>= fun a => .ret (.ok a)).tryCatch fun exn => .ret (.error exn)

/-- The `except` clauses of the saga, with the claim as it was last read. -/
def failed (a : ResolveArgs) (claim : InboxResolutionClaim) (exn : Exn) : Prog InboxItem :=
  let conflict : Prog InboxItem := do
    let current ← resolutionClaim a.workspaceKey a.itemId
    if current.resolvedType ≠ a.resolvedType ∨ current.state = .completed then
      .raise (claimConflict current a.workspaceKey)
    else
      .raise (failure "inbox.resolve_failed" .conflict "resolve" a.workspaceKey.traceId
        (claimDetails current) true)
  match exn with
  | .failure info =>
    if a.resolvedType = .waitingFor then .raise exn
    else .raise (failure "inbox.resolve_failed" info.category "resolve" a.workspaceKey.traceId
      [("dependency_code", .str info.code)] info.retryable)
  | .repository (.claimConflict _) => conflict
  | .repository (.revisionConflict _) => conflict
  | .repository .validation =>
    .raise (failure "inbox.resolve_failed" .validation "resolve" a.workspaceKey.traceId)
  | .repository _ =>
    .raise (failure "inbox.resolve_failed" .persistenceFailure "resolve" a.workspaceKey.traceId
      (claimDetails claim) true)
  | .invalid => .raise (failure "inbox.resolve_failed" .validation "resolve" a.workspaceKey.traceId)
  | .other _ => .raise (failure "inbox.resolve_failed" .internal "resolve" a.workspaceKey.traceId)

/-- The completion of item and claim. -/
def finish (a : ResolveArgs) (claim : InboxResolutionClaim) : Prog InboxItem := do
  let now ← clockNow
  let reply ← Program.perform
    (Action.completeResolution (canonicalWorkspace a.workspaceKey) a.itemId a.resolvedType now)
  match reply with
  | .ok (resolved, _) => return resolved
  | .error e => failed a claim (.repository e)

/-- The record of a created target, and the completion. -/
def record (a : ResolveArgs) (claim : InboxResolutionClaim) (targetId : String) :
    Prog InboxItem := do
  let now ← clockNow
  let reply ← Program.perform (Action.recordTargetCreated (canonicalWorkspace a.workspaceKey)
    a.itemId a.resolvedType targetId now)
  match reply with
  | .ok claim => finish a claim
  | .error e => failed a claim (.repository e)

/-- The saga of a pending item, from the claim as it is stored. -/
def saga (a : ResolveArgs) (createTarget : Option CreateTarget) (item : InboxItem)
    (claim : InboxResolutionClaim) : Prog InboxItem := do
  let reply ← Program.perform
    (Action.getResolutionClaim (canonicalWorkspace a.workspaceKey) a.itemId)
  match reply with
  | .error e => failed a claim (.repository e)
  | .ok claim =>
    match createTarget with
    | none => finish a claim
    | some create =>
      if claim.state = .claimed then do
        let result ← attempt (create item claim)
        match result with
        | .ok targetId => record a claim targetId
        | .error exn => failed a claim exn
      else finish a claim

/-- `_resolve` of a claim that is there. -/
def resolveClaimed (a : ResolveArgs) (createTarget : Option CreateTarget)
    (claim : InboxResolutionClaim) : Prog InboxItem :=
  if claim.resolvedType ≠ a.resolvedType then .raise (claimConflict claim a.workspaceKey)
  else if claim.state = .completed then do
    let completed ← get a.workspaceKey a.itemId
    if a.returnCompleted = true ∧ completed.resolvedType = some a.resolvedType ∧
        completed.resolvedTargetId = claim.targetId then
      return completed
    else .raise (claimConflict claim a.workspaceKey)
  else do
    let item ← get a.workspaceKey a.itemId
    if item.status ≠ .pending then do
      let current ← resolutionClaim a.workspaceKey a.itemId
      .raise (claimConflict current a.workspaceKey)
    else saga a createTarget item claim

/-- `_resolve`. -/
def resolve (a : ResolveArgs) (createTarget : Option CreateTarget) : Prog InboxItem := do
  let now ← clockNow
  let reply ← Program.perform (Action.claimResolution (canonicalWorkspace a.workspaceKey) a.itemId
    a.resolvedType a.targetKey a.reservedTargetId now)
  match reply with
  | .ok claim => resolveClaimed a createTarget claim
  | .error .itemNotFound =>
    .raise (failure "inbox.not_found" .notFound "resolve" a.workspaceKey.traceId)
  | .error (.workspaceMismatch _) =>
    .raise (failure "inbox.workspace_mismatch" .permissionDenied "resolve" a.workspaceKey.traceId)
  | .error (.revisionConflict _) => do
    let item ← get a.workspaceKey a.itemId
    .raise (failure "inbox.already_resolved" .conflict "resolve" a.workspaceKey.traceId
      [("claimed_type", .ofOption (item.resolvedType.map InboxResolvedType.value)),
        ("target_id", .ofOption item.resolvedTargetId), ("claim_state", .str "missing")])
  | .error _ =>
    .raise (failure "inbox.resolve_failed" .persistenceFailure "claim_resolution"
      a.workspaceKey.traceId [] true)

/-! ## The operations -/

/-- `capture`. -/
def capture (workspaceKey : WorkspaceKey) (content source : String) (metadata : Metadata)
    (suggestedType : InboxSuggestedType) : Prog InboxItem := do
  let now ← clockNow
  let id ← Program.perform Action.newId
  let drafted := validateItem {
    id
    workspace := canonicalWorkspace workspaceKey
    content, source, suggestedType, metadata
    createdAt := now
    updatedAt := now }
  match drafted with
  | .error _ =>
    .raise (failure "inbox.invalid_content" .validation "capture" workspaceKey.traceId)
  | .ok item => do
    let reply ← Program.perform (Action.save item)
    match reply with
    | .ok () => return item
    | .error _ =>
      .raise (failure "inbox.resolve_failed" .persistenceFailure "capture" workspaceKey.traceId []
        true)

/-- What another service replies. -/
def orRaise {α : Type} : Except Exn α → Prog α
  | .ok a => .ret a
  | .error exn => .raise exn

/-- The creation of a target that may be there already: after a conflict it is fetched, and kept if
it was made from this item. -/
def createOrFetch (draft : TargetDraft) (workspaceKey : WorkspaceKey) (id : String)
    (own : Target → Bool) (foreign : Target → Exn → Exn) : Prog String := do
  let reply ← Program.perform (Action.createTarget draft)
  match reply with
  | .ok id => return id
  | .error (.failure info) =>
    if info.category ≠ .conflict then .raise (.failure info)
    else do
      let found ← Program.perform (Action.getTarget draft.kind workspaceKey id)
      let existing ← orRaise found
      if own existing then return existing.id
      else .raise (foreign existing (.failure info))
  | .error exn => .raise exn

/-- The payload of a task. -/
structure TaskPayload where
  title : String
  description : String := ""
  dueAt : Option DateTimeArg := none
  priority : TaskPriority := .medium
deriving DecidableEq

/-- The key of a claim as a target. -/
def claimedKey (claim : InboxResolutionClaim) (missing : String) : Prog String :=
  match claim.targetKey with
  | some key => if key = "" then .raise (.other missing) else .ret key
  | none => .raise (.other missing)

/-- The target of `resolve_to_task`. -/
def createTask (env : Environment) (workspaceKey : WorkspaceKey) (payload : TaskPayload) :
    CreateTarget := fun item claim =>
  if env.userTasks = false then .raise (.other "UserTask service is not configured")
  else do
    let taskId ← claimedKey claim "UserTask claim target is missing"
    let now ← clockNow
    createOrFetch
      (.userTask workspaceKey taskId payload.title payload.description payload.priority
        payload.dueAt env.timezoneName now ⟨item.id, item.source⟩)
      workspaceKey taskId (fun target => target.source.inboxItemId = item.id) fun _ exn => exn

/-- `resolve_to_task`. -/
def resolveToTask (env : Environment) (workspaceKey : WorkspaceKey) (itemId : String)
    (payload : TaskPayload) : Prog InboxItem :=
  resolve {
    workspaceKey, itemId
    resolvedType := .userTask
    targetKey := some (targetId env "ut_inbox" itemId)
    reservedTargetId := some (targetId env "ut_inbox" itemId) }
    (some (createTask env workspaceKey payload))

/-- The payload of a reminder. -/
structure ReminderPayload where
  title : String
  scheduledAt : DateTimeArg
  description : String := ""
  priority : TaskPriority := .medium
  timezoneName : Option String := none
deriving DecidableEq

/-- The key reminders of an item are created under. -/
def reminderKey (itemId : String) : String := "inbox:" ++ itemId ++ ":reminder"

/-- The text, or another one if it is missing or empty. -/
def orText (text : Option String) (other : String) : String :=
  if hasText text then text.getD other else other

/-- The target of `resolve_to_reminder`. -/
def createReminder (env : Environment) (workspaceKey : WorkspaceKey) (itemId : String)
    (payload : ReminderPayload) : CreateTarget := fun _ claim =>
  if env.reminders = false then .raise (.other "Reminder service is not configured")
  else do
    let reply ← Program.perform (Action.createTarget
      (.reminder workspaceKey payload.title payload.scheduledAt
        (orText payload.timezoneName env.timezoneName) payload.priority payload.description
        (orText claim.targetKey (reminderKey itemId))))
    orRaise reply

/-- `resolve_to_reminder`. -/
def resolveToReminder (env : Environment) (workspaceKey : WorkspaceKey) (itemId : String)
    (payload : ReminderPayload) : Prog InboxItem :=
  resolve {
    workspaceKey, itemId
    resolvedType := .reminder
    targetKey := some (reminderKey itemId) }
    (some (createReminder env workspaceKey itemId payload))

/-- The target of `resolve_to_work_log`. -/
def createWorkLog (env : Environment) (workspaceKey : WorkspaceKey) (title description : String) :
    CreateTarget := fun item claim =>
  if env.workLogs = false then .raise (.other "Work Log service is not configured")
  else do
    let reservedId ← claimedKey claim "Work Log claim target is missing"
    let reply ← Program.perform (Action.createTarget
      (.workLog workspaceKey item.id title (orText (some description) item.content) reservedId))
    let recordId ← orRaise reply
    return if "inbox_wl_".toList.isPrefixOf reservedId.toList then reservedId else recordId

/-- `resolve_to_work_log`. -/
def resolveToWorkLog (env : Environment) (workspaceKey : WorkspaceKey)
    (itemId title description : String) : Prog InboxItem :=
  resolve {
    workspaceKey, itemId
    resolvedType := .workLog
    targetKey := some (workLogId env itemId)
    reservedTargetId := some (workLogId env itemId)
    returnCompleted := true }
    (some (createWorkLog env workspaceKey title description))

/-- The payload of a waiting-for item. -/
structure WaitingForPayload where
  subject : String
  waitingOn : String
  context : String := ""
  expectedBy : Option DateTimeArg := none
  nextReviewAt : Option DateTimeArg := none
  timezone : Option String := none
deriving DecidableEq

/-- The target of `resolve_to_waiting_for`. -/
def createWaitingFor (env : Environment) (workspaceKey : WorkspaceKey) (itemId : String)
    (payload : WaitingForPayload) : CreateTarget := fun item claim =>
  let id := orText claim.targetKey (targetId env "wf_inbox" itemId)
  createOrFetch
    (.waitingFor workspaceKey payload.subject payload.waitingOn payload.context payload.expectedBy
      payload.nextReviewAt (orText payload.timezone env.timezoneName) ⟨item.id, item.source⟩ id)
    workspaceKey id (fun target => target.source = ⟨item.id, item.source⟩) fun existing _ =>
      failure "inbox.waiting_for.source_mismatch" .conflict "resolve_to_waiting_for"
        workspaceKey.traceId
        [("waiting_for_id", .str existing.id), ("inbox_item_id", .str item.id)]

/-- The fields a confirmation of a waiting-for item misses. -/
def missingFields (payload : WaitingForPayload) : List String :=
  (if payload.subject = "" then ["subject"] else []) ++
    (if payload.waitingOn = "" then ["waiting_on"] else []) ++
    if payload.expectedBy.isNone ∧ payload.nextReviewAt.isNone then
      ["expected_by_or_next_review_at"]
    else []

/-- The payload with its texts stripped. -/
def WaitingForPayload.stripped (payload : WaitingForPayload) : WaitingForPayload :=
  { payload with
    subject := Text.strip payload.subject
    waitingOn := Text.strip payload.waitingOn }

/-- What `resolve_to_waiting_for` raises before it resolves anything. -/
def waitingForRefusal (env : Environment) (workspaceKey : WorkspaceKey) (itemId : String)
    (payload : WaitingForPayload) : Option Exn :=
  let timezoneName := orText payload.timezone env.timezoneName
  if missingFields payload ≠ [] then
    some (failure "inbox.waiting_for.fields_missing" .validation "resolve_to_waiting_for"
      workspaceKey.traceId
      [("missing_fields", .strs (missingFields payload)), ("confirmation_template",
        .str ("python -m cli inbox resolve-waiting-for " ++ itemId ++ " --subject <事项> " ++
          "--waiting-on <对象> --next-review-at <ISO-8601> --timezone <IANA>"))])
  else if env.zones timezoneName = false then
    some (failure "inbox.waiting_for.timezone_invalid" .validation "resolve_to_waiting_for"
      workspaceKey.traceId [("timezone", .str timezoneName)])
  else if env.waitingFor = false then
    some (failure "inbox.waiting_for.unavailable" .unavailable "resolve_to_waiting_for"
      workspaceKey.traceId)
  else none

/-- `resolve_to_waiting_for`. -/
def resolveToWaitingFor (env : Environment) (workspaceKey : WorkspaceKey) (itemId : String)
    (payload : WaitingForPayload) : Prog InboxItem :=
  match waitingForRefusal env workspaceKey itemId payload.stripped with
  | some exn => .raise exn
  | none =>
    resolve {
      workspaceKey, itemId
      resolvedType := .waitingFor
      targetKey := some (targetId env "wf_inbox" itemId)
      reservedTargetId := some (targetId env "wf_inbox" itemId)
      returnCompleted := true }
      (some (createWaitingFor env workspaceKey itemId payload.stripped))

/-- `resolve_as_note`. -/
def resolveAsNote (workspaceKey : WorkspaceKey) (itemId : String) : Prog InboxItem :=
  resolve { workspaceKey, itemId, resolvedType := .note } none

/-- `dismiss`. -/
def dismiss (workspaceKey : WorkspaceKey) (itemId : String) : Prog InboxItem :=
  resolve { workspaceKey, itemId, resolvedType := .dismissed } none

/-! ## Calls -/

/-- What a call asks for. -/
inductive Request where
  | capture (workspaceKey : WorkspaceKey) (content source : String) (metadata : Metadata)
      (suggestedType : InboxSuggestedType)
  | toTask (workspaceKey : WorkspaceKey) (itemId : String) (payload : TaskPayload)
  | toReminder (workspaceKey : WorkspaceKey) (itemId : String) (payload : ReminderPayload)
  | toWorkLog (workspaceKey : WorkspaceKey) (itemId title description : String)
  | toWaitingFor (workspaceKey : WorkspaceKey) (itemId : String) (payload : WaitingForPayload)
  | asNote (workspaceKey : WorkspaceKey) (itemId : String)
  | dismiss (workspaceKey : WorkspaceKey) (itemId : String)
deriving DecidableEq

/-- The program of a request. -/
def start (env : Environment) : Request → Prog InboxItem
  | .capture workspaceKey content source metadata suggestedType =>
    capture workspaceKey content source metadata suggestedType
  | .toTask workspaceKey itemId payload => resolveToTask env workspaceKey itemId payload
  | .toReminder workspaceKey itemId payload => resolveToReminder env workspaceKey itemId payload
  | .toWorkLog workspaceKey itemId title description =>
    resolveToWorkLog env workspaceKey itemId title description
  | .toWaitingFor workspaceKey itemId payload =>
    resolveToWaitingFor env workspaceKey itemId payload
  | .asNote workspaceKey itemId => resolveAsNote workspaceKey itemId
  | .dismiss workspaceKey itemId => Inbox.dismiss workspaceKey itemId

/-- Calls in flight over the world. -/
abbrev Calls := Config Request Action Action.Reply Exn InboxItem World

/-- Some run from the initial world leads to `c`. -/
def Reachable (env : Environment) (c : Calls) : Prop :=
  Reaches (handler env) (start env) (idle World.initial) c

end Inbox

import AiLabOs.Base.Failure
import AiLabOs.WorkLog.Repository

/-!
# Work logs: service

## Main definitions

* `WorkLogService`: the service over its repository
* `WorkLogService.create`, `createFromInbox`, `get`, `list`: the operations
* `Call`, `Event`, `WorkLogService.runs`: the calls that write, among the writes of others
-/

namespace WorkLogs

/-- `canonical_workspace`, of a key. -/
def canonicalKey (workspaceKey : WorkspaceKey) : WorkspaceKey :=
  { workspaceKey with
    tenantId := orDefault workspaceKey.tenantId
    workspaceId := orDefault workspaceKey.workspaceId
    nameSpace := orDefault workspaceKey.nameSpace }

/-- The service, and the zone its repository takes naive times in. -/
structure WorkLogService where
  env : Environment
  repositoryTimezone : String
  timezoneName : String

/-! ## Failures -/

/-- The messages of `_failure`. -/
def failureMessages : List (String × String) :=
  [("work_log.not_configured", "Work Log service is not configured"),
    ("work_log.not_found", "Work Log was not found"),
    ("work_log.workspace_mismatch", "Work Log belongs to another workspace"),
    ("work_log.id_invalid", "Work Log id is invalid"),
    ("work_log.subject_required", "Work Log subject is required"),
    ("work_log.occurred_at_invalid", "Work Log occurred_at is invalid"),
    ("work_log.timezone_invalid", "Work Log timezone is invalid"),
    ("work_log.query_invalid", "Work Log query is invalid"),
    ("work_log.limit_invalid", "Work Log query limit is invalid"),
    ("work_log.context_ref_invalid", "Work Log context reference is invalid"),
    ("work_log.repository_failed", "Work Log repository operation failed"),
    ("work_log.legacy_projection_failed", "Legacy Work Log projection failed")]

/-- `_failure`. -/
def failure (code : String) (category : ErrorCategory) (operation traceId : String)
    (retryable : Bool := false) (details : Payload := []) : Raised :=
  .failure {
    code, category, operation, traceId, retryable, details
    message := (failureMessages.lookup code).getD ""
    component := "work_log" }

/-- What a service call makes of an exception of the repository. -/
def raiseRepository (operation traceId : String) : RepositoryError → Raised
  | .projection rowDigest field =>
    failure "work_log.legacy_projection_failed" .persistenceFailure operation traceId false
      [("row_digest", .str rowDigest), ("field", .str field)]
  | .repository _ =>
    failure "work_log.repository_failed" .persistenceFailure operation traceId true
  | .notFound message | .workspaceMismatch message | .conflict message => .other message

/-- What `get` makes of an exception of the repository. -/
def raiseLookup (traceId : String) : RepositoryError → Raised
  | .notFound _ => failure "work_log.not_found" .notFound "get" traceId
  | .workspaceMismatch _ => failure "work_log.workspace_mismatch" .permissionDenied "get" traceId
  | error => raiseRepository "get" traceId error

/-- The fields of an Inbox record that its validators refuse, in order. -/
def WorkLogRecord.invalidFields (env : Environment) (record : WorkLogRecord) : List String :=
  (if isCanonicalId record.id then [] else ["id"]) ++
  (if (requiredText 4000 record.rawText).isSome then [] else ["raw_text"]) ++
  (if (requiredText 500 record.subject).isSome then [] else ["subject"]) ++
  (if env.zoneKnown (Text.strip record.timezone) then [] else ["timezone"])

/-- `_raise_validation`, of an Inbox record. -/
def raiseValidation (operation traceId : String) (fields : List String) : Raised :=
  let code :=
    if "subject" ∈ fields ∨ "raw_text" ∈ fields then "work_log.subject_required"
    else if "timezone" ∈ fields then "work_log.timezone_invalid"
    else "work_log.query_invalid"
  failure code .validation operation traceId false
    (if fields = [] then [] else [("fields", .strs fields)])

namespace WorkLogService

variable (svc : WorkLogService)

/-! ## Reading -/

/-- `get`. -/
def get (db : Database) (workspaceKey : WorkspaceKey) (workLogId : String) :
    Except Raised WorkLogRecord :=
  let workLogId := Text.strip workLogId
  if ¬(isCanonicalId workLogId ∨ isLegacyId workLogId ∨ isInboxAlias workLogId) then
    .error (failure "work_log.id_invalid" .validation "get" workspaceKey.traceId)
  else
    (db.get svc.env svc.repositoryTimezone (canonicalKey workspaceKey) workLogId).mapError
      (raiseLookup workspaceKey.traceId)

/-- `list`. -/
def list (db : Database) (workspaceKey : WorkspaceKey) (query : WorkLogQuery) :
    Except Raised WorkLogPage :=
  (db.list svc.env svc.repositoryTimezone (canonicalKey workspaceKey) query).mapError
    (raiseRepository "list" workspaceKey.traceId)

/-! ## Writing -/

/-- The attempts of `create`, one new identifier each. -/
def createAttempts (db : Database) (traceId : String) (record : String → WorkLogRecord) :
    List String → Except Raised WorkLogRecord × Database
  | [] => (.error (failure "work_log.repository_failed" .persistenceFailure "create" traceId true),
      db)
  | hex :: newIds =>
    match WorkLogRecord.validate svc.env (record ("wl_" ++ hex)) with
    | none => (.error (.valueError "validation error for WorkLogRecord"), db)
    | some record' =>
      match db.create svc.env svc.repositoryTimezone record' with
      | (.error (.conflict _), db) => createAttempts db traceId record newIds
      | (result, db) => (result.mapError (raiseRepository "create" traceId), db)

/-- `_MAX_ID_ATTEMPTS`. -/
def maxIdAttempts : ℕ := 5

/-- `create`, by a clock reading and the identifiers the attempts generate. -/
def create (db : Database) (workspaceKey : WorkspaceKey) (command : WorkLogCreateCommand)
    (now : DateTime) (newIds : List String) : Except Raised WorkLogRecord × Database :=
  let record (id : String) : WorkLogRecord := {
    id
    workspaceKey := canonicalWorkspace workspaceKey
    occurredAt := command.occurredAt.getD now
    timezone := command.timezone.getD svc.timezoneName
    subject := command.subject
    rawText := command.rawText
    target := command.target
    status := command.status
    tags := command.tags
    source := command.source
    contextRefs := command.contextRefs
    createdAt := now
    schemaVersion := 1 }
  svc.createAttempts db workspaceKey.traceId record (newIds.take maxIdAttempts)

/-- `_recover_inbox_target`. -/
def recoverInboxTarget (db : Database) (workspaceKey : WorkspaceKey)
    (targetId inboxItemId : String) : Except Raised WorkLogRecord :=
  let conflict := failure "work_log.repository_failed" .conflict "create_from_inbox"
    workspaceKey.traceId
  match db.get svc.env svc.repositoryTimezone (canonicalKey workspaceKey) targetId with
  | .error (.notFound _) | .error (.workspaceMismatch _) => .error conflict
  | .error error => .error (raiseRepository "create_from_inbox" workspaceKey.traceId error)
  | .ok record =>
    if record.source ≠ .inbox ∨ record.inboxItemId ≠ some inboxItemId then .error conflict
    else .ok record

/-- The identifier a record of an Inbox item is stored by. -/
def inboxTargetId (inboxItemId : String) (reservedId : Option String) : String :=
  match reservedId with
  | none | some "" =>
    "wl_" ++ Text.truncate 32 (svc.env.sha256 ("work_log|" ++ Text.strip inboxItemId))
  | some reservedId => reservedId

/-- `create_from_inbox`, by a clock reading. -/
def createFromInbox (db : Database) (workspaceKey : WorkspaceKey)
    (inboxItemId subject rawText : String) (reservedId : Option String) (now : DateTime) :
    Except Raised WorkLogRecord × Database :=
  let inboxItemId := Text.strip inboxItemId
  let targetId := svc.inboxTargetId inboxItemId reservedId
  if ¬Text.startsWith inboxItemId "inbox_" then
    (.error (failure "work_log.context_ref_invalid" .validation "create_from_inbox"
      workspaceKey.traceId), db)
  else if ¬(isCanonicalId targetId ∨ isInboxAlias targetId) then
    (.error (failure "work_log.id_invalid" .validation "create_from_inbox" workspaceKey.traceId),
      db)
  else
    let record : WorkLogRecord := {
      id := svc.inboxTargetId inboxItemId none
      workspaceKey := canonicalWorkspace workspaceKey
      occurredAt := now
      timezone := svc.timezoneName
      subject, rawText
      tags := ["inbox"]
      source := .inbox
      createdAt := now
      schemaVersion := 1
      inboxItemId := some inboxItemId }
    match WorkLogRecord.validate svc.env record with
    | none => (.error (raiseValidation "create_from_inbox" workspaceKey.traceId
        (record.invalidFields svc.env)), db)
    | some record =>
      match db.createFromInbox svc.env svc.repositoryTimezone record targetId with
      | (.error (.conflict _), db) =>
        (svc.recoverInboxTarget db workspaceKey targetId inboxItemId, db)
      | (result, db) =>
        (result.mapError (raiseRepository "create_from_inbox" workspaceKey.traceId), db)

end WorkLogService

/-! ## Runs -/

/-- A call that writes. -/
inductive Call where
  | create (workspaceKey : WorkspaceKey) (command : WorkLogCreateCommand) (now : DateTime)
      (newIds : List String)
  | createFromInbox (workspaceKey : WorkspaceKey) (inboxItemId subject rawText : String)
      (reservedId : Option String) (now : DateTime)

/-- The workspace a call names. -/
def Call.workspaceKey : Call → WorkspaceKey
  | .create workspaceKey _ _ _ | .createFromInbox workspaceKey _ _ _ _ _ => workspaceKey

/-- What a call answers, and the table after it. -/
def Call.run (svc : WorkLogService) (db : Database) :
    Call → Except Raised WorkLogRecord × Database
  | .create workspaceKey command now newIds => svc.create db workspaceKey command now newIds
  | .createFromInbox workspaceKey inboxItemId subject rawText reservedId now =>
    svc.createFromInbox db workspaceKey inboxItemId subject rawText reservedId now

/-- The identifier that a created record is fetched by. -/
def Call.fetchId (svc : WorkLogService) (record : WorkLogRecord) : Call → String
  | .create _ _ _ _ => record.id
  | .createFromInbox _ inboxItemId _ _ reservedId _ =>
    svc.inboxTargetId (Text.strip inboxItemId) reservedId

/-- What writes to the table: a call, or another component that adds a row. -/
inductive Event where
  | call (call : Call)
  | stored (row : Row)

/-- The table after an event. -/
def WorkLogService.step (svc : WorkLogService) (db : Database) : Event → Database
  | .call call => (call.run svc db).2
  | .stored row => (db.insert row).getD db

/-- The table after events. -/
def WorkLogService.runs (svc : WorkLogService) (db : Database) (events : List Event) : Database :=
  events.foldl svc.step db

end WorkLogs

import AiLabOs.Reminder.Bridge

/-!
# User tasks: service

Any number of processes over one table of tasks. An operation reads a task in one transaction and
writes it in another, under a guard on its revision; in between, others may act. The table is kept
with the identity under which each task was created.

## Main definitions

* `Action`, `World`, `handler`: what an operation awaits and what that does
* `TaskEdit`, `edited`, `transitioned`, `reopened`: what the operations make of a task
* `create`, `update`, `transition`, `reopen`, `importLegacy`: the operations
* `Request`, `start`, `Reachable`: operations in flight over the table
-/

namespace UserTasks

open Process
open Reminders (Environment Exn NewTask validateTask draftTask raiseTaskFailure ended)

/-! ## Actions -/

/-- What an operation awaits. A creation names the identity it happens under. -/
inductive Action where
  | now
  | create (under : Workspace) (task : UserTask)
  | get (workspaceKey : WorkspaceKey) (taskId : String)
  | list (workspaceKey : WorkspaceKey) (query : UserTaskQuery) (asOf : Option DateTime)
  | update (workspaceKey : WorkspaceKey) (task : UserTask) (expectedRevision : ℕ)
  | coordinate (task : UserTask) (traceId : String)

/-- The reply to an action. -/
@[reducible] def Action.Reply : Action → Type
  | .now => DateTime
  | .create _ _ => Except RepositoryError Unit
  | .get _ _ => Except RepositoryError UserTask
  | .list _ _ _ => Except RepositoryError (List UserTask)
  | .update _ _ _ => Except RepositoryError UserTask
  | .coordinate _ _ => Except Exn Unit

/-- What the environment supplies: a clock reading, that the database is reached, that it fails, or
how the coordination of a terminal task ends. -/
inductive Input where
  | clock (reading : DateTime)
  | reached
  | fault
  | coordinated (result : Except Exn Unit)

/-- The table, and the identities under which its tasks were created. -/
structure World where
  db : Database
  owners : List (String × Workspace)

def World.initial : World := ⟨⟨[]⟩, []⟩

/-- What an action does. A transaction that fails leaves the table as it was. -/
def handler : Handler Action Action.Reply Input World
  | _, .now, .clock reading, w => some (reading, w)
  | _, .coordinate _ _, .coordinated result, w => some (result, w)
  | _, .create _ _, .fault, w => some (.error (.persistence "UserTask create failed"), w)
  | _, .create under task, .reached, w =>
    match w.db.create task with
    | .error e => some (.error e, w)
    | .ok db => some (.ok (), ⟨db, (task.id, under) :: w.owners⟩)
  | _, .get _ _, .fault, w => some (.error (.persistence "UserTask query failed"), w)
  | _, .get workspaceKey taskId, .reached, w => some (w.db.get workspaceKey taskId, w)
  | _, .list _ _ _, .fault, w => some (.error (.persistence "UserTask list failed"), w)
  | _, .list workspaceKey query asOf, .reached, w => some (w.db.list workspaceKey query asOf, w)
  | _, .update _ _ _, .fault, w => some (.error (.persistence "UserTask update failed"), w)
  | _, .update workspaceKey task expectedRevision, .reached, w =>
    match w.db.update workspaceKey task expectedRevision with
    | .error e => some (.error e, w)
    | .ok (updated, db) => some (.ok updated, { w with db })
  | _, _, _, _ => none

/-- Programs over these actions. -/
abbrev Prog := Program Action Action.Reply Exn

/-- `clock.now()`. -/
def clockNow : Prog DateTime := .perform Action.now

/-- What a transaction returns, or its exception, as `_raise` passes it on. -/
def orFailure {α : Type} (operation traceId : String) : Except RepositoryError α → Prog α
  | .ok a => .ret a
  | .error e => .raise (raiseTaskFailure (.ofTask e) operation traceId)

/-- What a model accepts, or its exception, as `_raise` passes it on. -/
def orInvalid {α : Type} (operation traceId : String) : Except Invalid α → Prog α
  | .ok a => .ret a
  | .error invalid => .raise (raiseTaskFailure (.ofInvalid invalid) operation traceId)

/-! ## What becomes of a task -/

/-- The arguments of `update`. -/
structure TaskEdit where
  title : Option String := none
  description : Option String := none
  priority : Option UserTaskPriority := none
  dueAt : Option (Option DateTimeArg) := none
  timezone : Option String := none
  metadata : Option Metadata := none
  expectedRevision : Option ℕ := none
  traceId : String := ""

/-- The due instant after an edit. -/
def TaskEdit.due (edit : TaskEdit) (current : UserTask) : Except Invalid (Option DateTime) :=
  match edit.dueAt with
  | none => .ok current.dueAt
  | some dueAt => normalizeOptional "due_at" dueAt

/-- The metadata after an edit: the identity of the caller replaces what it says of a workspace. -/
def TaskEdit.document (edit : TaskEdit) (workspaceKey : WorkspaceKey) (current : UserTask) :
    Metadata :=
  match edit.metadata with
  | none => current.metadata
  | some metadata => { metadata with workspace := canonicalWorkspaceMetadata workspaceKey }

/-- The candidate of `update`. -/
def edited (env : Environment) (workspaceKey : WorkspaceKey) (edit : TaskEdit) (current : UserTask)
    (now : DateTime) : Except Invalid UserTask := do
  let dueAt ← edit.due current
  validateTask env { current with
    updatedAt := now
    traceId := if edit.traceId = "" then current.traceId else edit.traceId
    title := edit.title.getD current.title
    description := edit.description.getD current.description
    priority := edit.priority.getD current.priority
    timezone := edit.timezone.getD current.timezone
    metadata := edit.document workspaceKey current
    dueAt }

/-- The candidate of `reopen`. -/
def reopened (current : UserTask) (now : DateTime) : UserTask :=
  { current with
    status := .active
    updatedAt := now
    completedAt := none
    cancelledAt := none }

/-! ## Operations -/

/-- `get`. -/
def get (workspaceKey : WorkspaceKey) (taskId traceId : String) : Prog UserTask := do
  let reply ← Program.perform (Action.get workspaceKey taskId)
  orFailure "get" traceId reply

/-- `list`, whose as-of instant is read from the clock where the overdue filter needs one. -/
def list (workspaceKey : WorkspaceKey) (query : UserTaskQuery) (asOf : Option DateTime)
    (traceId : String) : Prog (List UserTask) :=
  if query.overdue.isSome ∧ asOf.isNone then do
    let now ← clockNow
    let reply ← Program.perform (Action.list workspaceKey query (some now))
    orFailure "list" traceId reply
  else do
    let reply ← Program.perform (Action.list workspaceKey query asOf)
    orFailure "list" traceId reply

/-- `create`. -/
def create (env : Environment) (workspaceKey : WorkspaceKey) (task : NewTask) : Prog UserTask := do
  let now ← clockNow
  let task ← orInvalid "create" task.traceId (draftTask env workspaceKey task now)
  let reply ← Program.perform (Action.create (workspaceIdentity workspaceKey) task)
  orFailure "create" task.traceId reply
  return task

/-- The write of an operation. -/
def write (operation traceId : String) (workspaceKey : WorkspaceKey) (task : UserTask)
    (expectedRevision : ℕ) : Prog UserTask := do
  let reply ← Program.perform (Action.update workspaceKey task expectedRevision)
  orFailure operation traceId reply

/-- `update`. -/
def update (env : Environment) (workspaceKey : WorkspaceKey) (taskId : String) (edit : TaskEdit) :
    Prog UserTask := do
  let current ← get workspaceKey taskId edit.traceId
  if current.status ≠ .active then
    .raise (raiseTaskFailure (.conflict "terminal task cannot be edited") "update" edit.traceId)
  else do
    let now ← clockNow
    let candidate ← orInvalid "update" edit.traceId (edited env workspaceKey edit current now)
    write "update" edit.traceId workspaceKey candidate
      (edit.expectedRevision.getD current.revision)

/-- `_coordinate_terminal`. -/
def coordinate (task : UserTask) (traceId : String) : Prog Unit := do
  let result ← Program.perform (Action.coordinate task traceId)
  match result with
  | .ok () => return ()
  | .error exn => .raise exn

/-- `_transition`. -/
def transition (workspaceKey : WorkspaceKey) (taskId : String) (target : UserTaskStatus)
    (expectedRevision : Option ℕ) (traceId : String) : Prog UserTask := do
  let current ← get workspaceKey taskId traceId
  if expectedRevision.any fun revision => revision ≠ current.revision then
    .raise (raiseTaskFailure (.conflict "stale expected_revision") target.value traceId)
  else if current.status = target then do
    coordinate current traceId
    return current
  else if current.status ≠ .active then
    .raise (raiseTaskFailure (.conflict "invalid terminal state transition") target.value traceId)
  else do
    let now ← clockNow
    let result ← write target.value traceId workspaceKey (ended current target now traceId)
      (expectedRevision.getD current.revision)
    coordinate result traceId
    return result

/-- `reopen`. -/
def reopen (workspaceKey : WorkspaceKey) (taskId traceId : String) : Prog UserTask := do
  let current ← get workspaceKey taskId traceId
  if current.status = .active then return current
  else do
    let now ← clockNow
    write "reopen" traceId workspaceKey (reopened current now) current.revision

/-! ## The import of legacy tasks -/

/-- What the import reads of the metadata of a memory item. -/
structure LegacyMetadata where
  timezone : Option String := none
  completedAt : Option String := none
  cancelledAt : Option String := none
  source : Option String := none
  sessionId : Option String := none
  agentId : Option String := none
  workspace : Evidence := .other

/-- What the import reads of the content of a memory item: texts, where a value is given that
counts as true. -/
structure LegacyContent where
  isTask : Bool
  title : Option String := none
  subject : Option String := none
  timezone : Option String := none
  priority : Option String := none
  status : Option String := none
  deadline : Option String := none
  completedAt : Option String := none
  cancelledAt : Option String := none
  rawText : String := ""
  source : Option String := none
  sessionId : Option String := none
  agentId : Option String := none
  workspace : Evidence := .other

/-- A memory item. Its content may be no object. -/
structure LegacyItem where
  id : Option String
  content : Option LegacyContent
  metadata : LegacyMetadata := {}
  timestamp : Option String := none

/-- The libraries of the import: those of the service, and the parser of a date text in a time
zone, at the end of its day where it is asked for. -/
structure LegacyEnvironment extends Environment where
  parseInstant : String → String → Bool → Option DateTime

/-- `_legacy_priority`. -/
def legacyPriority (value : Option String) : Option UserTaskPriority :=
  let normalized := (Text.strip (value.getD "")).toLower
  if normalized ∈ ["", "中", "medium", "normal"] then some .medium
  else if normalized ∈ ["高", "high"] then some .high
  else if normalized ∈ ["urgent", "紧急"] then some .urgent
  else if normalized ∈ ["低", "low"] then some .low
  else none

/-- `_legacy_status`. -/
def legacyStatus (value : Option String) : Option UserTaskStatus :=
  let normalized := (Text.strip (value.getD "")).toLower
  if normalized ∈ ["", "待办", "进行中", "active", "pending"] then some .active
  else if normalized ∈ ["完成", "已完成", "complete", "completed"] then some .completed
  else if normalized ∈ ["取消", "已取消", "cancel", "cancelled", "canceled"] then some .cancelled
  else none

/-- `_legacy_datetime`. -/
def legacyDatetime (env : LegacyEnvironment) (value : Option String) (timezone : String)
    (dateEnd : Bool) : Option (Option DateTimeArg) :=
  match value with
  | none => some none
  | some text => (env.parseInstant text timezone dateEnd).map fun t => some (.utc t)

/-- The task an item stands for, if it can be read. -/
def legacyTask (env : LegacyEnvironment) (traceId : String) (item : LegacyItem)
    (content : LegacyContent) : Option (WorkspaceKey × NewTask) := do
  let legacyId ← item.id
  let title := Text.strip ((content.title.or content.subject).getD "")
  if title = "" then none
  else do
    let timezone := (content.timezone.or item.metadata.timezone).getD "Asia/Shanghai"
    let priority ← legacyPriority content.priority
    let status ← legacyStatus content.status
    let dueAt ← legacyDatetime env content.deadline timezone true
    let createdAt ← legacyDatetime env item.timestamp timezone false
    let completedAt ←
      legacyDatetime env (content.completedAt.or item.metadata.completedAt) timezone false
    let cancelledAt ←
      legacyDatetime env (content.cancelledAt.or item.metadata.cancelledAt) timezone false
    let evidence := if content.workspace = .other then item.metadata.workspace
      else content.workspace
    return (workspaceKeyFromEvidence evidence, {
      id := "ut_legacy_" ++ String.ofList ((env.sha256 legacyId).toList.take 24)
      title
      description := content.rawText
      status, priority, dueAt, timezone, createdAt
      completedAt := if status = .completed then completedAt else none
      cancelledAt := if status = .cancelled then cancelledAt else none
      source := (content.source.or item.metadata.source).getD "legacy_decision_memory"
      sessionId := (content.sessionId.or item.metadata.sessionId).getD ""
      agentId := (content.agentId.or item.metadata.agentId).getD ""
      traceId
      legacySourceId := some legacyId })

/-- `LegacyImportResult`. -/
structure LegacyImportResult where
  imported : ℕ := 0
  skipped : ℕ := 0
  failed : ℕ := 0
deriving DecidableEq, Repr

/-- The import of one item. -/
def importItem (env : LegacyEnvironment) (traceId : String) (result : LegacyImportResult)
    (item : LegacyItem) : Prog LegacyImportResult :=
  match item.content with
  | none => return { result with failed := result.failed + 1 }
  | some content =>
    if !content.isTask then return { result with skipped := result.skipped + 1 }
    else
      match legacyTask env traceId item content with
      | none => return { result with failed := result.failed + 1 }
      | some (workspaceKey, task) =>
        (create env.toEnvironment workspaceKey task >>= fun _ =>
          .ret { result with imported := result.imported + 1 }).tryCatch fun exn =>
          match exn with
          | .failure info =>
            if info.category = .conflict then .ret { result with skipped := result.skipped + 1 }
            else .ret { result with failed := result.failed + 1 }
          | _ => .ret { result with failed := result.failed + 1 }

/-- The import of the items of a page. -/
def importItems (env : LegacyEnvironment) (traceId : String) (result : LegacyImportResult) :
    List LegacyItem → Prog LegacyImportResult
  | [] => return result
  | item :: items => do
    let result ← importItem env traceId result item
    importItems env traceId result items

/-- `import_legacy`, of the pages the memory gives one after the other, a page it fails to give
being `none`. It ends at an empty page and after a page that is not full; a page it has seen before
is an error. -/
def importLegacy (env : LegacyEnvironment) (traceId : String) (seen : List (List (Option String)))
    (result : LegacyImportResult) : List (Option (List LegacyItem)) → Prog LegacyImportResult
  | [] => return result
  | none :: _ =>
    .raise (raiseTaskFailure (.other "memory query failed") "legacy_import" traceId)
  | some items :: pages =>
    if items = [] then return result
    else if items.map LegacyItem.id ∈ seen then
      .raise (raiseTaskFailure (.persistence "Legacy memory pagination did not advance")
        "legacy_import" traceId)
    else do
      let result ← importItems env traceId result items
      if items.length < 500 then return result
      else importLegacy env traceId (items.map LegacyItem.id :: seen) result pages

/-! ## The system -/

/-- What a call asks for. -/
inductive Request where
  | create (workspaceKey : WorkspaceKey) (task : NewTask)
  | get (workspaceKey : WorkspaceKey) (taskId traceId : String)
  | list (workspaceKey : WorkspaceKey) (query : UserTaskQuery) (asOf : Option DateTime)
      (traceId : String)
  | update (workspaceKey : WorkspaceKey) (taskId : String) (edit : TaskEdit)
  | complete (workspaceKey : WorkspaceKey) (taskId : String) (expectedRevision : Option ℕ)
      (traceId : String)
  | cancel (workspaceKey : WorkspaceKey) (taskId : String) (expectedRevision : Option ℕ)
      (traceId : String)
  | reopen (workspaceKey : WorkspaceKey) (taskId traceId : String)
  | importLegacy (pages : List (Option (List LegacyItem))) (traceId : String)

/-- The end of a call. -/
def discard {α : Type} (p : Prog α) : Prog Unit := p >>= fun _ => .ret ()

/-- The program of a request. -/
def start (env : LegacyEnvironment) : Request → Prog Unit
  | .create workspaceKey task => discard (create env.toEnvironment workspaceKey task)
  | .get workspaceKey taskId traceId => discard (get workspaceKey taskId traceId)
  | .list workspaceKey query asOf traceId => discard (list workspaceKey query asOf traceId)
  | .update workspaceKey taskId edit =>
    discard (update env.toEnvironment workspaceKey taskId edit)
  | .complete workspaceKey taskId expectedRevision traceId =>
    discard (transition workspaceKey taskId .completed expectedRevision traceId)
  | .cancel workspaceKey taskId expectedRevision traceId =>
    discard (transition workspaceKey taskId .cancelled expectedRevision traceId)
  | .reopen workspaceKey taskId traceId => discard (reopen workspaceKey taskId traceId)
  | .importLegacy pages traceId => discard (importLegacy env traceId [] {} pages)

/-- The calls in flight over the table. -/
abbrev Calls := Process.Config Request Action Action.Reply Exn Unit World

/-- Some run from an empty table leads to `c`. -/
def Reachable (env : LegacyEnvironment) (c : Calls) : Prop :=
  Reaches handler (start env) (idle World.initial) c

end UserTasks

import AiLabOs.Base.Query
import AiLabOs.UserTask.Models

/-!
# User tasks: repository

One table. A list query is a list of clauses, each a comparison of a stored text with a bound
text; instants are stored as the JSON texts of the model and bound as `isoformat` writes them.

## Main definitions

* `TaskRow`, `values`, `taskOfRow`: a stored task
* `Clause`, `UserTaskQuery.clauses`: the conditions of a list query
* `workspacePredicate`: the rows a workspace sees
* `Database.create`, `get`, `list`, `update`: the repository, each one transaction

## Main results

* `taskOfRow_values`: a stored task is read back
-/

namespace UserTasks

inductive RepositoryError where
  | persistence (message : String)
  | notFound (message : String)
  | conflict (message : String)
deriving DecidableEq, Repr

/-! ## Rows -/

/-- A row of `user_tasks`. -/
structure TaskRow where
  id : String
  title : String
  description : String
  status : String
  priority : String
  dueAt : Option String
  timezone : String
  createdAt : String
  updatedAt : String
  completedAt : Option String
  cancelledAt : Option String
  source : String
  sessionId : String
  agentId : String
  traceId : String
  metadata : Metadata
  legacySourceId : Option String
  revision : ℕ

/-- `_values`. -/
def values (task : UserTask) : TaskRow where
  id := task.id
  title := task.title
  description := task.description
  status := task.status.value
  priority := task.priority.value
  dueAt := task.dueAt.map DateTime.toJson
  timezone := task.timezone
  createdAt := task.createdAt.toJson
  updatedAt := task.updatedAt.toJson
  completedAt := task.completedAt.map DateTime.toJson
  cancelledAt := task.cancelledAt.map DateTime.toJson
  source := task.source
  sessionId := task.sessionId
  agentId := task.agentId
  traceId := task.traceId
  metadata := task.metadata
  legacySourceId := task.legacySourceId
  revision := task.revision

/-- The status a text names. -/
def statusOfText (s : String) : Option UserTaskStatus :=
  [UserTaskStatus.active, .completed, .cancelled].find? fun status => status.value = s

/-- The priority a text names. -/
def priorityOfText (s : String) : Option UserTaskPriority :=
  [UserTaskPriority.low, .medium, .high, .urgent].find? fun priority => priority.value = s

/-- `_task`. -/
def taskOfRow (row : TaskRow) : Option UserTask := do
  let status ← statusOfText row.status
  let priority ← priorityOfText row.priority
  let dueAt ← DateTime.optionalInstant row.dueAt
  let createdAt ← DateTime.fromJson row.createdAt
  let updatedAt ← DateTime.fromJson row.updatedAt
  let completedAt ← DateTime.optionalInstant row.completedAt
  let cancelledAt ← DateTime.optionalInstant row.cancelledAt
  return {
    id := row.id
    title := row.title
    description := row.description
    status, priority, dueAt
    timezone := row.timezone
    createdAt, updatedAt, completedAt, cancelledAt
    source := row.source
    sessionId := row.sessionId
    agentId := row.agentId
    traceId := row.traceId
    metadata := row.metadata
    legacySourceId := row.legacySourceId
    revision := row.revision }

@[simp] theorem statusOfText_value (status : UserTaskStatus) :
    statusOfText status.value = some status := by
  cases status <;> decide

@[simp] theorem priorityOfText_value (priority : UserTaskPriority) :
    priorityOfText priority.value = some priority := by
  cases priority <;> decide

/-- **A stored task is read back.** -/
@[simp] theorem taskOfRow_values (task : UserTask) : taskOfRow (values task) = some task := by
  simp only [taskOfRow, values, statusOfText_value, priorityOfText_value,
    DateTime.optionalInstant_toJson,
    DateTime.fromJson_toJson, Option.bind_eq_bind, Option.bind_some]
  rfl

/-! ## Conditions -/

/-- The columns a query bounds. -/
inductive Column where
  | dueAt
  | completedAt
  | cancelledAt
deriving DecidableEq, Repr

/-- The text in a column. -/
def Column.text : Column → TaskRow → Option String
  | .dueAt => TaskRow.dueAt
  | .completedAt => TaskRow.completedAt
  | .cancelledAt => TaskRow.cancelledAt

/-- The instant in a column. -/
def Column.instant : Column → UserTask → Option DateTime
  | .dueAt => UserTask.dueAt
  | .completedAt => UserTask.completedAt
  | .cancelledAt => UserTask.cancelledAt

/-- One condition of a list query. -/
inductive Clause where
  | status (s : UserTaskStatus)
  | priority (p : UserTaskPriority)
  | notNull (column : Column)
  | atLeast (column : Column) (bound : DateTime)
  | atMost (column : Column) (bound : DateTime)
  | before (column : Column) (bound : DateTime)

/-- The condition on a row, in SQL: a comparison with NULL does not hold. -/
def Clause.sql (row : TaskRow) : Clause → Bool
  | .status s => row.status = s.value
  | .priority p => row.priority = p.value
  | .notNull column => (column.text row).isSome
  | .atLeast column bound => (column.text row).any fun s => bound.isoformat ≤ s
  | .atMost column bound => (column.text row).any fun s => s ≤ bound.isoformat
  | .before column bound => (column.text row).any fun s => s < bound.isoformat

/-- The conditions of the overdue filter. -/
def overdueClauses : Option Bool → Option DateTime → Except RepositoryError (List Clause)
  | none, _ => .ok []
  | some _, none => .error (.persistence "UserTask overdue query requires a resolved as_of")
  | some true, some asOf => .ok [.status .active, .notNull .dueAt, .before .dueAt asOf]
  | some false, some asOf => .ok [.status .active, .notNull .dueAt, .atLeast .dueAt asOf]

/-- The conditions of the other filters. -/
def UserTaskQuery.clauses (query : UserTaskQuery) : List Clause :=
  query.status.toList.map .status ++
  query.priority.toList.map .priority ++
  query.dueFrom.toList.map (.atLeast .dueAt) ++
  query.dueTo.toList.map (.atMost .dueAt) ++
  query.completedFrom.toList.map (.atLeast .completedAt) ++
  query.completedTo.toList.map (.before .completedAt) ++
  query.cancelledFrom.toList.map (.atLeast .cancelledAt) ++
  query.cancelledTo.toList.map (.before .cancelledAt)

/-- `length(trim(s)) > 0`: SQL trims spaces only, and counts the characters before the first NUL. -/
def notBlankInSql (s : String) : Bool :=
  match s.toList.dropWhile fun c => c = ' ' with
  | [] => false
  | c :: _ => c.toNat ≠ 0

/-- `_COMPLETE_WORKSPACE_SQL`, with the texts it finds. -/
def completeWorkspace : Evidence → Option Workspace
  | .object (.text tenantId) (.text workspaceId) (.text nameSpace) =>
    if notBlankInSql tenantId && notBlankInSql workspaceId && notBlankInSql nameSpace then
      some ⟨tenantId, workspaceId, nameSpace⟩
    else none
  | _ => none

/-- `_workspace_predicate`. -/
def workspacePredicate (workspaceKey : WorkspaceKey) (row : TaskRow) : Bool :=
  let workspace := workspaceIdentity workspaceKey
  if row.metadata.jsonValid then
    match completeWorkspace row.metadata.workspace with
    | some stored => stored = workspace
    | none => workspace = .default
  else false

/-- `_is_default_workspace`. -/
def isDefaultWorkspace (workspaceKey : WorkspaceKey) : Bool :=
  workspaceIdentity workspaceKey = .default

/-- The rank `list` orders priorities by. -/
def priorityRank (priority : String) : ℕ :=
  if priority = "urgent" then 0 else if priority = "high" then 1
  else if priority = "medium" then 2 else 3

/-- The columns `list` orders by. -/
def TaskRow.orderKey (row : TaskRow) : ℕ ×ₗ ℕ ×ₗ String ×ₗ String ×ₗ String :=
  toLex (priorityRank row.priority, toLex (if row.dueAt.isNone then 1 else 0,
    toLex (row.dueAt.getD "", toLex (row.createdAt, row.id))))

/-! ## The repository -/

/-- The table. -/
structure Database where
  tasks : List UserTask
deriving DecidableEq

namespace Database

variable (db : Database)

/-- `_ensure_valid_metadata`, for all rows or for one. -/
def ensureValidMetadata (taskId : Option String) : Except RepositoryError Unit :=
  if db.tasks.any fun task => !task.metadata.jsonValid && taskId.all fun id => task.id = id then
    .error (.persistence "UserTask persisted metadata is malformed")
  else .ok ()

/-- The check that the default workspace makes before it reads. -/
def ensureReadable (workspaceKey : WorkspaceKey) (taskId : Option String) :
    Except RepositoryError Unit :=
  if isDefaultWorkspace workspaceKey then db.ensureValidMetadata taskId else .ok ()

/-- The task a workspace sees under an identifier. -/
def visible (workspaceKey : WorkspaceKey) (taskId : String) : Option UserTask :=
  db.tasks.find? fun task => task.id = taskId && workspacePredicate workspaceKey (values task)

/-- `create`, in a table whose keys are `id` and `legacy_source_id`. -/
def create (task : UserTask) : Except RepositoryError Database :=
  if db.tasks.any fun row => row.id = task.id ||
      (task.legacySourceId.isSome && row.legacySourceId = task.legacySourceId) then
    .error (.conflict "UserTask already exists")
  else .ok { db with tasks := db.tasks ++ [task] }

/-- `get`. -/
def get (workspaceKey : WorkspaceKey) (taskId : String) : Except RepositoryError UserTask := do
  db.ensureReadable workspaceKey (some taskId)
  match db.visible workspaceKey taskId with
  | none => .error (.notFound "UserTask not found")
  | some task => .ok task

/-- The `SELECT` of `list`. -/
def selectTasks (workspaceKey : WorkspaceKey) (clauses : List Clause) (limit offset : ℕ) :
    Except RepositoryError (List UserTask) :=
  let rows := Query.select
    (fun row => workspacePredicate workspaceKey row && clauses.all (Clause.sql row))
    (fun a b => a.orderKey ≤ b.orderKey) limit offset (db.tasks.map values)
  match rows.mapM taskOfRow with
  | none => .error (.persistence "UserTask list failed")
  | some tasks => .ok tasks

/-- `list`. -/
def list (workspaceKey : WorkspaceKey) (query : UserTaskQuery) (asOf : Option DateTime) :
    Except RepositoryError (List UserTask) := do
  let overdue ← overdueClauses query.overdue asOf
  db.ensureReadable workspaceKey none
  db.selectTasks workspaceKey (query.clauses ++ overdue) query.limit query.offset

/-- `update`: the row moves to the next revision if it still has the expected one. -/
def update (workspaceKey : WorkspaceKey) (task : UserTask) (expectedRevision : ℕ) :
    Except RepositoryError (UserTask × Database) := do
  let updated := { task with revision := expectedRevision + 1 }
  db.ensureReadable workspaceKey (some task.id)
  match db.visible workspaceKey task.id with
  | none => .error (.notFound "UserTask not found")
  | some row =>
    if row.revision = expectedRevision then
      .ok (updated, { db with
        tasks := db.tasks.map fun row => if row.id = task.id then updated else row })
    else .error (.conflict "UserTask was modified concurrently")

end Database

/-- A task that a workspace sees is stored under the identifier, in a row of the workspace. -/
theorem visible_some {db : Database} {workspaceKey : WorkspaceKey} {taskId : String}
    {task : UserTask} (h : db.visible workspaceKey taskId = some task) :
    task ∈ db.tasks ∧ task.id = taskId ∧ workspacePredicate workspaceKey (values task) = true := by
  have hmem := List.mem_of_find?_eq_some h
  have hp := List.find?_some h
  simp only [Bool.and_eq_true, decide_eq_true_eq] at hp
  exact ⟨hmem, hp.1, hp.2⟩

end UserTasks

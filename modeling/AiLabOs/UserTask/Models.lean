import AiLabOs.Base.Validation
import AiLabOs.Base.Workspace

/-!
# User tasks: models

## Main definitions

* `Metadata`, `Evidence`: what the code reads of a task's metadata
* `UserTask`, `UserTask.isOverdue`
* `UserTaskQuery`: the filters of a list, with the ranges its model accepts
* `workspaceOf`: the workspace the metadata of a task names
-/

namespace UserTasks

inductive UserTaskStatus where
  | active
  | completed
  | cancelled
deriving DecidableEq, Repr

/-- The text of a status. -/
def UserTaskStatus.value : UserTaskStatus → String
  | .active => "active"
  | .completed => "completed"
  | .cancelled => "cancelled"

inductive UserTaskPriority where
  | low
  | medium
  | high
  | urgent
deriving DecidableEq, Repr

/-- The text of a priority. -/
def UserTaskPriority.value : UserTaskPriority → String
  | .low => "low"
  | .medium => "medium"
  | .high => "high"
  | .urgent => "urgent"

/-- A component of the workspace evidence. -/
inductive EvidencePart where
  | missing
  | text (s : String)
  | other
deriving DecidableEq, Repr

/-- The `workspace` entry of a metadata document. -/
inductive Evidence where
  | object (tenantId workspaceId nameSpace : EvidencePart)
  | other
deriving DecidableEq, Repr

/-- A metadata document, as far as it is read: its `workspace` and `intent_hash` entries, and
whether the database reads the text that `json.dumps` writes. It does not when that text has a `NaN`
or `Infinity`, which it has for a number that is not finite under a pydantic whose
`model_dump(mode="json")` leaves such a number as it is; one that makes it `null` never writes a
text of this kind. -/
structure Metadata where
  workspace : Evidence := .other
  jsonValid : Bool := true
  intentHash : Option String := none
deriving DecidableEq, Repr

/-- `UserTask`. -/
structure UserTask where
  id : String
  title : String
  description : String := ""
  status : UserTaskStatus := .active
  priority : UserTaskPriority := .medium
  dueAt : Option DateTime := none
  timezone : String := "UTC"
  createdAt : DateTime
  updatedAt : DateTime
  completedAt : Option DateTime := none
  cancelledAt : Option DateTime := none
  source : String := "api"
  sessionId : String := ""
  agentId : String := ""
  traceId : String := ""
  metadata : Metadata := {}
  legacySourceId : Option String := none
  revision : ℕ := 1
deriving DecidableEq

/-- `is_overdue`. -/
def UserTask.isOverdue (task : UserTask) (now : DateTime) : Bool :=
  task.status = .active && task.dueAt.any fun due => due < now

/-- `validate_terminal_ranges`: a range has its lower end first. -/
def ValidRange (lower upper : Option DateTime) : Prop :=
  ∀ l ∈ lower, ∀ u ∈ upper, l < u

instance (lower upper : Option DateTime) : Decidable (ValidRange lower upper) := by
  unfold ValidRange
  infer_instance

/-- `UserTaskQuery`. -/
structure UserTaskQuery where
  status : Option UserTaskStatus := none
  priority : Option UserTaskPriority := none
  dueFrom : Option DateTime := none
  dueTo : Option DateTime := none
  completedFrom : Option DateTime := none
  completedTo : Option DateTime := none
  cancelledFrom : Option DateTime := none
  cancelledTo : Option DateTime := none
  overdue : Option Bool := none
  limit : ℕ := 100
  offset : ℕ := 0
  limitRange : 1 ≤ limit ∧ limit ≤ 500 := by decide
  completedRange : ValidRange completedFrom completedTo := by decide
  cancelledRange : ValidRange cancelledFrom cancelledTo := by decide

/-- The same query from another row on. -/
def UserTaskQuery.at (query : UserTaskQuery) (offset : ℕ) : UserTaskQuery :=
  { query with offset }

/-! ## Workspaces -/

/-- `workspace_key_from_evidence`: three texts that are not blank, or the default workspace. -/
def workspaceKeyFromEvidence : Evidence → WorkspaceKey
  | .object (.text tenantId) (.text workspaceId) (.text nameSpace) =>
    if Text.strip tenantId ≠ "" ∧ Text.strip workspaceId ≠ "" ∧ Text.strip nameSpace ≠ "" then
      { tenantId, workspaceId, nameSpace }
    else { tenantId := "default", workspaceId := "default", nameSpace := "default" }
  | _ => { tenantId := "default", workspaceId := "default", nameSpace := "default" }

/-- `canonical_workspace_metadata`, the evidence the service writes. -/
def canonicalWorkspaceMetadata (workspaceKey : WorkspaceKey) : Evidence :=
  let workspace := workspaceIdentity workspaceKey
  .object (.text workspace.tenantId) (.text workspace.workspaceId) (.text workspace.nameSpace)

/-- The workspace the metadata of a task names. -/
def workspaceOf (metadata : Metadata) : Workspace :=
  workspaceIdentity (workspaceKeyFromEvidence metadata.workspace)

end UserTasks

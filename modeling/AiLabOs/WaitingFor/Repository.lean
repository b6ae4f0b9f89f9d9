import AiLabOs.Base.Query
import AiLabOs.WaitingFor.Models

/-!
# Waiting-For: repository

Two tables: the snapshots and the events. A snapshot is stored as texts, its instants as the JSON
texts of the model, and list queries compare these texts; every row is written by `_item_values`
and read back by `_item`, so the tables are given by the values they hold.

## Main definitions

* `ItemRow`, `itemValues`, `itemOfRow`: a stored snapshot
* `Database`: the two tables
* `Database.create`, `get`, `list`, `mutate`: the repository, each one transaction

## Main results

* `itemOfRow_itemValues`: a stored snapshot is read back
* `Database.create_ok`, `Database.mutate_ok`: what a committed transaction met and wrote
-/

namespace WaitingFors

inductive RepositoryError where
  | persistence (message : String)
  | notFound (message : String)
  | workspaceMismatch (message : String)
  | conflict (message : String)
deriving DecidableEq, Repr

/-! ## Rows -/

/-- A row of `waiting_for_items`. -/
structure ItemRow where
  id : String
  tenantId : String
  workspaceId : String
  nameSpace : String
  subject : String
  waitingOn : String
  context : String
  status : String
  expectedBy : Option String
  nextReviewAt : Option String
  timezone : String
  linkedUserTaskId : Option String
  linkedReminderId : Option String
  source : String
  createdAt : String
  updatedAt : String
  resolvedAt : Option String
  cancelledAt : Option String
  resolutionNote : String
  metadata : String
  revision : ℕ

/-- `_item_values`. -/
def itemValues (item : WaitingFor) : ItemRow where
  id := item.id
  tenantId := item.workspaceKey.tenantId
  workspaceId := item.workspaceKey.workspaceId
  nameSpace := item.workspaceKey.nameSpace
  subject := item.subject
  waitingOn := item.waitingOn
  context := item.context
  status := item.status.value
  expectedBy := item.expectedBy.map DateTime.toJson
  nextReviewAt := item.nextReviewAt.map DateTime.toJson
  timezone := item.timezone
  linkedUserTaskId := item.linkedUserTaskId
  linkedReminderId := item.linkedReminderId
  source := item.source
  createdAt := item.createdAt.toJson
  updatedAt := item.updatedAt.toJson
  resolvedAt := item.resolvedAt.map DateTime.toJson
  cancelledAt := item.cancelledAt.map DateTime.toJson
  resolutionNote := item.resolutionNote
  metadata := item.metadata.text
  revision := item.revision

/-- The status a text names. -/
def statusOfText (s : String) : Option WaitingForStatus :=
  if s = "open" then some .opened
  else if s = "resolved" then some .resolved
  else if s = "cancelled" then some .cancelled
  else none

/-- `_item`. -/
def itemOfRow (row : ItemRow) : Option WaitingFor := do
  let status ← statusOfText row.status
  let expectedBy ← DateTime.optionalInstant row.expectedBy
  let nextReviewAt ← DateTime.optionalInstant row.nextReviewAt
  let createdAt ← DateTime.fromJson row.createdAt
  let updatedAt ← DateTime.fromJson row.updatedAt
  let resolvedAt ← DateTime.optionalInstant row.resolvedAt
  let cancelledAt ← DateTime.optionalInstant row.cancelledAt
  match h : validateState status createdAt updatedAt resolvedAt cancelledAt row.resolutionNote with
  | .error _ => none
  | .ok () =>
    return {
      id := row.id
      workspaceKey := ⟨row.tenantId, row.workspaceId, row.nameSpace⟩
      subject := row.subject
      waitingOn := row.waitingOn
      context := row.context
      status, expectedBy, nextReviewAt
      timezone := row.timezone
      linkedUserTaskId := row.linkedUserTaskId
      linkedReminderId := row.linkedReminderId
      source := row.source
      createdAt, updatedAt, resolvedAt, cancelledAt
      resolutionNote := row.resolutionNote
      metadata := ⟨row.metadata⟩
      revision := row.revision
      validState := validateState_ok h }

@[simp] theorem statusOfText_value (status : WaitingForStatus) :
    statusOfText status.value = some status := by
  cases status <;> decide

theorem validateState_eq_ok {status : WaitingForStatus} {createdAt updatedAt : DateTime}
    {resolvedAt cancelledAt : Option DateTime} {resolutionNote : String}
    (h : ValidState status createdAt updatedAt resolvedAt cancelledAt resolutionNote) :
    validateState status createdAt updatedAt resolvedAt cancelledAt resolutionNote = .ok () := by
  unfold validateState
  rw [check_eq_ok h.ordered, check_eq_ok h.exclusive]
  cases status with
  | opened =>
    obtain ⟨hr, hc, hn⟩ := h.opened rfl
    dsimp only
    rw [check_eq_ok ⟨hr, hc⟩, check_eq_ok hn]
    rfl
  | resolved => exact check_eq_ok (h.resolved rfl)
  | cancelled =>
    obtain ⟨hc, hr, hn⟩ := h.cancelled rfl
    dsimp only
    rw [check_eq_ok ⟨hc, hr⟩, check_eq_ok hn]
    rfl

/-- **A stored snapshot is read back.** -/
@[simp] theorem itemOfRow_itemValues (item : WaitingFor) :
    itemOfRow (itemValues item) = some item := by
  simp only [itemOfRow, itemValues, statusOfText_value, DateTime.optionalInstant_toJson,
    DateTime.fromJson_toJson, Option.bind_eq_bind, Option.bind_some]
  split
  · rename_i e h
    exact absurd (h.symm.trans (validateState_eq_ok item.validState)) nofun
  · rfl

/-! ## Queries -/

/-- The two tables. -/
structure Database where
  items : List WaitingFor
  events : List WaitingForEvent
deriving DecidableEq

def Database.empty : Database := ⟨[], []⟩

/-- The condition of `list`: the workspace and the view, on texts. -/
def viewClause (workspace : Workspace) (view : WaitingForView) (now : DateTime) (row : ItemRow) :
    Bool :=
  let nowValue := now.isoformat
  row.tenantId = workspace.tenantId && row.workspaceId = workspace.workspaceId &&
    row.nameSpace = workspace.nameSpace &&
  match view with
  | .opened => row.status = WaitingForStatus.opened.value
  | .due =>
    row.status = WaitingForStatus.opened.value && row.nextReviewAt.any fun s => s ≤ nowValue
  | .overdue =>
    row.status = WaitingForStatus.opened.value && row.expectedBy.any fun s => s < nowValue
  | .attention =>
    row.status = WaitingForStatus.opened.value &&
      ((row.nextReviewAt.any fun s => s ≤ nowValue) || row.expectedBy.any fun s => s < nowValue)
  | .resolved => row.status = WaitingForStatus.resolved.value
  | .cancelled => row.status = WaitingForStatus.cancelled.value
  | .all => true

/-- The columns `list` orders by, a missing instant last. -/
def ItemRow.orderKey (row : ItemRow) : ℕ ×ₗ String ×ₗ ℕ ×ₗ String ×ₗ String ×ₗ String :=
  toLex (if row.nextReviewAt.isNone then 1 else 0, toLex (row.nextReviewAt.getD "",
    toLex (if row.expectedBy.isNone then 1 else 0, toLex (row.expectedBy.getD "",
      toLex (row.createdAt, row.id)))))

/-- `WaitingForPage`. -/
structure WaitingForPage where
  items : List WaitingFor
  view : WaitingForView
  limit : ℕ
  offset : ℕ
  hasMore : Bool
  generatedAt : DateTime

namespace Database

variable (db : Database)

/-- `list`: one row more than asked for tells whether there is a next page. -/
def list (workspaceKey : WorkspaceKey) (view : WaitingForView) (now : DateTime)
    (limit offset : ℕ) : Except RepositoryError WaitingForPage :=
  let workspace := canonicalWorkspace workspaceKey
  let rows := Query.select (viewClause workspace view now) (fun a b => a.orderKey ≤ b.orderKey)
    (limit + 1) offset (db.items.map itemValues)
  match (rows.take limit).mapM itemOfRow with
  | none => .error (.persistence "Waiting-For list failed")
  | some items => .ok {
      items, view, limit, offset
      hasMore := limit < rows.length
      generatedAt := now }

/-- `_scoped_row`. -/
def scopedRow (workspace : Workspace) (id : String) : Except RepositoryError WaitingFor :=
  match db.items.find? fun item => item.id = id with
  | none => .error (.notFound "Waiting-For item not found")
  | some item =>
    if item.workspaceKey = workspace then .ok item
    else .error (.workspaceMismatch "Waiting-For item belongs to another workspace")

/-- `get`. -/
def get (workspaceKey : WorkspaceKey) (id : String) : Except RepositoryError WaitingFor :=
  db.scopedRow (canonicalWorkspace workspaceKey) id

/-- `_insert_item`, in a table whose key is `id`. -/
def insertItem (item : WaitingFor) : Except RepositoryError Database :=
  if db.items.any fun row => row.id = item.id then
    .error (.conflict "Waiting-For item already exists")
  else .ok { db with items := db.items ++ [item] }

/-- `_insert_event`, in a table whose keys are `id` and `(waiting_for_id, sequence)`. -/
def insertEvent (event : WaitingForEvent) : Except RepositoryError Database :=
  if db.events.any fun row => row.id = event.id ||
      (row.waitingForId = event.waitingForId && row.sequence = event.sequence) then
    .error (.conflict "Waiting-For event conflict")
  else .ok { db with events := db.events ++ [event] }

/-- `create`. -/
def create (item : WaitingFor) (event : WaitingForEvent) : Except RepositoryError Database :=
  if item.workspaceKey ≠ event.workspaceKey ∨ event.waitingForId ≠ item.id ∨ item.revision ≠ 1 ∨
      event.sequence ≠ item.revision ∨ event.eventType ≠ .created then
    .error (.conflict "Created event does not match snapshot")
  else do
    let db ← db.insertItem item
    db.insertEvent event

/-- The `UPDATE` of `mutate`. -/
def updateItem (updated : WaitingFor) : Database :=
  { db with items := db.items.map fun row => if row.id = updated.id then updated else row }

/-- `mutate`. -/
def mutate (workspaceKey : WorkspaceKey) (updated : WaitingFor) (event : WaitingForEvent)
    (expectedRevision : Int) : Except RepositoryError Database :=
  let workspace := canonicalWorkspace workspaceKey
  if workspace ≠ updated.workspaceKey ∨ workspace ≠ event.workspaceKey then
    .error (.conflict "Mutation workspace does not match request")
  else if (updated.revision : Int) ≠ expectedRevision + 1 then
    .error (.conflict "Snapshot revision is invalid")
  else if event.waitingForId ≠ updated.id ∨ event.sequence ≠ updated.revision then
    .error (.conflict "Mutation event does not match snapshot")
  else do
    let current ← db.scopedRow workspace updated.id
    if (current.revision : Int) ≠ expectedRevision then
      .error (.conflict "Waiting-For revision conflict")
    else (db.updateItem updated).insertEvent event

/-- The events of one item, oldest first. -/
def eventsOf (id : String) : List WaitingForEvent :=
  db.events.filter fun event => event.waitingForId = id

variable {db} {db' : Database}

theorem scopedRow_ok {workspace : Workspace} {id : String} {item : WaitingFor}
    (h : db.scopedRow workspace id = .ok item) : item ∈ db.items ∧ item.id = id := by
  unfold scopedRow at h
  split at h
  · cases h
  · rename_i found hfound
    split at h
    · cases h
      exact ⟨List.mem_of_find?_eq_some hfound, by simpa using List.find?_some hfound⟩
    · cases h

theorem insertEvent_ok {event : WaitingForEvent} (h : db.insertEvent event = .ok db') :
    (∀ row ∈ db.events, row.waitingForId = event.waitingForId → row.sequence ≠ event.sequence) ∧
      db' = { db with events := db.events ++ [event] } := by
  unfold insertEvent at h
  split at h
  · cases h
  · rename_i hnone
    cases h
    simp only [List.any_eq_true, not_exists, not_and, Bool.or_eq_true, Bool.and_eq_true,
      decide_eq_true_eq, not_or] at hnone
    exact ⟨fun row hrow hid => (hnone row hrow).2 hid, rfl⟩

/-- **A committed `create`**: the identifier was free, and both rows are there. -/
theorem create_ok {item : WaitingFor} {event : WaitingForEvent}
    (h : db.create item event = .ok db') :
    (∀ row ∈ db.items, row.id ≠ item.id) ∧ event.waitingForId = item.id ∧ item.revision = 1 ∧
      event.sequence = 1 ∧ event.eventType = .created ∧
      db' = ⟨db.items ++ [item], db.events ++ [event]⟩ := by
  unfold create at h
  split at h
  · cases h
  · rename_i hmatch
    simp only [ne_eq, not_or, not_not] at hmatch
    obtain ⟨-, hid, hrev, hseq, htype⟩ := hmatch
    obtain ⟨db₁, h₁, h⟩ := Except.of_bind_ok h
    unfold insertItem at h₁
    split at h₁
    · cases h₁
    · rename_i hfree
      cases h₁
      obtain ⟨-, rfl⟩ := insertEvent_ok h
      simp only [List.any_eq_true, not_exists, not_and, decide_eq_true_eq] at hfree
      exact ⟨hfree, hid, hrev, hseq.trans hrev, htype, rfl⟩

/-- **A committed `mutate`**: the stored revision was the expected one, and the snapshot and its
event are there. -/
theorem mutate_ok {workspaceKey : WorkspaceKey} {updated : WaitingFor} {event : WaitingForEvent}
    {expectedRevision : Int}
    (h : db.mutate workspaceKey updated event expectedRevision = .ok db') :
    ∃ current ∈ db.items, current.id = updated.id ∧ (current.revision : Int) = expectedRevision ∧
      (updated.revision : Int) = expectedRevision + 1 ∧ event.waitingForId = updated.id ∧
      event.sequence = updated.revision ∧
      (∀ row ∈ db.events, row.waitingForId = event.waitingForId →
        row.sequence ≠ event.sequence) ∧
      db' = { db.updateItem updated with events := db.events ++ [event] } := by
  unfold mutate at h
  simp only at h
  split at h
  · cases h
  · split at h
    · cases h
    · rename_i hrev
      split at h
      · cases h
      · rename_i hmatch
        simp only [ne_eq, not_or, not_not] at hrev hmatch
        obtain ⟨current, hcur, h⟩ := Except.of_bind_ok h
        obtain ⟨hmem, hid⟩ := scopedRow_ok hcur
        split at h
        · cases h
        · rename_i hexp
          obtain ⟨hfree, rfl⟩ := insertEvent_ok h
          exact ⟨current, hmem, hid, not_not.mp hexp, hrev, hmatch.1, hmatch.2, hfree, rfl⟩

end Database

end WaitingFors

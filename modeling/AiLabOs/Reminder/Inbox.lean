import AiLabOs.Base.Scan
import AiLabOs.Base.Zone
import AiLabOs.Reminder.Management
import AiLabOs.Reminder.Tables
import AiLabOs.UserTask.Filters

/-!
# Reminders: the inbox

A page of reminders with their tasks, their jobs and their last occurrences. The reminders of a time
scope are fetched in batches and in the order of their instants; those whose task the workspace
cannot see, or whose status is not asked for, are passed over, and the loop stops with one row more
than the page holds.

## Main definitions

* `timeBounds`: the instants of a time scope
* `Database.listPage`: a batch of reminders
* `shownItem`: what is shown of a reminder, if it is shown
* `listInbox`: one page of the inbox
* `SeesTask`, `HasStatus`, `InboxArgs.Asks`: which reminders are asked for
* `ShownAs`: what an item says of its reminder
* `fullList`: all reminders that are asked for, in order

## Main results

* `inbox_law`: a page is a stretch of the whole list, however the batches fall
-/

namespace Reminders

open UserTasks

inductive ReminderInboxStatus where
  | scheduled
  | retrying
  | triggered
  | failed
  | cancelled
deriving DecidableEq, Repr

/-- The text of a status. -/
def ReminderInboxStatus.value : ReminderInboxStatus → String
  | .scheduled => "scheduled"
  | .retrying => "retrying"
  | .triggered => "triggered"
  | .failed => "failed"
  | .cancelled => "cancelled"

/-- The statuses there are. -/
def ReminderInboxStatus.all : List ReminderInboxStatus :=
  [.scheduled, .retrying, .triggered, .failed, .cancelled]

/-- `ReminderInboxStatus(text)`. -/
def ReminderInboxStatus.ofText (text : String) : Option ReminderInboxStatus :=
  all.find? fun status => status.value = text

inductive ReminderInboxTimeScope where
  | today
  | upcoming
deriving DecidableEq, Repr

inductive ReminderInboxView where
  | pending
deriving DecidableEq, Repr

/-- `ReminderInboxItem`. -/
structure ReminderInboxItem where
  reminderId : String
  taskId : String
  taskTitle : String
  status : ReminderInboxStatus
  scheduledFor : DateTime × Bool
  timezone : String
  schedulerJobId : Option String
  schedulerStatus : Option Scheduler.JobStatus
  occurrenceId : Option String
  occurrenceStatus : Option ReminderOccurrenceStatus
  triggeredAt : Option DateTime
  lastFailureCode : Option String

/-- `ReminderInboxPage`. -/
structure ReminderInboxPage where
  items : List ReminderInboxItem
  limit : Int
  offset : Int
  count : ℕ
  hasMore : Bool
  filterStatuses : List String
  filterTimeScope : Option ReminderInboxTimeScope
  filterView : Option ReminderInboxView

/-- The arguments of `list`. A set of statuses that is empty counts as none. -/
structure InboxArgs where
  workspaceKey : WorkspaceKey
  statuses : ReminderInboxStatus → Bool := fun _ => false
  timeScope : Option ReminderInboxTimeScope := none
  view : Option ReminderInboxView := none
  limit : Int := 20
  offset : Int := 0
  traceId : String := ""

namespace InboxArgs

variable (a : InboxArgs)

/-- The statuses that are asked for: the view `pending` has its own. -/
def wantedStatuses (status : ReminderInboxStatus) : Bool :=
  match a.view with
  | some .pending => status = .scheduled || status = .retrying
  | none => a.statuses status

/-- The time scope that is asked for. -/
def wantedScope : Option ReminderInboxTimeScope :=
  match a.view with
  | some .pending => some .upcoming
  | none => a.timeScope

/-- `statuses and item_status not in statuses`. -/
def passesOver (status : ReminderInboxStatus) : Bool :=
  ReminderInboxStatus.all.any a.wantedStatuses && !a.wantedStatuses status

end InboxArgs

/-! ## The code -/

/-- `_time_bounds`, at the instant `now`. A sum that leaves the calendar raises. -/
def timeBounds (zone : Zone) (now : DateTime) :
    Option ReminderInboxTimeScope → Option (Option DateTime × Option DateTime)
  | some .upcoming => some (some now, none)
  | some .today => do
    let localNow ← zone.fromUtc now
    let start ← localNow.1.atMinute 0 0
    let startUtc ← zone.toUtc start false
    let next ← start.plus oneDay
    let endUtc ← zone.toUtc next false
    return (some startUtc, some endUtc)
  | none => some (none, none)

/-- The `WHERE` clause of `list_page`. -/
def boundsClause (remindFrom remindTo : Option DateTime) (row : Reminder) : Bool :=
  (remindFrom.all fun t => t.isoformat ≤ row.remindAt.isoformat) &&
    remindTo.all fun t => row.remindAt.isoformat < t.isoformat

/-- The columns `list_page` orders by. -/
def Reminder.remindKey (row : Reminder) : String ×ₗ String := toLex (row.remindAt.isoformat, row.id)

/-- `list_page`. -/
def Database.listPage (db : Database) (remindFrom remindTo : Option DateTime) (limit offset : ℕ) :
    List Reminder :=
  Query.select (boundsClause remindFrom remindTo) (fun a b => a.remindKey ≤ b.remindKey) limit
    offset db.reminders

namespace World

variable (w : World)

/-- `UserTaskService.find_visible`. -/
def findVisible (workspaceKey : WorkspaceKey) (taskId traceId : String) :
    Except Exn (Option UserTask) :=
  match w.tasks.get workspaceKey taskId with
  | .ok task => .ok (some task)
  | .error (.notFound _) => .ok none
  | .error e => .error (raiseTaskFailure (.ofTask e) "get" traceId)

/-- The job of a reminder: an empty identifier is none. -/
def jobOf (reminder : Reminder) : Option Scheduler.Job :=
  reminder.jobId.bind w.scheduler.db.getJob

/-- `ReminderService.list_occurrences`, which looks for the reminder first. -/
def occurrencesOf (reminderId traceId : String) : Except Exn (List ReminderOccurrence) :=
  match w.reminders.get reminderId with
  | .error e => .error (raiseFailure e "get" traceId reminderId "")
  | .ok _ => .ok (w.reminders.listOccurrences reminderId)

end World

/-- The item of a status view. -/
def ReminderStatusView.item (view : ReminderStatusView) (status : ReminderInboxStatus) :
    ReminderInboxItem where
  reminderId := view.reminderId
  taskId := view.taskId
  taskTitle := view.taskTitle
  status := status
  scheduledFor := view.scheduledFor
  timezone := view.timezone
  schedulerJobId := view.schedulerJobId
  schedulerStatus := view.schedulerStatus
  occurrenceId := view.occurrenceId
  occurrenceStatus := view.occurrenceStatus
  triggeredAt := view.triggeredAt
  lastFailureCode := view.lastFailure.map fun failure => failure.code

/-- The body of the loop, up to the `continue` statements: what is shown of a reminder. -/
def shownItem (env : Environment) (w : World) (a : InboxArgs) (reminder : Reminder) :
    Except Exn (Option ReminderInboxItem) :=
  match w.findVisible a.workspaceKey reminder.userTaskId a.traceId with
  | .error e => .error e
  | .ok none => .ok none
  | .ok (some task) =>
    match w.occurrencesOf reminder.id a.traceId with
    | .error e => .error e
    | .ok occurrences =>
      match buildStatusView env reminder task (w.jobOf reminder) occurrences.getLast? with
      | .error e => .error e
      | .ok view =>
        match ReminderInboxStatus.ofText view.status with
        | none => .error (.invalid (view.status ++ " is not a valid ReminderInboxStatus"))
        | some status => .ok (if a.passesOver status then none else some (view.item status))

/-- The counters of the loop. -/
structure InboxScan where
  matchingSeen : ℕ := 0
  items : List ReminderInboxItem := []

/-- One reminder of a batch: the first `offset` that match are only counted. -/
def inboxStep (env : Environment) (w : World) (a : InboxArgs) (s : InboxScan)
    (reminder : Reminder) : Except Exn InboxScan :=
  match shownItem env w a reminder with
  | .error e => .error e
  | .ok none => .ok s
  | .ok (some item) =>
    if (s.matchingSeen : Int) < a.offset then .ok { s with matchingSeen := s.matchingSeen + 1 }
    else .ok ⟨s.matchingSeen + 1, s.items ++ [item]⟩

/-- `len(items) > limit`. -/
def InboxScan.enough (limit : Int) (s : InboxScan) : Bool := limit < s.items.length

/-- `_SCAN_BATCH_SIZE`. -/
def scanBatchSize : ℕ := 100

/-- The page of what the loop found. -/
def inboxPage (a : InboxArgs) (s : InboxScan) : Except Exn ReminderInboxPage :=
  if a.limit < 1 ∨ 100 < a.limit then .error (.invalid "limit out of range")
  else if a.offset < 0 then .error (.invalid "offset out of range")
  else
    let items := s.items.take a.limit.toNat
    .ok {
      items
      limit := a.limit
      offset := a.offset
      count := items.length
      hasMore := s.enough a.limit
      filterStatuses :=
        ((ReminderInboxStatus.all.filter a.wantedStatuses).map (·.value)).insertionSort (· ≤ ·)
      filterTimeScope := a.wantedScope
      filterView := a.view }

/-- `ReminderInboxService.list`, at the instant `now`. -/
def listInbox (env : Environment) (w : World) (zone : Zone) (now : DateTime) (a : InboxArgs) :
    Except Exn ReminderInboxPage :=
  match timeBounds zone now a.wantedScope with
  | none => .error (.other "date value out of range")
  | some (remindFrom, remindTo) =>
    match Scan.batches (w.reminders.listPage remindFrom remindTo scanBatchSize) scanBatchSize
        (inboxStep env w a) (InboxScan.enough a.limit) (w.reminders.reminders.length + 1) 0 {} with
    | .error e => .error e
    | .ok s => inboxPage a s

/-! ## What is asked for -/

/-- The reminder is due within the bounds. -/
def inScope (remindFrom remindTo : Option DateTime) (row : Reminder) : Bool :=
  (remindFrom.all fun t => t ≤ row.remindAt) && remindTo.all fun t => row.remindAt < t

/-- The order of storage: by the instant, then by the identifier. -/
def storageOrder (a b : Reminder) : Prop := toLex (a.remindAt, a.id) ≤ toLex (b.remindAt, b.id)

instance : DecidableRel storageOrder := fun a b =>
  inferInstanceAs (Decidable (toLex (a.remindAt, a.id) ≤ toLex (b.remindAt, b.id)))

/-- The reminders of a time scope in the order of storage. -/
def scopedReminders (db : Database) (remindFrom remindTo : Option DateTime) : List Reminder :=
  (db.reminders.filter (inScope remindFrom remindTo)).insertionSort storageOrder

/-- The task of the reminder is stored, and its metadata names the workspace. -/
def SeesTask (w : World) (workspaceKey : WorkspaceKey) (reminder : Reminder) (task : UserTask) :
    Prop :=
  task ∈ w.tasks.tasks ∧ task.id = reminder.userTaskId ∧ UserTasks.Seen workspaceKey task

/-- The order of occurrences: by the planned instant, then by the identifier. -/
def plannedOrder (a b : ReminderOccurrence) : Prop :=
  toLex (a.scheduledAt, a.id) ≤ toLex (b.scheduledAt, b.id)

instance : DecidableRel plannedOrder := fun a b =>
  inferInstanceAs (Decidable (toLex (a.scheduledAt, a.id) ≤ toLex (b.scheduledAt, b.id)))

/-- The occurrence of a reminder with the latest planned instant. -/
def World.latestOccurrence (w : World) (reminder : Reminder) : Option ReminderOccurrence :=
  ((w.reminders.occurrences.filter fun occ => occ.reminderId = reminder.id).insertionSort
    plannedOrder).getLast?

section Status

variable (reminder : Reminder) (job : Option Scheduler.Job)
variable (occurrence : Option ReminderOccurrence)

/-- The reminder was delivered. -/
def Delivered : Prop :=
  reminder.status = .triggered ∨ ∃ occ ∈ occurrence, occ.status = .triggered

/-- A cancellation or a new schedule was begun and failed. -/
def Stuck : Prop :=
  (reminder.status = .pendingCancel ∨ reminder.status = .pendingReschedule) ∧
    reminder.lastFailure ≠ none

/-- The job waits for another attempt. -/
def Retries : Prop := ∃ j ∈ job, j.status = .retrying

/-- The reminder or its job has failed. -/
def HasFailed : Prop := reminder.status = .failed ∨ ∃ j ∈ job, j.status = .failed

/-- **The status of a reminder** with its job and its latest occurrence: what comes first in the
order cancelled, triggered, a change that failed, retrying, failed; and scheduled otherwise. -/
def HasStatus : ReminderInboxStatus → Prop
  | .cancelled => reminder.status = .cancelled
  | .triggered => reminder.status ≠ .cancelled ∧ Delivered reminder occurrence
  | .retrying => reminder.status ≠ .cancelled ∧ ¬Delivered reminder occurrence ∧
      ¬Stuck reminder ∧ Retries job
  | .failed => reminder.status ≠ .cancelled ∧ ¬Delivered reminder occurrence ∧
      (Stuck reminder ∨ ¬Retries job ∧ HasFailed reminder job)
  | .scheduled => reminder.status ≠ .cancelled ∧ ¬Delivered reminder occurrence ∧
      ¬Stuck reminder ∧ ¬Retries job ∧ ¬HasFailed reminder job

end Status

/-- **The statuses that are asked for**: the view of what is pending has two, a set has its members,
and no set has all. -/
def InboxArgs.Asks (a : InboxArgs) (status : ReminderInboxStatus) : Prop :=
  match a.view with
  | some .pending => status = .scheduled ∨ status = .retrying
  | none => a.statuses status = true ∨ ∀ other, a.statuses other = false

/-- **The view**: the workspace sees the task of the reminder, and its status is asked for. -/
def InView (w : World) (a : InboxArgs) (reminder : Reminder) : Prop :=
  (∃ task, SeesTask w a.workspaceKey reminder task) ∧
    ∃ status, HasStatus reminder (w.jobOf reminder) (w.latestOccurrence reminder) status ∧
      a.Asks status

open Classical in
/-- **The whole list**: the reminders of the time scope that are in view, in the order of
storage. -/
noncomputable def fullList (w : World) (a : InboxArgs) (remindFrom remindTo : Option DateTime) :
    List Reminder :=
  (scopedReminders w.reminders remindFrom remindTo).filter fun reminder => InView w a reminder

/-- **What an item says** of its reminder: the task, the status, the planned instant in the zone of
the reminder, its job, its latest occurrence, and the first failure of these. -/
structure ShownAs (env : Environment) (w : World) (a : InboxArgs) (reminder : Reminder)
    (item : ReminderInboxItem) : Prop where
  reminderId : item.reminderId = reminder.id
  task : ∃ task, SeesTask w a.workspaceKey reminder task ∧ item.taskId = task.id ∧
    item.taskTitle = task.title
  status : HasStatus reminder (w.jobOf reminder) (w.latestOccurrence reminder) item.status
  timezone : item.timezone = reminder.timezone
  scheduledFor : ∃ zone, env.zone reminder.timezone = some zone ∧
    zone.fromUtc reminder.remindAt = some item.scheduledFor
  schedulerJobId : item.schedulerJobId = reminder.schedulerJobId
  schedulerStatus : item.schedulerStatus = (w.jobOf reminder).map (·.status)
  occurrenceId : item.occurrenceId = (w.latestOccurrence reminder).map (·.id)
  occurrenceStatus : item.occurrenceStatus = (w.latestOccurrence reminder).map (·.status)
  triggeredAt : item.triggeredAt = (w.latestOccurrence reminder).bind (·.triggeredAt)
  lastFailureCode : item.lastFailureCode =
    (((w.latestOccurrence reminder).bind (·.failure)).or
      (reminder.lastFailure.or ((w.jobOf reminder).bind (·.lastError)))).map (·.code)

/-- **A page is a stretch of the whole list**: its items show the reminders from `offset` on, at
most `limit`; and it says truly whether another one follows. -/
structure IsPage (env : Environment) (w : World) (a : InboxArgs) (full : List Reminder)
    (page : ReminderInboxPage) : Prop where
  items : List.Forall₂ (ShownAs env w a) (Query.page a.limit.toNat a.offset.toNat full) page.items
  count : page.count = page.items.length
  hasMore : page.hasMore = true ↔ a.offset + a.limit < full.length

/-- **The lookups for a reminder succeed**: the default workspace reads a task only if its metadata
is JSON to the database, and the planned instant of a reminder whose task is seen has a wall time in
its zone. -/
structure LookupsSucceed (env : Environment) (w : World) (a : InboxArgs) (reminder : Reminder) :
    Prop where
  readable : workspaceIdentity a.workspaceKey = .default →
    ∀ task ∈ w.tasks.tasks, task.id = reminder.userTaskId → task.metadata.jsonValid = true
  scheduledFor : ∀ task, SeesTask w a.workspaceKey reminder task →
    ∃ zone, env.zone reminder.timezone = some zone ∧
      (zone.fromUtc reminder.remindAt).isSome = true

section Batches

variable {db : Database} {remindFrom remindTo : Option DateTime}

theorem boundsClause_eq (row : Reminder) :
    boundsClause remindFrom remindTo row = inScope remindFrom remindTo row := by
  simp only [boundsClause, inScope, DateTime.isoformat_le, DateTime.isoformat_lt]

theorem remindKey_le {a b : Reminder} : a.remindKey ≤ b.remindKey ↔ storageOrder a b := by
  rw [Reminder.remindKey, Reminder.remindKey, storageOrder, Prod.Lex.toLex_le_toLex,
    Prod.Lex.toLex_le_toLex, DateTime.isoformat_lt]
  dsimp only
  rw [isoformat_injective.eq_iff]

/-- **A batch** is a stretch of the reminders in scope: the texts compare as the instants do. -/
theorem listPage_eq (limit offset : ℕ) : db.listPage remindFrom remindTo limit offset =
    Query.page limit offset (scopedReminders db remindFrom remindTo) := by
  rw [Database.listPage, Query.select, scopedReminders]
  congr 1
  rw [List.filter_congr fun row _ => boundsClause_eq row]
  exact Query.insertionSort_congr (fun _ _ => remindKey_le) _

theorem mem_scopedReminders {reminder : Reminder}
    (h : reminder ∈ scopedReminders db remindFrom remindTo) : reminder ∈ db.reminders :=
  (List.mem_filter.mp ((List.perm_insertionSort ..).mem_iff.mp h)).1

end Batches

section Lookups

variable {env : Environment} {w : World} {a : InboxArgs} {reminder : Reminder}
variable {workspaceKey : WorkspaceKey} {traceId : String}

theorem findVisible_some {task : UserTask}
    (h : w.findVisible workspaceKey reminder.userTaskId traceId = .ok (some task)) :
    SeesTask w workspaceKey reminder task := by
  unfold World.findVisible at h
  split at h
  · rename_i found hget
    obtain rfl := Option.some.inj (Except.ok.inj h)
    obtain ⟨_, -, hget⟩ := Except.of_bind_ok hget
    split at hget
    · cases hget
    · rename_i row hvisible
      obtain rfl := Except.ok.inj hget
      obtain ⟨hmem, hid, hseen⟩ := visible_some hvisible
      exact ⟨hmem, hid, workspacePredicate_iff.mp hseen⟩
  · cases h
  · cases h

theorem findVisible_none
    (h : w.findVisible workspaceKey reminder.userTaskId traceId = .ok none) (task : UserTask) :
    ¬SeesTask w workspaceKey reminder task := by
  rintro ⟨hmem, hid, hseen⟩
  unfold World.findVisible at h
  split at h
  · cases h
  · rename_i message hget
    unfold UserTasks.Database.get at hget
    -- a lookup that is refused raises, and one that finds nothing has no row to see
    cases hread : w.tasks.ensureReadable workspaceKey (some reminder.userTaskId) with
    | error e =>
      rw [hread] at hget
      unfold UserTasks.Database.ensureReadable UserTasks.Database.ensureValidMetadata at hread
      split at hread
      · split at hread
        · cases hread
          cases hget
        · cases hread
      · cases hread
    | ok =>
      have hnone : w.tasks.visible workspaceKey reminder.userTaskId ≠ none := by
        unfold UserTasks.Database.visible
        rw [ne_eq, List.find?_eq_none]
        intro hall
        exact hall task hmem (by simp [hid, workspacePredicate_iff.mpr hseen])
      obtain ⟨row, hrow⟩ := Option.ne_none_iff_exists'.mp hnone
      rw [hread, hrow] at hget
      cases hget
  · cases h

theorem findVisible_ok (traceId : String) (hread : workspaceIdentity workspaceKey = .default →
      ∀ task ∈ w.tasks.tasks, task.id = reminder.userTaskId → task.metadata.jsonValid = true) :
    ∃ task, w.findVisible workspaceKey reminder.userTaskId traceId = .ok task := by
  have hreadable : w.tasks.ensureReadable workspaceKey (some reminder.userTaskId) = .ok () := by
    unfold UserTasks.Database.ensureReadable UserTasks.Database.ensureValidMetadata
    split
    · rename_i hdefault
      rw [if_neg]
      rintro hany
      obtain ⟨task, hmem, hinvalid⟩ := List.any_eq_true.mp hany
      rw [Bool.and_eq_true] at hinvalid
      have hvalid := hread (of_decide_eq_true hdefault) task hmem (by simpa using hinvalid.2)
      simp [hvalid] at hinvalid
    · rfl
  unfold World.findVisible UserTasks.Database.get
  rw [hreadable]
  cases w.tasks.visible workspaceKey reminder.userTaskId with
  | none => exact ⟨none, rfl⟩
  | some task => exact ⟨some task, rfl⟩

/-- The occurrences that the code lists end with the latest one. -/
theorem listOccurrences_getLast? :
    (w.reminders.listOccurrences reminder.id).getLast? = w.latestOccurrence reminder := by
  have horder : ∀ a b : ReminderOccurrence,
      toLex (a.scheduledAt.isoformat, a.id) ≤ toLex (b.scheduledAt.isoformat, b.id) ↔
        plannedOrder a b := by
    intro a b
    rw [plannedOrder, Prod.Lex.toLex_le_toLex, Prod.Lex.toLex_le_toLex, DateTime.isoformat_lt]
    dsimp only
    rw [isoformat_injective.eq_iff]
  rw [Database.listOccurrences, World.latestOccurrence, Query.insertionSort_congr horder]

theorem occurrencesOf_ok {occurrences : List ReminderOccurrence}
    (h : w.occurrencesOf reminder.id traceId = .ok occurrences) :
    occurrences.getLast? = w.latestOccurrence reminder := by
  unfold World.occurrencesOf at h
  split at h
  · cases h
  · rw [← Except.ok.inj h, listOccurrences_getLast?]

theorem occurrencesOf_exists (traceId : String) (hmem : reminder ∈ w.reminders.reminders) :
    ∃ occurrences, w.occurrencesOf reminder.id traceId = .ok occurrences := by
  unfold World.occurrencesOf Database.get
  rcases Option.eq_none_or_eq_some (w.reminders.find reminder.id) with hfind | ⟨row, hfind⟩
  · simpa using List.find?_eq_none.mp hfind reminder hmem
  · rw [hfind]
    exact ⟨_, rfl⟩

/-- **The text of the aggregation** names the status. -/
theorem aggregateReminderStatus_hasStatus (reminder : Reminder) (job : Option Scheduler.Job)
    (occurrence : Option ReminderOccurrence) :
    ∃ status, ReminderInboxStatus.ofText (aggregateReminderStatus reminder job occurrence) =
      some status ∧ HasStatus reminder job occurrence status := by
  have hdelivered : (reminder.status = .triggered ||
      occurrence.any (·.status = .triggered)) = true ↔ Delivered reminder occurrence := by
    simp [Delivered, Option.any_eq_true]
  have hstuck : ((reminder.status = .pendingCancel || reminder.status = .pendingReschedule) &&
      reminder.lastFailure.isSome) = true ↔ Stuck reminder := by
    simp [Stuck, Option.isSome_iff_ne_none]
  have hretries : job.any (·.status = .retrying) = true ↔ Retries job := by
    simp [Retries, Option.any_eq_true]
  have hfailed : (reminder.status = .failed || job.any (·.status = .failed)) = true ↔
      HasFailed reminder job := by
    simp [HasFailed, Option.any_eq_true]
  -- the code tests the cases one after the other, each where the earlier ones failed
  unfold aggregateReminderStatus
  split
  · rename_i hcancelled
    exact ⟨.cancelled, by decide, hcancelled⟩
  rename_i hcancelled
  split
  · rename_i hd
    exact ⟨.triggered, by decide, hcancelled, hdelivered.mp hd⟩
  rename_i hd
  split
  · rename_i hs
    exact ⟨.failed, by decide, hcancelled, mt hdelivered.mpr hd, .inl (hstuck.mp hs)⟩
  rename_i hs
  split
  · rename_i hr
    exact ⟨.retrying, by decide, hcancelled, mt hdelivered.mpr hd, mt hstuck.mpr hs,
      hretries.mp hr⟩
  rename_i hr
  split
  · rename_i hf
    exact ⟨.failed, by decide, hcancelled, mt hdelivered.mpr hd,
      .inr ⟨mt hretries.mpr hr, hfailed.mp hf⟩⟩
  · rename_i hf
    exact ⟨.scheduled, by decide, hcancelled, mt hdelivered.mpr hd, mt hstuck.mpr hs,
      mt hretries.mpr hr, mt hfailed.mpr hf⟩

/-- A reminder has one status. -/
theorem HasStatus.unique {job : Option Scheduler.Job} {occurrence : Option ReminderOccurrence}
    {status status' : ReminderInboxStatus} (h : HasStatus reminder job occurrence status)
    (h' : HasStatus reminder job occurrence status') : status = status' := by
  cases status <;> cases status' <;> simp only [HasStatus] at h h' <;> first | rfl | tauto

theorem passesOver_iff (status : ReminderInboxStatus) :
    a.passesOver status = true ↔ ¬a.Asks status := by
  unfold InboxArgs.passesOver InboxArgs.Asks InboxArgs.wantedStatuses
  cases a.view with
  | some view =>
    cases view
    cases status <;> simp [ReminderInboxStatus.all]
  | none =>
    have hall : ∀ other, other ∈ ReminderInboxStatus.all := by
      intro other
      cases other <;> decide
    rw [Bool.and_eq_true, List.any_eq_true, Bool.not_eq_true']
    dsimp only
    constructor
    · rintro ⟨⟨other, -, hother⟩, hstatus⟩ (h | h)
      · rw [hstatus] at h
        cases h
      · rw [h other] at hother
        cases hother
    · intro h
      rw [not_or, not_forall] at h
      obtain ⟨hstatus, other, hother⟩ := h
      exact ⟨⟨other, hall other, by simpa using hother⟩, by simpa using hstatus⟩

theorem inZone_ok {instant : DateTime} {name : String} {reading : DateTime × Bool}
    (h : inZone env instant name = .ok reading) :
    ∃ zone, env.zone name = some zone ∧ zone.fromUtc instant = some reading := by
  unfold inZone at h
  split at h
  · cases h
  · rename_i zone hzone
    split at h
    · cases h
    · rename_i hreading
      exact ⟨zone, hzone, hreading.trans (congrArg some (Except.ok.inj h))⟩

/-- **What is shown of a reminder** that is in view, and of no other. -/
theorem shownItem_cases {shown : Option ReminderInboxItem}
    (h : shownItem env w a reminder = .ok shown) :
    shown = none ∧ ¬InView w a reminder ∨
      ∃ item, shown = some item ∧ InView w a reminder ∧ ShownAs env w a reminder item := by
  unfold shownItem at h
  split at h
  · cases h
  · rename_i hvisible
    obtain rfl := Except.ok.inj h
    exact .inl ⟨rfl, fun hview => hview.1.elim (findVisible_none hvisible)⟩
  · rename_i task hvisible
    have hsees := findVisible_some hvisible
    split at h
    · cases h
    · rename_i occurrences hoccurrences
      obtain ⟨status, htext, hstatus⟩ := aggregateReminderStatus_hasStatus reminder
        (w.jobOf reminder) (w.latestOccurrence reminder)
      rw [occurrencesOf_ok hoccurrences] at h
      unfold buildStatusView at h
      -- the conversion to the zone of the reminder may overflow
      cases hread : inZone env reminder.remindAt reminder.timezone with
      | error e =>
        rw [hread] at h
        cases h
      | ok reading =>
        simp only [hread, bind, Except.bind, pure, Except.pure, htext] at h
        obtain rfl := Except.ok.inj h
        by_cases hasks : a.Asks status
        · refine .inr ⟨_, if_neg fun hover => (passesOver_iff status).mp hover hasks,
            ⟨⟨task, hsees⟩, status, hstatus, hasks⟩, ?_⟩
          exact {
            reminderId := rfl
            task := ⟨task, hsees, rfl, rfl⟩
            status := hstatus
            timezone := rfl
            scheduledFor := inZone_ok hread
            schedulerJobId := rfl
            schedulerStatus := rfl
            occurrenceId := rfl
            occurrenceStatus := rfl
            triggeredAt := rfl
            lastFailureCode := rfl }
        · refine .inl ⟨if_pos ((passesOver_iff status).mpr hasks), ?_⟩
          rintro ⟨-, status', hstatus', hasks'⟩
          exact hasks (hstatus.unique hstatus' ▸ hasks')

/-- **The lookups for a stored reminder** fail only where its task cannot be read, or where its
planned instant has no wall time in its zone. -/
theorem shownItem_exists (hmem : reminder ∈ w.reminders.reminders)
    (h : LookupsSucceed env w a reminder) : ∃ shown, shownItem env w a reminder = .ok shown := by
  obtain ⟨found, hfound⟩ := findVisible_ok a.traceId h.readable
  unfold shownItem
  rw [hfound]
  cases found with
  | none => exact ⟨none, rfl⟩
  | some task =>
    obtain ⟨zone, hzone, hreading⟩ := h.scheduledFor task (findVisible_some hfound)
    obtain ⟨reading, hreading⟩ := Option.isSome_iff_exists.mp hreading
    obtain ⟨occurrences, hoccurrences⟩ := occurrencesOf_exists a.traceId hmem
    obtain ⟨status, htext, -⟩ := aggregateReminderStatus_hasStatus reminder
      (w.jobOf reminder) occurrences.getLast?
    have hread : inZone env reminder.remindAt reminder.timezone = .ok reading := by
      unfold inZone
      rw [hzone]
      dsimp only
      rw [hreading]
    simp only [hoccurrences, buildStatusView, hread, bind, Except.bind, pure, Except.pure, htext]
    exact ⟨_, rfl⟩

end Lookups

/-! ## The loop -/

section Loop

variable {env : Environment} {w : World} {a : InboxArgs}

/-- The counters after some reminders were in view. -/
structure Counted (env : Environment) (w : World) (a : InboxArgs) (matched : List Reminder)
    (s : InboxScan) : Prop where
  seen : s.matchingSeen = matched.length
  items : List.Forall₂ (ShownAs env w a) (matched.drop a.offset.toNat) s.items

open Classical in
/-- **One reminder**: it is counted if it is in view. -/
theorem inboxStep_counted {matched : List Reminder} {s s' : InboxScan} {reminder : Reminder}
    (hs : Counted env w a matched s) (h : inboxStep env w a s reminder = .ok s') :
    Counted env w a (matched ++ [reminder].filter fun reminder => InView w a reminder) s' := by
  unfold inboxStep at h
  split at h
  · cases h
  · rename_i hshown
    obtain rfl := Except.ok.inj h
    obtain ⟨-, hview⟩ | ⟨item, hitem, -⟩ := shownItem_cases hshown
    · simpa [hview] using hs
    · cases hitem
  · rename_i item hshown
    obtain ⟨hnone, -⟩ | ⟨item', hitem, hview, hsays⟩ := shownItem_cases hshown
    · cases hnone
    obtain rfl := Option.some.inj hitem
    have hseen := hs.seen
    rw [List.filter_cons_of_pos (by simpa using hview), List.filter_nil]
    split at h
    · rename_i hskip
      obtain rfl := Except.ok.inj h
      refine ⟨by simp [hseen], ?_⟩
      have hitems := hs.items
      rw [List.drop_eq_nil_of_le (by omega)] at hitems
      rwa [List.drop_eq_nil_of_le (by simp; omega)]
    · rename_i hkeep
      obtain rfl := Except.ok.inj h
      refine ⟨by simp [hseen], ?_⟩
      rw [List.drop_append_of_le_length (by omega)]
      exact List.rel_append hs.items (.cons hsays .nil)

open Classical in
/-- **The rows of a scan** are all counted, or those of a start of them that is enough. -/
theorem rows_counted {rows : List Reminder} {matched : List Reminder} {s s' : InboxScan}
    (hs : Counted env w a matched s)
    (h : Scan.rows (inboxStep env w a) (InboxScan.enough a.limit) rows s = .ok s') :
    ∃ matched' rest, matched ++ rows.filter (fun reminder => InView w a reminder) =
      matched' ++ rest ∧ Counted env w a matched' s' ∧ (rest = [] ∨ s'.enough a.limit = true) := by
  induction rows generalizing matched s with
  | nil =>
    obtain rfl := Except.ok.inj h
    exact ⟨matched, [], by simp, hs, .inl rfl⟩
  | cons reminder rows ih =>
    unfold Scan.rows at h
    split at h
    · cases h
    · rename_i t hstep
      have ht := inboxStep_counted hs hstep
      have hfull : matched ++ (reminder :: rows).filter (fun reminder => InView w a reminder) =
          (matched ++ [reminder].filter fun reminder => InView w a reminder) ++
            rows.filter fun reminder => InView w a reminder := by
        rw [List.append_assoc, ← List.filter_append, List.singleton_append]
      rw [hfull]
      split at h
      · rename_i henough
        obtain rfl := Except.ok.inj h
        exact ⟨_, _, rfl, ht, .inr henough⟩
      · exact ih ht h

/-- A scan whose lookups succeed succeeds. -/
theorem rows_succeeds {rows : List Reminder} (s : InboxScan)
    (h : ∀ reminder ∈ rows, ∃ shown, shownItem env w a reminder = .ok shown) :
    ∃ s', Scan.rows (inboxStep env w a) (InboxScan.enough a.limit) rows s = .ok s' := by
  induction rows generalizing s with
  | nil => exact ⟨s, rfl⟩
  | cons reminder rows ih =>
    rw [List.forall_mem_cons] at h
    obtain ⟨⟨shown, hshown⟩, hrest⟩ := h
    obtain ⟨t, ht⟩ : ∃ t, inboxStep env w a s reminder = .ok t := by
      unfold inboxStep
      rw [hshown]
      cases shown with
      | none => exact ⟨s, rfl⟩
      | some item =>
        dsimp only
        split <;> exact ⟨_, rfl⟩
    unfold Scan.rows
    rw [ht]
    dsimp only
    split
    · exact ⟨t, rfl⟩
    · exact ih t hrest

theorem inboxPage_range {s : InboxScan} {page : ReminderInboxPage} (h : inboxPage a s = .ok page) :
    1 ≤ a.limit ∧ a.limit ≤ 100 ∧ 0 ≤ a.offset := by
  unfold inboxPage at h
  split at h
  · cases h
  · split at h
    · cases h
    · omega

theorem inboxPage_exists (hlimit : 1 ≤ a.limit ∧ a.limit ≤ 100) (hoffset : 0 ≤ a.offset)
    (s : InboxScan) : ∃ page, inboxPage a s = .ok page := by
  unfold inboxPage
  rw [if_neg (by omega), if_neg (by omega)]
  exact ⟨_, rfl⟩

/-- **The batches of the inbox** are the reminders in scope. -/
theorem batches_inbox (remindFrom remindTo : Option DateTime) (hlimit : 1 ≤ a.limit) :
    Scan.batches (w.reminders.listPage remindFrom remindTo scanBatchSize) scanBatchSize
      (inboxStep env w a) (InboxScan.enough a.limit) (w.reminders.reminders.length + 1) 0 {} =
    Scan.rows (inboxStep env w a) (InboxScan.enough a.limit)
      (scopedReminders w.reminders remindFrom remindTo) {} := by
  have hlength : (scopedReminders w.reminders remindFrom remindTo).length ≤
      w.reminders.reminders.length := by
    rw [scopedReminders, List.length_insertionSort]
    exact List.length_filter_le ..
  have hstart : InboxScan.enough a.limit {} = false := by
    simp only [InboxScan.enough, List.length_nil, decide_eq_false_iff_not]
    omega
  rw [Scan.batches_eq (by decide) (listPage_eq scanBatchSize) (by omega) hstart]
  rfl

/-- **The page of a scan** is a stretch of the whole list. -/
theorem isPage_of_counted {matched rest : List Reminder} {s : InboxScan}
    {page : ReminderInboxPage} (hs : Counted env w a matched s)
    (hdone : rest = [] ∨ s.enough a.limit = true) (h : inboxPage a s = .ok page) :
    IsPage env w a (matched ++ rest) page := by
  unfold inboxPage at h
  split at h
  · cases h
  · rename_i hlimit
    split at h
    · cases h
    · rename_i hoffset
      obtain rfl := Except.ok.inj h
      have hlength : s.items.length = matched.length - a.offset.toNat := by
        rw [← hs.items.length_eq, List.length_drop]
      refine ⟨?_, rfl, ?_⟩
      · have hpage : Query.page a.limit.toNat a.offset.toNat (matched ++ rest) =
            (matched.drop a.offset.toNat).take a.limit.toNat := by
          rw [Query.page]
          rcases hdone with rfl | henough
          · rw [List.append_nil]
          · have hlt : a.limit < s.items.length := of_decide_eq_true henough
            rw [List.drop_append_of_le_length (by omega), List.take_append_of_le_length]
            rw [List.length_drop]
            omega
        rw [hpage]
        exact List.forall₂_take _ hs.items
      · show decide (a.limit < s.items.length) = true ↔ _
        rw [decide_eq_true_eq, hlength, List.length_append]
        rcases hdone with rfl | henough
        · rw [List.length_nil]
          omega
        · have hlt : a.limit < s.items.length := of_decide_eq_true henough
          omega

end Loop

/-! ## The inbox -/

/-- **A page of the inbox** is a stretch of the whole list, however the batches fall: wherever
`list` returns one, the limit and the offset are in range, and the page shows the reminders from the
offset on, at most the limit, of all those that the time scope, the workspace and the statuses
select, in the order of storage. It returns one if the limit and the offset are in range, the time
scope has bounds, and the lookups for each stored reminder succeed. -/
theorem inbox_law (env : Environment) (w : World) (zone : Zone) (now : DateTime) (a : InboxArgs) :
    (∀ page, listInbox env w zone now a = .ok page →
      (1 ≤ a.limit ∧ a.limit ≤ 100 ∧ 0 ≤ a.offset) ∧
      ∃ remindFrom remindTo, timeBounds zone now a.wantedScope = some (remindFrom, remindTo) ∧
        IsPage env w a (fullList w a remindFrom remindTo) page) ∧
    ((1 ≤ a.limit ∧ a.limit ≤ 100) → 0 ≤ a.offset →
      (timeBounds zone now a.wantedScope).isSome = true →
      (∀ reminder ∈ w.reminders.reminders, LookupsSucceed env w a reminder) →
      ∃ page, listInbox env w zone now a = .ok page) := by
  constructor
  · intro page h
    unfold listInbox at h
    split at h
    · cases h
    · rename_i remindFrom remindTo hbounds
      split at h
      · cases h
      · rename_i s hs
        have hrange := inboxPage_range h
        refine ⟨hrange, remindFrom, remindTo, hbounds, ?_⟩
        rw [batches_inbox remindFrom remindTo hrange.1] at hs
        obtain ⟨matched, rest, hfull, hcounted, hdone⟩ := rows_counted
          (show Counted env w a [] {} from ⟨rfl, by simp⟩) hs
        rw [List.nil_append] at hfull
        rw [fullList, hfull]
        exact isPage_of_counted hcounted hdone h
  · intro hlimit hoffset hbounds hlookups
    obtain ⟨⟨remindFrom, remindTo⟩, hbounds⟩ := Option.isSome_iff_exists.mp hbounds
    have hshown : ∀ reminder ∈ scopedReminders w.reminders remindFrom remindTo,
        ∃ shown, shownItem env w a reminder = .ok shown := fun reminder hmem =>
      shownItem_exists (mem_scopedReminders hmem) (hlookups reminder (mem_scopedReminders hmem))
    obtain ⟨s, hs⟩ := rows_succeeds {} hshown
    rw [← batches_inbox remindFrom remindTo hlimit.1] at hs
    obtain ⟨page, hpage⟩ := inboxPage_exists hlimit hoffset s
    refine ⟨page, ?_⟩
    unfold listInbox
    rw [hbounds]
    dsimp only
    rw [hs]
    exact hpage

namespace InboxScenario

/-- One zone, eight hours ahead of UTC. -/
def environment : Environment where
  zone name := if name = "Asia/Shanghai" then some (.fixed 28800000000) else none
  clean _ := true
  cleanTask _ := true
  sha256 text := text

/-- An hour of one day. -/
def hour (n : Fin 24) : DateTime := ⟨2026, 7, 26, n, 0, 0, 0, DateTime.valid_hour n⟩

/-- A task of a workspace. -/
def task (id workspaceId : String) : UserTask where
  id := id
  title := "Call"
  createdAt := hour 1
  updatedAt := hour 1
  metadata := { workspace := .object (.text "t") (.text workspaceId) (.text "default") }

/-- A reminder of a task. -/
def reminder (id taskId : String) (remindAt : DateTime) (status : ReminderStatus) : Reminder where
  id := id
  userTaskId := taskId
  remindAt := remindAt
  timezone := "Asia/Shanghai"
  status := status
  createdAt := hour 1
  updatedAt := hour 1

/-- Reminders of the tasks of two workspaces. -/
def world (reminders : List Reminder) : World :=
  { World.initial with
    tasks := ⟨[task "ut_1" "w", task "ut_2" "v"]⟩
    reminders := ⟨reminders, []⟩ }

/-- One has passed, one is of the other workspace, and one is cancelled. -/
def day : World := world [
  reminder "rem_5" "ut_1" (hour 13) .scheduled, reminder "rem_4" "ut_1" (hour 12) .scheduled,
  reminder "rem_3" "ut_1" (hour 11) .cancelled, reminder "rem_2" "ut_2" (hour 10) .scheduled,
  reminder "rem_1" "ut_1" (hour 9) .pendingSchedule, reminder "rem_0" "ut_1" (hour 6) .scheduled]

/-- The second page of what is pending, of one row. -/
def request : InboxArgs where
  workspaceKey := { tenantId := "t", workspaceId := "w" }
  view := some .pending
  limit := 1
  offset := 1

/-- The last half hour of the calendar. -/
def lastHalfHour : DateTime := ⟨9999, 12, 31, 23, 30, 0, 0, by decide⟩

/-- A reminder whose planned instant has no wall time in its zone makes every page raise that comes
to it. -/
example : (listInbox environment
    (world [reminder "rem_1" "ut_1" lastHalfHour .scheduled]) (.fixed 28800000000) (hour 7)
    { request with offset := 0 }).isOk = false := by
  decide +kernel

end InboxScenario

open InboxScenario in
/-- At seven the second reminder that is pending is the one for twelve, and another one follows. -/
theorem inbox_law_scenario : ∃ page,
    listInbox environment day (.fixed 28800000000) (hour 7) request = .ok page ∧
      page.items.map (·.reminderId) = ["rem_4"] ∧ page.hasMore = true ∧
      IsPage environment day request (fullList day request (some (hour 7)) none) page := by
  have hrun : (listInbox environment day (.fixed 28800000000) (hour 7) request).map (fun page =>
      (page.items.map (·.reminderId), page.hasMore)) = .ok (["rem_4"], true) := by
    decide +kernel
  cases hpage : listInbox environment day (.fixed 28800000000) (hour 7) request with
  | error e =>
    rw [hpage] at hrun
    cases hrun
  | ok page =>
    rw [hpage] at hrun
    obtain ⟨hitems, hmore⟩ := Prod.mk.inj (Except.ok.inj hrun)
    obtain ⟨-, remindFrom, remindTo, hbounds, hlaw⟩ := (inbox_law environment day
      (.fixed 28800000000) (hour 7) request).1 page hpage
    obtain ⟨rfl, rfl⟩ := Prod.mk.inj (Option.some.inj hbounds)
    exact ⟨page, rfl, hitems, hmore, hlaw⟩

end Reminders

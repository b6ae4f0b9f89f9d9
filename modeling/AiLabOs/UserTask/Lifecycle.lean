import AiLabOs.Base.Table
import AiLabOs.Process.Conditioned
import AiLabOs.UserTask.Service

/-!
# User tasks: life cycle

A stored task changes by one revision at a time, and each operation writes what it makes of the
task it read. The guard compares the revision of the row with the one the operation expects; when
that is the revision it read, the row is the task it read. `update` lets its caller expect another
revision than the one it reads, and `create` lets its caller give a task a status and instants that
disagree.

## Main definitions

* `Later`: how the table changes; `protocol`
* `Request.result`: what a request makes of a task
* `commits`, `Commit`: what a step commits to the table
* `Stamped`, `Derived`, `StepLaw`: the laws of the life cycle
* `inStep`: an event is not the commit of a stale edit or of a task that is not stamped

## Main results

* `effect`: what an action does to the table
* `lifecycle_law`: the laws hold in every run of such events, and any other event breaks them
-/

namespace UserTasks

open Process
open Reminders (Environment Exn NewTask validateTask draftTask raiseTaskFailure ended)

/-! ## What an action does -/

section Operations

variable {db : Database} {task : UserTask}

/-- A row has one of the keys of the task. -/
def Database.taken (db : Database) (task : UserTask) : Bool :=
  db.tasks.any fun row => row.id = task.id ||
    (task.legacySourceId.isSome && row.legacySourceId = task.legacySourceId)

/-- **A creation** adds a row under keys that were free; any other fails. -/
theorem create_cases (db : Database) (task : UserTask) :
    (∃ e, db.create task = .error e ∧ db.taken task = true) ∨
    db.create task = .ok ⟨db.tasks ++ [task]⟩ ∧ db.taken task = false ∧
      ∀ row ∈ db.tasks, row.id ≠ task.id := by
  by_cases htaken : db.taken task = true
  · exact .inl ⟨_, if_pos htaken, htaken⟩
  · refine .inr ⟨if_neg htaken, Bool.eq_false_iff.mpr htaken, fun row hrow heq => htaken ?_⟩
    exact List.any_eq_true.mpr ⟨row, hrow, by simp [heq]⟩

/-- The row an update writes. -/
def committed (task : UserTask) (expectedRevision : ℕ) : UserTask :=
  { task with revision := expectedRevision + 1 }

/-- The guard of an update holds. -/
def Database.guarded (db : Database) (workspaceKey : WorkspaceKey) (task : UserTask)
    (expectedRevision : ℕ) : Bool :=
  (db.ensureReadable workspaceKey (some task.id)).isOk &&
    (db.visible workspaceKey task.id).any fun row => row.revision = expectedRevision

/-- **An update** whose guard holds puts the task in the place of the row; any other fails. -/
theorem update_cases (db : Database) (workspaceKey : WorkspaceKey) (task : UserTask)
    (expectedRevision : ℕ) :
    (∃ e, db.update workspaceKey task expectedRevision = .error e ∧
      db.guarded workspaceKey task expectedRevision = false) ∨
    ∃ old, db.visible workspaceKey task.id = some old ∧ old.revision = expectedRevision ∧
      db.guarded workspaceKey task expectedRevision = true ∧
      db.update workspaceKey task expectedRevision =
        .ok (committed task expectedRevision,
          ⟨Table.put UserTask.id (committed task expectedRevision) db.tasks⟩) := by
  unfold Database.guarded Database.update
  cases hread : db.ensureReadable workspaceKey (some task.id) with
  | error e => exact .inl ⟨e, rfl, rfl⟩
  | ok _ =>
    cases hvisible : db.visible workspaceKey task.id with
    | none => exact .inl ⟨_, rfl, rfl⟩
    | some old =>
      by_cases hrevision : old.revision = expectedRevision
      · right
        refine ⟨old, rfl, hrevision, ?_, ?_⟩
        · simp [hrevision, Except.isOk, Except.toBool]
        · show (if old.revision = expectedRevision then _ else _) = _
          rw [if_pos hrevision]
          rfl
      · left
        refine ⟨.conflict "UserTask was modified concurrently", ?_, ?_⟩
        · show (if old.revision = expectedRevision then _ else _) = _
          rw [if_neg hrevision]
        · simp [hrevision]

end Operations

/-- **What an action does** to the table. -/
inductive Effect (w w' : World) : Prop
  | idle (h : w' = w)
  | created (under : Workspace) (task : UserTask) (hnew : ∀ row ∈ w.db.tasks, row.id ≠ task.id)
      (hw : w' = ⟨⟨w.db.tasks ++ [task]⟩, (task.id, under) :: w.owners⟩)
  | changed (old new : UserTask) (hold : old ∈ w.db.tasks) (hid : new.id = old.id)
      (hrevision : new.revision = old.revision + 1)
      (hw : w' = { w with db := ⟨Table.put UserTask.id new w.db.tasks⟩ })

section Effects

variable {w w' : World} {i : ℕ} {e : Action} {input : Input} {r : e.Reply}

theorem effect (hr : handler i e input w = some (r, w')) : Effect w w' := by
  cases e with
  | create under task =>
    cases input <;> simp only [handler, reduceCtorEq] at hr
    case fault =>
      cases hr
      exact .idle rfl
    case reached =>
      rcases create_cases w.db task with ⟨x, herror, -⟩ | ⟨hok, -, hnew⟩
      · rw [herror] at hr
        cases hr
        exact .idle rfl
      · rw [hok] at hr
        cases hr
        exact .created under task hnew rfl
  | update workspaceKey task expectedRevision =>
    cases input <;> simp only [handler, reduceCtorEq] at hr
    case fault =>
      cases hr
      exact .idle rfl
    case reached =>
      rcases update_cases w.db workspaceKey task expectedRevision with
        ⟨x, herror, -⟩ | ⟨old, hvisible, hrevision, -, hok⟩
      · rw [herror] at hr
        cases hr
        exact .idle rfl
      · simp only [hok, Option.some.injEq, Prod.mk.injEq] at hr
        obtain ⟨-, rfl⟩ := hr
        obtain ⟨hold, hid, -⟩ := visible_some hvisible
        refine .changed old (committed task expectedRevision) hold hid.symm ?_ rfl
        rw [hrevision]
        rfl
  | _ =>
    cases input <;> simp only [handler, reduceCtorEq, Option.some.injEq, Prod.mk.injEq] at hr
    all_goals exact .idle hr.2.symm

end Effects

/-! ## Time -/

/-- The rows stay, at later revisions: a row at the same revision is the same. -/
def Later (w w' : World) : Prop :=
  ∀ task ∈ w.db.tasks, ∃ task' ∈ w'.db.tasks, task'.id = task.id ∧ task.revision ≤ task'.revision ∧
    (task'.revision = task.revision → task' = task)

theorem Later.refl (w : World) : Later w w :=
  fun task htask => ⟨task, htask, rfl, le_rfl, fun _ => rfl⟩

theorem Later.trans {u v w : World} (h : Later u v) (h' : Later v w) : Later u w := by
  intro task htask
  obtain ⟨task₁, htask₁, hid₁, hle₁, heq₁⟩ := h task htask
  obtain ⟨task₂, htask₂, hid₂, hle₂, heq₂⟩ := h' task₁ htask₁
  refine ⟨task₂, htask₂, hid₂.trans hid₁, hle₁.trans hle₂, fun hsame => ?_⟩
  have hmid : task₁.revision = task.revision := by omega
  rw [heq₂ (hsame.trans hmid.symm), heq₁ hmid]

/-- What every call may assume of the others. -/
def protocol : Protocol World where
  Inv w := Table.Unique UserTask.id w.db.tasks
  Rely _ := Later
  refl _ := Later.refl
  trans h h' := h.trans h'

theorem Effect.unique {w w' : World} (h : Effect w w') (hw : Table.Unique UserTask.id w.db.tasks) :
    Table.Unique UserTask.id w'.db.tasks := by
  cases h with
  | idle h => exact h ▸ hw
  | created under task hnew h => exact h ▸ hw.insert hnew
  | changed old new hold hid hrevision h => exact h ▸ hw.put

theorem Effect.later {w w' : World} (h : Effect w w')
    (hw : Table.Unique UserTask.id w.db.tasks) : Later w w' := by
  intro task htask
  cases h with
  | idle h => exact h ▸ Later.refl w task htask
  | created under new hnew h =>
    subst h
    exact ⟨task, List.mem_append_left _ htask, rfl, le_rfl, fun _ => rfl⟩
  | changed old new hold hid hrevision h =>
    subst h
    by_cases hsame : task.id = new.id
    · obtain rfl : task = old := hw.eq htask hold (hsame.trans hid)
      refine ⟨new, Table.mem_put_self htask hsame, hid, by omega, fun heq => ?_⟩
      omega
    · exact ⟨task, Table.mem_put_of_ne htask hsame, rfl, le_rfl, fun _ => rfl⟩

theorem inv_initial : protocol.Inv World.initial := List.nodup_nil

/-- Nothing is asked of an action. -/
def anyPre (_ : ℕ) (_ : Log Action Action.Reply) (_ : Action) (_ : World) : Prop := True

theorem sound : Sound protocol handler anyPre := by
  intro i log e input r w w' hinv _ hr
  have heffect := effect hr
  exact ⟨heffect.unique hinv, fun _ _ => heffect.later hinv⟩

theorem safe_any {α : Type} (i : ℕ) (p : Prog α) (log : Log Action Action.Reply) (w : World) :
    Safe protocol handler anyPre i (fun _ _ _ => True) (fun _ _ _ => True) p log w := by
  induction p generalizing log w with
  | ret a => exact Safe.ret trivial
  | raise x => exact Safe.raise trivial
  | await e next ih =>
    exact Safe.perform (f := next) fun w' _ _ => ⟨trivial, fun _ r w'' _ => ih r _ w''⟩

theorem startsSafe (env : LegacyEnvironment) :
    StartsSafe protocol handler anyPre (start env) :=
  fun i k w _ => safe_any i (start env k) [] w

theorem Reachable.unique {env : LegacyEnvironment} {c : Calls} (h : Reachable env c) :
    Table.Unique UserTask.id c.world.db.tasks :=
  ((AllSafe.idle inv_initial).reaches sound (startsSafe env) h).1

/-! ## What a call writes -/

/-- A task that was read is, or has become, a row. -/
def Known (w : World) (task : UserTask) : Prop :=
  ∃ row ∈ w.db.tasks, row.id = task.id ∧ task.revision ≤ row.revision ∧
    (row.revision = task.revision → row = task)

theorem Known.later {w w' : World} {task : UserTask} (h : Known w task) (hw : Later w w') :
    Known w' task := by
  obtain ⟨row, hrow, hid, hle, heq⟩ := h
  obtain ⟨row', hrow', hid', hle', heq'⟩ := hw row hrow
  refine ⟨row', hrow', hid'.trans hid, hle.trans hle', fun hsame => ?_⟩
  have hmid : row.revision = task.revision := by omega
  rw [heq' (hsame.trans hmid.symm), heq hmid]

/-- What a request makes of a task, at an instant. -/
def Request.result (env : LegacyEnvironment) : Request → UserTask → DateTime → Option UserTask
  | .update workspaceKey _ edit, current, now =>
    if current.status = .active then
      (edited env.toEnvironment workspaceKey edit current now).toOption
    else none
  | .complete _ _ _ traceId, current, now =>
    if current.status = .active then some (ended current .completed now traceId) else none
  | .cancel _ _ _ traceId, current, now =>
    if current.status = .active then some (ended current .cancelled now traceId) else none
  | .reopen _ _ _, current, now =>
    if current.status = .active then none else some (reopened current now)
  | _, _, _ => none

/-- The workspace key of a request that names a task. -/
def Request.key : Request → Option WorkspaceKey
  | .get workspaceKey _ _ => some workspaceKey
  | .update workspaceKey _ _ => some workspaceKey
  | .complete workspaceKey _ _ _ => some workspaceKey
  | .cancel workspaceKey _ _ _ => some workspaceKey
  | .reopen workspaceKey _ _ => some workspaceKey
  | _ => none

/-- The reading of a task in the log of a call. -/
def readEntry (workspaceKey : WorkspaceKey) (taskId : String) (task : UserTask) :
    Σ e : Action, e.Reply :=
  ⟨.get workspaceKey taskId, .ok task⟩

theorem readEntry_inj {workspaceKey workspaceKey' : WorkspaceKey} {taskId taskId' : String}
    {a b : UserTask} (h : readEntry workspaceKey taskId a = readEntry workspaceKey' taskId' b) :
    a = b := by
  obtain ⟨he, hr⟩ := Sigma.mk.inj h
  obtain ⟨rfl, rfl⟩ := Action.get.inj he
  exact Except.ok.inj (eq_of_heq hr)

/-- **The write of a call**: what its request makes of the one task it read. -/
structure Writing (env : LegacyEnvironment) (request : Request) (log : Log Action Action.Reply)
    (workspaceKey : WorkspaceKey) (task : UserTask) (w : World) (current : UserTask) : Prop where
  key : request.key = some workspaceKey
  read : ∃ taskId, readEntry workspaceKey taskId current ∈ log
  seen : workspacePredicate workspaceKey (values current) = true
  only : ∀ workspaceKey' taskId other, readEntry workspaceKey' taskId other ∈ log → other = current
  known : Known w current
  id : task.id = current.id
  revision : task.revision = current.revision
  result : ∃ now, request.result env current now = some task

/-- **The creation of a task**: at the first revision, with the identity it happens under. -/
structure Creating (under : Workspace) (task : UserTask) : Prop where
  revision : task.revision = 1
  under : ∃ workspaceKey, under = workspaceIdentity workspaceKey ∧
    task.metadata.workspace = canonicalWorkspaceMetadata workspaceKey

/-- What the log of a call tells of what it writes. -/
def writes (env : LegacyEnvironment) (request : Request) (_ : ℕ) (log : Log Action Action.Reply)
    (e : Action) (w : World) : Prop :=
  match e with
  | .create under task => Creating under task
  | .update workspaceKey task _ => ∃ current, Writing env request log workspaceKey task w current
  | _ => True

section Programs

variable {env : LegacyEnvironment} {request : Request} {i : ℕ} {log : Log Action Action.Reply}
variable {w : World} {α : Type}

/-- The call writes what its log tells. -/
abbrev Writes (env : LegacyEnvironment) (request : Request) (i : ℕ) (p : Prog α)
    (log : Log Action Action.Reply) (w : World) : Prop :=
  Safe protocol handler (writes env request) i (fun _ _ _ => True) (fun _ _ _ => True) p log w

theorem writes_orFailure {operation traceId : String} (reply : Except RepositoryError α) :
    Writes env request i (orFailure operation traceId reply) log w := by
  cases reply with
  | ok a => exact Safe.ret trivial
  | error e => exact Safe.raise trivial

/-- A reading of a task, and what follows it. -/
theorem writes_get {workspaceKey : WorkspaceKey} {taskId traceId : String} {f : UserTask → Prog α}
    (h : ∀ current w', Known w' current → workspacePredicate workspaceKey (values current) = true →
      Writes env request i (f current) [readEntry workspaceKey taskId current] w') :
    Writes env request i (get workspaceKey taskId traceId >>= f) [] w := by
  refine Safe.bind (Safe.perform fun w₁ _ _ => ⟨trivial, fun input r w₂ hr => ?_⟩)
  cases r with
  | error e => exact Safe.raise trivial
  | ok current =>
    refine Safe.ret ?_
    cases input <;> simp only [handler, reduceCtorEq] at hr
    case fault => cases hr
    case reached =>
      simp only [Option.some.injEq, Prod.mk.injEq] at hr
      obtain ⟨hget, rfl⟩ := hr
      obtain ⟨_, -, hget⟩ := Except.of_bind_ok hget
      split at hget
      · cases hget
      · rename_i task hvisible
        cases hget
        obtain ⟨hrow, -, hseen⟩ := visible_some hvisible
        exact h current w₁ ⟨current, hrow, rfl, le_rfl, fun _ => rfl⟩ hseen

/-- **The write** of what a request makes of the task its call has read. -/
theorem writes_write {operation traceId : String} {workspaceKey : WorkspaceKey} {taskId : String}
    {task current : UserTask} {now : DateTime} {expectedRevision : ℕ}
    (hkey : request.key = some workspaceKey) (hknown : Known w current)
    (hseen : workspacePredicate workspaceKey (values current) = true)
    (hid : task.id = current.id) (hrevision : task.revision = current.revision)
    (hresult : request.result env current now = some task) :
    Writes env request i (write operation traceId workspaceKey task expectedRevision)
      [readEntry workspaceKey taskId current, ⟨.now, now⟩] w := by
  refine Safe.perform fun w₁ hw₁ _ => ⟨⟨current, hkey, ⟨taskId, List.mem_cons_self ..⟩, hseen, ?_,
    hknown.later hw₁, hid, hrevision, now, hresult⟩, fun _ r w₂ _ => writes_orFailure r⟩
  intro workspaceKey' taskId' other hmem
  rcases List.mem_cons.mp hmem with heq | hmem
  · exact readEntry_inj heq
  · have hentry := List.mem_singleton.mp hmem
    cases (Sigma.mk.inj hentry).1

/-- A clock reading. -/
theorem writes_now {f : DateTime → Prog α}
    (h : ∀ now w', Later w w' → Writes env request i (f now) (log ++ [⟨.now, now⟩]) w') :
    Writes env request i (clockNow >>= f) log w := by
  refine Safe.perform fun w₁ hw₁ _ => ⟨trivial, fun input now w₂ hr => h now w₂ ?_⟩
  cases input <;> simp only [handler, reduceCtorEq, Option.some.injEq, Prod.mk.injEq] at hr
  exact hr.2 ▸ hw₁

theorem validateTask_ok {env : Environment} {task task' : UserTask}
    (h : validateTask env task = .ok task') : task' = { task with
      title := Text.strip task.title
      timezone := Text.strip task.timezone } := by
  obtain ⟨_, -, h⟩ := Except.of_bind_ok h
  obtain ⟨_, -, h⟩ := Except.of_bind_ok h
  obtain ⟨_, -, h⟩ := Except.of_bind_ok h
  obtain ⟨_, -, h⟩ := Except.of_bind_ok h
  cases h
  rfl

/-- What `create` draws up: the values it is given, with the identity of its caller. -/
theorem draftTask_ok {env : Environment} {workspaceKey : WorkspaceKey} {args : NewTask}
    {now : DateTime} {task : UserTask} (h : draftTask env workspaceKey args now = .ok task) :
    task.id = args.id ∧ task.revision = 1 ∧ task.status = args.status ∧
      args.completedAt = task.completedAt.map .utc ∧ args.cancelledAt = task.cancelledAt.map .utc ∧
      task.metadata =
        { args.metadata with workspace := canonicalWorkspaceMetadata workspaceKey } := by
  obtain ⟨createdAt, -, h⟩ := Except.of_bind_ok h
  obtain ⟨dueAt, -, h⟩ := Except.of_bind_ok h
  obtain ⟨completedAt, hcompleted, h⟩ := Except.of_bind_ok h
  obtain ⟨cancelledAt, hcancelled, h⟩ := Except.of_bind_ok h
  rw [validateTask_ok h]
  exact ⟨rfl, rfl, rfl, normalizeOptional_ok hcompleted, normalizeOptional_ok hcancelled, rfl⟩

theorem writes_create (env' : Environment) (workspaceKey : WorkspaceKey) (task : NewTask) :
    Writes env request i (create env' workspaceKey task) log w := by
  refine writes_now fun now w₁ _ => ?_
  cases hdraft : draftTask env' workspaceKey task now with
  | error invalid => exact Safe.raise trivial
  | ok drafted =>
    obtain ⟨-, hrevision, -, -, -, hmetadata⟩ := draftTask_ok hdraft
    refine Safe.perform fun w₂ _ _ => ⟨⟨hrevision, workspaceKey, rfl, ?_⟩, fun _ r w₃ _ => ?_⟩
    · rw [hmetadata]
    · cases r with
      | ok _ => exact Safe.ret trivial
      | error e => exact Safe.raise trivial

theorem edited_ok {env : Environment} {workspaceKey : WorkspaceKey} {edit : TaskEdit}
    {current task : UserTask} {now : DateTime}
    (h : edited env workspaceKey edit current now = .ok task) :
    task.id = current.id ∧ task.revision = current.revision ∧ task.status = current.status ∧
      task.completedAt = current.completedAt ∧ task.cancelledAt = current.cancelledAt ∧
      task.metadata = edit.document workspaceKey current := by
  obtain ⟨dueAt, -, h⟩ := Except.of_bind_ok h
  rw [validateTask_ok h]
  exact ⟨rfl, rfl, rfl, rfl, rfl, rfl⟩

theorem writes_update {workspaceKey : WorkspaceKey} {taskId : String} {edit : TaskEdit}
    (hrequest : request = .update workspaceKey taskId edit) :
    Writes env request i (update env.toEnvironment workspaceKey taskId edit) [] w := by
  refine writes_get fun current w₁ hknown hseen => ?_
  by_cases hactive : current.status = .active
  · rw [if_neg (not_not.mpr hactive)]
    refine writes_now fun now w₂ hw₂ => ?_
    cases hedited : edited env.toEnvironment workspaceKey edit current now with
    | error invalid => exact Safe.raise trivial
    | ok candidate =>
      obtain ⟨hid, hrevision, -⟩ := edited_ok hedited
      refine writes_write (by rw [hrequest]; rfl) (hknown.later hw₂) hseen hid hrevision ?_
      rw [hrequest]
      show (if current.status = .active then _ else _) = _
      rw [if_pos hactive, hedited]
      rfl
  · rw [if_pos hactive]
    exact Safe.raise trivial

theorem writes_coordinate (task result : UserTask) (traceId : String) :
    Writes env request i (coordinate task traceId >>= fun _ => .ret result) log w := by
  refine Safe.bind (Safe.perform fun _ _ _ => ⟨trivial, fun _ r _ _ => ?_⟩)
  cases r with
  | ok _ => exact Safe.ret (Safe.ret trivial)
  | error e => exact Safe.raise trivial

theorem writes_transition {workspaceKey : WorkspaceKey} {taskId traceId : String}
    {target : UserTaskStatus} {expectedRevision : Option ℕ}
    (hkey : request.key = some workspaceKey)
    (hresult : ∀ current now, current.status = .active →
      request.result env current now = some (ended current target now traceId)) :
    Writes env request i (transition workspaceKey taskId target expectedRevision traceId) [] w := by
  refine writes_get fun current w₁ hknown hseen => ?_
  split
  · exact Safe.raise trivial
  · split
    · exact writes_coordinate current current traceId
    · split
      · exact Safe.raise trivial
      · rename_i hactive
        refine writes_now fun now w₂ hw₂ => Safe.bind ?_
        have hid : (ended current target now traceId).id = current.id := rfl
        refine (writes_write hkey (hknown.later hw₂) hseen hid rfl
          (hresult current now (not_not.mp hactive))).mono (fun result log w _ => ?_)
          fun _ _ _ h => h
        exact writes_coordinate result result traceId

theorem writes_reopen {workspaceKey : WorkspaceKey} {taskId traceId : String}
    (hrequest : request = .reopen workspaceKey taskId traceId) :
    Writes env request i (reopen workspaceKey taskId traceId) [] w := by
  refine writes_get fun current w₁ hknown hseen => ?_
  split
  · exact Safe.ret trivial
  · rename_i hactive
    refine writes_now fun now w₂ hw₂ => ?_
    have hid : (reopened current now).id = current.id := rfl
    refine writes_write (by rw [hrequest]; rfl) (hknown.later hw₂) hseen hid rfl ?_
    rw [hrequest]
    exact if_neg hactive

theorem writes_importItem (env' : LegacyEnvironment) (traceId : String)
    (result : LegacyImportResult) (item : LegacyItem) :
    Writes env request i (importItem env' traceId result item) log w := by
  unfold importItem
  split
  · exact Safe.ret trivial
  · split
    · exact Safe.ret trivial
    · split
      · exact Safe.ret trivial
      · refine Safe.tryCatch (Safe.bind ((writes_create _ _ _).mono (fun _ _ _ _ => ?_)
          fun exn _ _ _ => ?_))
        · exact Safe.ret trivial
        · split
          · split <;> exact Safe.ret trivial
          · exact Safe.ret trivial

theorem writes_importItems (env' : LegacyEnvironment) (traceId : String)
    (result : LegacyImportResult) (items : List LegacyItem) :
    Writes env request i (importItems env' traceId result items) log w := by
  induction items generalizing result log w with
  | nil => exact Safe.ret trivial
  | cons item items ih =>
    exact Safe.bind ((writes_importItem env' traceId result item).mono
      (fun result log w _ => ih result) fun _ _ _ h => h)

theorem writes_importLegacy (env' : LegacyEnvironment) (traceId : String)
    (seen : List (List (Option String))) (result : LegacyImportResult)
    (pages : List (Option (List LegacyItem))) :
    Writes env request i (importLegacy env' traceId seen result pages) log w := by
  induction pages generalizing seen result log w with
  | nil => exact Safe.ret trivial
  | cons page pages ih =>
    cases page with
    | none => exact Safe.raise trivial
    | some items =>
      unfold importLegacy
      split
      · exact Safe.ret trivial
      · split
        · exact Safe.raise trivial
        · refine Safe.bind ((writes_importItems env' traceId result items).mono
            (fun result log w _ => ?_) fun _ _ _ h => h)
          split
          · exact Safe.ret trivial
          · exact ih _ result

/-- **Every call** writes what its log tells. -/
theorem writes_start (env : LegacyEnvironment) (request : Request) (i : ℕ) (w : World) :
    Writes env request i (start env request) [] w := by
  have hdiscard : ∀ {α : Type} {p : Prog α}, Writes env request i p [] w →
      Writes env request i (discard p) [] w := fun h =>
    Safe.bind (h.mono (fun _ _ _ _ => Safe.ret trivial) fun _ _ _ h => h)
  cases request with
  | create workspaceKey task => exact hdiscard (writes_create _ _ _)
  | get workspaceKey taskId traceId =>
    refine hdiscard (Safe.perform fun _ _ _ => ⟨trivial, fun _ r _ _ => writes_orFailure r⟩)
  | list workspaceKey query asOf traceId =>
    refine hdiscard ?_
    unfold list
    split
    · refine writes_now fun now w' _ => ?_
      exact Safe.perform fun _ _ _ => ⟨trivial, fun _ r _ _ => writes_orFailure r⟩
    · exact Safe.perform fun _ _ _ => ⟨trivial, fun _ r _ _ => writes_orFailure r⟩
  | update workspaceKey taskId edit => exact hdiscard (writes_update rfl)
  | complete workspaceKey taskId expectedRevision traceId =>
    exact hdiscard (writes_transition rfl fun current now hactive => if_pos hactive)
  | cancel workspaceKey taskId expectedRevision traceId =>
    exact hdiscard (writes_transition rfl fun current now hactive => if_pos hactive)
  | reopen workspaceKey taskId traceId => exact hdiscard (writes_reopen rfl)
  | importLegacy pages traceId => exact hdiscard (writes_importLegacy _ _ _ _ _)

end Programs

/-- What a call of a reachable configuration is about to write is what its log tells. -/
theorem Reachable.writes {env : LegacyEnvironment} {c : Calls} (h : Reachable env c) {i : ℕ}
    {request : Request} {log : Log Action Action.Reply} {e : Action} {next : e.Reply → Prog Unit}
    (hi : c.calls[i]? = some ⟨request, log, .await e next⟩) :
    UserTasks.writes env request i log e c.world := by
  have hsafe : Writes env request i (.await e next) log c.world :=
    Reaches.every (fun request' => request' = request) sound (startsSafe env) inv_initial
      (fun i request' w hk _ => hk ▸ writes_start env request' i w)
      (fun _ _ _ _ _ _ _ _ => trivial) (fun _ _ _ _ _ _ _ _ => trivial) h rfl hi
  exact (hsafe.act h.unique).1

/-! ## What a step commits -/

/-- The action an event commits to the table. -/
def commits (c : Calls) : Event Request Input → Option Action
  | .act i .reached =>
    match awaited c i with
    | some (.create under task) =>
      if c.world.db.taken task then none else some (.create under task)
    | some (.update workspaceKey task expectedRevision) =>
      if c.world.db.guarded workspaceKey task expectedRevision then
        some (.update workspaceKey task expectedRevision)
      else none
    | _ => none
  | _ => none

/-- **What a step commits**: nothing, a creation, or the write of a call to a row it sees. -/
inductive Commit (env : LegacyEnvironment) (c : Calls) (ev : Event Request Input) (c' : Calls) :
    Prop
  | idle (hcommits : commits c ev = none) (h : c'.world = c.world)
  | created (under : Workspace) (task : UserTask)
      (hcommits : commits c ev = some (.create under task)) (hcreating : Creating under task)
      (hnew : ∀ row ∈ c.world.db.tasks, row.id ≠ task.id)
      (h : c'.world = ⟨⟨c.world.db.tasks ++ [task]⟩, (task.id, under) :: c.world.owners⟩)
  | changed (i : ℕ) (call : Call Request Action Action.Reply Exn Unit)
      (workspaceKey : WorkspaceKey) (task current old : UserTask) (hev : ev = .act i .reached)
      (hi : c.calls[i]? = some call)
      (hcommits : commits c ev = some (.update workspaceKey task old.revision))
      (hwriting : Writing env call.request call.log workspaceKey task c.world current)
      (hold : c.world.db.visible workspaceKey task.id = some old)
      (h : c'.world = { c.world with
        db := ⟨Table.put UserTask.id (committed task old.revision) c.world.db.tasks⟩ })

theorem Reachable.commit {env : LegacyEnvironment} {c c' : Calls} (h : Reachable env c)
    {ev : Event Request Input} (he : step handler (start env) c ev = some c') :
    Commit env c ev c' := by
  rcases step_cases he with ⟨k, rfl, rfl⟩ | ⟨i, input, k, log, e, next, r, w, rfl, hi, hr, rfl⟩
  · exact .idle rfl rfl
  · have hwrites := h.writes hi
    cases e with
    | create under task =>
      cases input <;> simp only [handler, reduceCtorEq] at hr
      case fault =>
        cases hr
        exact .idle rfl rfl
      case reached =>
        rcases create_cases c.world.db task with ⟨x, herror, htaken⟩ | ⟨hok, hfree, hnew⟩
        · rw [herror] at hr
          cases hr
          refine .idle ?_ rfl
          simp only [commits, awaited_eq hi, htaken, if_true]
        · rw [hok] at hr
          cases hr
          refine .created under task ?_ hwrites hnew rfl
          simp only [commits, awaited_eq hi, hfree, Bool.false_eq_true, if_false]
    | update workspaceKey task expectedRevision =>
      cases input <;> simp only [handler, reduceCtorEq] at hr
      case fault =>
        cases hr
        exact .idle rfl rfl
      case reached =>
        rcases update_cases c.world.db workspaceKey task expectedRevision with
          ⟨x, herror, hguarded⟩ | ⟨old, hvisible, rfl, hguarded, hok⟩
        · rw [herror] at hr
          cases hr
          refine .idle ?_ rfl
          simp only [commits, awaited_eq hi, hguarded, Bool.false_eq_true, if_false]
        · simp only [hok, Option.some.injEq, Prod.mk.injEq] at hr
          obtain ⟨rfl, rfl⟩ := hr
          obtain ⟨current, hwriting⟩ := hwrites
          refine .changed i _ workspaceKey task current old rfl hi ?_ hwriting hvisible rfl
          simp only [commits, awaited_eq hi, hguarded, if_true]
    | _ =>
      cases input <;> simp only [handler, reduceCtorEq, Option.some.injEq, Prod.mk.injEq] at hr
      all_goals exact .idle (by simp only [commits, awaited_eq hi]) hr.2.symm

/-! ## The laws -/

/-- A completed task, and no other one, has the instant of its completion; likewise for a
cancelled one. -/
def UserTask.Stamped (task : UserTask) : Prop :=
  (task.completedAt.isSome = true ↔ task.status = .completed) ∧
    (task.cancelledAt.isSome = true ↔ task.status = .cancelled)

instance (task : UserTask) : Decidable task.Stamped := by
  unfold UserTask.Stamped
  infer_instance

/-- The request opens tasks again. -/
def Request.reopens : Request → Bool
  | .reopen _ _ _ => true
  | _ => false

/-- **A change of a task**: what the request of the call makes of the row it has read, one revision
later. Only `reopen` changes a task that has ended. -/
structure Derived (env : LegacyEnvironment) (call : Call Request Action Action.Reply Exn Unit)
    (old new : UserTask) : Prop where
  read : ∃ workspaceKey taskId, readEntry workspaceKey taskId old ∈ call.log
  result : ∃ now task, call.request.result env old now = some task ∧
    new = committed task old.revision
  ended : old.status ≠ .active → call.request.reopens = true

/-- **The law of a step**: the table stays, a task is created, or the row of one task is replaced by
what a call derived from it. -/
inductive StepLaw (env : LegacyEnvironment) (c : Calls) (ev : Event Request Input) (c' : Calls) :
    Prop
  | same (h : c'.world.db = c.world.db)
  | created (task : UserTask) (hrevision : task.revision = 1)
      (hnew : ∀ row ∈ c.world.db.tasks, row.id ≠ task.id)
      (h : c'.world.db = ⟨c.world.db.tasks ++ [task]⟩)
  | changed (i : ℕ) (input : Input) (call : Call Request Action Action.Reply Exn Unit)
      (old new : UserTask) (hev : ev = .act i input) (hi : c.calls[i]? = some call)
      (hold : old ∈ c.world.db.tasks) (hid : new.id = old.id) (hderived : Derived env call old new)
      (h : c'.world.db = ⟨Table.put UserTask.id new c.world.db.tasks⟩)

/-- The event does not commit a task that is not stamped, nor an edit of another revision than the
one that was read. -/
def inStep (c : Calls) (ev : Event Request Input) : Bool :=
  match commits c ev with
  | some (.create _ task) => task.Stamped
  | some (.update _ task expectedRevision) => task.revision = expectedRevision
  | _ => true

section Laws

variable {env : LegacyEnvironment} {c c' : Calls}

/-- What a request makes of a stamped task is stamped. -/
theorem result_stamped {request : Request} {current task : UserTask} {now : DateTime}
    (h : current.Stamped) (hresult : request.result env current now = some task) :
    task.Stamped := by
  obtain ⟨hcompleted, hcancelled⟩ := h
  cases request with
  | update workspaceKey taskId edit =>
    simp only [Request.result] at hresult
    split at hresult
    · cases hedited : edited env.toEnvironment workspaceKey edit current now with
      | error invalid =>
        rw [hedited] at hresult
        cases hresult
      | ok candidate =>
        rw [hedited] at hresult
        cases hresult
        obtain ⟨-, -, hstatus, hcompletedAt, hcancelledAt, -⟩ := edited_ok hedited
        unfold UserTask.Stamped
        rw [hstatus, hcompletedAt, hcancelledAt]
        exact ⟨hcompleted, hcancelled⟩
    · cases hresult
  | complete workspaceKey taskId expectedRevision traceId =>
    simp only [Request.result] at hresult
    split at hresult
    · rename_i hactive
      cases hresult
      rw [hactive] at hcancelled
      simp [UserTask.Stamped, ended, hcancelled]
    · cases hresult
  | cancel workspaceKey taskId expectedRevision traceId =>
    simp only [Request.result] at hresult
    split at hresult
    · rename_i hactive
      cases hresult
      rw [hactive] at hcompleted
      simp [UserTask.Stamped, ended, hcompleted]
    · cases hresult
  | reopen workspaceKey taskId traceId =>
    simp only [Request.result] at hresult
    split at hresult
    · cases hresult
    · cases hresult
      simp [UserTask.Stamped, reopened]
  | _ => cases hresult

/-- Only `reopen` makes something of a task that has ended. -/
theorem result_ended {request : Request} {current task : UserTask} {now : DateTime}
    (hresult : request.result env current now = some task) (hended : current.status ≠ .active) :
    request.reopens = true := by
  cases request with
  | reopen workspaceKey taskId traceId => rfl
  | update workspaceKey taskId edit => simp [Request.result, hended] at hresult
  | complete workspaceKey taskId expectedRevision traceId =>
    simp [Request.result, hended] at hresult
  | cancel workspaceKey taskId expectedRevision traceId =>
    simp [Request.result, hended] at hresult
  | _ => cases hresult

/-- All rows are stamped. -/
def AllStamped (w : World) : Prop := ∀ task ∈ w.db.tasks, task.Stamped

/-- A write that expects the revision it has read is a write to the row it has read. -/
theorem Reachable.read_row (h : Reachable env c) {request : Request}
    {log : Log Action Action.Reply} {workspaceKey : WorkspaceKey} {task current old : UserTask}
    (hwriting : Writing env request log workspaceKey task c.world current)
    (hold : c.world.db.visible workspaceKey task.id = some old)
    (hrevision : task.revision = old.revision) : current = old := by
  obtain ⟨hmem, hid, -⟩ := visible_some hold
  obtain ⟨row, hrow, hrowId, -, heq⟩ := hwriting.known
  obtain rfl : row = old := h.unique.eq hrow hmem (hrowId.trans (hwriting.id.symm.trans hid.symm))
  exact (heq (hrevision.symm.trans hwriting.revision)).symm

/-- **A step that is in step** follows the laws. -/
theorem Reachable.step_law (h : Reachable env c) (hstamped : AllStamped c.world)
    {ev : Event Request Input} (hin : inStep c ev = true)
    (he : step handler (start env) c ev = some c') :
    StepLaw env c ev c' ∧ AllStamped c'.world := by
  cases h.commit he with
  | idle hcommits hw => exact ⟨.same (by rw [hw]), by rwa [hw]⟩
  | created under task hcommits hcreating hnew hw =>
    refine ⟨.created task hcreating.revision hnew (by rw [hw]), ?_⟩
    simp only [inStep, hcommits, decide_eq_true_eq] at hin
    rw [hw]
    intro row hrow
    rcases List.mem_append.mp hrow with hrow | hrow
    · exact hstamped row hrow
    · exact List.mem_singleton.mp hrow ▸ hin
  | changed i call workspaceKey task current old hev hi hcommits hwriting hold hw =>
    simp only [inStep, hcommits, decide_eq_true_eq] at hin
    obtain rfl := h.read_row hwriting hold hin
    obtain ⟨hmem, hid, -⟩ := visible_some hold
    obtain ⟨now, hresult⟩ := hwriting.result
    obtain ⟨taskId, hread⟩ := hwriting.read
    constructor
    · exact .changed i .reached call current (committed task current.revision) hev hi hmem hid.symm
        ⟨⟨workspaceKey, taskId, hread⟩, ⟨now, task, hresult, rfl⟩, result_ended hresult⟩
        (by rw [hw])
    · rw [hw]
      intro row hrow
      rcases Table.mem_put.mp hrow with ⟨rfl, -⟩ | ⟨hrow, -⟩
      · show task.Stamped
        exact result_stamped (hstamped current hmem) hresult
      · exact hstamped row hrow

/-- **Any other step** breaks them. -/
theorem Reachable.step_breaks (h : Reachable env c) {ev : Event Request Input}
    (hout : inStep c ev = false) (he : step handler (start env) c ev = some c')
    (hlaw : StepLaw env c ev c') : ¬ AllStamped c'.world := by
  intro hstamped
  cases h.commit he with
  | idle hcommits hw =>
    rw [inStep, hcommits] at hout
    cases hout
  | created under task hcommits hcreating hnew hw =>
    simp only [inStep, hcommits, decide_eq_false_iff_not] at hout
    rw [hw] at hstamped
    exact hout (hstamped task (List.mem_append_right _ (List.mem_singleton_self _)))
  | changed i call workspaceKey task current old hev hi hcommits hwriting hold hw =>
    simp only [inStep, hcommits, decide_eq_false_iff_not] at hout
    obtain ⟨hmem, hid, -⟩ := visible_some hold
    cases hlaw with
    | same hsame =>
      have hput : committed task old.revision ∈ c.world.db.tasks := by
        rw [← hsame, hw]
        exact Table.mem_put_self hmem hid
      have heq := congrArg UserTask.revision (h.unique.eq hput hmem hid.symm)
      exact absurd heq (Nat.succ_ne_self _)
    | created new _ _ happ =>
      rw [hw] at happ
      have hlen := congrArg (fun db => db.tasks.length) happ
      simp [Table.put] at hlen
    | changed j input call' old' new hev' hj hold' hid' hderived _ =>
      rw [hev] at hev'
      cases hev'
      obtain rfl := Option.some.inj (hi.symm.trans hj)
      obtain ⟨workspaceKey', taskId, hread⟩ := hderived.read
      obtain rfl := hwriting.only workspaceKey' taskId old' hread
      have hsame : old' = old := h.unique.eq hold' hmem (hwriting.id.symm.trans hid.symm)
      exact hout (hwriting.revision.trans (congrArg UserTask.revision hsame))

/-- **The life cycle of tasks.** In every run that is in step all rows are stamped and every step
follows its law, and a step of any other kind breaks one of the two. -/
theorem lifecycle_law (env : LegacyEnvironment) :
    ∀ c, ReachesIf handler (start env) inStep (idle World.initial) c → AllStamped c.world ∧
      ∀ ev c', step handler (start env) c ev = some c' →
        (StepLaw env c ev c' ∧ AllStamped c'.world ↔ inStep c ev = true) := by
  intro c h
  have hall : AllStamped c.world :=
    h.induction (motive := fun d => AllStamped d.world) (fun _ htask => by cases htask)
      fun d ev d' hd hstamped hin he =>
        ((Reachable.step_law hd.reaches hstamped hin he).2)
  refine ⟨hall, fun ev c' he => ⟨fun ⟨hlaw, hstamped⟩ => ?_, fun hin => ?_⟩⟩
  · by_contra hout
    exact Reachable.step_breaks h.reaches (Bool.eq_false_iff.mpr hout) he hlaw hstamped
  · exact Reachable.step_law h.reaches hall hin he

end Laws

/-! ## Runs -/

namespace Scenario

/-- An hour of one day. -/
def hour (n : Fin 24) : DateTime :=
  ⟨2026, 7, 26, n, 0, 0, 0, DateTime.valid_hour n⟩

/-- Libraries that accept everything. -/
def env : LegacyEnvironment :=
  ⟨⟨fun _ => some (.fixed 0), fun _ => true, fun _ => true, fun text => text⟩, fun _ _ _ => none⟩

/-- A task is created. -/
def setup : List (Event Request Input) := [
  .arrive (.create {} { id := "ut_1", title := "reply" }), .act 0 (.clock (hour 8)),
  .act 0 .reached]

/-- An edit that expects the next revision reads the task; the task is completed; the edit
commits. -/
def revived : List (Event Request Input) := setup ++ ([
  .arrive (.update {} "ut_1" { title := some "answer", expectedRevision := some 2 }),
  .act 1 .reached,
  .arrive (.complete {} "ut_1" none ""), .act 2 .reached, .act 2 (.clock (hour 9)), .act 2 .reached,
  .act 1 (.clock (hour 10)), .act 1 .reached] : List (Event Request Input))

/-- The task is completed and opened again. -/
def reopening : List (Event Request Input) := setup ++ ([
  .arrive (.complete {} "ut_1" none ""), .act 1 .reached, .act 1 (.clock (hour 9)), .act 1 .reached,
  .arrive (.reopen {} "ut_1" ""), .act 2 .reached, .act 2 (.clock (hour 10)),
    .act 2 .reached] : List (Event Request Input))

/-- A task is created as completed, at no instant. -/
def unstamped : List (Event Request Input) := [
  .arrive (.create {} { id := "ut_1", title := "reply", status := .completed }),
  .act 0 (.clock (hour 8)), .act 0 .reached]

/-- The configuration events lead to. -/
def after (events : List (Event Request Input)) : Calls :=
  (run handler (start env) (idle World.initial) events).getD (idle World.initial)

theorem reachable {events : List (Event Request Input)}
    (h : (run handler (start env) (idle World.initial) events).isSome = true) :
    Reachable env (after events) := by
  obtain ⟨c, hc⟩ := Option.isSome_iff_exists.mp h
  refine ⟨events, ?_⟩
  rw [after, hc]
  rfl

theorem reachableIf {ok : Calls → Event Request Input → Bool} {events : List (Event Request Input)}
    (h : (runIf handler (start env) ok (idle World.initial) events).isSome = true) :
    ReachesIf handler (start env) ok (idle World.initial) (after events) := by
  obtain ⟨c, hc⟩ := Option.isSome_iff_exists.mp h
  refine ⟨events, ?_⟩
  rw [after, run_of_runIf hc]
  exact hc

end Scenario

/-- A completed task has no instant of its completion; and an edit of the task as it stood before
its completion sets a completed task back to active. -/
theorem not_lifecycle :
    (¬ ∀ c, Reachable Scenario.env c → AllStamped c.world) ∧
    ¬ ∀ c ev c', Reachable Scenario.env c → step handler (start Scenario.env) c ev = some c' →
      StepLaw Scenario.env c ev c' := by
  constructor
  · intro h
    have hstamped := h (Scenario.after Scenario.unstamped) (Scenario.reachable (by decide +kernel))
    have hall : (Scenario.after Scenario.unstamped).world.db.tasks.all
        (fun task => task.Stamped) = false := by
      decide +kernel
    obtain ⟨task, htask, hnot⟩ := List.all_eq_false.mp hall
    exact hnot (decide_eq_true (hstamped task htask))
  · intro h
    have hreach : Reachable Scenario.env (Scenario.after Scenario.revived.dropLast) :=
      Scenario.reachable (by decide +kernel)
    have hout : inStep (Scenario.after Scenario.revived.dropLast) (.act 1 .reached) = false := by
      decide +kernel
    have hall : ((step handler (start Scenario.env) (Scenario.after Scenario.revived.dropLast)
        (.act 1 .reached)).map fun c => c.world.db.tasks.all fun task => task.Stamped) =
          some true := by
      decide +kernel
    obtain ⟨c', hc', hstamped⟩ := Option.map_eq_some_iff.mp hall
    refine hreach.step_breaks hout hc' (h _ _ _ hreach hc') fun task htask => ?_
    exact of_decide_eq_true (List.all_eq_true.mp hstamped task htask)

/-- The task that was completed and opened again is stamped. -/
theorem lifecycle_law_scenario : AllStamped (Scenario.after Scenario.reopening).world :=
  (lifecycle_law Scenario.env _ (Scenario.reachableIf (by decide +kernel))).1

end UserTasks

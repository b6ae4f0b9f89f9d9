import AiLabOs.UserTask.Filters
import AiLabOs.UserTask.Lifecycle
import Mathlib.Data.List.Find

/-!
# User tasks: isolation of workspaces

A task is created under an identity: the components of the workspace key, stripped, those that are
blank taken for the default. The service writes it into the metadata of the task; the database reads
it from there with its own notion of what is blank, and where it finds none the task is one of the
default identity. The two notions agree unless a component begins with a NUL, at which SQL ends its
count of characters. And the database reads it only where the metadata is JSON to it, which a
document that the service accepts need not be.

## Main definitions

* `World.only`: the table with the tasks of one identity
* `Isolated`: a task is there for its identity, and is not there for any other
* `OwnOnly`: what a step changes belongs to the identity of the call that takes it
* `legible`: the event does not commit a task whose identity the database cannot read

## Main results

* `isolation_law`: tasks are isolated in every run of such events, and any other event ends that
-/

namespace UserTasks

open Process
open Reminders (raiseTaskFailure)

/-! ## Identities -/

/-- The text does not begin with a NUL. -/
def plain (s : String) : Bool := s.toList.head?.all fun c => c.toNat ≠ 0

/-- No component begins with a NUL. -/
def plainWorkspace (workspace : Workspace) : Bool :=
  plain workspace.tenantId && plain workspace.workspaceId && plain workspace.nameSpace

/-- SQL does not take a stripped text for blank, unless it begins with a NUL. -/
theorem notBlankInSql_orDefault (s : String) :
    notBlankInSql (orDefault (Text.strip s)) = plain (orDefault (Text.strip s)) := by
  unfold orDefault
  split
  · decide
  · rename_i hne
    have hdrop := Text.dropWhile_strip s
    have hne' : (Text.strip s).toList ≠ [] := by
      rw [Ne, String.toList_eq_nil_iff]
      exact hne
    unfold notBlankInSql plain
    cases hlist : (Text.strip s).toList with
    | nil => exact absurd hlist hne'
    | cons c rest =>
      rw [hlist] at hdrop
      have hspace : Text.isSpace c = false := by
        rw [List.dropWhile_cons] at hdrop
        split at hdrop
        · have hlen := congrArg List.length hdrop
          have hle := (List.dropWhile_suffix Text.isSpace (l := rest)).length_le
          simp only [List.length_cons] at hlen
          omega
        · exact Bool.eq_false_iff.mpr ‹_›
      have hc : (c = ' ') = False := by
        rw [eq_iff_iff, iff_false]
        rintro rfl
        exact absurd hspace (by decide)
      simp [hc]

/-- **The database reads the identity** that the service writes, unless a component begins with a
NUL; then it reads the default identity. -/
theorem filedUnder_canonical (workspaceKey : WorkspaceKey) (jsonValid : Bool)
    (intentHash : Option String) :
    filedUnder ⟨canonicalWorkspaceMetadata workspaceKey, jsonValid, intentHash⟩ =
      if plainWorkspace (workspaceIdentity workspaceKey) then workspaceIdentity workspaceKey
      else .default := by
  have hcomplete : completeWorkspace (canonicalWorkspaceMetadata workspaceKey) =
      if plainWorkspace (workspaceIdentity workspaceKey) then some (workspaceIdentity workspaceKey)
      else none := by
    unfold completeWorkspace canonicalWorkspaceMetadata plainWorkspace workspaceIdentity
    simp only [notBlankInSql_orDefault]
  unfold filedUnder
  rw [hcomplete]
  split <;> rfl

theorem plainWorkspace_default : plainWorkspace .default = true := by decide

/-! ## Isolation -/

/-- The task was created under the identity. -/
def World.Owned (w : World) (taskId : String) (owner : Workspace) : Prop :=
  (taskId, owner) ∈ w.owners

instance (w : World) (taskId : String) (owner : Workspace) : Decidable (w.Owned taskId owner) := by
  unfold World.Owned
  infer_instance

/-- The table as if there were no tasks but those of one identity. -/
def World.only (w : World) (owner : Workspace) : Database :=
  ⟨w.db.tasks.filter fun task => w.Owned task.id owner⟩

theorem World.only_subset (w : World) (owner : Workspace) :
    ∀ task ∈ (w.only owner).tasks, task ∈ w.db.tasks :=
  fun _ htask => List.mem_of_mem_filter htask

/-- The operations find the task. -/
structure Present (db : Database) (workspaceKey : WorkspaceKey) (task : UserTask) : Prop where
  get : db.get workspaceKey task.id = .ok task
  list : ∃ offset page, db.list workspaceKey (({} : UserTaskQuery).at offset) none = .ok page ∧
    task ∈ page
  update : ∀ candidate : UserTask, candidate.id = task.id →
    ∃ db', db.update workspaceKey candidate task.revision =
      .ok (committed candidate task.revision, db')

/-- The operations do not find the task. -/
structure Absent (db : Database) (workspaceKey : WorkspaceKey) (task : UserTask) : Prop where
  get : db.get workspaceKey task.id = .error (.notFound "UserTask not found")
  list : ∀ query asOf page, db.list workspaceKey query asOf = .ok page → task ∉ page
  update : ∀ candidate : UserTask, candidate.id = task.id → ∀ expectedRevision,
    db.update workspaceKey candidate expectedRevision = .error (.notFound "UserTask not found")

/-- **Isolation**: every task belongs to one identity; it is there for a key of that identity and
for no other; and what a key reads depends on the tasks of its identity only. -/
structure Isolated (w : World) : Prop where
  owner : ∀ task ∈ w.db.tasks, ∃! owner, w.Owned task.id owner
  own : ∀ task ∈ w.db.tasks, ∀ workspaceKey,
    w.Owned task.id (workspaceIdentity workspaceKey) → Present w.db workspaceKey task
  foreign : ∀ task ∈ w.db.tasks, ∀ workspaceKey,
    ¬w.Owned task.id (workspaceIdentity workspaceKey) → Absent w.db workspaceKey task
  get : ∀ workspaceKey taskId, w.db.get workspaceKey taskId =
    (w.only (workspaceIdentity workspaceKey)).get workspaceKey taskId
  list : ∀ workspaceKey query asOf, w.db.list workspaceKey query asOf =
    (w.only (workspaceIdentity workspaceKey)).list workspaceKey query asOf

/-- The key and the identifier that a request names a task by, with its trace. -/
def Request.target : Request → Option (WorkspaceKey × String × String)
  | .get workspaceKey taskId traceId => some (workspaceKey, taskId, traceId)
  | .update workspaceKey taskId edit => some (workspaceKey, taskId, edit.traceId)
  | .complete workspaceKey taskId _ traceId => some (workspaceKey, taskId, traceId)
  | .cancel workspaceKey taskId _ traceId => some (workspaceKey, taskId, traceId)
  | .reopen workspaceKey taskId traceId => some (workspaceKey, taskId, traceId)
  | _ => none

/-- **A step of an isolated table**: identities stay; a task changes by a call under its identity
only; and a call that names a task of another identity ends as if there were no such task. -/
structure OwnOnly (env : LegacyEnvironment) (c : Calls) (ev : Event Request Input) (c' : Calls) :
    Prop where
  stays : ∀ taskId owner, c.world.Owned taskId owner → c'.world.Owned taskId owner
  changes : ∀ task ∈ c.world.db.tasks, task ∉ c'.world.db.tasks → ∃ i call workspaceKey,
    ev = .act i .reached ∧ c.calls[i]? = some call ∧ call.request.key = some workspaceKey ∧
      c.world.Owned task.id (workspaceIdentity workspaceKey)
  refused : ∀ i request workspaceKey taskId traceId, ev = .act i .reached →
    c.calls[i]? = some ⟨request, [], start env request⟩ →
    request.target = some (workspaceKey, taskId, traceId) →
    (∀ task ∈ c.world.db.tasks, task.id = taskId →
      ¬c.world.Owned task.id (workspaceIdentity workspaceKey)) →
    c'.world = c.world ∧ ∃ log, c'.calls[i]? = some ⟨request, log,
      .raise (raiseTaskFailure (.ofTask (.notFound "UserTask not found")) "get" traceId)⟩

/-- The event does not commit a task whose identity the database cannot read. -/
def legible (c : Calls) (ev : Event Request Input) : Bool :=
  match commits c ev with
  | some (.create under task) => task.metadata.jsonValid && plainWorkspace under
  | some (.update _ task _) => task.metadata.jsonValid
  | _ => true

/-! ## The register of identities -/

/-- What every run keeps: rows have their own identifiers, each is registered once, when it is
created, under the identity of some key. -/
structure Registered (w : World) : Prop where
  unique : Table.Unique UserTask.id w.db.tasks
  listed : w.owners.map Prod.fst = (w.db.tasks.map UserTask.id).reverse
  named : ∀ entry ∈ w.owners, ∃ workspaceKey, entry.2 = workspaceIdentity workspaceKey

section Register

variable {env : LegacyEnvironment} {c c' : Calls} {w : World}

theorem Commit.registered {ev : Event Request Input} (h : Commit env c ev c')
    (hw : Registered c.world) : Registered c'.world := by
  cases h with
  | idle _ h => rwa [h]
  | created under task _ hcreating hnew h =>
    rw [h]
    refine ⟨hw.unique.insert hnew, ?_, ?_⟩
    · simp [hw.listed]
    · intro entry hentry
      rcases List.mem_cons.mp hentry with rfl | hentry
      · obtain ⟨workspaceKey, hunder, -⟩ := hcreating.under
        exact ⟨workspaceKey, hunder⟩
      · exact hw.named entry hentry
  | changed i call workspaceKey task current old _ _ _ _ _ h =>
    rw [h]
    refine ⟨hw.unique.put, ?_, hw.named⟩
    show _ = (List.map UserTask.id (Table.put UserTask.id _ c.world.db.tasks)).reverse
    rw [Table.map_key_put]
    exact hw.listed

theorem Reachable.registered (h : Reachable env c) : Registered c.world := by
  obtain ⟨evs, hrun⟩ := h
  refine Reaches.induction (motive := fun c => Registered c.world) ⟨evs, hrun⟩ ?_ ?_
  · exact ⟨List.nodup_nil, rfl, fun _ hentry => by cases hentry⟩
  · intro c ev c' hc hreg he
    exact (Reachable.commit hc he).registered hreg

/-- A row has one registered identity, that of some key. -/
theorem Registered.owner (h : Registered w) {task : UserTask} (htask : task ∈ w.db.tasks) :
    ∃ workspaceKey, w.Owned task.id (workspaceIdentity workspaceKey) ∧
      ∀ owner, w.Owned task.id owner → owner = workspaceIdentity workspaceKey := by
  have hid : task.id ∈ w.owners.map Prod.fst := by
    rw [h.listed, List.mem_reverse]
    exact List.mem_map_of_mem htask
  obtain ⟨⟨taskId, owner⟩, hentry, rfl⟩ := List.mem_map.mp hid
  obtain ⟨workspaceKey, rfl⟩ := h.named _ hentry
  have hnodup : (w.owners.map Prod.fst).Nodup := by
    rw [h.listed]
    exact List.nodup_reverse.mpr h.unique
  exact ⟨workspaceKey, hentry, fun owner howner =>
    congrArg Prod.snd (List.inj_on_of_nodup_map hnodup howner hentry rfl)⟩

/-- An identifier that no row has is not registered. -/
theorem Registered.not_owned (h : Registered w) {taskId : String}
    (hnew : ∀ row ∈ w.db.tasks, row.id ≠ taskId) (owner : Workspace) : ¬w.Owned taskId owner := by
  intro howned
  have hid : taskId ∈ (w.db.tasks.map UserTask.id).reverse := by
    rw [← h.listed]
    exact List.mem_map_of_mem (f := Prod.fst) howned
  obtain ⟨row, hrow, rfl⟩ := List.mem_map.mp (List.mem_reverse.mp hid)
  exact hnew row hrow rfl

end Register

/-! ## Well filed tables -/

/-- The database reads from every row the identity it was created under. -/
structure WellFiled (w : World) : Prop where
  valid : ∀ task ∈ w.db.tasks, task.metadata.jsonValid = true
  filed : ∀ task ∈ w.db.tasks, ∀ owner, w.Owned task.id owner → filedUnder task.metadata = owner
  plain : ∀ task ∈ w.db.tasks, ∀ owner, w.Owned task.id owner → plainWorkspace owner = true

section Filed

variable {w : World} {workspaceKey : WorkspaceKey} {task : UserTask}

/-- The rows that a key sees are those of its identity. -/
theorem WellFiled.predicate (hw : WellFiled w) (hreg : Registered w) (htask : task ∈ w.db.tasks)
    (workspaceKey : WorkspaceKey) : workspacePredicate workspaceKey (values task) =
      decide (w.Owned task.id (workspaceIdentity workspaceKey)) := by
  obtain ⟨key, howned, honly⟩ := hreg.owner htask
  rw [Bool.eq_iff_iff, workspacePredicate_iff, decide_eq_true_eq, Seen, hw.valid task htask,
    hw.filed task htask _ howned]
  constructor
  · rintro ⟨-, heq⟩
    exact heq ▸ howned
  · intro hother
    exact ⟨rfl, (honly _ hother).symm⟩

/-- No check of the whole table fails. -/
theorem WellFiled.readable (hw : WellFiled w) {db : Database}
    (hsub : ∀ task ∈ db.tasks, task ∈ w.db.tasks) (workspaceKey : WorkspaceKey)
    (taskId : Option String) : db.ensureReadable workspaceKey taskId = .ok () := by
  unfold Database.ensureReadable Database.ensureValidMetadata
  split
  · rw [if_neg]
    simp only [List.any_eq_true, not_exists, not_and, Bool.and_eq_true, Bool.not_eq_true']
    intro task htask hinvalid
    rw [hw.valid task (hsub task htask)] at hinvalid
    cases hinvalid
  · rfl

theorem WellFiled.visible (hw : WellFiled w) (hreg : Registered w) (htask : task ∈ w.db.tasks)
    (howned : w.Owned task.id (workspaceIdentity workspaceKey)) :
    w.db.visible workspaceKey task.id = some task := by
  have hcongr : ∀ row ∈ w.db.tasks,
      (decide (row.id = task.id) && workspacePredicate workspaceKey (values row)) =
        decide (row.id = task.id) := by
    intro row hrow
    by_cases hid : row.id = task.id
    · rw [hw.predicate hreg hrow, hid]
      simp [howned]
    · simp [hid]
  unfold Database.visible
  rw [List.find?_congr hcongr]
  exact Table.find?_eq hreg.unique htask

theorem WellFiled.not_visible (hw : WellFiled w) (hreg : Registered w)
    {taskId : String} (hforeign : ∀ task ∈ w.db.tasks, task.id = taskId →
      ¬w.Owned task.id (workspaceIdentity workspaceKey)) :
    w.db.visible workspaceKey taskId = none := by
  unfold Database.visible
  rw [List.find?_eq_none]
  intro row hrow
  simp only [Bool.and_eq_true, decide_eq_true_eq, not_and]
  intro hid
  rw [hw.predicate hreg hrow, decide_eq_true_eq]
  exact hforeign row hrow hid

/-- A reading of a row under its identity. -/
theorem WellFiled.get_own (hw : WellFiled w) (hreg : Registered w) (htask : task ∈ w.db.tasks)
    (howned : w.Owned task.id (workspaceIdentity workspaceKey)) :
    w.db.get workspaceKey task.id = .ok task := by
  unfold Database.get
  rw [hw.readable (fun _ h => h), hw.visible hreg htask howned]
  rfl

/-- A reading of a row under another identity. -/
theorem WellFiled.get_foreign (hw : WellFiled w) (hreg : Registered w)
    {taskId : String} (hforeign : ∀ task ∈ w.db.tasks, task.id = taskId →
      ¬w.Owned task.id (workspaceIdentity workspaceKey)) :
    w.db.get workspaceKey taskId = .error (.notFound "UserTask not found") := by
  unfold Database.get
  rw [hw.readable (fun _ h => h), hw.not_visible hreg hforeign]
  rfl

/-- What `list` returns are rows that the key sees. -/
theorem list_sees {db : Database} {query : UserTaskQuery} {asOf : Option DateTime}
    {page : List UserTask} (h : db.list workspaceKey query asOf = .ok page) (htask : task ∈ page) :
    task ∈ db.tasks ∧ workspacePredicate workspaceKey (values task) = true := by
  obtain ⟨overdue, -, h⟩ := Except.of_bind_ok h
  obtain ⟨_, -, h⟩ := Except.of_bind_ok h
  rw [selectTasks_eq] at h
  cases h
  obtain ⟨hmem, hp⟩ := Query.mem_of_mem_select htask
  exact ⟨hmem, (Bool.and_eq_true _ _ ▸ hp).1⟩

/-- Some page of the list without filters has a row that the key sees. -/
theorem exists_list {db : Database} (hread : db.ensureReadable workspaceKey none = .ok ())
    (htask : task ∈ db.tasks) (hsees : workspacePredicate workspaceKey (values task) = true) :
    ∃ offset page, db.list workspaceKey (({} : UserTaskQuery).at offset) none = .ok page ∧
      task ∈ page := by
  obtain ⟨offset, hmem⟩ : ∃ offset, task ∈ Query.select
      (fun task => workspacePredicate workspaceKey (values task) &&
        [].all (Clause.sql (values task)))
      (fun a b => (values a).orderKey ≤ (values b).orderKey) ({} : UserTaskQuery).limit offset
      db.tasks :=
    Query.exists_mem_select ({} : UserTaskQuery).limitRange.1 htask (by simp [hsees])
  have hoverdue : overdueClauses (({} : UserTaskQuery).at offset).overdue none = .ok [] := rfl
  refine ⟨offset, _, ?_, hmem⟩
  rw [list_eq hoverdue hread, selectTasks_eq]
  rfl

/-- **A well filed table is isolated.** -/
theorem WellFiled.isolated (hw : WellFiled w) (hreg : Registered w) : Isolated w where
  owner task htask := by
    obtain ⟨key, howned, honly⟩ := hreg.owner htask
    exact ⟨_, howned, honly⟩
  own task htask workspaceKey howned := by
    refine ⟨hw.get_own hreg htask howned, ?_, ?_⟩
    · refine exists_list (hw.readable (fun _ h => h) _ _) htask ?_
      rw [hw.predicate hreg htask, decide_eq_true howned]
    · intro candidate hid
      refine ⟨⟨Table.put UserTask.id (committed candidate task.revision) w.db.tasks⟩, ?_⟩
      unfold Database.update
      rw [hid, hw.readable (fun _ h => h), hw.visible hreg htask howned]
      show (if task.revision = task.revision then _ else _) = _
      rw [if_pos rfl, ← hid]
      rfl
  foreign task htask workspaceKey hforeign := by
    have hall : ∀ row ∈ w.db.tasks, row.id = task.id →
        ¬w.Owned row.id (workspaceIdentity workspaceKey) := by
      intro row _ hid
      rwa [hid]
    refine ⟨hw.get_foreign hreg hall, ?_, ?_⟩
    · intro query asOf page hlist hmem
      obtain ⟨hrow, hsees⟩ := list_sees hlist hmem
      rw [hw.predicate hreg hrow, decide_eq_true_eq] at hsees
      exact hforeign hsees
    · intro candidate hid expectedRevision
      unfold Database.update
      rw [hid, hw.readable (fun _ h => h), hw.not_visible hreg hall]
      rfl
  get workspaceKey taskId := by
    have hvisible : (w.only (workspaceIdentity workspaceKey)).visible workspaceKey taskId =
        w.db.visible workspaceKey taskId := by
      unfold Database.visible World.only
      rw [List.find?_filter]
      refine List.find?_congr fun row hrow => ?_
      rw [hw.predicate hreg hrow]
      cases decide (w.Owned row.id (workspaceIdentity workspaceKey)) <;> simp
    unfold Database.get
    rw [hw.readable (fun _ h => h), hvisible, hw.readable (w.only_subset _)]
  list workspaceKey query asOf := by
    unfold Database.list
    rw [hw.readable (fun _ h => h), hw.readable (w.only_subset _)]
    simp only [selectTasks_eq, World.only]
    congr 1
    funext overdue
    rw [Query.select_filter]
    intro row hrow hp
    rw [Bool.and_eq_true] at hp
    rw [← hw.predicate hreg hrow]
    exact hp.1

/-- In an isolated table the database reads every row. -/
theorem Isolated.seen (h : Isolated w) (htask : task ∈ w.db.tasks)
    (howned : w.Owned task.id (workspaceIdentity workspaceKey)) : Seen workspaceKey task := by
  have hget := (h.own task htask workspaceKey howned).get
  obtain ⟨_, -, hget⟩ := Except.of_bind_ok hget
  split at hget
  · cases hget
  · rename_i row hvisible
    cases hget
    exact workspacePredicate_iff.mp (visible_some hvisible).2.2

end Filed

/-! ## Steps -/

section Steps

variable {env : LegacyEnvironment} {c c' : Calls} {ev : Event Request Input}

/-- A request keeps the metadata of a task, but for what the identity of its key replaces. -/
theorem result_metadata {request : Request} {workspaceKey : WorkspaceKey} {current task : UserTask}
    {now : DateTime} (hkey : request.key = some workspaceKey)
    (h : request.result env current now = some task) : task.metadata = current.metadata ∨
      task.metadata.workspace = canonicalWorkspaceMetadata workspaceKey := by
  cases request with
  | update key taskId edit =>
    simp only [Request.result] at h
    split at h
    · cases hedited : edited env.toEnvironment key edit current now with
      | error invalid =>
        rw [hedited] at h
        cases h
      | ok candidate =>
        rw [hedited] at h
        cases h
        cases hkey
        obtain ⟨-, -, -, -, -, hmetadata⟩ := edited_ok hedited
        rw [hmetadata]
        unfold TaskEdit.document
        cases edit.metadata with
        | none => exact .inl rfl
        | some metadata => exact .inr rfl
    · cases h
  | complete key taskId expectedRevision traceId =>
    simp only [Request.result] at h
    split at h
    · cases h
      exact .inl rfl
    · cases h
  | cancel key taskId expectedRevision traceId =>
    simp only [Request.result] at h
    split at h
    · cases h
      exact .inl rfl
    · cases h
  | reopen key taskId traceId =>
    simp only [Request.result] at h
    split at h
    · cases h
    · cases h
      exact .inl rfl
  | _ => cases h

/-- What a write leaves is filed as what it replaces. -/
theorem Writing.filed {request : Request} {log : Log Action Action.Reply}
    {workspaceKey : WorkspaceKey} {task current : UserTask} {w : World}
    (h : Writing env request log workspaceKey task w current)
    (hplain : plainWorkspace (workspaceIdentity workspaceKey) = true) :
    filedUnder task.metadata = workspaceIdentity workspaceKey := by
  obtain ⟨now, hresult⟩ := h.result
  rcases result_metadata h.key hresult with hmetadata | hworkspace
  · rw [hmetadata]
    exact (workspacePredicate_iff.mp h.seen).2
  · have hfiled :=
      filedUnder_canonical workspaceKey task.metadata.jsonValid task.metadata.intentHash
    rw [if_pos hplain, ← hworkspace] at hfiled
    exact hfiled

/-- The row that a call writes to is one of the identity of its key. -/
theorem WellFiled.visible_owned {w : World} (hw : WellFiled w) (hreg : Registered w)
    {workspaceKey : WorkspaceKey} {taskId : String} {old : UserTask}
    (h : w.db.visible workspaceKey taskId = some old) :
    w.Owned old.id (workspaceIdentity workspaceKey) := by
  obtain ⟨hmem, -, hsees⟩ := visible_some h
  rw [hw.predicate hreg hmem] at hsees
  exact of_decide_eq_true hsees

/-- **A legible step** keeps the table well filed. -/
theorem Commit.wellFiled (h : Commit env c ev c') (hreg : Registered c.world)
    (hw : WellFiled c.world) (hlegible : legible c ev = true) : WellFiled c'.world := by
  cases h with
  | idle _ h => rwa [h]
  | created under task hcommits hcreating hnew h =>
    simp only [legible, hcommits, Bool.and_eq_true] at hlegible
    obtain ⟨hvalid, hplain⟩ := hlegible
    obtain ⟨workspaceKey, hunder, hworkspace⟩ := hcreating.under
    have hfiled : filedUnder task.metadata = under := by
      have hcanonical :=
        filedUnder_canonical workspaceKey task.metadata.jsonValid task.metadata.intentHash
      rw [← hunder, if_pos hplain, ← hworkspace] at hcanonical
      exact hcanonical
    -- the identity of a row is that of the old register, or the new one
    have howner : ∀ row ∈ c'.world.db.tasks, ∀ owner, c'.world.Owned row.id owner →
        row ∈ c.world.db.tasks ∧ c.world.Owned row.id owner ∨ row = task ∧ owner = under := by
      rw [h]
      intro row hrow owner howned
      rcases List.mem_append.mp hrow with hrow | hrow
      · rcases List.mem_cons.mp howned with heq | howned
        · exact absurd (congrArg Prod.fst heq) (hnew row hrow)
        · exact .inl ⟨hrow, howned⟩
      · obtain rfl := List.mem_singleton.mp hrow
        rcases List.mem_cons.mp howned with heq | howned
        · exact .inr ⟨rfl, congrArg Prod.snd heq⟩
        · exact absurd howned (hreg.not_owned hnew owner)
    refine ⟨?_, ?_, ?_⟩
    · rw [h]
      intro row hrow
      rcases List.mem_append.mp hrow with hrow | hrow
      · exact hw.valid row hrow
      · exact List.mem_singleton.mp hrow ▸ hvalid
    · intro row hrow owner howned
      rcases howner row hrow owner howned with ⟨hrow, howned⟩ | ⟨rfl, rfl⟩
      · exact hw.filed row hrow owner howned
      · exact hfiled
    · intro row hrow owner howned
      rcases howner row hrow owner howned with ⟨hrow, howned⟩ | ⟨rfl, rfl⟩
      · exact hw.plain row hrow owner howned
      · exact hplain
  | changed i call workspaceKey task current old hev hi hcommits hwriting hold h =>
    simp only [legible, hcommits] at hlegible
    obtain ⟨hmem, hid, -⟩ := visible_some hold
    have howned := hw.visible_owned hreg hold
    have hplain := hw.plain old hmem _ howned
    -- a row is an old one, or the one written, of the identity of the key
    have hrows : ∀ row ∈ c'.world.db.tasks, row ∈ c.world.db.tasks ∨
        row = committed task old.revision ∧ ∀ owner, c'.world.Owned row.id owner →
          owner = workspaceIdentity workspaceKey := by
      rw [h]
      intro row hrow
      rcases Table.mem_put.mp hrow with ⟨rfl, -⟩ | ⟨hrow, -⟩
      · refine .inr ⟨rfl, fun owner hother => ?_⟩
        obtain ⟨key, -, honly⟩ := hreg.owner hmem
        rw [honly _ howned]
        exact honly owner (hid ▸ hother)
      · exact .inl hrow
    have hsame : ∀ taskId owner, c'.world.Owned taskId owner → c.world.Owned taskId owner := by
      rw [h]
      exact fun _ _ hother => hother
    refine ⟨?_, ?_, ?_⟩
    · intro row hrow
      rcases hrows row hrow with hrow | ⟨rfl, -⟩
      · exact hw.valid row hrow
      · exact hlegible
    · intro row hrow owner hother
      rcases hrows row hrow with hrow | ⟨rfl, honly⟩
      · exact hw.filed row hrow owner (hsame _ _ hother)
      · rw [honly owner hother]
        exact hwriting.filed hplain
    · intro row hrow owner hother
      rcases hrows row hrow with hrow | ⟨rfl, honly⟩
      · exact hw.plain row hrow owner (hsame _ _ hother)
      · rw [honly owner hother]
        exact hplain

/-- **Any other step** leaves a task that its identity does not see. -/
theorem Commit.not_isolated (h : Commit env c ev c') (hreg : Registered c.world)
    (hlegible : legible c ev = false) : ¬Isolated c'.world := by
  intro hisolated
  cases h with
  | idle hcommits _ =>
    rw [legible, hcommits] at hlegible
    cases hlegible
  | created under task hcommits hcreating hnew h =>
    obtain ⟨workspaceKey, hunder, hworkspace⟩ := hcreating.under
    rw [h] at hisolated
    have howned : World.Owned ⟨⟨c.world.db.tasks ++ [task]⟩, (task.id, under) :: c.world.owners⟩
        task.id (workspaceIdentity workspaceKey) := by
      rw [← hunder]
      exact List.mem_cons_self ..
    obtain ⟨hvalid, hfiled⟩ := hisolated.seen
      (List.mem_append_right _ (List.mem_singleton_self task)) howned
    simp only [legible, hcommits, hvalid, Bool.true_and] at hlegible
    -- the database reads the default identity, and that is plain
    have hcanonical :=
      filedUnder_canonical workspaceKey task.metadata.jsonValid task.metadata.intentHash
    rw [← hunder, hlegible, ← hworkspace] at hcanonical
    have hdefault : under = .default := by
      rw [hunder, ← hfiled]
      exact hcanonical
    rw [hdefault, plainWorkspace_default] at hlegible
    cases hlegible
  | changed i call workspaceKey task current old hev hi hcommits hwriting hold h =>
    have hreg' := Commit.registered
      (.changed i call workspaceKey task current old hev hi hcommits hwriting hold h) hreg
    obtain ⟨hmem, hid, -⟩ := visible_some hold
    have hrow : committed task old.revision ∈ c'.world.db.tasks := by
      rw [h]
      exact Table.mem_put_self hmem hid
    obtain ⟨key, howned, -⟩ := hreg'.owner hrow
    have hvalid : task.metadata.jsonValid = true := (hisolated.seen hrow howned).1
    simp only [legible, hcommits, hvalid, Bool.true_eq_false] at hlegible

/-- A request that names a task begins by reading it. -/
theorem start_target {request : Request} {workspaceKey : WorkspaceKey} {taskId traceId : String}
    (h : request.target = some (workspaceKey, taskId, traceId)) :
    ∃ next, start env request = .await (.get workspaceKey taskId) next ∧
      ∀ e, next (.error e) = .raise (raiseTaskFailure (.ofTask e) "get" traceId) := by
  cases request <;> simp only [Request.target, Option.some.injEq, Prod.mk.injEq, reduceCtorEq] at h
  all_goals
    obtain ⟨rfl, rfl, rfl⟩ := h
    exact ⟨_, rfl, fun e => rfl⟩

/-- What a step of a well filed table changes belongs to the call. -/
theorem Reachable.ownOnly (hreach : Reachable env c) (hw : WellFiled c.world)
    (he : step handler (start env) c ev = some c') : OwnOnly env c ev c' := by
  have hreg := hreach.registered
  have hcommit := hreach.commit he
  refine ⟨?_, ?_, ?_⟩
  · intro taskId owner howned
    cases hcommit with
    | idle _ h => rwa [h]
    | created under task _ _ _ h =>
      rw [h]
      exact List.mem_cons_of_mem _ howned
    | changed i call workspaceKey task current old _ _ _ _ _ h => rwa [h]
  · intro task htask hgone
    cases hcommit with
    | idle _ h => exact absurd (h ▸ htask) hgone
    | created under new _ _ _ h =>
      rw [h] at hgone
      exact absurd (List.mem_append_left _ htask) hgone
    | changed i call workspaceKey new current old hev hi _ hwriting hold h =>
      refine ⟨i, call, workspaceKey, hev, hi, hwriting.key, ?_⟩
      have hid : task.id = new.id := by
        by_contra hne
        rw [h] at hgone
        exact hgone (Table.mem_put_of_ne htask hne)
      obtain ⟨hmem, holdId, -⟩ := visible_some hold
      obtain rfl := hreg.unique.eq htask hmem (hid.trans holdId.symm)
      exact hw.visible_owned hreg hold
  · rintro i request workspaceKey taskId traceId rfl hi htarget hforeign
    obtain ⟨next, hstart, hnext⟩ := @start_target env _ _ _ _ htarget
    have hget := hw.get_foreign hreg hforeign
    rcases step_cases he with ⟨k, hk, -⟩ | ⟨j, input, k, log, e, next', r, w, hev, hj, hr, rfl⟩
    · cases hk
    · cases hev
      rw [hi, hstart] at hj
      simp only [Option.some.injEq, Call.mk.injEq, Program.await.injEq] at hj
      obtain ⟨rfl, rfl, rfl, hheq⟩ := hj
      obtain rfl := eq_of_heq hheq
      simp only [handler, hget, Option.some.injEq, Prod.mk.injEq] at hr
      obtain ⟨rfl, rfl⟩ := hr
      refine ⟨rfl, [⟨.get workspaceKey taskId, .error (.notFound "UserTask not found")⟩], ?_⟩
      rw [← hnext, List.getElem?_set_self (List.getElem?_eq_some_iff.mp hi).1]
      rfl

/-- **Isolation of workspaces.** In every run of legible events the tasks are isolated, every step
changes only what belongs to its call, and the tasks are isolated after it exactly when it is
legible. -/
theorem isolation_law (env : LegacyEnvironment) :
    ∀ c, ReachesIf handler (start env) legible (idle World.initial) c → Isolated c.world ∧
      ∀ ev c', step handler (start env) c ev = some c' →
        OwnOnly env c ev c' ∧ (Isolated c'.world ↔ legible c ev = true) := by
  intro c h
  have hfiled : WellFiled c.world := by
    refine h.induction (motive := fun d => WellFiled d.world) ?_ ?_
    · constructor
      all_goals
        intro task htask
        cases htask
    · intro d ev d' hd hfiled hlegible he
      exact (Reachable.commit hd.reaches he).wellFiled (Reachable.registered hd.reaches) hfiled
        hlegible
  have hreach : Reachable env c := h.reaches
  refine ⟨hfiled.isolated hreach.registered, fun ev c' he => ⟨hreach.ownOnly hfiled he, ?_⟩⟩
  have hcommit := hreach.commit he
  constructor
  · intro hisolated
    by_contra hnot
    exact hcommit.not_isolated hreach.registered (Bool.eq_false_iff.mpr hnot) hisolated
  · intro hlegible
    exact (hcommit.wellFiled hreach.registered hfiled hlegible).isolated
      (hcommit.registered hreach.registered)

end Steps

/-! ## Runs -/

namespace Scenario

/-- The key of a tenant. -/
def tenant (name : String) : WorkspaceKey :=
  { tenantId := name, workspaceId := "w", nameSpace := "n" }

/-- Tasks of two tenants; the second tries to complete the task of the first. -/
def twoTenants : List (Event Request Input) := [
  .arrive (.create (tenant " a ") { id := "ut_1", title := "reply" }), .act 0 (.clock (hour 8)),
  .act 0 .reached,
  .arrive (.create (tenant "b") { id := "ut_2", title := "call" }), .act 1 (.clock (hour 8)),
  .act 1 .reached,
  .arrive (.complete (tenant "b") "ut_1" none ""), .act 2 .reached]

/-- A tenant whose name begins with a NUL creates a task. -/
def nulTenant : List (Event Request Input) := [
  .arrive (.create (tenant "\x00a") { id := "ut_1", title := "reply" }), .act 0 (.clock (hour 8)),
  .act 0 .reached]

/-- A tenant creates a task whose metadata has a number that is not finite, and is left so. -/
def notFinite : List (Event Request Input) := [
  .arrive (.create (tenant "a")
    { id := "ut_1", title := "reply", metadata := { jsonValid := false } }),
  .act 0 (.clock (hour 8)), .act 0 .reached]

end Scenario

/-- Under a name that begins with a NUL, a tenant does not see the task it has created, and the
default identity does; and a task whose metadata is not JSON to the database is not seen by its
tenant, and there is no list of the tasks of the default identity. -/
theorem not_isolated :
    (¬ ∀ c, Reachable Scenario.env c → Isolated c.world) ∧
    (Scenario.after Scenario.nulTenant).world.db.get (Scenario.tenant "\x00a") "ut_1" =
      .error (.notFound "UserTask not found") ∧
    ((Scenario.after Scenario.nulTenant).world.db.get {} "ut_1").isOk = true ∧
    (Scenario.after Scenario.notFinite).world.db.get (Scenario.tenant "a") "ut_1" =
      .error (.notFound "UserTask not found") ∧
    (Scenario.after Scenario.notFinite).world.db.list {} {} none =
      .error (.persistence "UserTask persisted metadata is malformed") := by
  refine ⟨fun h => ?_, by decide +kernel, by decide +kernel, by decide +kernel, by decide +kernel⟩
  have hisolated := h _ (@Scenario.reachable Scenario.nulTenant (by decide +kernel))
  obtain ⟨task, htask⟩ : ∃ task, (Scenario.after Scenario.nulTenant).world.db.tasks = [task] :=
    List.length_eq_one_iff.mp (by decide +kernel)
  have hmem : task ∈ (Scenario.after Scenario.nulTenant).world.db.tasks := by
    rw [htask]
    exact List.mem_singleton_self _
  have howned : (Scenario.after Scenario.nulTenant).world.db.tasks.all (fun task =>
      (Scenario.after Scenario.nulTenant).world.Owned task.id
        (workspaceIdentity (Scenario.tenant "\x00a")) &&
      !workspacePredicate (Scenario.tenant "\x00a") (values task)) = true := by
    decide +kernel
  have hall := List.all_eq_true.mp howned task hmem
  rw [Bool.and_eq_true, decide_eq_true_eq, Bool.not_eq_true'] at hall
  have hsees := workspacePredicate_iff.mpr (hisolated.seen hmem hall.1)
  exact absurd (hsees.symm.trans hall.2) (by simp)

/-- The tasks of the two tenants are isolated. -/
theorem isolation_law_scenario : Isolated (Scenario.after Scenario.twoTenants).world :=
  (isolation_law Scenario.env _ (Scenario.reachableIf (by decide +kernel))).1

end UserTasks

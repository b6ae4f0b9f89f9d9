import AiLabOs.UserTask.Repository

/-!
# User tasks: the list filters

A list query compares stored texts, and the filters mean comparisons of instants and the
workspace the metadata names. The two agree on a task unless one of its instants is at the
boundary of a bound: equal to it, or the start of its second. A lower bound lets the start of its
second in; an upper bound leaves it out, and with it the bound itself.

## Main definitions

* `UserTaskQuery.wants`: the tasks a query is for
* `ListExact`: the query, read page by page, gives exactly these tasks of the workspace
* `Clause.LetsIn`, `Clause.LeavesOut`: a condition that disagrees on a task
* `filedUnder`, `Seen`: the workspace the database reads from the metadata of a task

## Main results

* `list_filters_exact`: a query is exact when no task is let in or left out wrongly
-/

namespace UserTasks

/-! ## What a query is for -/

/-- The filters on a task, with the overdue filter at `asOf`: not overdue are the active tasks with
a due instant that has not passed. -/
def UserTaskQuery.wants (query : UserTaskQuery) (asOf : DateTime) (task : UserTask) : Bool :=
  (query.status.all fun s => task.status = s) && (query.priority.all fun p => task.priority = p) &&
  (query.dueFrom.all fun bound => task.dueAt.any fun due => bound ≤ due) &&
  (query.dueTo.all fun bound => task.dueAt.any fun due => due ≤ bound) &&
  (query.completedFrom.all fun bound => task.completedAt.any fun done => bound ≤ done) &&
  (query.completedTo.all fun bound => task.completedAt.any fun done => done < bound) &&
  (query.cancelledFrom.all fun bound => task.cancelledAt.any fun done => bound ≤ done) &&
  (query.cancelledTo.all fun bound => task.cancelledAt.any fun done => done < bound) &&
  match query.overdue with
  | none => true
  | some true => task.isOverdue asOf
  | some false => task.status = .active && task.dueAt.isSome && !task.isOverdue asOf

/-- The metadata of the task names the workspace. -/
def UserTask.ownedBy (task : UserTask) (workspaceKey : WorkspaceKey) : Bool :=
  workspaceOf task.metadata = workspaceIdentity workspaceKey

/-- **The query is exact**: enough pages of it hold exactly the tasks of the workspace that it is
for, each once. -/
def ListExact (db : Database) (workspaceKey : WorkspaceKey) (query : UserTaskQuery)
    (asOf : DateTime) : Prop :=
  ∀ count, db.tasks.length ≤ count * query.limit →
    ∃ pages : List (List UserTask),
      (List.range count).map (fun k => db.list workspaceKey (query.at (k * query.limit)) asOf) =
        pages.map .ok ∧
      pages.flatten.Perm
        (db.tasks.filter fun task => task.ownedBy workspaceKey && query.wants asOf task)

/-- All conditions of a query whose instant is resolved. -/
def UserTaskQuery.allClauses (query : UserTaskQuery) (asOf : DateTime) : List Clause :=
  query.clauses ++
  match query.overdue with
  | none => []
  | some true => [.status .active, .notNull .dueAt, .before .dueAt asOf]
  | some false => [.status .active, .notNull .dueAt, .atLeast .dueAt asOf]

/-- The condition on a task, in instants. -/
def Clause.holds (task : UserTask) : Clause → Bool
  | .status s => task.status = s
  | .priority p => task.priority = p
  | .notNull column => (column.instant task).isSome
  | .atLeast column bound => (column.instant task).any fun d => bound ≤ d
  | .atMost column bound => (column.instant task).any fun d => d ≤ bound
  | .before column bound => (column.instant task).any fun d => d < bound

/-- A lower bound lets in the start of its second, which is earlier. -/
def Clause.LetsIn (task : UserTask) : Clause → Prop
  | .atLeast column bound =>
    column.instant task = some bound.wholeSecond ∧ bound.microsecond ≠ 0
  | _ => False

/-- An upper bound leaves out the start of its second and, where it is inclusive, itself. -/
def Clause.LeavesOut (task : UserTask) : Clause → Prop
  | .atMost column bound =>
    column.instant task = some bound ∨ column.instant task = some bound.wholeSecond
  | .before column bound =>
    column.instant task = some bound.wholeSecond ∧ bound.microsecond ≠ 0
  | _ => False

/-- The workspace the database reads from the metadata. -/
def filedUnder (metadata : Metadata) : Workspace :=
  (completeWorkspace metadata.workspace).getD .default

/-- The metadata is JSON to the database, and names the workspace that asks. -/
def Seen (workspaceKey : WorkspaceKey) (task : UserTask) : Prop :=
  task.metadata.jsonValid = true ∧ filedUnder task.metadata = workspaceIdentity workspaceKey

/-- The task is not for the query, and is let in: the database reads the workspace from its metadata
and every condition lets it in or holds, but it is the task of another workspace, or a lower bound
is at the boundary. -/
def LetIn (workspaceKey : WorkspaceKey) (query : UserTaskQuery) (asOf : DateTime)
    (task : UserTask) : Prop :=
  Seen workspaceKey task ∧
    (task.ownedBy workspaceKey = false ∨ ∃ c ∈ query.allClauses asOf, c.LetsIn task) ∧
    ∀ c ∈ query.allClauses asOf, ¬c.LeavesOut task ∧ (c.LetsIn task ∨ c.holds task)

/-- The task is for the query, and is left out: the database does not read its workspace from its
metadata, or an upper bound is at the boundary. -/
def LeftOut (workspaceKey : WorkspaceKey) (query : UserTaskQuery) (asOf : DateTime)
    (task : UserTask) : Prop :=
  task.ownedBy workspaceKey = true ∧ query.wants asOf task ∧
    (¬Seen workspaceKey task ∨ ∃ c ∈ query.allClauses asOf, c.LeavesOut task)

/-! ## One condition -/

section Conditions

variable {task : UserTask} {asOf : DateTime} {query : UserTaskQuery}

theorem Column.text_values (column : Column) (task : UserTask) :
    column.text (values task) = (column.instant task).map DateTime.toJson := by
  cases column <;> rfl

theorem status_value_inj {s t : UserTaskStatus} (h : s.value = t.value) : s = t := by
  simpa using congrArg statusOfText h

theorem priority_value_inj {p q : UserTaskPriority} (h : p.value = q.value) : p = q := by
  simpa using congrArg priorityOfText h

/-- In the text a condition holds when it lets the task in, or holds and does not leave it out. -/
theorem Clause.sql_iff (c : Clause) :
    c.sql (values task) = true ↔ c.LetsIn task ∨ c.holds task = true ∧ ¬c.LeavesOut task := by
  cases c with
  | status s =>
    simp only [sql, holds, LetsIn, LeavesOut, decide_eq_true_eq, false_or, not_false_eq_true,
      and_true]
    exact ⟨status_value_inj, fun h => congrArg UserTaskStatus.value h⟩
  | priority p =>
    simp only [sql, holds, LetsIn, LeavesOut, decide_eq_true_eq, false_or, not_false_eq_true,
      and_true]
    exact ⟨priority_value_inj, fun h => congrArg UserTaskPriority.value h⟩
  | notNull column => simp [sql, holds, LetsIn, LeavesOut, column.text_values]
  | atLeast column bound =>
    simp only [sql, holds, LetsIn, LeavesOut, column.text_values]
    cases column.instant task with
    | none => simp
    | some d =>
      simp only [Option.map_some, Option.any_some, decide_eq_true_eq, Option.some.injEq,
        not_false_eq_true, and_true, DateTime.isoformat_le_toJson]
      constructor
      · rintro (hle | rfl)
        · exact .inr hle
        · by_cases h0 : bound.microsecond = 0
          · exact .inr (DateTime.wholeSecond_eq h0).ge
          · exact .inl ⟨rfl, h0⟩
      · rintro (⟨rfl, -⟩ | hle)
        · exact .inr rfl
        · exact .inl hle
  | atMost column bound =>
    simp only [sql, holds, LetsIn, LeavesOut, column.text_values]
    cases column.instant task with
    | none => simp
    | some d =>
      simp only [Option.map_some, Option.any_some, decide_eq_true_eq, Option.some.injEq,
        false_or, DateTime.toJson_le_isoformat, not_or]
      constructor
      · rintro ⟨hlt, hne⟩
        exact ⟨hlt.le, hlt.ne, hne⟩
      · rintro ⟨hle, hne, hne'⟩
        exact ⟨lt_of_le_of_ne hle hne, hne'⟩
  | before column bound =>
    simp only [sql, holds, LetsIn, LeavesOut, column.text_values]
    cases column.instant task with
    | none => simp
    | some d =>
      simp only [Option.map_some, Option.any_some, decide_eq_true_eq, Option.some.injEq,
        false_or, DateTime.toJson_lt_isoformat, not_and, not_not]
      constructor
      · rintro ⟨hlt, hne⟩
        exact ⟨hlt, fun h => absurd h hne⟩
      · rintro ⟨hlt, h⟩
        refine ⟨hlt, fun hd => ?_⟩
        rw [hd, DateTime.wholeSecond_eq (h hd)] at hlt
        exact lt_irrefl _ hlt

/-- A condition that lets a task in does not hold of it. -/
theorem Clause.LetsIn.not_holds {c : Clause} (h : c.LetsIn task) : c.holds task = false := by
  cases c with
  | atLeast column bound =>
    obtain ⟨hd, h0⟩ := h
    simp [holds, hd, DateTime.wholeSecond_lt h0]
  | _ => exact h.elim

theorem Clause.LetsIn.not_leavesOut {c : Clause} (h : c.LetsIn task) : ¬c.LeavesOut task := by
  cases c with
  | atLeast column bound => exact id
  | _ => exact h.elim

/-- The filters are the conditions, read in instants. -/
theorem UserTaskQuery.wants_eq (query : UserTaskQuery) (asOf : DateTime) (task : UserTask) :
    query.wants asOf task = (query.allClauses asOf).all (Clause.holds task) := by
  have hall : ∀ {α : Type} (o : Option α) (f : α → Clause),
      (o.toList.map f).all (Clause.holds task) = o.all fun a => (f a).holds task := by
    intro α o f
    cases o <;> simp
  have hoverdue : (match query.overdue with
      | none => true
      | some true => task.isOverdue asOf
      | some false => task.status = .active && task.dueAt.isSome && !task.isOverdue asOf) =
      (match query.overdue with
      | none => []
      | some true => [Clause.status .active, .notNull .dueAt, .before .dueAt asOf]
      | some false => [Clause.status .active, .notNull .dueAt, .atLeast .dueAt asOf]).all
        (Clause.holds task) := by
    cases query.overdue with
    | none => rfl
    | some b =>
      cases b <;> cases hdue : task.dueAt <;>
        simp [UserTask.isOverdue, Clause.holds, Column.instant, hdue, ← not_lt]
      cases task.status <;> simp
  unfold wants allClauses clauses
  rw [hoverdue]
  simp only [List.all_append, hall]
  rfl

end Conditions

/-! ## The workspace -/

/-- **The rows a workspace sees.** -/
theorem workspacePredicate_iff {workspaceKey : WorkspaceKey} {task : UserTask} :
    workspacePredicate workspaceKey (values task) = true ↔ Seen workspaceKey task := by
  unfold workspacePredicate Seen filedUnder
  show (if task.metadata.jsonValid then _ else _) = true ↔ _
  by_cases hjson : task.metadata.jsonValid = true
  · rw [if_pos hjson]
    rw [show (values task).metadata = task.metadata from rfl]
    cases completeWorkspace task.metadata.workspace with
    | none => simp [hjson, eq_comm]
    | some stored => simp [hjson]
  · simp [hjson]

/-! ## The query -/

section Exact

variable {db : Database} {workspaceKey : WorkspaceKey} {query : UserTaskQuery} {asOf : DateTime}
variable {task : UserTask}

/-- The condition of the query on a row. -/
def rowClause (workspaceKey : WorkspaceKey) (query : UserTaskQuery) (asOf : DateTime)
    (task : UserTask) : Bool :=
  workspacePredicate workspaceKey (values task) &&
    (query.allClauses asOf).all (Clause.sql (values task))

/-- The condition on the row and the meaning of the query agree on a task exactly when it is
neither let in nor left out wrongly. -/
theorem rowClause_eq_iff : rowClause workspaceKey query asOf task =
      (task.ownedBy workspaceKey && query.wants asOf task) ↔
    ¬LetIn workspaceKey query asOf task ∧ ¬LeftOut workspaceKey query asOf task := by
  have hrow : rowClause workspaceKey query asOf task = true ↔ Seen workspaceKey task ∧
      ∀ c ∈ query.allClauses asOf, c.LetsIn task ∨ c.holds task = true ∧ ¬c.LeavesOut task := by
    rw [rowClause, Bool.and_eq_true, workspacePredicate_iff, List.all_eq_true]
    simp only [Clause.sql_iff]
  have hwants : query.wants asOf task = true ↔
      ∀ c ∈ query.allClauses asOf, c.holds task = true := by
    rw [query.wants_eq, List.all_eq_true]
  rw [Bool.eq_iff_iff, hrow, Bool.and_eq_true, LetIn, LeftOut, hwants]
  constructor
  · intro hiff
    constructor
    · rintro ⟨hseen, hwrong, hall⟩
      obtain ⟨hown, hholds⟩ := hiff.mp ⟨hseen, fun c hc =>
        (hall c hc).2.imp_right fun h => ⟨h, (hall c hc).1⟩⟩
      rcases hwrong with hother | ⟨c, hc, hin⟩
      · exact absurd (hown.symm.trans hother) (by simp)
      · exact absurd (hin.not_holds.symm.trans (hholds c hc)) (by simp)
    · rintro ⟨hown, hholds, hout⟩
      obtain ⟨hseen, hall⟩ := hiff.mpr ⟨hown, hholds⟩
      rcases hout with hunseen | ⟨c, hc, hleaves⟩
      · exact hunseen hseen
      · rcases hall c hc with hin | ⟨-, hnot⟩
        · exact absurd (hin.not_holds.symm.trans (hholds c hc)) (by simp)
        · exact hnot hleaves
  · rintro ⟨hnotin, hnotout⟩
    constructor
    · rintro ⟨hseen, hall⟩
      have hall' : ∀ c ∈ query.allClauses asOf,
          ¬c.LeavesOut task ∧ (c.LetsIn task ∨ c.holds task) := by
        intro c hc
        rcases hall c hc with hin | ⟨hholds, hnot⟩
        · exact ⟨hin.not_leavesOut, .inl hin⟩
        · exact ⟨hnot, .inr hholds⟩
      have hright : ¬(task.ownedBy workspaceKey = false ∨
          ∃ c ∈ query.allClauses asOf, c.LetsIn task) :=
        fun hwrong => hnotin ⟨hseen, hwrong, hall'⟩
      simp only [not_or, not_exists, not_and, Bool.not_eq_false] at hright
      exact ⟨hright.1, fun c hc => (hall' c hc).2.resolve_left (hright.2 c hc)⟩
    · rintro ⟨hown, hholds⟩
      have hright : ¬(¬Seen workspaceKey task ∨ ∃ c ∈ query.allClauses asOf, c.LeavesOut task) :=
        fun hout => hnotout ⟨hown, hholds, hout⟩
      simp only [not_or, not_not, not_exists, not_and] at hright
      exact ⟨hright.1, fun c hc => .inr ⟨hholds c hc, hright.2 c hc⟩⟩

/-- The tasks on one page of a query. -/
def pageTasks (db : Database) (workspaceKey : WorkspaceKey) (query : UserTaskQuery)
    (asOf : DateTime) (offset : ℕ) : List UserTask :=
  Query.select (rowClause workspaceKey query asOf)
    (fun a b => (values a).orderKey ≤ (values b).orderKey) query.limit offset db.tasks

theorem mapM_taskOfRow (tasks : List UserTask) :
    (tasks.map values).mapM taskOfRow = some tasks := by
  induction tasks with
  | nil => rfl
  | cons task tasks ih => simp [ih]

/-- Every row is one the default workspace can read, where it is the default workspace that asks. -/
def Readable (db : Database) (workspaceKey : WorkspaceKey) : Prop :=
  isDefaultWorkspace workspaceKey = true → ∀ task ∈ db.tasks, task.metadata.jsonValid = true

theorem ensureReadable_ok :
    db.ensureReadable workspaceKey none = .ok () ↔ Readable db workspaceKey := by
  unfold Database.ensureReadable Database.ensureValidMetadata Readable
  by_cases hdefault : isDefaultWorkspace workspaceKey = true
  · rw [if_pos hdefault]
    split
    · rename_i hany
      simp only [List.any_eq_true, Option.all_none, Bool.and_true, Bool.not_eq_true'] at hany
      obtain ⟨task, htask, hbad⟩ := hany
      refine iff_of_false nofun fun hall => ?_
      rw [hall hdefault task htask] at hbad
      cases hbad
    · rename_i hany
      simp only [List.any_eq_true, Option.all_none, Bool.and_true, Bool.not_eq_true', not_exists,
        not_and, Bool.not_eq_false] at hany
      exact iff_of_true rfl fun _ => hany
  · rw [if_neg hdefault]
    exact iff_of_true rfl fun h => absurd h hdefault

/-- The `SELECT` of a list gives tasks: every row it finds is read back. -/
theorem selectTasks_eq (clauses : List Clause) (limit offset : ℕ) :
    db.selectTasks workspaceKey clauses limit offset = .ok (Query.select
      (fun task => workspacePredicate workspaceKey (values task) &&
        clauses.all (Clause.sql (values task)))
      (fun a b => (values a).orderKey ≤ (values b).orderKey) limit offset db.tasks) := by
  unfold Database.selectTasks
  simp only [Query.select_map, mapM_taskOfRow]

/-- A list whose conditions are resolved and whose rows can be read. -/
theorem list_eq {asOf : Option DateTime} {overdue : List Clause}
    (hoverdue : overdueClauses query.overdue asOf = .ok overdue)
    (hread : db.ensureReadable workspaceKey none = .ok ()) :
    db.list workspaceKey query asOf =
      db.selectTasks workspaceKey (query.clauses ++ overdue) query.limit query.offset := by
  rw [Database.list]
  show (overdueClauses query.overdue asOf >>= fun overdue =>
    db.ensureReadable workspaceKey none >>= fun _ =>
      db.selectTasks workspaceKey (query.clauses ++ overdue) query.limit query.offset) = _
  rw [hoverdue, hread]
  rfl

/-- Without an unreadable row, `list` gives the page of the tasks. -/
theorem list_ok (h : Readable db workspaceKey) (offset : ℕ) :
    db.list workspaceKey (query.at offset) (some asOf) =
      .ok (pageTasks db workspaceKey query asOf offset) := by
  have hclauses : ∃ overdue, overdueClauses query.overdue (some asOf) = .ok overdue ∧
      query.clauses ++ overdue = query.allClauses asOf := by
    unfold UserTaskQuery.allClauses
    match query.overdue with
    | none => exact ⟨_, rfl, rfl⟩
    | some true => exact ⟨_, rfl, rfl⟩
    | some false => exact ⟨_, rfl, rfl⟩
  obtain ⟨overdue, hoverdue, hall⟩ := hclauses
  have hlist : db.list workspaceKey (query.at offset) (some asOf) = _ :=
    list_eq hoverdue (ensureReadable_ok.mpr h)
  rw [hlist]
  show db.selectTasks workspaceKey (query.clauses ++ overdue) query.limit offset = _
  rw [hall, selectTasks_eq]
  rfl

/-- With an unreadable row, the default workspace gets no list. -/
theorem list_fails (h : ¬Readable db workspaceKey) (asOf : Option DateTime)
    {tasks : List UserTask} : db.list workspaceKey query asOf ≠ .ok tasks := by
  intro hlist
  obtain ⟨overdue, -, hlist⟩ := Except.of_bind_ok hlist
  obtain ⟨_, hread, -⟩ := Except.of_bind_ok hlist
  exact h (ensureReadable_ok.mp hread)

/-- A query is exact when it can be read and its condition on rows agrees with its meaning. -/
theorem listExact_iff_agrees : ListExact db workspaceKey query asOf ↔
    Readable db workspaceKey ∧ ∀ task ∈ db.tasks, rowClause workspaceKey query asOf task =
      (task.ownedBy workspaceKey && query.wants asOf task) := by
  have hflat : ∀ count, ((List.range count).map fun k =>
      pageTasks db workspaceKey query asOf (k * query.limit)).flatten =
        Query.pages query.limit count (pageTasks db workspaceKey query asOf) := by
    intro count
    rw [Query.pages, List.flatMap_def]
  have hlist : Readable db workspaceKey → ∀ count, (List.range count).map (fun k =>
      db.list workspaceKey (query.at (k * query.limit)) asOf) = ((List.range count).map fun k =>
        pageTasks db workspaceKey query asOf (k * query.limit)).map .ok := by
    intro hread count
    simp [list_ok hread]
  have hlimit := query.limitRange.1
  constructor
  · intro h
    have hread : Readable db workspaceKey := by
      by_contra hread
      -- a table with an unreadable row has a first page, which fails
      have hpos : 0 < db.tasks.length := by
        rw [List.length_pos_iff]
        rintro hnil
        exact hread fun _ task htask => by simp [hnil] at htask
      obtain ⟨pages, hpages, -⟩ := h db.tasks.length (Nat.le_mul_of_pos_right _ hlimit)
      obtain ⟨n, hn⟩ := Nat.exists_eq_succ_of_ne_zero hpos.ne'
      have hfirst := congrArg List.head? hpages
      rw [hn, List.range_succ_eq_map] at hfirst
      cases pages with
      | nil => simp at hfirst
      | cons page pages => exact list_fails hread _ (by simpa using hfirst)
    refine ⟨hread, Query.filter_perm_filter.mp ?_⟩
    have hcount := Nat.le_mul_of_pos_right db.tasks.length hlimit
    obtain ⟨pages, hpages, hperm⟩ := h db.tasks.length hcount
    rw [hlist hread] at hpages
    obtain rfl := List.map_injective_iff.mpr (fun _ _ => Except.ok.inj) hpages
    rw [hflat] at hperm
    exact (Query.pages_select hcount).symm.trans hperm
  · rintro ⟨hread, htasks⟩ count hcount
    refine ⟨_, hlist hread count, ?_⟩
    rw [hflat]
    exact (Query.pages_select hcount).trans (Query.filter_perm_filter.mpr htasks)

/-- **The list filters are exact** when no row is unreadable to the default workspace that asks and
no task is let in or left out wrongly, and only then. -/
theorem list_filters_exact (db : Database) (workspaceKey : WorkspaceKey) (query : UserTaskQuery)
    (asOf : DateTime) : ListExact db workspaceKey query asOf ↔
      Readable db workspaceKey ∧ ∀ task ∈ db.tasks,
        ¬LetIn workspaceKey query asOf task ∧ ¬LeftOut workspaceKey query asOf task := by
  rw [listExact_iff_agrees]
  simp only [rowClause_eq_iff]

end Exact

/-! ## At the boundary -/

namespace Boundary

/-- A whole second. -/
def eight : DateTime := ⟨2026, 7, 23, 8, 0, 0, 0, by decide⟩

/-- Half a second later. -/
def later : DateTime := ⟨2026, 7, 23, 8, 0, 0, 500000, by decide⟩

/-- An active task of the default workspace, due at the whole second. -/
def task : UserTask where
  id := "ut_1"
  title := "reply"
  dueAt := some eight
  createdAt := eight
  updatedAt := eight
  metadata := { workspace := canonicalWorkspaceMetadata {} }

end Boundary

/-- A task due at the inclusive bound is left out; one due half a second before a lower bound is let
in; and one overdue by half a second is not overdue. -/
theorem list_filters_disagree :
    ¬ListExact ⟨[Boundary.task]⟩ {} { dueTo := some Boundary.eight } Boundary.eight ∧
    ¬ListExact ⟨[Boundary.task]⟩ {} { dueFrom := some Boundary.later } Boundary.eight ∧
    ¬ListExact ⟨[Boundary.task]⟩ {} { overdue := some true } Boundary.later := by
  have hmem : Boundary.task ∈ (⟨[Boundary.task]⟩ : Database).tasks := List.mem_singleton_self _
  refine ⟨fun h => ?_, fun h => ?_, fun h => ?_⟩
  · exact absurd ((listExact_iff_agrees.mp h).2 _ hmem) (by decide)
  · exact absurd ((listExact_iff_agrees.mp h).2 _ hmem) (by decide)
  · exact absurd ((listExact_iff_agrees.mp h).2 _ hmem) (by decide)

end UserTasks

import AiLabOs.WaitingFor.Repository

/-!
# Waiting-For: the list views

A view is a condition on stored texts, and the model says in instants which items it is for. The
two agree except at a boundary: an instant that equals the asking instant, or that starts its
second, has a text that comes after the asking text.

## Main definitions

* `WaitingForView.holds`: the items a view is for
* `ViewExact`: a view, read page by page, gives exactly these items of the workspace
* `Overlooked`: an item the view is for and leaves out

## Main results

* `viewExact_iff`: a view is exact when it overlooks no item
-/

namespace WaitingFors

/-- The items a view is for. -/
def WaitingForView.holds (view : WaitingForView) (now : DateTime) (item : WaitingFor) : Bool :=
  match view with
  | .opened => item.status = .opened
  | .due => item.reviewDue now
  | .overdue => item.expectedOverdue now
  | .attention => item.attentionDue now
  | .resolved => item.status = .resolved
  | .cancelled => item.status = .cancelled
  | .all => true

/-- The workspace of the key owns the item. -/
def WaitingFor.ownedBy (item : WaitingFor) (workspaceKey : WorkspaceKey) : Bool :=
  item.workspaceKey = canonicalWorkspace workspaceKey

/-- **The view is exact**: enough pages of it, of any size, hold exactly the items of the workspace
that it is for, each once. -/
def ViewExact (db : Database) (workspaceKey : WorkspaceKey) (view : WaitingForView)
    (now : DateTime) : Prop :=
  ∀ limit count, 0 < limit → db.items.length ≤ count * limit →
    ∃ pages : List WaitingForPage,
      (List.range count).map (fun k => db.list workspaceKey view now limit (k * limit)) =
        pages.map .ok ∧
      (pages.flatMap WaitingForPage.items).Perm
        (db.items.filter fun item => item.ownedBy workspaceKey && view.holds now item)

/-- The item's next review is due, and its text says so. -/
def DueInText (now : DateTime) (item : WaitingFor) : Prop :=
  ∃ next ∈ item.nextReviewAt, next < now ∧ next ≠ now.wholeSecond

/-- The item is expected by an instant that has passed, and its text says so. -/
def OverdueInText (now : DateTime) (item : WaitingFor) : Prop :=
  ∃ expected ∈ item.expectedBy, expected < now ∧ expected ≠ now.wholeSecond

/-- The next review is at the asking instant or at the start of its second. -/
def DueAtBoundary (now : DateTime) (item : WaitingFor) : Prop :=
  ∃ next ∈ item.nextReviewAt, next = now ∨ next = now.wholeSecond

/-- The item is expected by the start of the asking instant's second, some time ago. -/
def OverdueAtBoundary (now : DateTime) (item : WaitingFor) : Prop :=
  ∃ expected ∈ item.expectedBy, expected = now.wholeSecond ∧ now.microsecond ≠ 0

/-- **An item the view is for and leaves out**: open, with an instant at the boundary, and for the
view of both kinds with no other instant that shows in the text. -/
def Overlooked (view : WaitingForView) (now : DateTime) (item : WaitingFor) : Prop :=
  item.status = .opened ∧
  match view with
  | .due => DueAtBoundary now item
  | .overdue => OverdueAtBoundary now item
  | .attention =>
    (DueAtBoundary now item ∨ OverdueAtBoundary now item) ∧ ¬DueInText now item ∧
      ¬OverdueInText now item
  | _ => False

/-! ## One item -/

section Item

variable {now : DateTime} {item : WaitingFor}

theorem dueText_iff :
    ((itemValues item).nextReviewAt.any fun s => s ≤ now.isoformat) = true ↔
      DueInText now item := by
  unfold itemValues DueInText
  cases item.nextReviewAt with
  | none => simp
  | some next => simp [DateTime.toJson_le_isoformat]

theorem overdueText_iff :
    ((itemValues item).expectedBy.any fun s => s < now.isoformat) = true ↔
      OverdueInText now item := by
  unfold itemValues OverdueInText
  cases item.expectedBy with
  | none => simp
  | some expected => simp only [Option.map_some, Option.any_some, decide_eq_true_eq,
      DateTime.toJson_lt_isoformat, Option.mem_some_iff, exists_eq_left']

/-- Due means due in the text or at the boundary, and not both. -/
theorem due_iff : (item.nextReviewAt.any fun next => next ≤ now) = true ↔
    DueInText now item ∨ DueAtBoundary now item := by
  unfold DueInText DueAtBoundary
  cases item.nextReviewAt with
  | none => simp
  | some next =>
    simp only [Option.any_some, decide_eq_true_eq, Option.mem_some_iff, exists_eq_left']
    constructor
    · intro hle
      by_cases hwhole : next = now.wholeSecond
      · exact .inr (.inr hwhole)
      · rcases hle.lt_or_eq with hlt | heq
        · exact .inl ⟨hlt, hwhole⟩
        · exact .inr (.inl heq)
    · rintro (⟨hlt, -⟩ | rfl | rfl)
      · exact hlt.le
      · exact le_rfl
      · exact now.wholeSecond_le

theorem due_disjoint : DueInText now item → ¬DueAtBoundary now item := by
  rintro ⟨next, hnext, hlt, hne⟩ ⟨next', hnext', h⟩
  obtain rfl := Option.mem_unique hnext hnext'
  rcases h with rfl | rfl
  · exact lt_irrefl _ hlt
  · exact hne rfl

/-- Overdue means overdue in the text or at the boundary, and not both. -/
theorem overdue_iff : (item.expectedBy.any fun expected => expected < now) = true ↔
    OverdueInText now item ∨ OverdueAtBoundary now item := by
  unfold OverdueInText OverdueAtBoundary
  cases item.expectedBy with
  | none => simp
  | some expected =>
    simp only [Option.any_some, decide_eq_true_eq, Option.mem_some_iff, exists_eq_left']
    constructor
    · intro hlt
      by_cases hwhole : expected = now.wholeSecond
      · refine .inr ⟨hwhole, fun h0 => ?_⟩
        rw [hwhole, DateTime.wholeSecond_eq h0] at hlt
        exact lt_irrefl _ hlt
      · exact .inl ⟨hlt, hwhole⟩
    · rintro (⟨hlt, -⟩ | ⟨rfl, h0⟩)
      · exact hlt
      · exact DateTime.wholeSecond_lt h0

theorem overdue_disjoint : OverdueInText now item → ¬OverdueAtBoundary now item := by
  rintro ⟨expected, hexp, -, hne⟩ ⟨expected', hexp', h, -⟩
  obtain rfl := Option.mem_unique hexp hexp'
  exact hne h

theorem status_value_eq {status : WaitingForStatus} :
    (item.status.value = status.value) ↔ item.status = status := by
  constructor
  · intro h
    have := congrArg statusOfText h
    simpa using this
  · intro h
    rw [h]

/-- The condition on texts and the model agree on an item exactly when the view does not overlook
it. -/
theorem viewClause_eq_iff {workspaceKey : WorkspaceKey} {view : WaitingForView} :
    viewClause (canonicalWorkspace workspaceKey) view now (itemValues item) =
        (item.ownedBy workspaceKey && view.holds now item) ↔
      (item.ownedBy workspaceKey = true → ¬Overlooked view now item) := by
  have howned : (((itemValues item).tenantId = (canonicalWorkspace workspaceKey).tenantId) ∧
      ((itemValues item).workspaceId = (canonicalWorkspace workspaceKey).workspaceId)) ∧
      ((itemValues item).nameSpace = (canonicalWorkspace workspaceKey).nameSpace) ↔
      item.ownedBy workspaceKey = true := by
    rw [WaitingFor.ownedBy, decide_eq_true_eq, Workspace.ext_iff, and_assoc]
    rfl
  have hstatus : ∀ status : WaitingForStatus, (itemValues item).status = status.value ↔
      item.status = status := fun _ => status_value_eq
  rw [Bool.eq_iff_iff]
  unfold viewClause
  simp only [Bool.and_eq_true, decide_eq_true_eq, howned]
  by_cases hown : item.ownedBy workspaceKey = true
  · simp only [hown, true_and, true_implies]
    cases view with
    | opened => simp [Overlooked, WaitingForView.holds, hstatus]
    | resolved => simp [Overlooked, WaitingForView.holds, hstatus]
    | cancelled => simp [Overlooked, WaitingForView.holds, hstatus]
    | all => simp [Overlooked, WaitingForView.holds]
    | due =>
      simp only [Overlooked, WaitingForView.holds, WaitingFor.reviewDue, Bool.and_eq_true,
        decide_eq_true_eq, hstatus, dueText_iff, due_iff]
      have : DueInText now item → ¬DueAtBoundary now item := due_disjoint
      tauto
    | overdue =>
      simp only [Overlooked, WaitingForView.holds, WaitingFor.expectedOverdue, Bool.and_eq_true,
        decide_eq_true_eq, hstatus, overdueText_iff, overdue_iff]
      have : OverdueInText now item → ¬OverdueAtBoundary now item := overdue_disjoint
      tauto
    | attention =>
      simp only [Overlooked, WaitingForView.holds, WaitingFor.attentionDue, WaitingFor.reviewDue,
        WaitingFor.expectedOverdue, Bool.and_eq_true, Bool.or_eq_true, decide_eq_true_eq, hstatus,
        dueText_iff, due_iff, overdueText_iff, overdue_iff]
      tauto
  · simp [hown]

end Item

/-! ## The view -/

section View

variable {db : Database} {workspaceKey : WorkspaceKey} {view : WaitingForView} {now : DateTime}

/-- The items on one page of a view. -/
def pageItems (db : Database) (workspaceKey : WorkspaceKey) (view : WaitingForView)
    (now : DateTime) (limit offset : ℕ) : List WaitingFor :=
  Query.select (fun item => viewClause (canonicalWorkspace workspaceKey) view now (itemValues item))
    (fun a b => (itemValues a).orderKey ≤ (itemValues b).orderKey) limit offset db.items

theorem mapM_itemOfRow (items : List WaitingFor) :
    (items.map itemValues).mapM itemOfRow = some items := by
  induction items with
  | nil => rfl
  | cons item items ih => simp [ih]

/-- `list` never fails on stored rows, and gives the page of the items. -/
theorem list_ok (db : Database) (workspaceKey : WorkspaceKey) (view : WaitingForView)
    (now : DateTime) (limit offset : ℕ) :
    ∃ page, db.list workspaceKey view now limit offset = .ok page ∧
      page.items = pageItems db workspaceKey view now limit offset := by
  have hrows : ((Query.select (viewClause (canonicalWorkspace workspaceKey) view now)
      (fun a b => a.orderKey ≤ b.orderKey) (limit + 1) offset (db.items.map itemValues)).take
        limit).mapM itemOfRow = some (pageItems db workspaceKey view now limit offset) := by
    rw [Query.take_select, Query.select_map, mapM_itemOfRow]
    rfl
  unfold Database.list
  simp only [hrows]
  exact ⟨_, rfl, rfl⟩

/-- **A view is exact** when it overlooks no item of the workspace, and only then. -/
theorem viewExact_iff : ViewExact db workspaceKey view now ↔
    ∀ item ∈ db.items, item.ownedBy workspaceKey = true → ¬Overlooked view now item := by
  choose page hpage hitems using list_ok db workspaceKey view now
  have hflat : ∀ limit count,
      ((List.range count).map fun k => page limit (k * limit)).flatMap WaitingForPage.items =
        Query.pages limit count (pageItems db workspaceKey view now limit) := by
    intro limit count
    simp [Query.pages, List.flatMap_map, hitems]
  have hlist : ∀ limit count,
      (List.range count).map (fun k => db.list workspaceKey view now limit (k * limit)) =
        ((List.range count).map fun k => page limit (k * limit)).map .ok := by
    intro limit count
    simp [hpage]
  have hagree : (db.items.filter fun item =>
        viewClause (canonicalWorkspace workspaceKey) view now (itemValues item)).Perm
      (db.items.filter fun item => item.ownedBy workspaceKey && view.holds now item) ↔
      ∀ item ∈ db.items, item.ownedBy workspaceKey = true → ¬Overlooked view now item := by
    rw [Query.filter_perm_filter]
    simp only [viewClause_eq_iff]
  rw [← hagree]
  constructor
  · intro h
    obtain ⟨pages, hpages, hperm⟩ := h (db.items.length + 1) 1 (by omega) (by omega)
    rw [hlist] at hpages
    obtain rfl := List.map_injective_iff.mpr (fun _ _ => Except.ok.inj) hpages
    rw [hflat] at hperm
    exact (Query.pages_select (by omega)).symm.trans hperm
  · intro h limit count _ hcount
    refine ⟨_, hlist limit count, ?_⟩
    rw [hflat]
    exact (Query.pages_select hcount).trans h

/-- **The filtered views are exact** when no open item of the workspace has an instant at the
boundary, and only then. -/
theorem filtered_views_exact (db : Database) (workspaceKey : WorkspaceKey) (now : DateTime) :
    (∀ view ∈ [WaitingForView.due, .overdue, .attention], ViewExact db workspaceKey view now) ↔
      ∀ item ∈ db.items, item.ownedBy workspaceKey = true → item.status = .opened →
        ¬DueAtBoundary now item ∧ ¬OverdueAtBoundary now item := by
  simp only [List.forall_mem_cons, List.not_mem_nil, IsEmpty.forall_iff, implies_true, and_true,
    viewExact_iff]
  constructor
  · rintro ⟨hdue, hoverdue, -⟩ item hitem hown hopen
    exact ⟨fun h => hdue item hitem hown ⟨hopen, h⟩, fun h => hoverdue item hitem hown ⟨hopen, h⟩⟩
  · intro h
    refine ⟨fun item hitem hown ho => ?_, fun item hitem hown ho => ?_,
      fun item hitem hown ho => ?_⟩
    · exact (h item hitem hown ho.1).1 ho.2
    · exact (h item hitem hown ho.1).2 ho.2
    · rcases ho.2.1 with hb | hb
      · exact (h item hitem hown ho.1).1 hb
      · exact (h item hitem hown ho.1).2 hb

end View

/-! ## At the boundary -/

namespace Boundary

/-- A whole second. -/
def eight : DateTime := ⟨2026, 7, 22, 8, 0, 0, 0, by decide⟩

/-- Half a second later. -/
def later : DateTime := ⟨2026, 7, 22, 8, 0, 0, 500000, by decide⟩

/-- An open item, to be reviewed and expected at the whole second. -/
def item : WaitingFor where
  id := "wf_1"
  workspaceKey := .default
  subject := "reply"
  waitingOn := "owner"
  context := ""
  status := .opened
  expectedBy := some eight
  nextReviewAt := some eight
  timezone := "UTC"
  linkedUserTaskId := none
  linkedReminderId := none
  source := "api"
  createdAt := eight
  updatedAt := eight
  resolvedAt := none
  cancelledAt := none
  resolutionNote := ""
  metadata := ⟨"{}"⟩
  revision := 1
  validState := validateState_ok (by decide)

end Boundary

/-- An item due at the asking instant is on neither view of due items, and one expected half a
second ago is not overdue. -/
theorem filtered_views_leave_out :
    ¬ViewExact ⟨[Boundary.item], []⟩ {} .due Boundary.eight ∧
    ¬ViewExact ⟨[Boundary.item], []⟩ {} .attention Boundary.eight ∧
    ¬ViewExact ⟨[Boundary.item], []⟩ {} .overdue Boundary.later := by
  have hmem : Boundary.item ∈ (⟨[Boundary.item], []⟩ : Database).items := List.mem_singleton_self _
  have hown : Boundary.item.ownedBy {} = true := by decide
  refine ⟨fun h => ?_, fun h => ?_, fun h => ?_⟩
  · exact viewExact_iff.mp h _ hmem hown ⟨rfl, _, rfl, .inl rfl⟩
  · refine viewExact_iff.mp h _ hmem hown ⟨rfl, .inl ⟨_, rfl, .inl rfl⟩, ?_, ?_⟩
    · rintro ⟨next, hnext, hlt, -⟩
      cases hnext
      exact lt_irrefl _ hlt
    · rintro ⟨expected, hexp, hlt, -⟩
      cases hexp
      exact lt_irrefl _ hlt
  · exact viewExact_iff.mp h _ hmem hown ⟨rfl, _, rfl, by decide, by decide⟩

end WaitingFors

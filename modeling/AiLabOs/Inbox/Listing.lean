import AiLabOs.Base.Ranking
import AiLabOs.Inbox.Clock
import Mathlib.Data.List.Pairwise

/-!
# Inbox: the order of a listing

`list` orders rows by the text of `created_at`, the JSON text of the instant. That text leaves out a
fraction of zero and ends in `Z`, which comes after the point of a fraction. So an item of a whole
second is listed before every item created later in the same second.

## Main definitions

* `Database.list`: one page of a listing
* `PagesPartition`: the pages of a listing hold every item it asks for, once
* `ListsNewestFirst`: and put together they run from the newest item to the oldest

## Main results

* `pages_partition`: the pages always partition
* `listsNewestFirst_iff`: they are newest first exactly when any two items of one second are alike
-/

namespace Inbox

open Database

/-- `InboxPage`. -/
structure InboxPage where
  items : List InboxItem
  status : Option InboxStatus
  limit : ℕ
  offset : ℕ
  hasMore : Bool

namespace Database

/-- The `WHERE` clauses of `list`. -/
def listed (workspace : Workspace) (status : Option InboxStatus) (row : InboxItem) : Bool :=
  row.workspace = workspace && status.all fun s => row.status = s

/-- The columns `list` orders by. -/
def orderKey (row : InboxItem) : String ×ₗ String := toLex (row.createdAt.toJson, row.id)

/-- `ORDER BY created_at DESC, id DESC`. -/
def listOrder (a b : InboxItem) : Prop := orderKey b ≤ orderKey a

instance : DecidableRel listOrder := fun a b =>
  inferInstanceAs (Decidable (orderKey b ≤ orderKey a))

instance : Std.Total listOrder := ⟨fun a b => le_total (orderKey b) (orderKey a)⟩

instance : IsTrans InboxItem listOrder := ⟨fun _ _ _ hab hbc => le_trans hbc hab⟩

/-- `list`. One more row than the page holds tells whether there is another page. -/
def list (db : Database) (workspace : Workspace) (status : Option InboxStatus)
    (limit offset : ℕ) : Except RepositoryError InboxPage :=
  let rows := Query.select (listed workspace status) listOrder (limit + 1) offset db.items
  match (rows.take limit).mapM validateItem with
  | .error _ => .error .validation
  | .ok items =>
    -- `InboxPage` has `limit: int = Field(ge=1)`.
    if limit = 0 then .error .validation
    else .ok { items, status, limit, offset, hasMore := limit < rows.length }

end Database

/-! ## The meaning of a listing -/

/-- Newest first, with the identifier as the tie-break. -/
def newerFirst (a b : InboxItem) : Prop := toLex (b.createdAt, b.id) ≤ toLex (a.createdAt, a.id)

/-- The first `count` pages of `limit` items. -/
def listPages (db : Database) (workspace : Workspace) (status : Option InboxStatus)
    (limit count : ℕ) : List (Except RepositoryError InboxPage) :=
  (List.range count).map fun k => db.list workspace status limit (k * limit)

/-- **The pages partition**: enough pages of any size hold every item that is asked for, once, and
each page tells whether items are left after it. -/
def PagesPartition (db : Database) (workspace : Workspace) (status : Option InboxStatus)
    (limit count : ℕ) (pages : List InboxPage) : Prop :=
  listPages db workspace status limit count = pages.map .ok ∧
    (pages.flatMap InboxPage.items).Perm (db.items.filter (listed workspace status)) ∧
    ∀ page ∈ pages, page.hasMore =
      decide (page.offset + page.limit < (db.items.filter (listed workspace status)).length)

/-- **A listing is newest first and its pages partition**, for every size of a page. -/
def ListsNewestFirst (db : Database) (workspace : Workspace) (status : Option InboxStatus) : Prop :=
  ∀ limit, 1 ≤ limit → ∀ count, db.items.length ≤ count * limit → ∃ pages,
    PagesPartition db workspace status limit count pages ∧
      (pages.flatMap InboxPage.items).Pairwise newerFirst

/-! ## Pages -/

section Pages

variable {db : Database} {workspace : Workspace} {status : Option InboxStatus}

/-- The listing as a whole, in the order of the texts. -/
def wholeList (db : Database) (workspace : Workspace) (status : Option InboxStatus) :
    List InboxItem :=
  (db.items.filter (listed workspace status)).insertionSort listOrder

theorem wholeList_perm : (wholeList db workspace status).Perm
    (db.items.filter (listed workspace status)) :=
  List.perm_insertionSort listOrder _

/-- Rows that are read back are read as they are. -/
theorem mapM_validateItem {rows : List InboxItem} (h : ∀ row ∈ rows, row.Valid) :
    rows.mapM validateItem = .ok rows := by
  induction rows with
  | nil => rfl
  | cons row rows ih =>
    rw [List.forall_mem_cons] at h
    rw [List.mapM_cons, show validateItem row = .ok row from h.1, ih h.2]
    rfl

/-- The page of a listing at an offset. -/
def pageAt (db : Database) (workspace : Workspace) (status : Option InboxStatus)
    (limit offset : ℕ) : InboxPage where
  items := Query.page limit offset (wholeList db workspace status)
  status := status
  limit := limit
  offset := offset
  hasMore := offset + limit < (wholeList db workspace status).length

/-- **One page** is a stretch of the whole listing. -/
theorem list_eq (hdb : db.Readable) {limit : ℕ} (hlimit : 1 ≤ limit) (offset : ℕ) :
    db.list workspace status limit offset = .ok (pageAt db workspace status limit offset) := by
  have hrows : (Query.select (listed workspace status) listOrder (limit + 1) offset db.items).take
      limit = Query.page limit offset (wholeList db workspace status) :=
    Query.take_select ..
  have hvalid : ∀ row ∈ Query.page limit offset (wholeList db workspace status), row.Valid := by
    intro row hrow
    have hmem := wholeList_perm.mem_iff.mp (List.mem_of_mem_drop (List.mem_of_mem_take hrow))
    exact hdb row (List.mem_filter.mp hmem).1
  have hmore : decide (limit < (Query.select (listed workspace status) listOrder (limit + 1) offset
      db.items).length) = decide (offset + limit < (wholeList db workspace status).length) := by
    show decide (limit < (Query.page (limit + 1) offset (wholeList db workspace status)).length) = _
    rw [Query.page, List.length_take, List.length_drop, decide_eq_decide]
    omega
  unfold Database.list
  simp only [hrows, mapM_validateItem hvalid, if_neg (Nat.one_le_iff_ne_zero.mp hlimit), hmore]
  rfl

theorem listPages_eq (hdb : db.Readable) {limit : ℕ} (hlimit : 1 ≤ limit) (count : ℕ) :
    listPages db workspace status limit count =
      ((List.range count).map fun k => pageAt db workspace status limit (k * limit)).map .ok := by
  rw [listPages, List.map_map]
  exact List.map_congr_left fun k _ => list_eq hdb hlimit _

/-- **Enough pages** put together are the whole listing. -/
theorem flatMap_pageAt {limit count : ℕ} (hcount : db.items.length ≤ count * limit) :
    (((List.range count).map fun k => pageAt db workspace status limit (k * limit)).flatMap
      InboxPage.items) = wholeList db workspace status := by
  have hlength : (wholeList db workspace status).length ≤ count * limit := by
    rw [wholeList_perm.length_eq]
    exact (List.length_filter_le ..).trans hcount
  rw [List.flatMap_map]
  show Query.pages limit count (fun offset =>
    Query.page limit offset (wholeList db workspace status)) = _
  rw [Query.pages_page, List.take_of_length_le hlength]

/-- **The pages of a listing partition it**, whatever the instants are. -/
theorem pages_partition (hdb : db.Readable) {limit count : ℕ} (hlimit : 1 ≤ limit)
    (hcount : db.items.length ≤ count * limit) : ∃ pages,
      PagesPartition db workspace status limit count pages ∧
        pages.flatMap InboxPage.items = wholeList db workspace status := by
  refine ⟨_, ⟨listPages_eq hdb hlimit count, ?_, ?_⟩, flatMap_pageAt hcount⟩
  · rw [flatMap_pageAt hcount]
    exact wholeList_perm
  · intro page hpage
    obtain ⟨k, -, rfl⟩ := List.mem_map.mp hpage
    rw [← wholeList_perm.length_eq]
    rfl

theorem listsNewestFirst_iff_pairwise (hdb : db.Readable) :
    ListsNewestFirst db workspace status ↔
      (wholeList db workspace status).Pairwise newerFirst := by
  constructor
  · intro h
    obtain ⟨pages, ⟨hpages, -, -⟩, hsorted⟩ := h 1 le_rfl db.items.length (by omega)
    rw [listPages_eq hdb le_rfl] at hpages
    obtain rfl := List.map_injective_iff.mpr (fun _ _ => Except.ok.inj) hpages
    rwa [flatMap_pageAt (by omega)] at hsorted
  · intro h limit hlimit count hcount
    obtain ⟨pages, hpartition, heq⟩ := pages_partition hdb hlimit hcount
    exact ⟨pages, hpartition, heq ▸ h⟩

end Pages

/-! ## Order -/

section Order

variable {a b : InboxItem}

/-- **Two items** are listed newest first, whichever is stored first, exactly when their instants
are alike. -/
theorem listed_alike_iff :
    ((listOrder a b → newerFirst a b) ∧ (¬listOrder a b → newerFirst b a)) ↔
      a.createdAt.Alike b.createdAt := by
  have horder : listOrder a b ↔ b.createdAt.toJson < a.createdAt.toJson ∨
      b.createdAt = a.createdAt ∧ b.id ≤ a.id := by
    rw [listOrder, orderKey, orderKey, Prod.Lex.toLex_le_toLex, DateTime.toJson_injective.eq_iff]
  have hnewer : ∀ c d : InboxItem, newerFirst c d ↔
      d.createdAt < c.createdAt ∨ d.createdAt = c.createdAt ∧ d.id ≤ c.id :=
    fun c d => Prod.Lex.toLex_le_toLex
  rw [DateTime.alike_iff, horder, hnewer, hnewer]
  rcases eq_or_ne a.createdAt b.createdAt with heq | htimes
  · -- At one instant both orders go by the identifier.
    simp only [heq, lt_irrefl, true_and, false_or, iff_self, and_self, iff_true, imp_self]
    exact fun h => (not_le.mp h).le
  · have htexts : a.createdAt.toJson ≠ b.createdAt.toJson :=
      fun h => htimes (DateTime.toJson_injective h)
    simp only [htimes, htimes.symm, false_and, or_false]
    rcases lt_or_gt_of_ne htimes with hlt | hlt <;>
      rcases lt_or_gt_of_ne htexts with htext | htext <;>
      simp [hlt, hlt.not_gt, htext, htext.not_gt]

end Order

/-- **A listing is newest first and its pages partition** exactly when, of the items it asks for, no
two were created in one second, one of them at the whole second and the other not. -/
theorem listsNewestFirst_iff {db : Database} (hdb : db.Stored) (workspace : Workspace)
    (status : Option InboxStatus) : ListsNewestFirst db workspace status ↔
      ∀ a ∈ db.items, ∀ b ∈ db.items, listed workspace status a = true →
        listed workspace status b = true → a.createdAt.Alike b.createdAt := by
  have hids : (db.items.filter (listed workspace status)).Pairwise fun a b => a.id ≠ b.id :=
    (List.pairwise_map.mp hdb.unique).filter _
  have hnodup : (db.items.filter (listed workspace status)).Nodup :=
    hids.imp fun h heq => h (congrArg _ heq)
  rw [listsNewestFirst_iff_pairwise hdb.readable, wholeList,
    Ranking.pairwise_insertionSort_iff hnodup]
  constructor
  · intro h a ha b hb hpa hpb
    have halike : (db.items.filter (listed workspace status)).Pairwise fun a b =>
        a.createdAt.Alike b.createdAt :=
      h.imp fun h => listed_alike_iff.mp h
    have : Std.Symm fun a b : InboxItem => a.createdAt.Alike b.createdAt :=
      ⟨fun c d hcd heq => (hcd heq.symm).symm⟩
    exact halike.forall_of_forall (fun _ _ _ => Iff.rfl) (List.mem_filter.mpr ⟨ha, hpa⟩)
      (List.mem_filter.mpr ⟨hb, hpb⟩)
  · intro h
    refine hids.imp_of_mem fun {a b} ha hb _ => listed_alike_iff.mpr ?_
    obtain ⟨ha, hpa⟩ := List.mem_filter.mp ha
    obtain ⟨hb, hpb⟩ := List.mem_filter.mp hb
    exact h a ha b hb hpa hpb

/-! ## Two items of one second -/

namespace SameSecond

/-- A whole second. -/
def noon : DateTime := ⟨2026, 7, 23, 12, 0, 0, 0, DateTime.valid_noon⟩

/-- A quarter of a second later. -/
def quarter : DateTime := ⟨2026, 7, 23, 12, 0, 0, 250000, by decide⟩

/-- Half a second later. -/
def later : DateTime := ⟨2026, 7, 23, 12, 0, 0, 500000, by decide⟩

/-- An item captured at an instant. -/
def captured (id : String) (instant : DateTime) : InboxItem where
  id := id
  workspace := .default
  content := "reply"
  source := "cli"
  createdAt := instant
  updatedAt := instant

/-- Two items, created at these instants. -/
def pair (a b : DateTime) : Database :=
  { Database.empty with items := [captured "a" a, captured "b" b] }

/-- The second is created half a second after the first. -/
def db : Database := pair noon later

theorem captured_valid {id : String} {instant : DateTime} (hid : 1 ≤ id.length ∧ id.length ≤ 80) :
    (captured id instant).Valid := by
  have hcontent : requiredText "content" 4000 "reply" = .ok "reply" := by decide
  have hsource : requiredText "source" 64 "cli" = .ok "cli" := by decide
  rw [InboxItem.Valid, validateItem_iff]
  refine ⟨hid, hcontent, hsource, ?_, rfl, rfl, le_rfl, ?_, rfl⟩
  · rintro targetId ⟨⟩
  · simp [validateState, captured, check]
    rfl

theorem pair_stored (a b : DateTime) : (pair a b).Stored where
  unique := by
    show ["a", "b"].Nodup
    decide
  readable := by
    intro row hrow
    rcases List.mem_cons.mp hrow with rfl | hrow
    · exact captured_valid (by decide)
    · exact List.mem_singleton.mp hrow ▸ captured_valid (by decide)
  claims := stored_empty.claims

end SameSecond

/-- The older of two items of one second is listed first. -/
theorem not_listsNewestFirst : ¬ListsNewestFirst SameSecond.db .default none := by
  intro h
  have hsorted : (wholeList SameSecond.db .default none).Pairwise newerFirst :=
    (listsNewestFirst_iff_pairwise (SameSecond.pair_stored _ _).readable).mp h
  have hwhole : wholeList SameSecond.db .default none =
      [SameSecond.captured "a" SameSecond.noon, SameSecond.captured "b" SameSecond.later] := by
    decide +kernel
  rw [hwhole, List.pairwise_pair] at hsorted
  exact absurd hsorted (by unfold newerFirst; decide)

/-- Two items that were created within one second, neither at the whole second, are listed with the
newer one first. -/
theorem fractions_newestFirst :
    (wholeList (SameSecond.pair SameSecond.quarter SameSecond.later) .default none).map
        InboxItem.id = ["b", "a"] ∧
      ListsNewestFirst (SameSecond.pair SameSecond.quarter SameSecond.later) .default none := by
  refine ⟨by decide +kernel,
    (listsNewestFirst_iff (SameSecond.pair_stored _ _) .default none).mpr ?_⟩
  have hfractions : ∀ row ∈ (SameSecond.pair SameSecond.quarter SameSecond.later).items,
      row.createdAt.microsecond ≠ 0 := by
    decide
  intro a ha b hb _ _ _
  exact iff_of_false (hfractions a ha) (hfractions b hb)

end Inbox

import AiLabOs.Base.Query
import AiLabOs.Base.Selection
import AiLabOs.DailyReview.Models
import Mathlib.Data.Int.Order.Basic
import Mathlib.Data.String.Basic

/-!
# Daily Review: finalisation

The candidates of the five sources become a review: one candidate is kept for each source entity,
the kept ones are put in the order of display, and a query cuts a page out of them. Nothing depends
on the order in which the sources answer, pages of any sizes fit together, and no page is refused
by the models it is built of.

## Main definitions

* `Candidate`, `selectionKey`, `sortKey`: what a source proposes, and the two orders
* `orderedCandidates`: the finalised list
* `finalize`: `_finalize`
* `readPages`: the pages a reader asks for, each from the end of the one before

## Main results

* `finalizeOrdered_eq`: what a page is, and when it is accepted
* `items_reviewOf`: a page shows its part of the finalised list
* `finalize_law`: order-independence, selection, order of display, and pages that partition
-/

namespace DailyReviews

/-- `_SECTION_PRIORITY`. -/
def sectionPriority : SectionName → ℕ
  | .blocked => 0
  | .followUps => 1
  | .inProgress => 2
  | .completed => 3
  | .informational => 4
  | .pendingInbox => 5

/-- `_SOURCE_PRIORITY`. -/
def sourcePriority : DailyReviewSourceType → ℕ
  | .workLog => 0
  | .userTask => 1
  | .waitingFor => 2
  | .reminder => 3
  | .inbox => 4

theorem sourcePriority_injective : Function.Injective sourcePriority := by
  intro a b h
  cases a <;> cases b <;> first | rfl | cases h

/-- `_Candidate`. -/
structure Candidate where
  sectionName : SectionName
  severity : ℤ
  item : DailyReviewItem
deriving DecidableEq

/-- `_Candidate.identity`. -/
def Candidate.identity (candidate : Candidate) : DailyReviewSourceType × String :=
  (candidate.item.sourceType, candidate.item.sourceId.val)

/-- `_selection_key`. -/
def selectionKey (candidate : Candidate) : ℕ ×ₗ ℤ ×ₗ String :=
  toLex (sectionPriority candidate.sectionName,
    toLex (candidate.severity, candidate.item.reasonCode.val))

/-- `datetime.max.replace(tzinfo=UTC)`. -/
def datetimeMax : DateTime := ⟨9999, 12, 31, 23, 59, 59, 999999, by decide⟩

/-- `_sort_key`. -/
def sortKey (candidate : Candidate) : ℕ ×ₗ ℤ ×ₗ Bool ×ₗ DateTime ×ₗ ℕ ×ₗ String :=
  toLex (sectionPriority candidate.sectionName,
    toLex (candidate.severity,
      toLex (candidate.item.effectiveAt.isNone,
        toLex (candidate.item.effectiveAt.getD datetimeMax,
          toLex (sourcePriority candidate.item.sourceType, candidate.item.sourceId.val)))))

/-- The candidates selected, in the order of display. -/
def orderedCandidates (candidates : List Candidate) : List Candidate :=
  Selection.ranked Candidate.identity selectionKey sortKey candidates

/-- What a review is about, besides its query and its candidates. -/
structure ReviewFrame where
  workspace : Workspace
  targetDate : CalendarDate
  timezoneName : String
  periodStart : DateTime
  periodEnd : DateTime
  instant : DateTime
  statuses : List (DailyReviewSourceType × DailyReviewSourceStatus)
deriving DecidableEq

/-- `ordered[query.offset:query.offset + query.limit]`. -/
def pageCandidates (query : DailyReviewQuery) (ordered : List Candidate) : List Candidate :=
  Query.page query.limit query.offset ordered

/-- The items of one section. -/
def itemsOf (candidates : List Candidate) (name : SectionName) : List DailyReviewItem :=
  (candidates.filter fun candidate => candidate.sectionName = name).map (·.item)

/-- The total of one section. -/
def totalOf (ordered : List Candidate) (name : SectionName) : ℕ :=
  (ordered.filter fun candidate => candidate.sectionName = name).length

/-- One section of a page. -/
def buildSection (query : DailyReviewQuery) (ordered : List Candidate) (name : SectionName) :
    Except Invalid DailyReviewSection :=
  DailyReviewSection.validate (totalOf ordered name)
    (itemsOf (pageCandidates query ordered) name).length
    (itemsOf (pageCandidates query ordered) name)

/-- `_finalize`, once the candidates are in order. -/
def finalizeOrdered (known : String → Bool) (frame : ReviewFrame) (query : DailyReviewQuery)
    (ordered : List Candidate) : Except Invalid (DailyReview known) := do
  let blocked ← buildSection query ordered .blocked
  let followUps ← buildSection query ordered .followUps
  let inProgress ← buildSection query ordered .inProgress
  let completed ← buildSection query ordered .completed
  let informational ← buildSection query ordered .informational
  let pendingInbox ← buildSection query ordered .pendingInbox
  let page ← DailyReviewPage.validate (pageCandidates query ordered).length ordered.length
    query.limit query.offset
    (decide (query.offset + (pageCandidates query ordered).length < ordered.length))
  DailyReview.validate known
    { workspace := DailyReviewWorkspace.validate frame.workspace
      reviewDate := frame.targetDate
      timezone := frame.timezoneName
      periodStart := frame.periodStart
      periodEnd := frame.periodEnd
      generatedAt := frame.instant
      asOf := frame.instant
      sourceStatus := frame.statuses
      page, completed, inProgress, blocked, informational, followUps, pendingInbox }

/-- `_finalize`. -/
def finalize (known : String → Bool) (frame : ReviewFrame) (query : DailyReviewQuery)
    (candidates : List Candidate) : Except Invalid (DailyReview known) :=
  finalizeOrdered known frame query (orderedCandidates candidates)

/-! ## One page -/

section Page

variable {known : String → Bool} {frame : ReviewFrame} {query : DailyReviewQuery}
  {ordered : List Candidate}

theorem pageCandidates_sublist : (pageCandidates query ordered).Sublist ordered :=
  (List.take_sublist ..).trans (List.drop_sublist ..)

theorem length_pageCandidates (query : DailyReviewQuery) (ordered : List Candidate) :
    (pageCandidates query ordered).length = min query.limit (ordered.length - query.offset) := by
  rw [pageCandidates, Query.page, List.length_take, List.length_drop]

theorem length_itemsOf (candidates : List Candidate) (name : SectionName) :
    (itemsOf candidates name).length = totalOf candidates name :=
  List.length_map ..

/-- The section `buildSection` builds. -/
def sectionOf (query : DailyReviewQuery) (ordered : List Candidate) (name : SectionName) :
    DailyReviewSection where
  sectionTotalCount := totalOf ordered name
  pageItemCount := (itemsOf (pageCandidates query ordered) name).length
  items := itemsOf (pageCandidates query ordered) name
  count_eq := rfl
  count_le := by
    rw [length_itemsOf]
    exact (pageCandidates_sublist.filter _).length_le

/-- The page `_finalize` builds. -/
def pageOf (query : DailyReviewQuery) (ordered : List Candidate) : DailyReviewPage where
  count := (pageCandidates query ordered).length
  totalCount := ordered.length
  limit := query.limit
  offset := query.offset
  hasMore := decide (query.offset + (pageCandidates query ordered).length < ordered.length)
  limit_pos := query.limit_pos
  limit_le := query.limit_le
  count_le := List.length_take_le ..
  hasMore_eq := rfl

/-- No section is refused. -/
theorem buildSection_eq (name : SectionName) :
    buildSection query ordered name = .ok (sectionOf query ordered name) :=
  DailyReviewSection.validate_self (sectionOf query ordered name)

/-- The fields `_finalize` gives to the review. -/
def fieldsOf (frame : ReviewFrame) (query : DailyReviewQuery) (ordered : List Candidate) :
    ReviewFields where
  workspace := DailyReviewWorkspace.validate frame.workspace
  reviewDate := frame.targetDate
  timezone := Text.strip frame.timezoneName
  periodStart := frame.periodStart
  periodEnd := frame.periodEnd
  generatedAt := frame.instant
  asOf := frame.instant
  sourceStatus := frame.statuses
  page := pageOf query ordered
  completed := sectionOf query ordered .completed
  inProgress := sectionOf query ordered .inProgress
  blocked := sectionOf query ordered .blocked
  informational := sectionOf query ordered .informational
  followUps := sectionOf query ordered .followUps
  pendingInbox := sectionOf query ordered .pendingInbox

theorem named_fieldsOf (name : SectionName) :
    (fieldsOf frame query ordered).named name = sectionOf query ordered name := by
  cases name <;> rfl

/-- No section and no page is refused; what remains are the checks of the review. -/
theorem finalizeOrdered_eq :
    finalizeOrdered known frame query ordered =
      DailyReview.ofFields known (fieldsOf frame query ordered) := by
  have hpage : DailyReviewPage.validate (pageCandidates query ordered).length ordered.length
      query.limit query.offset
      (decide (query.offset + (pageCandidates query ordered).length < ordered.length)) =
        .ok (pageOf query ordered) :=
    DailyReviewPage.validate_self (pageOf query ordered)
  unfold finalizeOrdered
  rw [buildSection_eq, buildSection_eq, buildSection_eq, buildSection_eq, buildSection_eq,
    buildSection_eq, hpage]
  rfl

/-- Every candidate is in one of the six sections. -/
theorem sum_totalOf (candidates : List Candidate) :
    (SectionName.all.map (totalOf candidates)).sum = candidates.length := by
  induction candidates with
  | nil => rfl
  | cons candidate candidates ih =>
    simp only [SectionName.all, List.map_cons, List.map_nil, List.sum_cons, List.sum_nil,
      totalOf, List.filter_cons, List.length_cons] at ih ⊢
    cases candidate.sectionName <;> simp <;> omega

/-- What the frame of a review has to satisfy: its time zone is known, its period is not empty and
every source has a status. -/
structure ReviewFrame.Accepted (known : String → Bool) (frame : ReviewFrame) : Prop where
  timezone : known (Text.strip frame.timezoneName) = true
  period : frame.periodStart < frame.periodEnd
  sources : Covers frame.statuses

/-- **No candidates are refused**: whether a review is accepted depends on its frame only. -/
theorem fieldsOf_valid :
    (fieldsOf frame query ordered).Valid known ↔ frame.Accepted known := by
  constructor
  · exact fun h => ⟨h.timezone, h.period, h.sources⟩
  · intro h
    refine ⟨h.timezone, h.period, rfl, h.sources, ?_, ?_⟩
    · simp only [named_fieldsOf]
      exact sum_totalOf ordered
    · simp only [named_fieldsOf, sectionOf, length_itemsOf]
      exact sum_totalOf (pageCandidates query ordered)

/-- The review of an accepted frame. -/
def reviewOf (haccepted : frame.Accepted known) (query : DailyReviewQuery)
    (ordered : List Candidate) : DailyReview known :=
  ⟨fieldsOf frame query ordered, fieldsOf_valid.mpr haccepted⟩

theorem finalizeOrdered_ok (haccepted : frame.Accepted known) :
    finalizeOrdered known frame query ordered = .ok (reviewOf haccepted query ordered) := by
  rw [finalizeOrdered_eq]
  exact DailyReview.ofFields_eq_ok.mpr rfl

theorem finalizeOrdered_accepted_iff :
    (∃ review, finalizeOrdered known frame query ordered = .ok review) ↔
      frame.Accepted known := by
  constructor
  · rintro ⟨review, hreview⟩
    rw [finalizeOrdered_eq, DailyReview.ofFields_eq_ok] at hreview
    exact fieldsOf_valid.mp (hreview ▸ review.valid)
  · exact fun h => ⟨_, finalizeOrdered_ok h⟩

/-- **A page shows its part of the list**, section after section. -/
theorem items_reviewOf (haccepted : frame.Accepted known)
    (hordered : ordered.Pairwise fun a b => sortKey a ≤ sortKey b) :
    (reviewOf haccepted query ordered).items = (pageCandidates query ordered).map (·.item) := by
  have hsections : (pageCandidates query ordered).Pairwise fun a b =>
      sectionPriority a.sectionName ≤ sectionPriority b.sectionName := by
    refine (hordered.sublist pageCandidates_sublist).imp fun {a b} h => ?_
    rcases Prod.Lex.toLex_le_toLex.mp h with hlt | heq
    · exact hlt.le
    · exact heq.1.le
  have hnames : SectionName.all.Pairwise fun m n => sectionPriority m < sectionPriority n := by
    decide
  have hgroups := Selection.flatMap_filter_of_pairwise Candidate.sectionName sectionPriority hnames
    hsections fun a _ => by cases a.sectionName <;> decide
  conv_rhs => rw [← hgroups, List.map_flatMap]
  refine List.flatMap_congr fun name _ => ?_
  exact congrArg DailyReviewSection.items (named_fieldsOf name)

end Page

/-! ## Page after page -/

/-- A page size a query can ask for. -/
structure PageLimit where
  value : ℕ
  pos : 1 ≤ value
  le : value ≤ 100

/-- The query for one page. -/
def DailyReviewQuery.of (date : DailyReviewDate) (limit : PageLimit) (offset : ℕ) :
    DailyReviewQuery :=
  ⟨date, limit.value, offset, limit.pos, limit.le⟩

/-- So many candidates do pages of these sizes hold. -/
def roomOf (limits : List PageLimit) : ℕ := (limits.map (·.value)).sum

@[simp] theorem roomOf_nil : roomOf [] = 0 := rfl

@[simp] theorem roomOf_cons (limit : PageLimit) (limits : List PageLimit) :
    roomOf (limit :: limits) = limit.value + roomOf limits :=
  List.sum_cons

/-- One page after the other, each from the end of the one before. -/
def readPages (known : String → Bool) (frame : ReviewFrame) (date : DailyReviewDate)
    (candidates : List Candidate) :
    List PageLimit → ℕ → Except Invalid (List (DailyReview known))
  | [], _ => .ok []
  | limit :: limits, offset => do
    let review ← finalize known frame (.of date limit offset) candidates
    let rest ← readPages known frame date candidates limits (offset + review.fields.page.count)
    return review :: rest

section Pages

variable {known : String → Bool} {frame : ReviewFrame} {date : DailyReviewDate}

/-- The queries such a reader makes. -/
def queriesOf (date : DailyReviewDate) (ordered : List Candidate) :
    List PageLimit → ℕ → List DailyReviewQuery
  | [], _ => []
  | limit :: limits, offset =>
    .of date limit offset ::
      queriesOf date ordered limits
        (offset + (pageCandidates (.of date limit offset) ordered).length)

theorem readPages_eq (haccepted : frame.Accepted known) (candidates : List Candidate)
    (limits : List PageLimit) (offset : ℕ) :
    readPages known frame date candidates limits offset =
      .ok ((queriesOf date (orderedCandidates candidates) limits offset).map fun query =>
        reviewOf haccepted query (orderedCandidates candidates)) := by
  induction limits generalizing offset with
  | nil => rfl
  | cons limit limits ih =>
    rw [readPages, finalize, finalizeOrdered_ok haccepted]
    show (readPages known frame date candidates limits _ >>= _) = _
    rw [ih]
    rfl

/-- **Pages of any sizes fit together.** -/
theorem flatMap_pageCandidates (date : DailyReviewDate) (ordered : List Candidate)
    (limits : List PageLimit) (offset : ℕ) :
    ((queriesOf date ordered limits offset).flatMap fun query => pageCandidates query ordered) =
      (ordered.drop offset).take (roomOf limits) := by
  induction limits generalizing offset with
  | nil => simp [queriesOf]
  | cons limit limits ih =>
    have hlength := length_pageCandidates (.of date limit offset) ordered
    have hdrop : ordered.drop (offset + (pageCandidates (.of date limit offset) ordered).length) =
        (ordered.drop offset).drop limit.value := by
      rw [hlength, List.drop_drop]
      show ordered.drop (offset + min limit.value (ordered.length - offset)) = _
      rcases le_total limit.value (ordered.length - offset) with hle | hle
      · rw [min_eq_left hle]
      · rw [min_eq_right hle, List.drop_eq_nil_of_le (by omega), List.drop_eq_nil_of_le (by omega)]
    rw [queriesOf, List.flatMap_cons, ih, hdrop, roomOf_cons, List.take_add]
    rfl

/-- **A page has more** exactly when the pages so far leave something. -/
theorem hasMore_queriesOf {ordered : List Candidate} {limits : List PageLimit} {offset : ℕ}
    (hoffset : offset ≤ ordered.length) {k : ℕ} {query : DailyReviewQuery}
    (hquery : (queriesOf date ordered limits offset)[k]? = some query) :
    (pageOf query ordered).hasMore =
      decide (offset + roomOf (limits.take (k + 1)) < ordered.length) := by
  induction limits generalizing offset k with
  | nil => cases hquery
  | cons limit limits ih =>
    have hlength := length_pageCandidates (.of date limit offset) ordered
    have hmin : (DailyReviewQuery.of date limit offset).limit = limit.value := rfl
    have hstart : (DailyReviewQuery.of date limit offset).offset = offset := rfl
    rw [hmin, hstart] at hlength
    cases k with
    | zero =>
      obtain rfl : DailyReviewQuery.of date limit offset = query := Option.some.inj hquery
      simp only [pageOf, List.take_succ_cons, List.take_zero, roomOf_cons, roomOf_nil, hlength,
        hstart]
      exact decide_eq_decide.mpr (by omega)
    | succ k =>
      have hnext := ih (by omega) (k := k) hquery
      rw [hnext]
      simp only [List.take_succ_cons, roomOf_cons]
      exact decide_eq_decide.mpr (by omega)

theorem length_queriesOf (ordered : List Candidate) (limits : List PageLimit) (offset : ℕ) :
    (queriesOf date ordered limits offset).length = limits.length := by
  induction limits generalizing offset with
  | nil => rfl
  | cons limit limits ih => rw [queriesOf, List.length_cons, List.length_cons, ih]

/-- What pages of the given sizes show of a list: its start, in every section, with exact totals;
and each says whether there is more. -/
structure ShownBy (ordered : List Candidate) (limits : List PageLimit)
    (reviews : List (DailyReview known)) : Prop where
  items : reviews.flatMap (·.items) = (ordered.take (roomOf limits)).map (·.item)
  sections : ∀ name, (reviews.flatMap fun review => (review.fields.named name).items) =
    itemsOf (ordered.take (roomOf limits)) name
  totals : ∀ review ∈ reviews, review.fields.page.totalCount = ordered.length ∧
    ∀ name, (review.fields.named name).sectionTotalCount = totalOf ordered name
  hasMore : ∀ k review, reviews[k]? = some review →
    review.fields.page.hasMore = decide (roomOf (limits.take (k + 1)) < ordered.length)

/-- The reader sees so much of the list as the pages have room for. -/
theorem shownBy_readPages (haccepted : frame.Accepted known) (date : DailyReviewDate)
    (candidates : List Candidate) (limits : List PageLimit) :
    ∃ reviews, readPages known frame date candidates limits 0 = .ok reviews ∧
      reviews.length = limits.length ∧ ShownBy (orderedCandidates candidates) limits reviews := by
  have hsorted : (orderedCandidates candidates).Pairwise fun a b => sortKey a ≤ sortKey b :=
    Selection.pairwise_ranked ..
  have hpages := flatMap_pageCandidates date (orderedCandidates candidates) limits 0
  rw [List.drop_zero] at hpages
  refine ⟨_, readPages_eq haccepted candidates limits 0, ?_, ?_, ?_, ?_, ?_⟩
  · rw [List.length_map, length_queriesOf]
  · rw [List.flatMap_map, ← hpages, List.map_flatMap]
    exact List.flatMap_congr fun query _ => items_reviewOf haccepted hsorted
  · intro name
    rw [List.flatMap_map, ← hpages, itemsOf, List.filter_flatMap, List.map_flatMap]
    exact List.flatMap_congr fun query _ =>
      congrArg DailyReviewSection.items (named_fieldsOf name)
  · intro review hreview
    obtain ⟨query, -, rfl⟩ := List.mem_map.mp hreview
    exact ⟨rfl, fun name => congrArg DailyReviewSection.sectionTotalCount (named_fieldsOf name)⟩
  · intro k review hreview
    rw [List.getElem?_map] at hreview
    obtain ⟨query, hquery, rfl⟩ := Option.map_eq_some_iff.mp hreview
    have hmore := hasMore_queriesOf (Nat.zero_le _) hquery
    rwa [Nat.zero_add] at hmore

/-- So many candidates do the first `n` pages hold. -/
theorem le_roomOf_range (limits : ℕ → PageLimit) (n : ℕ) :
    n ≤ roomOf ((List.range n).map limits) := by
  induction n with
  | zero => exact Nat.zero_le _
  | succ n ih =>
    have hpos := (limits n).pos
    rw [roomOf] at ih ⊢
    simp only [List.range_succ, List.map_append, List.map_cons, List.map_nil, List.sum_append,
      List.sum_cons, List.sum_nil]
    omega

theorem roomOf_range_mono (limits : ℕ → PageLimit) {m n : ℕ} (h : m ≤ n) :
    roomOf ((List.range m).map limits) ≤ roomOf ((List.range n).map limits) := by
  induction n, h using Nat.le_induction with
  | base => exact le_rfl
  | succ n _ ih =>
    refine ih.trans ?_
    rw [roomOf, roomOf]
    simp only [List.range_succ, List.map_append, List.sum_append]
    omega

/-- Some page of every sequence of pages is the last one. -/
theorem exists_last (limits : ℕ → PageLimit) (total : ℕ) :
    ∃ last, ∀ k, roomOf ((List.range (k + 1)).map limits) < total ↔ k < last := by
  have hroom : ∃ last, total ≤ roomOf ((List.range (last + 1)).map limits) :=
    ⟨total, (Nat.le_succ total).trans (le_roomOf_range limits (total + 1))⟩
  refine ⟨Nat.find hroom, fun k => ⟨fun hlt => ?_, fun hlt => ?_⟩⟩
  · by_contra hle
    have hmono : roomOf ((List.range (Nat.find hroom + 1)).map limits) ≤
        roomOf ((List.range (k + 1)).map limits) :=
      roomOf_range_mono limits (Nat.succ_le_succ (not_lt.mp hle))
    have hfound := Nat.find_spec hroom
    omega
  · exact not_le.mp (Nat.find_min hroom hlt)

/-- **Reading on while there is more** shows the whole list, whatever sizes the pages have. -/
theorem readPages_all (haccepted : frame.Accepted known) (date : DailyReviewDate)
    (candidates : List Candidate) (limits : ℕ → PageLimit) :
    ∃ last reviews,
      readPages known frame date candidates ((List.range (last + 1)).map limits) 0 = .ok reviews ∧
      (reviews.flatMap (·.items)) = (orderedCandidates candidates).map (·.item) ∧
      (∀ name, (reviews.flatMap fun review => (review.fields.named name).items) =
        itemsOf (orderedCandidates candidates) name) ∧
      ∀ k review, reviews[k]? = some review →
        review.fields.page.hasMore = decide (k < last) := by
  obtain ⟨last, hlast⟩ := exists_last limits (orderedCandidates candidates).length
  obtain ⟨reviews, hread, hlength, hshown⟩ :=
    shownBy_readPages haccepted date candidates ((List.range (last + 1)).map limits)
  have hall : (orderedCandidates candidates).take
      (roomOf ((List.range (last + 1)).map limits)) = orderedCandidates candidates :=
    List.take_of_length_le (not_lt.mp fun h => Nat.lt_irrefl last ((hlast last).mp h))
  refine ⟨last, reviews, hread, ?_, fun name => ?_, fun k review hreview => ?_⟩
  · rw [hshown.items, hall]
  · rw [hshown.sections, hall]
  · have hk : k < last + 1 := by
      have hlt := (List.getElem?_eq_some_iff.mp hreview).1
      rwa [hlength, List.length_map, List.length_range] at hlt
    rw [hshown.hasMore k review hreview, ← List.map_take, List.take_range,
      min_eq_left (by omega)]
    exact decide_eq_decide.mpr (hlast k)

end Pages

/-! ## The law of finalisation -/

/-- Candidates with one identity and one selection key are the same. -/
def Consistent (candidates : List Candidate) : Prop :=
  Selection.Settled Candidate.identity selectionKey candidates

instance (candidates : List Candidate) : Decidable (Consistent candidates) :=
  inferInstanceAs (Decidable (Selection.Settled ..))

/-- What a finalised list holds: each identity once, with its least selection key, in the order of
display. -/
structure Finalised (candidates ordered : List Candidate) : Prop where
  once : (ordered.map Candidate.identity).Nodup
  complete : ∀ candidate ∈ candidates, ∃ chosen ∈ ordered, chosen.identity = candidate.identity
  minimal : ∀ chosen ∈ ordered, chosen ∈ candidates ∧
    ∀ candidate ∈ candidates, candidate.identity = chosen.identity →
      selectionKey chosen ≤ selectionKey candidate
  displayed : ordered.Pairwise fun a b => sortKey a < sortKey b

/-- No two source entities share a place in the order of display. -/
theorem identity_of_sortKey {a b : Candidate} (h : sortKey a = sortKey b) :
    a.identity = b.identity := by
  simp only [sortKey, EmbeddingLike.apply_eq_iff_eq, Prod.mk.injEq] at h
  obtain ⟨-, -, -, -, hsource, hid⟩ := h
  exact Prod.ext (sourcePriority_injective hsource) hid

theorem finalised_orderedCandidates (candidates : List Candidate) :
    Finalised candidates (orderedCandidates candidates) where
  once := Selection.nodup_ranked ..
  complete _ h := Selection.exists_mem_ranked _ _ _ h
  minimal _ h := Selection.best_of_mem_ranked h
  displayed := Selection.pairwise_lt_ranked (fun _ _ => identity_of_sortKey) candidates

theorem orderedCandidates_perm {candidates candidates' : List Candidate}
    (hconsistent : Consistent candidates) (hperm : candidates'.Perm candidates) :
    orderedCandidates candidates' = orderedCandidates candidates :=
  Selection.ranked_perm (fun _ _ => identity_of_sortKey) hconsistent hperm

/-- **Finalisation** does not depend on the order of the candidates; it keeps each identity once,
with its least selection key, in the order of display; no page of it is refused because of its
candidates, its limit or its offset; and pages of any sizes partition it, with exact totals and
marks. -/
theorem finalize_law (known : String → Bool) (frame : ReviewFrame) {candidates : List Candidate}
    (hconsistent : Consistent candidates) :
    (∀ candidates' : List Candidate, candidates'.Perm candidates →
      orderedCandidates candidates' = orderedCandidates candidates ∧
      ∀ query, finalize known frame query candidates' = finalize known frame query candidates) ∧
    Finalised candidates (orderedCandidates candidates) ∧
    (∀ query, (∃ review, finalize known frame query candidates = .ok review) ↔
      frame.Accepted known) ∧
    (frame.Accepted known → ∀ date,
      (∀ limits : List PageLimit, ∃ reviews,
        readPages known frame date candidates limits 0 = .ok reviews ∧
        reviews.length = limits.length ∧
        ShownBy (orderedCandidates candidates) limits reviews) ∧
      ∀ limits : ℕ → PageLimit, ∃ last reviews,
        readPages known frame date candidates ((List.range (last + 1)).map limits) 0 =
          .ok reviews ∧
        (reviews.flatMap (·.items)) = (orderedCandidates candidates).map (·.item) ∧
        (∀ name, (reviews.flatMap fun review => (review.fields.named name).items) =
          itemsOf (orderedCandidates candidates) name) ∧
        ∀ k review, reviews[k]? = some review →
          review.fields.page.hasMore = decide (k < last)) := by
  refine ⟨fun candidates' hperm => ?_, finalised_orderedCandidates candidates,
    fun query => finalizeOrdered_accepted_iff, fun haccepted date => ⟨?_, ?_⟩⟩
  · have hsame := orderedCandidates_perm hconsistent hperm
    refine ⟨hsame, fun query => ?_⟩
    rw [finalize, finalize, hsame]
  · exact fun limits => shownBy_readPages haccepted date candidates limits
  · exact fun limits => readPages_all haccepted date candidates limits

/-! ## A review of three candidates -/

/-- A text of an item. -/
def reviewText (s : String) (h : Text.strip s = s ∧ s ≠ "" := by decide +kernel) : ReviewText :=
  ⟨s, h⟩

/-- One task that is proposed twice, and an inbox item. -/
def sampleCandidates : List Candidate :=
  [{ sectionName := .followUps
     severity := 40
     item :=
      { sourceType := .userTask
        sourceId := reviewText "ut_1"
        title := reviewText "Call back"
        status := reviewText "active"
        reasonCode := reviewText "user_task.due_soon"
        effectiveAt := some ⟨2024, 5, 2, 9, 0, 0, 0, by decide⟩
        relevantTimeFields := [("due_at", ⟨2024, 5, 2, 9, 0, 0, 0, by decide⟩)] } },
   { sectionName := .followUps
     severity := 10
     item :=
      { sourceType := .userTask
        sourceId := reviewText "ut_1"
        title := reviewText "Call back"
        status := reviewText "active"
        reasonCode := reviewText "user_task.overdue"
        effectiveAt := some ⟨2024, 5, 2, 9, 0, 0, 0, by decide⟩
        relevantTimeFields := [("due_at", ⟨2024, 5, 2, 9, 0, 0, 0, by decide⟩)] } },
   { sectionName := .pendingInbox
     severity := 50
     item :=
      { sourceType := .inbox
        sourceId := reviewText "inbox_1"
        title := reviewText "Letter"
        status := reviewText "pending"
        reasonCode := reviewText "inbox.pending"
        effectiveAt := some ⟨2024, 5, 1, 9, 0, 0, 0, by decide⟩
        relevantTimeFields := [("created_at", ⟨2024, 5, 1, 9, 0, 0, 0, by decide⟩)] } }]

/-- The frame of a review of one day. -/
def sampleFrame : ReviewFrame where
  workspace := .default
  targetDate := ⟨2024, 5, 2⟩
  timezoneName := "UTC"
  periodStart := ⟨2024, 5, 2, 0, 0, 0, 0, by decide⟩
  periodEnd := ⟨2024, 5, 3, 0, 0, 0, 0, by decide⟩
  instant := ⟨2024, 5, 2, 10, 0, 0, 0, by decide⟩
  statuses := DailyReviewSourceType.all.map (·, .available)

/-- The time zone there is. -/
def onlyUtc (name : String) : Bool := name = "UTC"

theorem sampleFrame_accepted : sampleFrame.Accepted onlyUtc :=
  ⟨by decide +kernel, by decide +kernel, by decide⟩

theorem finalize_law_sample :
    orderedCandidates sampleCandidates.reverse = orderedCandidates sampleCandidates ∧
      (orderedCandidates sampleCandidates).length = 2 ∧
      ∃ reviews, readPages onlyUtc sampleFrame .today sampleCandidates
          [⟨1, by decide, by decide⟩, ⟨5, by decide, by decide⟩] 0 = .ok reviews ∧
        reviews.length = 2 ∧ ShownBy (orderedCandidates sampleCandidates)
          [⟨1, by decide, by decide⟩, ⟨5, by decide, by decide⟩] reviews := by
  have hconsistent : Consistent sampleCandidates := by decide +kernel
  have hlaw := finalize_law onlyUtc sampleFrame hconsistent
  exact ⟨(hlaw.1 _ (List.reverse_perm _)).1, by decide +kernel,
    (hlaw.2.2.2 sampleFrame_accepted .today).1 _⟩

end DailyReviews

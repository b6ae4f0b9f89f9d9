import AiLabOs.Base.Assoc
import AiLabOs.Base.Validation
import AiLabOs.Base.Workspace
import Mathlib.Data.Int.Notation

/-!
# Daily Review: models

A review shows one day of a workspace: items of five sources in six sections, one page of them at a
time. Each model validates its fields; a value of a model has passed its validators.

## Main definitions

* `ReviewText`, `DailyReviewItem.validate`: the texts and instants of an item
* `DailyReviewSection`, `DailyReviewPage`, `DailyReview`: the models with their rules
* `DailyReview.items`: what a page shows, in the order of display
-/

namespace DailyReviews

inductive DailyReviewDate where
  | today
  | yesterday
deriving DecidableEq, Repr

inductive DailyReviewSourceType where
  | workLog
  | userTask
  | waitingFor
  | reminder
  | inbox
deriving DecidableEq, Repr

/-- `set(DailyReviewSourceType)`. -/
def DailyReviewSourceType.all : List DailyReviewSourceType :=
  [.workLog, .userTask, .waitingFor, .reminder, .inbox]

inductive DailyReviewSourceStatus where
  | available
  | disabled
  | notConfigured
deriving DecidableEq, Repr

/-- The sections of a review, in the order of display. -/
inductive SectionName where
  | blocked
  | followUps
  | inProgress
  | completed
  | informational
  | pendingInbox
deriving DecidableEq, Repr

/-- `_SECTION_NAMES`. -/
def SectionName.all : List SectionName :=
  [.blocked, .followUps, .inProgress, .completed, .informational, .pendingInbox]

/-- `DailyReviewQuery`. -/
structure DailyReviewQuery where
  reviewDate : DailyReviewDate
  limit : ℕ
  offset : ℕ
  limit_pos : 1 ≤ limit
  limit_le : limit ≤ 100
deriving DecidableEq

/-- The checks of a query's fields. -/
def DailyReviewQuery.validate (reviewDate : DailyReviewDate) (limit offset : ℤ) :
    Except Invalid DailyReviewQuery :=
  if hlimit : 1 ≤ limit.toNat ∧ limit.toNat ≤ 100 then
    if 0 ≤ offset then .ok ⟨reviewDate, limit.toNat, offset.toNat, hlimit.1, hlimit.2⟩
    else .error (.field "offset" "out of range")
  else .error (.field "limit" "out of range")

/-- A calendar date. -/
structure CalendarDate where
  year : ℕ
  month : ℕ
  day : ℕ
deriving DecidableEq, Repr

/-! ## Items -/

/-- A text that is stripped and not blank. -/
def ReviewText : Type := { s : String // Text.strip s = s ∧ s ≠ "" }

instance : DecidableEq ReviewText := inferInstanceAs (DecidableEq (Subtype _))

/-- `_required_text`. -/
def ReviewText.validate (name s : String) : Except Invalid ReviewText :=
  if h : Text.strip s ≠ "" then .ok ⟨Text.strip s, Text.strip_strip s, h⟩
  else .error (.field name "Daily Review item text must not be blank")

/-- A text that was validated passes once more, unchanged. -/
theorem ReviewText.validate_val (name : String) (t : ReviewText) :
    ReviewText.validate name t.val = .ok t := by
  obtain ⟨s, hstrip, hne⟩ := t
  unfold ReviewText.validate
  rw [dif_pos (by rwa [hstrip])]
  exact congrArg Except.ok (Subtype.ext hstrip)

/-- `_aware_utc` of one value. -/
def awareUtc (name : String) : DateTimeArg → Except Invalid DateTime
  | .naive => .error (.field name "Daily Review datetimes must be timezone-aware")
  | .aware none => .error .overflow
  | .aware (some d) => .ok d

/-- `_aware_utc` of an optional value. -/
def awareUtcOptional (name : String) : Option DateTimeArg → Except Invalid (Option DateTime)
  | none => .ok none
  | some d => some <$> awareUtc name d

/-- `DailyReviewItem`. -/
structure DailyReviewItem where
  sourceType : DailyReviewSourceType
  sourceId : ReviewText
  title : ReviewText
  status : ReviewText
  reasonCode : ReviewText
  effectiveAt : Option DateTime
  relevantTimeFields : List (String × DateTime)
deriving DecidableEq

/-- The validators of an item. -/
def DailyReviewItem.validate (sourceType : DailyReviewSourceType)
    (sourceId title status reasonCode : String) (effectiveAt : Option DateTimeArg)
    (relevantTimeFields : List (String × DateTimeArg)) : Except Invalid DailyReviewItem := do
  let sourceId ← ReviewText.validate "source_id" sourceId
  let title ← ReviewText.validate "title" title
  let status ← ReviewText.validate "status" status
  let reasonCode ← ReviewText.validate "reason_code" reasonCode
  let effectiveAt ← awareUtcOptional "effective_at" effectiveAt
  let relevantTimeFields ← relevantTimeFields.mapM fun entry =>
    (entry.1, ·) <$> awareUtc "relevant_time_fields" entry.2
  return { sourceType, sourceId, title, status, reasonCode, effectiveAt, relevantTimeFields }

theorem mapM_awareUtc (name : String) (entries : List (String × DateTime)) :
    (entries.map fun entry => (entry.1, DateTimeArg.utc entry.2)).mapM
      (fun entry => (entry.1, ·) <$> awareUtc name entry.2) = .ok entries := by
  induction entries with
  | nil => rfl
  | cons entry entries ih =>
    rw [List.map_cons, List.mapM_cons, ih]
    rfl

/-- **An item passes its own validators**, unchanged. -/
theorem DailyReviewItem.validate_self (item : DailyReviewItem) :
    DailyReviewItem.validate item.sourceType item.sourceId.val item.title.val item.status.val
      item.reasonCode.val (item.effectiveAt.map .utc)
      (item.relevantTimeFields.map fun entry => (entry.1, .utc entry.2)) = .ok item := by
  have heffective : awareUtcOptional "effective_at" (item.effectiveAt.map DateTimeArg.utc) =
      .ok item.effectiveAt := by
    cases item.effectiveAt <;> rfl
  unfold DailyReviewItem.validate
  rw [ReviewText.validate_val, ReviewText.validate_val, ReviewText.validate_val,
    ReviewText.validate_val, heffective, mapM_awareUtc]
  rfl

/-! ## Sections, pages and reviews -/

/-- `DailyReviewSection`. -/
structure DailyReviewSection where
  sectionTotalCount : ℕ
  pageItemCount : ℕ
  items : List DailyReviewItem
  count_eq : pageItemCount = items.length
  count_le : pageItemCount ≤ sectionTotalCount
deriving DecidableEq

/-- `_page_count_matches_items`. -/
def DailyReviewSection.validate (sectionTotalCount pageItemCount : ℕ)
    (items : List DailyReviewItem) : Except Invalid DailyReviewSection :=
  if heq : pageItemCount = items.length then
    if hle : pageItemCount ≤ sectionTotalCount then
      .ok ⟨sectionTotalCount, pageItemCount, items, heq, hle⟩
    else .error (.field "" "page_item_count cannot exceed section_total_count")
  else .error (.field "" "page_item_count must equal the item count")

theorem DailyReviewSection.validate_self (shown : DailyReviewSection) :
    DailyReviewSection.validate shown.sectionTotalCount shown.pageItemCount shown.items =
      .ok shown := by
  unfold DailyReviewSection.validate
  rw [dif_pos shown.count_eq, dif_pos shown.count_le]

/-- `DailyReviewPage`. -/
structure DailyReviewPage where
  count : ℕ
  totalCount : ℕ
  limit : ℕ
  offset : ℕ
  hasMore : Bool
  limit_pos : 1 ≤ limit
  limit_le : limit ≤ 100
  count_le : count ≤ limit
  hasMore_eq : hasMore = decide (offset + count < totalCount)
deriving DecidableEq

/-- The bounds of a page's fields and `_validate_page`. -/
def DailyReviewPage.validate (count totalCount limit offset : ℕ) (hasMore : Bool) :
    Except Invalid DailyReviewPage :=
  if hlimit : 1 ≤ limit ∧ limit ≤ 100 then
    if hcount : count ≤ limit then
      if hmore : hasMore = decide (offset + count < totalCount) then
        .ok ⟨count, totalCount, limit, offset, hasMore, hlimit.1, hlimit.2, hcount, hmore⟩
      else .error (.field "" "has_more does not match page metadata")
    else .error (.field "" "page count cannot exceed limit")
  else .error (.field "limit" "out of range")

theorem DailyReviewPage.validate_self (page : DailyReviewPage) :
    DailyReviewPage.validate page.count page.totalCount page.limit page.offset page.hasMore =
      .ok page := by
  unfold DailyReviewPage.validate
  rw [dif_pos ⟨page.limit_pos, page.limit_le⟩, dif_pos page.count_le, dif_pos page.hasMore_eq]

/-- `DailyReviewWorkspace`: empty components are `default`. -/
def DailyReviewWorkspace.validate (workspace : Workspace) : Workspace :=
  ⟨orDefault (Text.strip workspace.tenantId), orDefault (Text.strip workspace.workspaceId),
    orDefault (Text.strip workspace.nameSpace)⟩

/-- `DailyReview` before its validators. -/
structure ReviewFields where
  workspace : Workspace
  reviewDate : CalendarDate
  timezone : String
  periodStart : DateTime
  periodEnd : DateTime
  generatedAt : DateTime
  asOf : DateTime
  sourceStatus : List (DailyReviewSourceType × DailyReviewSourceStatus)
  page : DailyReviewPage
  completed : DailyReviewSection
  inProgress : DailyReviewSection
  blocked : DailyReviewSection
  informational : DailyReviewSection
  followUps : DailyReviewSection
  pendingInbox : DailyReviewSection
deriving DecidableEq

/-- The section of a name. -/
def ReviewFields.named (fields : ReviewFields) : SectionName → DailyReviewSection
  | .blocked => fields.blocked
  | .followUps => fields.followUps
  | .inProgress => fields.inProgress
  | .completed => fields.completed
  | .informational => fields.informational
  | .pendingInbox => fields.pendingInbox

/-- A status is given for every source. -/
def Covers (sourceStatus : List (DailyReviewSourceType × DailyReviewSourceStatus)) : Prop :=
  ∀ source ∈ DailyReviewSourceType.all, source ∈ sourceStatus.map Prod.fst

instance (sourceStatus : List (DailyReviewSourceType × DailyReviewSourceStatus)) :
    Decidable (Covers sourceStatus) :=
  inferInstanceAs (Decidable (∀ source ∈ DailyReviewSourceType.all, _))

/-- What the validators of a review ask of its fields, if `known` are the time zones there are. -/
structure ReviewFields.Valid (known : String → Bool) (fields : ReviewFields) : Prop where
  timezone : known fields.timezone = true
  period : fields.periodStart < fields.periodEnd
  instant : fields.generatedAt = fields.asOf
  sources : Covers fields.sourceStatus
  totals : (SectionName.all.map fun name => (fields.named name).sectionTotalCount).sum =
    fields.page.totalCount
  counts : (SectionName.all.map fun name => (fields.named name).pageItemCount).sum =
    fields.page.count

/-- `DailyReview`. -/
structure DailyReview (known : String → Bool) where
  fields : ReviewFields
  valid : fields.Valid known

/-- The validators of a review, once its fields are normalised. -/
def DailyReview.ofFields (known : String → Bool) (fields : ReviewFields) :
    Except Invalid (DailyReview known) :=
  if hzone : known fields.timezone = true then
    if hperiod : fields.periodStart < fields.periodEnd then
      if hinstant : fields.generatedAt = fields.asOf then
        if hsources : Covers fields.sourceStatus then
          if htotals : (SectionName.all.map fun name =>
              (fields.named name).sectionTotalCount).sum = fields.page.totalCount then
            if hcounts : (SectionName.all.map fun name =>
                (fields.named name).pageItemCount).sum = fields.page.count then
              .ok ⟨fields, hzone, hperiod, hinstant, hsources, htotals, hcounts⟩
            else .error (.field "" "section page counts must equal page count")
          else .error (.field "" "section totals must equal page total_count")
        else .error (.field "" "source_status must cover every canonical source")
      else .error (.field "" "generated_at and as_of must use one instant")
    else .error (.field "" "period_start must precede period_end")
  else .error (.field "timezone" "timezone must be a valid IANA timezone")

/-- The validators of a review: the time zone is stripped, and the rest only checked. -/
def DailyReview.validate (known : String → Bool) (fields : ReviewFields) :
    Except Invalid (DailyReview known) :=
  DailyReview.ofFields known { fields with timezone := Text.strip fields.timezone }

theorem DailyReview.ofFields_eq_ok {known : String → Bool} {fields : ReviewFields}
    {review : DailyReview known} :
    DailyReview.ofFields known fields = .ok review ↔ review.fields = fields := by
  obtain ⟨shown, hvalid⟩ := review
  unfold DailyReview.ofFields
  constructor
  · intro h
    split_ifs at h
    cases h
    rfl
  · rintro rfl
    rw [dif_pos hvalid.timezone, dif_pos hvalid.period, dif_pos hvalid.instant,
      dif_pos hvalid.sources, dif_pos hvalid.totals, dif_pos hvalid.counts]

/-- What a page of a review shows, section after section. -/
def DailyReview.items {known : String → Bool} (review : DailyReview known) :
    List DailyReviewItem :=
  SectionName.all.flatMap fun name => (review.fields.named name).items

end DailyReviews

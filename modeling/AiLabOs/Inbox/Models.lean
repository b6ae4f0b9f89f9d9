import AiLabOs.Base.Validation
import AiLabOs.Base.Workspace

/-!
# Inbox: models

## Main definitions

* `InboxItem`, `InboxResolutionClaim`: a captured item, and the claim on its resolution
* `validateItem`, `validateClaim`: what the models accept

## Main results

* `validateItem_iff`, `validateClaim_iff`: a model accepts a row as it is or not at all
-/

namespace Inbox

inductive InboxStatus where
  | pending
  | resolved
  | dismissed
deriving DecidableEq, Repr

/-- The text of a status. -/
def InboxStatus.value : InboxStatus → String
  | .pending => "pending"
  | .resolved => "resolved"
  | .dismissed => "dismissed"

inductive InboxSuggestedType where
  | task
  | reminder
  | workLog
  | note
  | waitingFor
  | unknown
deriving DecidableEq, Repr

inductive InboxResolvedType where
  | userTask
  | reminder
  | workLog
  | note
  | waitingFor
  | dismissed
deriving DecidableEq, Repr

/-- The text of a resolved type. -/
def InboxResolvedType.value : InboxResolvedType → String
  | .userTask => "user_task"
  | .reminder => "reminder"
  | .workLog => "work_log"
  | .note => "note"
  | .waitingFor => "waiting_for"
  | .dismissed => "dismissed"

/-- The types whose target lies in another store. -/
def InboxResolvedType.external : InboxResolvedType → Bool
  | .userTask | .reminder | .workLog | .waitingFor => true
  | .note | .dismissed => false

inductive InboxResolutionClaimState where
  | claimed
  | targetCreated
  | completed
deriving DecidableEq, Repr

/-- The text of the state of a claim. -/
def InboxResolutionClaimState.value : InboxResolutionClaimState → String
  | .claimed => "claimed"
  | .targetCreated => "target_created"
  | .completed => "completed"

/-- A metadata document, as far as it is read: whether it has a sensitive key at some depth, and
whether it can be written as JSON. -/
structure Metadata where
  sensitive : Bool := false
  serializable : Bool := true
deriving DecidableEq, Repr

/-- `InboxResolutionClaim`. -/
structure InboxResolutionClaim where
  inboxItemId : String
  workspace : Workspace
  resolvedType : InboxResolvedType
  targetKey : Option String := none
  targetId : Option String := none
  state : InboxResolutionClaimState := .claimed
  createdAt : DateTime
  updatedAt : DateTime
  revision : ℕ := 1
deriving DecidableEq

/-- `InboxItem`. -/
structure InboxItem where
  id : String
  workspace : Workspace
  content : String
  source : String
  status : InboxStatus := .pending
  suggestedType : InboxSuggestedType := .unknown
  createdAt : DateTime
  updatedAt : DateTime
  resolvedAt : Option DateTime := none
  resolvedType : Option InboxResolvedType := none
  resolvedTargetId : Option String := none
  metadata : Metadata := {}
  revision : ℕ := 1
deriving DecidableEq

/-! ## Validators -/

/-- A text that counts as true. -/
def hasText (s : Option String) : Bool := s.any fun t => t ≠ ""

/-- `_validate_claim`, and the bounds of the fields. -/
def validateClaim (claim : InboxResolutionClaim) : Except Invalid InboxResolutionClaim := do
  lengthIn "inbox_item_id" 1 80 claim.inboxItemId
  shortText "target_key" 200 claim.targetKey
  shortText "target_id" 160 claim.targetId
  check (1 ≤ claim.revision) "revision" "revision out of range"
  check (claim.createdAt ≤ claim.updatedAt) "" "claim updated_at must not precede created_at"
  check (claim.resolvedType.external = true → hasText claim.targetKey = true) ""
    "external resolution claim requires target_key"
  check (claim.resolvedType.external = false → claim.targetKey = none ∧ claim.targetId = none) ""
    "note and dismiss claims cannot contain a target"
  check (claim.state ≠ .claimed → claim.resolvedType.external = true →
    hasText claim.targetId = true) "" "created external target requires target_id"
  return claim

/-- `_validate_state`. -/
def validateState (item : InboxItem) : Except Invalid Unit := do
  check (item.createdAt ≤ item.updatedAt) "" "updated_at must not precede created_at"
  if item.status = .pending then
    check (item.resolvedAt = none ∧ item.resolvedType = none ∧ item.resolvedTargetId = none) ""
      "pending item cannot contain resolution fields"
  else do
    check (item.resolvedAt.isSome = true ∧ item.resolvedType.isSome = true) ""
      "non-pending item requires resolved_at and resolved_type"
    check (∀ t ∈ item.resolvedAt, item.createdAt ≤ t) "" "resolved_at must not precede created_at"
    if item.status = .dismissed then do
      check (item.resolvedType = some .dismissed) ""
        "dismissed item requires resolved_type=dismissed"
      check (item.resolvedTargetId = none) "" "dismissed item cannot have a target"
    else do
      check (item.resolvedType ≠ some .dismissed) ""
        "resolved item cannot use resolved_type=dismissed"
      if item.resolvedType = some .note then
        check (item.resolvedTargetId = none) "" "note resolution cannot have a target"
      else
        check (hasText item.resolvedTargetId = true) ""
          "resolved target id is required for this resolution type"

/-- The validators of an item: it has its texts stripped. -/
def validateItem (item : InboxItem) : Except Invalid InboxItem := do
  lengthIn "id" 1 80 item.id
  let content ← requiredText "content" 4000 item.content
  let source ← requiredText "source" 64 item.source
  shortText "resolved_target_id" 160 item.resolvedTargetId
  check (item.metadata.sensitive = false) "metadata" "inbox metadata contains a sensitive key"
  check (item.metadata.serializable = true) "metadata" "inbox metadata must be JSON serializable"
  check (1 ≤ item.revision) "revision" "revision out of range"
  validateState item
  return { item with content, source }

/-! ## What the models accept -/

/-- A claim its model accepts. -/
structure InboxResolutionClaim.Valid (claim : InboxResolutionClaim) : Prop where
  itemId : 1 ≤ claim.inboxItemId.length ∧ claim.inboxItemId.length ≤ 80
  keyLength : ∀ key ∈ claim.targetKey, key.length ≤ 200
  targetLength : ∀ target ∈ claim.targetId, target.length ≤ 160
  revision : 1 ≤ claim.revision
  times : claim.createdAt ≤ claim.updatedAt
  key : claim.resolvedType.external = true → hasText claim.targetKey = true
  noTarget : claim.resolvedType.external = false → claim.targetKey = none ∧ claim.targetId = none
  target : claim.state ≠ .claimed → claim.resolvedType.external = true →
    hasText claim.targetId = true

/-- **A claim is accepted as it is** or not at all. -/
theorem validateClaim_iff {claim accepted : InboxResolutionClaim} :
    validateClaim claim = .ok accepted ↔ accepted = claim ∧ claim.Valid := by
  simp only [validateClaim, Except.unit_bind_ok_iff, lengthIn_iff, shortText_iff, check_iff]
  constructor
  · rintro ⟨hid, hkeyLength, htargetLength, hrev, htimes, hkey, hno, htarget, h⟩
    exact ⟨(Except.ok.inj h).symm, hid, hkeyLength, htargetLength, hrev, htimes, hkey, hno, htarget⟩
  · rintro ⟨rfl, h⟩
    exact ⟨h.itemId, h.keyLength, h.targetLength, h.revision, h.times, h.key, h.noTarget, h.target,
      rfl⟩

/-- **What an item is accepted as**: itself, with its texts stripped. -/
theorem validateItem_iff {item accepted : InboxItem} : validateItem item = .ok accepted ↔
    (1 ≤ item.id.length ∧ item.id.length ≤ 80) ∧
    requiredText "content" 4000 item.content = .ok accepted.content ∧
    requiredText "source" 64 item.source = .ok accepted.source ∧
    (∀ target ∈ item.resolvedTargetId, target.length ≤ 160) ∧
    item.metadata.sensitive = false ∧ item.metadata.serializable = true ∧ 1 ≤ item.revision ∧
    validateState item = .ok () ∧
    accepted = { item with content := accepted.content, source := accepted.source } := by
  rw [validateItem, Except.unit_bind_ok_iff, lengthIn_iff]
  refine and_congr_right fun _ => ?_
  constructor
  · intro h
    obtain ⟨content, hcontent, h⟩ := Except.of_bind_ok h
    obtain ⟨source, hsource, h⟩ := Except.of_bind_ok h
    rw [Except.unit_bind_ok_iff, shortText_iff, Except.unit_bind_ok_iff, check_iff,
      Except.unit_bind_ok_iff, check_iff, Except.unit_bind_ok_iff, check_iff,
      Except.unit_bind_ok_iff] at h
    obtain ⟨htarget, hsens, hser, hrev, hstate, h⟩ := h
    obtain rfl := Except.ok.inj h
    exact ⟨hcontent, hsource, htarget, hsens, hser, hrev, hstate, rfl⟩
  · rintro ⟨hcontent, hsource, htarget, hsens, hser, hrev, hstate, h⟩
    rw [hcontent, hsource, shortText_iff.mpr htarget, check_eq_ok hsens, check_eq_ok hser,
      check_eq_ok hrev, hstate, h]
    rfl

/-- A text that was accepted is accepted again. -/
theorem requiredText_again {name : String} {hi : ℕ} {s t : String}
    (h : requiredText name hi s = .ok t) : requiredText name hi t = .ok t := by
  obtain ⟨rfl, hne⟩ := requiredText_ok h
  obtain ⟨hlength, -⟩ := Except.unit_bind_ok_iff.mp h
  have hle : (Text.strip s).length ≤ s.length := by
    have hstrip :=
      (List.rdropWhile_prefix Text.isSpace (s.toList.dropWhile Text.isSpace)).length_le
    have hdrop := (List.dropWhile_suffix (l := s.toList) Text.isSpace).length_le
    rw [← Text.toList_strip] at hstrip
    have hle := hstrip.trans hdrop
    rwa [String.length_toList, String.length_toList] at hle
  have hpos : 1 ≤ (Text.strip s).length := by
    rw [Nat.one_le_iff_ne_zero, ne_eq, String.length_eq_zero_iff]
    exact hne
  simp only [requiredText, Text.strip_strip, Except.unit_bind_ok_iff, lengthIn_iff, check_iff]
  exact ⟨⟨hpos, hle.trans (lengthIn_iff.mp hlength).2⟩, hne, rfl⟩

/-- An item its model reads back as it is. -/
def InboxItem.Valid (item : InboxItem) : Prop := validateItem item = .ok item

/-- **An accepted item is read back as it is.** -/
theorem validateItem_valid {item accepted : InboxItem} (h : validateItem item = .ok accepted) :
    accepted.Valid := by
  obtain ⟨hid, hcontent, hsource, htarget, hsens, hser, hrev, hstate, heq⟩ := validateItem_iff.mp h
  rw [InboxItem.Valid, validateItem_iff]
  rw [heq]
  exact ⟨hid, requiredText_again hcontent, requiredText_again hsource, htarget, hsens, hser, hrev,
    hstate, rfl⟩

/-- What is made of a readable item without touching its texts is accepted as it is, if at all. -/
theorem InboxItem.Valid.accepted_eq {item made accepted : InboxItem} (h : item.Valid)
    (hcontent : made.content = item.content) (hsource : made.source = item.source)
    (hmade : validateItem made = .ok accepted) : accepted = made := by
  obtain ⟨-, hc, hs, -⟩ := validateItem_iff.mp h
  obtain ⟨-, hc', hs', -, -, -, -, -, heq⟩ := validateItem_iff.mp hmade
  rw [hcontent, hc] at hc'
  rw [hsource, hs] at hs'
  rw [heq, ← Except.ok.inj hc', ← Except.ok.inj hs', ← hcontent, ← hsource]

theorem InboxItem.Valid.setRevision {item : InboxItem} (h : item.Valid) {revision : ℕ}
    (hrevision : 1 ≤ revision) : InboxItem.Valid { item with revision } := by
  obtain ⟨hid, hcontent, hsource, htarget, hsens, hser, -, hstate, -⟩ := validateItem_iff.mp h
  exact validateItem_iff.mpr ⟨hid, hcontent, hsource, htarget, hsens, hser, hrevision, hstate, rfl⟩

end Inbox

import AiLabOs.Base.Text
import AiLabOs.Interaction.World

/-!
# Trusted interactions: service

The operations of `InteractionService` as programs over the actions of the world. The record and
the facts an operation writes are pure functions of what it read, so that a commit can be spoken
of without the program that makes it.

## Main definitions

* `createInteraction`, `preview`, `confirm`, `approve`, `cancel`, `expirePreview`,
  `startExecution`, `verify`, `recover`: the operations
* `status`, `view`: the projections
* `Interaction.previewed`, `Interaction.executing`, ...: the records they commit
-/

namespace Interactions

open Process Process.Program

/-- `TERMINAL_STATES`. -/
def LifecycleState.terminal : LifecycleState → Bool
  | .succeeded | .failed | .cancelled | .expired => true
  | _ => false

/-- The digest of a text. -/
def digestText (sha : Sha256) (s : String) : String := sha.hexdigest [("", .str s)]

/-! ## Failures -/

/-- The failure `_fail` raises. -/
def failureInfo (code : String) (category : ErrorCategory) (operation message traceId : String)
    (details : Payload := []) : FailureInfo :=
  { code, category, message, component := "trusted_interaction", operation, traceId, details }

/-- `_fail`. -/
def fail {α : Type} (info : FailureInfo) : Prog α := .raise (.failure info)

/-- `if ...: self._fail(...)`. -/
def failIf (c : Prop) [Decidable c] (info : FailureInfo) : Prog Unit :=
  if c then fail info else .ret ()

/-- `_invalid_state`. -/
def invalidState (r : Interaction) (operation : String) : FailureInfo :=
  failureInfo "interaction.invalid_state_transition" .conflict operation
    ("Operation " ++ operation ++ " is not legal from " ++ r.lifecycleState.value) r.traceId
    [("state", .str r.lifecycleState.value), ("revision", .int r.revision)]

/-! ## Shared steps -/

/-- One action of the service. -/
def act (e : Action) : Prog e.Reply := perform e

def now : Prog Instant := act .now

/-- `_id`. -/
def newId (kind : String) : Prog String := act (.newId kind)

def fact (interactionId : String) (ty : FactType) (factId : Option String) :
    Prog (Option ty.Model) := act (.fact interactionId ty factId)

/-- `assert fact is not None; return fact`. -/
def asserted {α : Type} : Option α → Prog α
  | some a => .ret a
  | none => .raise .assertionError

/-- The workspace of the operations, without the blanks around its parts. -/
def scopeIn (workspace : WorkspaceKey) : Scope :=
  ⟨Text.strip workspace.tenantId, Text.strip workspace.workspaceId, Text.strip workspace.nameSpace⟩

/-- `_scope`. -/
def scopeOf (workspace : WorkspaceKey) (actorId : String) : Prog Scope :=
  let values := [("tenant_id", Text.strip workspace.tenantId),
    ("workspace_id", Text.strip workspace.workspaceId),
    ("namespace", Text.strip workspace.nameSpace),
    ("workspace_actor", Text.strip workspace.userId),
    ("actor_id", Text.strip actorId)]
  let missing := (values.filter fun v => v.2 = "").map Prod.fst
  if missing ≠ [] then
    fail (failureInfo "interaction.identity_workspace_unresolved" .permissionDenied
      "identity_workspace" "Explicit WorkspaceKey and actor are required" workspace.traceId
      [("missing", .strs missing)])
  else if Text.strip workspace.userId ≠ Text.strip actorId then
    fail (failureInfo "interaction.actor_mismatch" .permissionDenied "identity_workspace"
      "Actor does not match the authoritative WorkspaceKey principal" workspace.traceId)
  else .ret (scopeIn workspace)

/-- The audit line of an interaction. -/
def auditOf (r : Interaction) (eventType : String) (fromState : Option LifecycleState)
    (idempotencyKey : String) (references : Dict) (failure : Option FailureInfo)
    (auditId : String) (occurredAt : Instant) : AuditEvidence :=
  { auditId, interactionId := r.interactionId, scope := r.scope, actorId := r.actorId
    requestId := r.requestId, traceId := r.traceId, operation := r.operation
    riskLevel := r.riskLevel, eventType, fromState, toState := r.lifecycleState
    revision := r.revision, idempotencyKey, references, failure, occurredAt }

/-- `_audit`. -/
def audit (r : Interaction) (eventType : String) (fromState : Option LifecycleState)
    (idempotencyKey : String) (references : Dict := []) (failure : Option FailureInfo := none) :
    Prog AuditEvidence := do
  let auditId ← newId "aud"
  let occurredAt ← now
  return auditOf r eventType fromState idempotencyKey references failure auditId occurredAt

/-- `_idempotent`. -/
def idempotent (scope : Scope) (operation : Operation) (key digest traceId : String) :
    Prog (Option Interaction) := do
  failIf (Text.blank key) (failureInfo "interaction.idempotency_key_missing" .validation
    operation.name "Idempotency key is required" traceId)
  let reply ← act (.idempotentResult ⟨scope, operation, key⟩ digest)
  match reply with
  | .ok prior => .ret prior
  | .error (.valueError m) =>
    fail (failureInfo "interaction.idempotency_conflict" .conflict operation.name m traceId)
  | .error .integrityError => .raise .integrityError

/-- `_require`. -/
def require (scope : Scope) (interactionId traceId : String) : Prog Interaction := do
  let current ← act (.get scope interactionId)
  match current with
  | some current => .ret current
  | none => fail (failureInfo "interaction.not_found" .notFound "get"
      "Interaction was not found in this Workspace" traceId)

/-- `_transition`. -/
def transition (t : Transition) : Prog Unit := do
  let reply ← act (.transition t)
  match reply with
  | .ok () => .ret ()
  | .error (.valueError m) => fail (failureInfo "interaction.revision_conflict" .conflict
      t.operation.name m t.interaction.traceId)
  | .error .integrityError => .raise .integrityError

/-! ## Create -/

structure CreateArgs where
  workspace : WorkspaceKey
  actorId : String
  operation : String
  riskLevel : String
  policyReference : String
  requestId : String
  traceId : String
  idempotencyKey : String
  safeSummary : String := ""
  correlation : Dict := []
deriving DecidableEq, Repr

def createPayload (a : CreateArgs) (scope : Scope) : Payload :=
  [("operation", .str a.operation), ("policy_reference", .str a.policyReference),
    ("request_id", .str a.requestId), ("trace_id", .str a.traceId),
    ("risk_level", .str a.riskLevel), ("actor_id", .str a.actorId),
    ("scope", .strs [scope.tenantId, scope.workspaceId, scope.nameSpace]),
    ("safe_summary", .str a.safeSummary), ("correlation", .dict a.correlation)]

/-- The interaction `create_interaction` builds. -/
def CreateArgs.interaction (a : CreateArgs) (scope : Scope) (interactionId : String)
    (now : Instant) : Interaction :=
  { interactionId, scope, actorId := a.actorId, requestId := a.requestId, traceId := a.traceId
    operation := a.operation, riskLevel := a.riskLevel, policyReference := a.policyReference
    safeSummary := a.safeSummary, correlation := a.correlation, createdAt := now
    updatedAt := now }

def createInteraction (sha : Sha256) (a : CreateArgs) : Prog Interaction := do
  let scope ← scopeOf a.workspace a.actorId
  let required := [("operation", a.operation), ("policy_reference", a.policyReference),
    ("request_id", a.requestId), ("trace_id", a.traceId)]
  let missing := (required.filter fun v => Text.blank v.2).map Prod.fst
  failIf (missing ≠ []) (failureInfo "interaction.request_invalid" .validation "create"
    "Canonical request correlations and policy are required" a.traceId
    [("missing", .strs missing)])
  failIf (Text.blank a.idempotencyKey) (failureInfo "interaction.idempotency_key_missing"
    .validation "create" "Idempotency key is required" a.traceId)
  let now ← now
  let interactionId ← newId "int"
  let interaction := a.interaction scope interactionId now
  let audit ← audit interaction "interaction.requested" none a.idempotencyKey
  let reply ← act (.create interaction audit a.idempotencyKey
    (sha.hexdigest (createPayload a scope)))
  match reply with
  | .ok interaction => .ret interaction
  | .error (.valueError m) => fail (failureInfo "interaction.idempotency_conflict" .conflict
      "create" m a.traceId)
  | .error .integrityError => .raise .integrityError

/-! ## Preview -/

structure PreviewArgs where
  workspace : WorkspaceKey
  actorId : String
  interactionId : String
  expectedRevision : Int
  normalizedParameters : JsonDoc
  mutationSummary : String
  expiresIn : TimeDelta
  idempotencyKey : String
  targetObjectId : Option String := none
  targetRevision : Option Int := none
  expectedExternalEffects : List String := []
  requiresConfirmation : Bool := true
  requiresApproval : Bool := false
  canonicalCommitRequired : Bool := true
deriving DecidableEq, Repr

def previewPayload (a : PreviewArgs) : Payload :=
  [("interaction_id", .str a.interactionId), ("expected_revision", .int a.expectedRevision),
    ("parameters", .doc a.normalizedParameters), ("mutation_summary", .str a.mutationSummary),
    ("expires_in", totalSeconds a.expiresIn), ("target_object_id", .ofOption a.targetObjectId),
    ("target_revision", .ofIntOption a.targetRevision),
      ("effects", .strs a.expectedExternalEffects),
    ("requires_confirmation", .bool a.requiresConfirmation),
    ("requires_approval", .bool a.requiresApproval),
    ("canonical_commit_required", .bool a.canonicalCommitRequired)]

/-- The Preview `preview` builds over the one it replaces. -/
def newPreview (sha : Sha256) (a : PreviewArgs) (current : Interaction) (old : Option Preview)
    (previewId : String) (now : Instant) : Preview :=
  { previewId, interactionId := a.interactionId, scope := current.scope, actorId := a.actorId
    operation := current.operation, policyReference := current.policyReference
    riskLevel := current.riskLevel
    previewRevision := match old with
      | none => 1
      | some old => old.previewRevision + 1
    normalizedParameters := a.normalizedParameters
    payloadDigest := sha.hexdigest [("", .doc a.normalizedParameters)]
    targetObjectId := a.targetObjectId, targetRevision := a.targetRevision
    mutationSummary := a.mutationSummary
    expectedExternalEffects := a.expectedExternalEffects
    requiresConfirmation := a.requiresConfirmation, requiresApproval := a.requiresApproval
    canonicalCommitRequired := a.canonicalCommitRequired
    createdAt := now, expiresAt := now + a.expiresIn }

/-- The Preview with another status. -/
def Preview.withStatus (p : Preview) (status : PreviewStatus) : Preview := { p with status }

/-- The replaced Preview, superseded, and the new one. -/
def previewFacts (old : Option Preview) (preview : Preview) : List Fact :=
  (old.toList.map fun p => .preview (p.withStatus .superseded)) ++ [.preview preview]

/-- The record `preview` commits. -/
def Interaction.previewed (current : Interaction) (preview : Preview) (now : Instant) :
    Interaction :=
  { current with
    lifecycleState := if preview.requiresConfirmation || preview.requiresApproval then
      .awaitingConfirmation else .authorized
    resolutionPhase := .resolved
    revision := current.revision + 1
    currentPreviewId := some preview.previewId
    currentConfirmationId := none
    currentApprovalId := none
    canonicalObjectId := preview.targetObjectId
    updatedAt := now }

def preview (sha : Sha256) (a : PreviewArgs) : Prog Preview := do
  let scope ← scopeOf a.workspace a.actorId
  let digest := sha.hexdigest (previewPayload a)
  let prior ← idempotent scope .preview a.idempotencyKey digest a.workspace.traceId
  match prior with
  | some prior => do
    let stored ← fact prior.interactionId .preview prior.currentPreviewId
    asserted stored
  | none => do
    let current ← require scope a.interactionId a.workspace.traceId
    failIf (current.actorId ≠ a.actorId) (failureInfo "interaction.actor_mismatch"
      .permissionDenied "preview" "Actor mismatch" current.traceId)
    failIf (current.revision ≠ a.expectedRevision) (failureInfo "interaction.revision_conflict"
      .conflict "preview" "Interaction revision is stale" current.traceId)
    failIf (current.lifecycleState ∉ [.requested, .previewed, .awaitingConfirmation])
      (invalidState current "preview")
    let now ← now
    failIf (a.expiresIn ≤ 0) (failureInfo "interaction.preview_expiry_invalid" .validation
      "preview" "Preview expiry must be in the future" current.traceId)
    let old ← fact a.interactionId .preview current.currentPreviewId
    let previewId ← newId "prv"
    let preview := newPreview sha a current old previewId now
    let updated := current.previewed preview now
    let resolving ← audit { updated with
        lifecycleState := current.lifecycleState, resolutionPhase := .resolving }
      "interaction.resolution_started" (some current.lifecycleState) a.idempotencyKey
      [("from_resolution", current.resolutionPhase.value),
        ("to_resolution", ResolutionPhase.resolving.value)]
    let resolved ← audit { updated with lifecycleState := current.lifecycleState }
      "interaction.resolved" (some current.lifecycleState) a.idempotencyKey
      [("from_resolution", ResolutionPhase.resolving.value),
        ("to_resolution", ResolutionPhase.resolved.value)]
    let previewed ← audit { updated with lifecycleState := .previewed }
      "interaction.previewed" (some current.lifecycleState) a.idempotencyKey
      [("preview_id", preview.previewId)]
    let final ← audit updated
      (if updated.lifecycleState = .awaitingConfirmation then "interaction.awaiting_confirmation"
        else "interaction.authorized")
      (some .previewed) a.idempotencyKey [("preview_id", preview.previewId)]
    transition ⟨updated, current.revision, previewFacts old preview,
      [resolving, resolved, previewed, final], .preview, a.idempotencyKey, digest, none⟩
    return preview

/-! ## Confirm -/

structure ConfirmArgs where
  workspace : WorkspaceKey
  actorId : String
  interactionId : String
  previewId : String
  previewRevision : Int
  expectedRevision : Int
  idempotencyKey : String
  expiresIn : TimeDelta := 15 * 60 * 1000000
  consumption : Option TrustedEvidenceConsumption := none
deriving DecidableEq, Repr

def confirmPayload (a : ConfirmArgs) (scope : Scope) : Payload :=
  [("interaction_id", .str a.interactionId), ("preview_id", .str a.previewId),
    ("preview_revision", .int a.previewRevision), ("expected_revision", .int a.expectedRevision),
    ("actor_id", .str a.actorId),
    ("workspace", .strs [scope.tenantId, scope.workspaceId, scope.nameSpace]),
    ("expires_in", totalSeconds a.expiresIn)]

/-- The Confirmation `confirm` builds. -/
def newConfirmation (a : ConfirmArgs) (current : Interaction) (preview : Preview)
    (confirmationId : String) (now : Instant) : Confirmation :=
  { confirmationId, interactionId := a.interactionId, previewId := a.previewId
    previewRevision := a.previewRevision, scope := current.scope, actorId := a.actorId
    policyReference := current.policyReference, createdAt := now
    expiresAt := min preview.expiresAt (now + a.expiresIn) }

/-- The record `confirm` commits. -/
def Interaction.confirmed (current : Interaction) (preview : Preview) (confirmation : Confirmation)
    (now : Instant) : Interaction :=
  { current with
    lifecycleState := if preview.requiresApproval then .awaitingConfirmation else .authorized
    revision := current.revision + 1
    currentConfirmationId := some confirmation.confirmationId
    updatedAt := now }

def confirm (sha : Sha256) (a : ConfirmArgs) : Prog Confirmation := do
  let scope ← scopeOf a.workspace a.actorId
  let digest := sha.hexdigest (confirmPayload a scope)
  let prior ← idempotent scope .confirm a.idempotencyKey digest a.workspace.traceId
  match prior with
  | some prior => do
    let stored ← fact prior.interactionId .confirmation prior.currentConfirmationId
    asserted stored
  | none => do
    let current ← require scope a.interactionId a.workspace.traceId
    failIf (current.revision ≠ a.expectedRevision) (failureInfo
      "interaction.confirmation_conflict" .conflict "confirm" "Interaction revision is stale"
      current.traceId)
    failIf (current.lifecycleState ≠ .awaitingConfirmation) (invalidState current "confirm")
    let loaded ← fact a.interactionId .preview (some a.previewId)
    let now ← now
    let stale := failureInfo "interaction.preview_stale" .conflict "confirm"
      "Preview is stale or superseded" current.traceId
    match loaded with
    | none => fail stale
    | some preview => do
      failIf (preview.status ≠ .active ∨ preview.previewRevision ≠ a.previewRevision ∨
        some preview.previewId ≠ current.currentPreviewId) stale
      failIf (preview.actorId ≠ a.actorId ∨ preview.policyReference ≠ current.policyReference)
        (failureInfo "interaction.confirmation_actor_mismatch" .permissionDenied "confirm"
          "Confirmation principal or policy does not match Preview" current.traceId)
      failIf (preview.expiresAt ≤ now) (failureInfo "interaction.preview_expired" .conflict
        "confirm" "Preview has expired" current.traceId)
      failIf (a.expiresIn ≤ 0) (failureInfo "interaction.confirmation_expiry_invalid" .validation
        "confirm" "Confirmation expiry must be in the future" current.traceId)
      let confirmationId ← newId "cnf"
      let confirmation := newConfirmation a current preview confirmationId now
      let updated := current.confirmed preview confirmation now
      let audit ← audit updated "interaction.confirmed" (some current.lifecycleState)
        a.idempotencyKey
        [("confirmation_id", confirmation.confirmationId), ("preview_id", a.previewId)]
      transition ⟨updated, current.revision,
        [.preview (preview.withStatus .confirmed), .confirmation confirmation], [audit], .confirm,
        a.idempotencyKey, digest, a.consumption⟩
      return confirmation

/-! ## Approve -/

structure ApproveArgs where
  workspace : WorkspaceKey
  actorId : String
  interactionId : String
  previewId : String
  previewRevision : Int
  expectedRevision : Int
  approverRole : String
  idempotencyKey : String
  authorityEvidence : Option String := none
  expiresIn : TimeDelta := 15 * 60 * 1000000
deriving DecidableEq, Repr

def approvePayload (sha : Sha256) (a : ApproveArgs) : Payload :=
  [("interaction_id", .str a.interactionId), ("preview_id", .str a.previewId),
    ("preview_revision", .int a.previewRevision), ("expected_revision", .int a.expectedRevision),
    ("approver_id", .str a.actorId), ("approver_role", .str a.approverRole),
    ("authority_evidence_digest", .str (digestText sha (a.authorityEvidence.getD ""))),
    ("expires_in", totalSeconds a.expiresIn)]

/-- What `approve` asks the approval authority. -/
def authorityRequest (a : ApproveArgs) (current : Interaction) : ApprovalAuthorizationRequest :=
  { interactionId := a.interactionId, previewId := a.previewId
    previewRevision := a.previewRevision, scope := current.scope, approverId := a.actorId
    requestedRole := a.approverRole, policyReference := current.policyReference
    traceId := current.traceId }

/-- `_approval_authority_matches`. -/
def approvalAuthorityMatches (request : ApprovalAuthorizationRequest)
    (evidence : ApprovalAuthorizationEvidence) (now : Instant) : Prop :=
  evidence.interactionId = request.interactionId ∧ evidence.previewId = request.previewId ∧
    evidence.previewRevision = request.previewRevision ∧ evidence.scope = request.scope ∧
    evidence.approverId = request.approverId ∧ evidence.authorizedRole = request.requestedRole ∧
    evidence.policyReference = request.policyReference ∧ evidence.evidenceDigest ≠ "" ∧
    now < evidence.expiresAt

instance (request : ApprovalAuthorizationRequest) (evidence : ApprovalAuthorizationEvidence)
    (now : Instant) : Decidable (approvalAuthorityMatches request evidence now) :=
  inferInstanceAs (Decidable (_ ∧ _ ∧ _ ∧ _ ∧ _ ∧ _ ∧ _ ∧ _ ∧ _))

/-- The Approval `approve` builds. -/
def newApproval (a : ApproveArgs) (current : Interaction) (preview : Preview)
    (authority : ApprovalAuthorizationEvidence) (approvalId : String) (now : Instant) : Approval :=
  { approvalId, interactionId := a.interactionId, previewId := a.previewId
    previewRevision := a.previewRevision, scope := current.scope, approverId := a.actorId
    approverRole := authority.authorizedRole
    authorityEvidenceId := authority.authorityEvidenceId
    authorityEvidenceDigest := authority.evidenceDigest
    policyReference := current.policyReference, createdAt := now
    expiresAt := min (min preview.expiresAt authority.expiresAt) (now + a.expiresIn) }

/-- The record `approve` commits. -/
def Interaction.approved (current : Interaction) (approval : Approval) (now : Instant) :
    Interaction :=
  { current with
    lifecycleState := .authorized
    currentApprovalId := some approval.approvalId
    revision := current.revision + 1
    updatedAt := now }

/-- The last part of `approve`: the authority's answer and the commit. -/
def grantApproval (a : ApproveArgs) (digest : String) (current : Interaction) (preview : Preview)
    (now : Instant) : Prog Approval := do
  let request := authorityRequest a current
  let answer ← act (.authorize request (a.authorityEvidence.getD ""))
  let invalid := failureInfo "interaction.approval_authority_invalid" .permissionDenied "approve"
    "Approval authority evidence is invalid or does not match the Preview" current.traceId
  match answer with
  | .error e => fail (failureInfo "interaction.approval_authority_invalid" .permissionDenied
      "approve" ("Approval authority rejected the evidence: " ++ e) current.traceId)
  | .ok none => fail invalid
  | .ok (some authority) => do
    failIf (¬approvalAuthorityMatches request authority now) invalid
    let approvalId ← newId "apr"
    let approval := newApproval a current preview authority approvalId now
    let updated := current.approved approval now
    let audit ← audit updated "interaction.approved" (some current.lifecycleState)
      a.idempotencyKey
      [("approval_id", approval.approvalId),
        ("authority_evidence_id", approval.authorityEvidenceId), ("preview_id", a.previewId)]
    transition ⟨updated, current.revision, [.approval approval], [audit], .approve,
      a.idempotencyKey, digest, none⟩
    return approval

def approve (sha : Sha256) (a : ApproveArgs) : Prog Approval := do
  let scope ← scopeOf a.workspace a.actorId
  let digest := sha.hexdigest (approvePayload sha a)
  let prior ← idempotent scope .approve a.idempotencyKey digest a.workspace.traceId
  match prior with
  | some prior => do
    let stored ← fact prior.interactionId .approval prior.currentApprovalId
    asserted stored
  | none => do
    let current ← require scope a.interactionId a.workspace.traceId
    failIf (current.revision ≠ a.expectedRevision) (failureInfo "interaction.approval_conflict"
      .conflict "approve" "Interaction revision is stale" current.traceId)
    failIf (current.lifecycleState ≠ .awaitingConfirmation ∨ current.currentConfirmationId = none)
      (invalidState current "approve")
    let loaded ← fact a.interactionId .preview (some a.previewId)
    let confirmation ← fact a.interactionId .confirmation current.currentConfirmationId
    let now ← now
    let conflict := failureInfo "interaction.approval_conflict" .conflict "approve"
      "Approval does not match an active confirmed Preview" current.traceId
    match loaded, confirmation with
    | some preview, some confirmation => do
      failIf (preview.requiresApproval = false ∨
        some preview.previewId ≠ current.currentPreviewId ∨
        preview.previewRevision ≠ a.previewRevision ∨ preview.expiresAt ≤ now ∨
        confirmation.expiresAt ≤ now) conflict
      failIf (Text.blank a.approverRole ∨ a.expiresIn ≤ 0) (failureInfo
        "interaction.approval_invalid" .validation "approve"
        "Approver role and future expiry are required" current.traceId)
      failIf (a.authorityEvidence.getD "" = "") (failureInfo
        "interaction.approval_authority_missing" .permissionDenied "approve"
        "AI-Lab-controlled approval authority evidence is required" current.traceId)
      grantApproval a digest current preview now
    | _, _ => fail conflict

/-! ## Cancel and expire -/

/-- The arguments of the operations that name an interaction at a revision. -/
structure RevisionArgs where
  workspace : WorkspaceKey
  actorId : String
  interactionId : String
  expectedRevision : Int
  idempotencyKey : String
deriving DecidableEq, Repr

def revisionPayload (a : RevisionArgs) : Payload :=
  [("interaction_id", .str a.interactionId), ("expected_revision", .int a.expectedRevision)]

/-- The record `cancel` commits. -/
def Interaction.cancelled (current : Interaction) (now : Instant) : Interaction :=
  { current with
    lifecycleState := .cancelled, revision := current.revision + 1, updatedAt := now }

/-- The facts `cancel` commits: the Preview superseded, if it was still active. -/
def cancelFacts : Option Preview → List Fact
  | some p => if p.status = .active then [.preview (p.withStatus .superseded)] else []
  | none => []

def cancel (sha : Sha256) (a : RevisionArgs) : Prog Interaction := do
  let scope ← scopeOf a.workspace a.actorId
  let digest := sha.hexdigest (revisionPayload a)
  let prior ← idempotent scope .cancel a.idempotencyKey digest a.workspace.traceId
  match prior with
  | some prior => return prior
  | none => do
    let current ← require scope a.interactionId a.workspace.traceId
    failIf (current.revision ≠ a.expectedRevision) (failureInfo "interaction.revision_conflict"
      .conflict "cancel" "Interaction revision is stale" current.traceId)
    failIf current.lifecycleState.terminal (invalidState current "cancel")
    failIf (current.lifecycleState ∈ [.executing, .verifying, .recoveryRequired] ∨
        current.executionStatus ∈ [.attempted, .acknowledged, .completed, .uncertain])
      (failureInfo "interaction.cancel_outcome_uncertain" .conflict "cancel"
        "Execution may have side effects; verification or recovery is required" current.traceId)
    let now ← now
    let preview ← fact a.interactionId .preview current.currentPreviewId
    let updated := current.cancelled now
    let audit ← audit updated "interaction.cancelled" (some current.lifecycleState)
      a.idempotencyKey
    transition ⟨updated, current.revision, cancelFacts preview, [audit], .cancel,
      a.idempotencyKey, digest, none⟩
    return updated

/-- The record `expire_preview` commits. -/
def Interaction.lapsed (current : Interaction) (now : Instant) : Interaction :=
  { current with
    lifecycleState := .expired, revision := current.revision + 1, updatedAt := now }

def expirePreview (sha : Sha256) (a : RevisionArgs) : Prog Interaction := do
  let scope ← scopeOf a.workspace a.actorId
  let digest := sha.hexdigest (revisionPayload a)
  let prior ← idempotent scope .expire a.idempotencyKey digest a.workspace.traceId
  match prior with
  | some prior => return prior
  | none => do
    let current ← require scope a.interactionId a.workspace.traceId
    failIf (current.revision ≠ a.expectedRevision) (failureInfo "interaction.revision_conflict"
      .conflict "expire" "Interaction revision is stale" current.traceId)
    failIf (current.lifecycleState ∉ [.previewed, .awaitingConfirmation])
      (invalidState current "expire")
    let loaded ← fact a.interactionId .preview current.currentPreviewId
    let now ← now
    let unexpired := failureInfo "interaction.preview_not_expired" .conflict "expire"
      "Preview has not expired" current.traceId
    match loaded with
    | none => fail unexpired
    | some preview => do
      failIf (now < preview.expiresAt) unexpired
      let updated := current.lapsed now
      let audit ← audit updated "interaction.expired" (some current.lifecycleState)
        a.idempotencyKey [("preview_id", preview.previewId)]
      transition ⟨updated, current.revision, [.preview (preview.withStatus .expired)], [audit],
        .expire, a.idempotencyKey, digest, none⟩
      return updated

end Interactions

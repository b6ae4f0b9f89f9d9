import AiLabOs.Base.Failure

/-!
# Trusted interactions: models

An interaction is one record, moved from state to state under a revision, and facts about it:
previews, confirmations, approvals, executions, verified results, commit evidence, recoveries.
Instants and durations are in microseconds.

## Main definitions

* `Interaction`: the record
* `Preview`, `Confirmation`, `Approval`, `Execution`, `VerifiedResult`, `CanonicalCommitEvidence`,
  `Recovery`: its facts, gathered in `Fact`
* `AuditEvidence`: one line of the audit trail
* the requests to the ports and their replies
-/

namespace Interactions

/-- A point in time. -/
abbrev Instant := Int

/-- `timedelta`. -/
abbrev TimeDelta := Int

inductive LifecycleState where
  | requested
  | previewed
  | awaitingConfirmation
  | authorized
  | executing
  | verifying
  | succeeded
  | failed
  | cancelled
  | expired
  | recoveryRequired
deriving DecidableEq, Repr

inductive ResolutionPhase where
  | unresolved
  | resolving
  | resolved
deriving DecidableEq, Repr

inductive ExecutionStatus where
  | notStarted
  | accepted
  | attempted
  | acknowledged
  | completed
  | rejected
  | failed
  | uncertain
deriving DecidableEq, Repr

inductive VerificationStatus where
  | notRequired
  | pending
  | verified
  | failed
  | uncertain
deriving DecidableEq, Repr

inductive RecoveryStatus where
  | notRequired
  | pending
  | inProgress
  | recovered
  | failed
deriving DecidableEq, Repr

inductive PreviewStatus where
  | active
  | superseded
  | expired
  | confirmed
deriving DecidableEq, Repr

/-- The text of a lifecycle state. -/
def LifecycleState.value : LifecycleState → String
  | .requested => "REQUESTED"
  | .previewed => "PREVIEWED"
  | .awaitingConfirmation => "AWAITING_CONFIRMATION"
  | .authorized => "AUTHORIZED"
  | .executing => "EXECUTING"
  | .verifying => "VERIFYING"
  | .succeeded => "SUCCEEDED"
  | .failed => "FAILED"
  | .cancelled => "CANCELLED"
  | .expired => "EXPIRED"
  | .recoveryRequired => "RECOVERY_REQUIRED"

/-- The text of a resolution phase. -/
def ResolutionPhase.value : ResolutionPhase → String
  | .unresolved => "UNRESOLVED"
  | .resolving => "RESOLVING"
  | .resolved => "RESOLVED"

/-- `(tenant_id, workspace_id, namespace)`. -/
structure Scope where
  tenantId : String
  workspaceId : String
  nameSpace : String
deriving DecidableEq, Repr

/-- `WorkspaceKey`, as far as the services read it. -/
structure WorkspaceKey where
  tenantId : String
  workspaceId : String
  nameSpace : String
  userId : String
  traceId : String
deriving DecidableEq, Repr

structure Interaction where
  interactionId : String
  scope : Scope
  actorId : String
  requestId : String
  traceId : String
  operation : String
  riskLevel : String
  policyReference : String
  lifecycleState : LifecycleState := .requested
  resolutionPhase : ResolutionPhase := .unresolved
  executionStatus : ExecutionStatus := .notStarted
  verificationStatus : VerificationStatus := .notRequired
  recoveryStatus : RecoveryStatus := .notRequired
  revision : Int := 1
  currentPreviewId : Option String := none
  currentConfirmationId : Option String := none
  currentApprovalId : Option String := none
  currentExecutionId : Option String := none
  verifiedResultId : Option String := none
  canonicalCommitEvidenceId : Option String := none
  recoveryId : Option String := none
  canonicalObjectId : Option String := none
  safeSummary : String := ""
  failure : Option FailureInfo := none
  correlation : Dict := []
  createdAt : Instant
  updatedAt : Instant
deriving DecidableEq, Repr

structure Preview where
  previewId : String
  interactionId : String
  scope : Scope
  actorId : String
  operation : String
  policyReference : String
  riskLevel : String
  previewRevision : Int
  normalizedParameters : JsonDoc
  payloadDigest : String
  targetObjectId : Option String
  targetRevision : Option Int
  mutationSummary : String
  expectedExternalEffects : List String
  requiresConfirmation : Bool
  requiresApproval : Bool
  canonicalCommitRequired : Bool
  status : PreviewStatus := .active
  createdAt : Instant
  expiresAt : Instant
deriving DecidableEq, Repr

structure Confirmation where
  confirmationId : String
  interactionId : String
  previewId : String
  previewRevision : Int
  scope : Scope
  actorId : String
  policyReference : String
  createdAt : Instant
  expiresAt : Instant
deriving DecidableEq, Repr

structure Approval where
  approvalId : String
  interactionId : String
  previewId : String
  previewRevision : Int
  scope : Scope
  approverId : String
  approverRole : String
  authorityEvidenceId : String
  authorityEvidenceDigest : String
  policyReference : String
  createdAt : Instant
  expiresAt : Instant
deriving DecidableEq, Repr

structure Execution where
  executionId : String
  interactionId : String
  scope : Scope
  actorId : String
  attempt : Nat
  idempotencyKey : String
  executorType : String
  status : ExecutionStatus
  startedAt : Instant
  finishedAt : Option Instant := none
  externalReference : Option String := none
  evidenceDigest : Option String := none
  failure : Option FailureInfo := none
deriving DecidableEq, Repr

structure VerifiedResult where
  verifiedResultId : String
  interactionId : String
  executionId : String
  scope : Scope
  verificationMethod : String
  outcome : String
  verifiedAt : Instant
  canonicalCommitEvidenceId : Option String := none
  externalReference : Option String
  evidenceDigest : String
deriving DecidableEq, Repr

structure CanonicalCommitEvidence where
  canonicalCommitEvidenceId : String
  interactionId : String
  executionId : String
  previewId : String
  scope : Scope
  policyReference : String
  commitRequired : Bool
  outcome : String
  canonicalObjectId : Option String
  canonicalRevision : Option Int
  evidenceDigest : String
  committedAt : Instant
deriving DecidableEq, Repr

structure Recovery where
  recoveryId : String
  interactionId : String
  scope : Scope
  actorId : String
  status : RecoveryStatus
  reason : String
  evidenceDigest : Option String := none
  createdAt : Instant
  updatedAt : Instant
deriving DecidableEq, Repr

structure AuditEvidence where
  auditId : String
  interactionId : String
  scope : Scope
  actorId : String
  requestId : String
  traceId : String
  operation : String
  riskLevel : String
  eventType : String
  fromState : Option LifecycleState
  toState : LifecycleState
  revision : Int
  idempotencyKey : String
  references : Dict
  failure : Option FailureInfo
  occurredAt : Instant
deriving DecidableEq, Repr

/-! ## Facts -/

/-- The kinds of fact, `fact_type`. -/
inductive FactType where
  | preview
  | confirmation
  | approval
  | execution
  | verifiedResult
  | canonicalCommitEvidence
  | recovery
deriving DecidableEq, Repr

/-- The model a kind of fact is loaded into. -/
abbrev FactType.Model : FactType → Type
  | .preview => Preview
  | .confirmation => Confirmation
  | .approval => Approval
  | .execution => Execution
  | .verifiedResult => VerifiedResult
  | .canonicalCommitEvidence => CanonicalCommitEvidence
  | .recovery => Recovery

/-- A fact of any kind. -/
inductive Fact where
  | preview (p : Preview)
  | confirmation (c : Confirmation)
  | approval (a : Approval)
  | execution (x : Execution)
  | verifiedResult (r : VerifiedResult)
  | canonicalCommitEvidence (e : CanonicalCommitEvidence)
  | recovery (r : Recovery)
deriving DecidableEq, Repr

namespace Fact

/-- `fact.__class__`. -/
def type : Fact → FactType
  | .preview _ => .preview
  | .confirmation _ => .confirmation
  | .approval _ => .approval
  | .execution _ => .execution
  | .verifiedResult _ => .verifiedResult
  | .canonicalCommitEvidence _ => .canonicalCommitEvidence
  | .recovery _ => .recovery

/-- The first field of the model whose name ends in `_id` and is not `interaction_id`. -/
def factId : Fact → String
  | .preview p => p.previewId
  | .confirmation c => c.confirmationId
  | .approval a => a.approvalId
  | .execution x => x.executionId
  | .verifiedResult r => r.verifiedResultId
  | .canonicalCommitEvidence e => e.canonicalCommitEvidenceId
  | .recovery r => r.recoveryId

/-- A model as a fact of its kind. -/
def of : (ty : FactType) → ty.Model → Fact
  | .preview, p => .preview p
  | .confirmation, c => .confirmation c
  | .approval, a => .approval a
  | .execution, x => .execution x
  | .verifiedResult, r => .verifiedResult r
  | .canonicalCommitEvidence, e => .canonicalCommitEvidence e
  | .recovery, r => .recovery r

/-- The model of a fact, if it is of the kind asked for. -/
def as : (ty : FactType) → Fact → Option ty.Model
  | .preview, .preview p => some p
  | .confirmation, .confirmation c => some c
  | .approval, .approval a => some a
  | .execution, .execution x => some x
  | .verifiedResult, .verifiedResult r => some r
  | .canonicalCommitEvidence, .canonicalCommitEvidence e => some e
  | .recovery, .recovery r => some r
  | _, _ => none

@[simp] theorem as_of (ty : FactType) (x : ty.Model) : (of ty x).as ty = some x := by
  cases ty <;> rfl

@[simp] theorem type_of (ty : FactType) (x : ty.Model) : (of ty x).type = ty := by
  cases ty <;> rfl

/-- A fact of the kind asked for is the model it is loaded into. -/
theorem as_eq_some {ty : FactType} {f : Fact} {x : ty.Model} : f.as ty = some x ↔ f = of ty x := by
  cases ty <;> cases f <;> simp [as, of]

end Fact

/-! ## Ports -/

structure ExecutionRequest where
  interactionId : String
  executionId : String
  operation : String
  normalizedParameters : JsonDoc
  idempotencyKey : String
  traceId : String
deriving DecidableEq, Repr

structure ExecutionObservation where
  status : ExecutionStatus
  executorType : String := "reference"
  externalReference : Option String := none
  evidenceDigest : Option String := none
  failure : Option FailureInfo := none
deriving DecidableEq, Repr

structure VerificationRequest where
  interactionId : String
  executionId : String
  externalReference : Option String
  traceId : String
deriving DecidableEq, Repr

structure VerificationObservation where
  status : VerificationStatus
  method : String := "reference"
  outcome : String := ""
  evidenceDigest : String := ""
  externalReference : Option String := none
  failure : Option FailureInfo := none
deriving DecidableEq, Repr

structure CanonicalCommitRequest where
  interactionId : String
  executionId : String
  previewId : String
  scope : Scope
  operation : String
  policyReference : String
  normalizedParameters : JsonDoc
  targetObjectId : Option String
  targetRevision : Option Int
  traceId : String
deriving DecidableEq, Repr

structure ApprovalAuthorizationRequest where
  interactionId : String
  previewId : String
  previewRevision : Int
  scope : Scope
  approverId : String
  requestedRole : String
  policyReference : String
  traceId : String
deriving DecidableEq, Repr

structure ApprovalAuthorizationEvidence where
  authorityEvidenceId : String
  interactionId : String
  previewId : String
  previewRevision : Int
  scope : Scope
  approverId : String
  authorizedRole : String
  policyReference : String
  evidenceDigest : String
  expiresAt : Instant
deriving DecidableEq, Repr

/-- `InteractionStatus`. -/
structure InteractionStatus where
  interaction : Interaction
  preview : Option Preview
  confirmation : Option Confirmation
  approval : Option Approval
  execution : Option Execution
  verifiedResult : Option VerifiedResult
  canonicalCommitEvidence : Option CanonicalCommitEvidence
  recovery : Option Recovery
deriving DecidableEq, Repr

/-- `InteractionView`. -/
structure InteractionView where
  interactionId : String
  lifecycleState : LifecycleState
  revision : Int
  canonicalObjectId : Option String
  safeSummary : String
  availableOperations : List String
  previewStatus : Option PreviewStatus
  confirmationId : Option String
  executionStatus : ExecutionStatus
  verificationStatus : VerificationStatus
  verifiedResultId : Option String
  recoveryStatus : RecoveryStatus
  failure : Option FailureInfo
deriving DecidableEq, Repr

end Interactions

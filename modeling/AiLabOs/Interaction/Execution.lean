import AiLabOs.Interaction.Service

/-!
# Trusted interactions: execution, verification and recovery

## Main definitions

* `startExecution`: the authorisation check, the persisted intent, the port call and the persisted
  observation
* `verify`: the verifier, the canonical commit and the persisted result
* `recover`: the reconciliation of an intent without observation, then `verify`
* `status`, `view`: the projections
-/

namespace Interactions

open Process Process.Program

/-! ## Status and view -/

def status (workspace : WorkspaceKey) (actorId interactionId : String) :
    Prog InteractionStatus := do
  let scope ← scopeOf workspace actorId
  let current ← require scope interactionId workspace.traceId
  failIf (current.actorId ≠ actorId) (failureInfo "interaction.actor_mismatch" .permissionDenied
    "status" "Actor mismatch" current.traceId)
  let preview ← fact interactionId .preview current.currentPreviewId
  let confirmation ← fact interactionId .confirmation current.currentConfirmationId
  let approval ← fact interactionId .approval current.currentApprovalId
  let execution ← fact interactionId .execution current.currentExecutionId
  let verifiedResult ← fact interactionId .verifiedResult current.verifiedResultId
  let evidence ← fact interactionId .canonicalCommitEvidence current.canonicalCommitEvidenceId
  let recovery ← fact interactionId .recovery current.recoveryId
  return ⟨current, preview, confirmation, approval, execution, verifiedResult, evidence, recovery⟩

/-- The operations `view` offers, in the order they are listed. -/
def availableOperations (s : InteractionStatus) : List String :=
  let state := s.interaction.lifecycleState
  ["status", "view"] ++
    (if state ∈ [.requested, .previewed, .awaitingConfirmation] then
      ["preview", "modify", "cancel"] else []) ++
    (if state = .awaitingConfirmation then
      [if s.confirmation.isSome then "approve" else "confirm"] else []) ++
    (if state = .authorized then ["execute", "cancel"] else []) ++
    (if state = .verifying then ["verify"] else if state = .recoveryRequired then ["recover"]
      else [])

def viewOf (s : InteractionStatus) : InteractionView :=
  { interactionId := s.interaction.interactionId
    lifecycleState := s.interaction.lifecycleState, revision := s.interaction.revision
    canonicalObjectId := s.interaction.canonicalObjectId
    safeSummary := s.interaction.safeSummary, availableOperations := availableOperations s
    previewStatus := s.preview.map Preview.status
    confirmationId := s.interaction.currentConfirmationId
    executionStatus := s.interaction.executionStatus
    verificationStatus := s.interaction.verificationStatus
    verifiedResultId := s.interaction.verifiedResultId
    recoveryStatus := s.interaction.recoveryStatus, failure := s.interaction.failure }

def view (workspace : WorkspaceKey) (actorId interactionId : String) : Prog InteractionView := do
  let status ← status workspace actorId interactionId
  return viewOf status

/-! ## Start of the execution -/

/-- The Execution `start_execution` persists before it calls the port. -/
def newExecution (a : RevisionArgs) (current : Interaction) (executionId : String)
    (now : Instant) : Execution :=
  { executionId, interactionId := a.interactionId, scope := current.scope, actorId := a.actorId
    attempt := 1, idempotencyKey := a.idempotencyKey, executorType := "pending"
    status := .attempted, startedAt := now }

/-- The record of a persisted intent. -/
def Interaction.executing (current : Interaction) (execution : Execution) (now : Instant) :
    Interaction :=
  { current with
    lifecycleState := .executing
    executionStatus := .attempted
    verificationStatus := .pending
    revision := current.revision + 1
    currentExecutionId := some execution.executionId
    updatedAt := now }

/-- What the execution port is asked to do. -/
def executionRequest (a : RevisionArgs) (current : Interaction) (preview : Preview)
    (execution : Execution) : ExecutionRequest :=
  { interactionId := a.interactionId, executionId := execution.executionId
    operation := current.operation, normalizedParameters := preview.normalizedParameters
    idempotencyKey := a.idempotencyKey, traceId := current.traceId }

/-- What `start_execution` takes for observed when the port raises. -/
def unavailableExecution (current : Interaction) (message : String) : ExecutionObservation :=
  { status := .uncertain, executorType := "unavailable"
    failure := some (failureInfo "interaction.execution_outcome_uncertain" .timeout "execute"
      message current.traceId) }

/-- The Execution with its observation. -/
def Execution.observed (execution : Execution) (o : ExecutionObservation) (finished : Instant) :
    Execution :=
  { execution with
    status := o.status, executorType := o.executorType, externalReference := o.externalReference
    evidenceDigest := o.evidenceDigest, failure := o.failure, finishedAt := some finished }

/-- The Recovery of an execution whose outcome is uncertain. -/
def uncertainRecovery (a : RevisionArgs) (current : Interaction) (o : ExecutionObservation)
    (recoveryId : String) (finished : Instant) : Recovery :=
  { recoveryId, interactionId := a.interactionId, scope := current.scope, actorId := a.actorId
    status := .pending, reason := "interaction.execution_outcome_uncertain"
    evidenceDigest := o.evidenceDigest, createdAt := finished, updatedAt := finished }

/-- The record of an observed execution. -/
def Interaction.observed (executing : Interaction) (o : ExecutionObservation)
    (recovery : Option Recovery) (finished : Instant) : Interaction :=
  { executing with
    lifecycleState :=
      if o.status ∈ [.rejected, .failed] then .failed
      else if o.status = .uncertain then .recoveryRequired
      else .verifying
    executionStatus := o.status
    verificationStatus :=
      if o.status ∈ [.rejected, .failed] then .notRequired
      else if o.status = .uncertain then .uncertain
      else .pending
    recoveryStatus := if o.status = .uncertain then .pending else .notRequired
    recoveryId := match recovery with
      | some r => some r.recoveryId
      | none => executing.recoveryId
    failure := o.failure
    revision := executing.revision + 1
    updatedAt := finished }

/-- The facts of an observed execution. -/
def observedFacts (execution : Execution) (recovery : Option Recovery) : List Fact :=
  .execution execution :: recovery.toList.map .recovery

/-- The Recovery an observation asks for, if its outcome is uncertain. -/
def observedRecovery (a : RevisionArgs) (current : Interaction) (o : ExecutionObservation)
    (finished : Instant) : Prog (Option Recovery) :=
  if o.status = .uncertain then do
    let recoveryId ← newId "rcv"
    return some (uncertainRecovery a current o recoveryId finished)
  else return none

/-- The second commit of `start_execution`. -/
def observeExecution (a : RevisionArgs) (digest : String) (current executing : Interaction)
    (execution : Execution) (o : ExecutionObservation) : Prog Unit := do
  let finished ← now
  let execution := execution.observed o finished
  let recovery ← observedRecovery a current o finished
  let final := executing.observed o recovery finished
  let audit ← audit final "interaction.execution_observed" (some executing.lifecycleState)
    a.idempotencyKey
    [("execution_id", execution.executionId),
      ("external_reference", o.externalReference.getD "")] o.failure
  transition ⟨final, executing.revision, observedFacts execution recovery, [audit], .execute,
    a.idempotencyKey, digest, none⟩

/-- The first commit of `start_execution`, the port call and what follows it. -/
def runExecution (a : RevisionArgs) (digest : String) (current : Interaction) (preview : Preview)
    (now : Instant) : Prog InteractionStatus := do
  let executionId ← newId "exe"
  let execution := newExecution a current executionId now
  let executing := current.executing execution now
  let audit ← audit executing "interaction.execution_started" (some current.lifecycleState)
    a.idempotencyKey [("execution_id", execution.executionId)]
  transition ⟨executing, current.revision, [.execution execution], [audit], .execute,
    a.idempotencyKey, digest, none⟩
  let reply ← act (.execute (executionRequest a current preview execution))
  let observation := match reply with
    | .ok o => o
    | .error e => unavailableExecution current e
  observeExecution a digest current executing execution observation
  status a.workspace a.actorId a.interactionId

/-- `required and (fact is None or self._clock.now() >= fact.expires_at)`. -/
def missingOrExpired (required : Bool) (expiresAt : Option Instant) : Prog Bool :=
  if required then
    match expiresAt with
    | none => return true
    | some expiresAt => do
      let now ← now
      return decide (expiresAt ≤ now)
  else return false

def startExecution (sha : Sha256) (a : RevisionArgs) : Prog InteractionStatus := do
  let scope ← scopeOf a.workspace a.actorId
  let digest := sha.hexdigest (revisionPayload a)
  let prior ← idempotent scope .execute a.idempotencyKey digest a.workspace.traceId
  match prior with
  | some _ => status a.workspace a.actorId a.interactionId
  | none => do
    let current ← require scope a.interactionId a.workspace.traceId
    failIf (current.revision ≠ a.expectedRevision) (failureInfo "interaction.revision_conflict"
      .conflict "execute" "Interaction revision is stale" current.traceId)
    failIf (current.lifecycleState ≠ .authorized) (invalidState current "execute")
    let loaded ← fact a.interactionId .preview current.currentPreviewId
    match loaded with
    | none => fail (failureInfo "interaction.preview_missing" .conflict "execute"
        "Authorized interaction has no canonical Preview" current.traceId)
    | some preview => do
      let now ← now
      let confirmation ← fact a.interactionId .confirmation current.currentConfirmationId
      let approval ← fact a.interactionId .approval current.currentApprovalId
      let confirmationExpired ← missingOrExpired preview.requiresConfirmation
        (confirmation.map Confirmation.expiresAt)
      failIf (confirmationExpired = true) (failureInfo "interaction.confirmation_expired"
        .conflict "execute" "Canonical Confirmation is missing or expired" current.traceId)
      let approvalExpired ← missingOrExpired preview.requiresApproval
        (approval.map Approval.expiresAt)
      failIf (approvalExpired = true) (failureInfo "interaction.approval_expired" .conflict
        "execute" "Canonical Approval is missing or expired" current.traceId)
      runExecution a digest current preview now

/-! ## Verification -/

/-- `_canonical_commit_matches`. -/
def canonicalCommitMatches (request : CanonicalCommitRequest)
    (evidence : CanonicalCommitEvidence) : Prop :=
  evidence.interactionId = request.interactionId ∧ evidence.executionId = request.executionId ∧
    evidence.previewId = request.previewId ∧ evidence.scope = request.scope ∧
    evidence.policyReference = request.policyReference ∧ evidence.commitRequired = true ∧
    evidence.outcome = "COMMITTED" ∧ evidence.canonicalObjectId.getD "" ≠ "" ∧
    evidence.canonicalRevision ≠ none ∧ evidence.evidenceDigest ≠ ""

instance (request : CanonicalCommitRequest) (evidence : CanonicalCommitEvidence) :
    Decidable (canonicalCommitMatches request evidence) :=
  inferInstanceAs (Decidable (_ ∧ _ ∧ _ ∧ _ ∧ _ ∧ _ ∧ _ ∧ _ ∧ _ ∧ _))

/-- What `_canonical_commit` asks the canonical commit authority. -/
def canonicalCommitRequest (r : Interaction) (preview : Preview) (execution : Execution) :
    CanonicalCommitRequest :=
  { interactionId := r.interactionId, executionId := execution.executionId
    previewId := preview.previewId, scope := r.scope, operation := r.operation
    policyReference := r.policyReference, normalizedParameters := preview.normalizedParameters
    targetObjectId := preview.targetObjectId, targetRevision := preview.targetRevision
    traceId := r.traceId }

/-- The evidence of a Preview that requires no canonical commit. -/
def notRequiredEvidence (sha : Sha256) (r : Interaction) (preview : Preview)
    (execution : Execution) (evidenceId : String) (now : Instant) : CanonicalCommitEvidence :=
  { canonicalCommitEvidenceId := evidenceId, interactionId := r.interactionId
    executionId := execution.executionId, previewId := preview.previewId, scope := r.scope
    policyReference := r.policyReference, commitRequired := false, outcome := "NOT_REQUIRED"
    canonicalObjectId := preview.targetObjectId, canonicalRevision := preview.targetRevision
    evidenceDigest := sha.hexdigest [("interaction_id", .str r.interactionId),
      ("preview_id", .str preview.previewId), ("policy_reference", .str r.policyReference),
      ("outcome", .str "NOT_REQUIRED")]
    committedAt := now }

/-- `_canonical_commit`, with the text of the exception it raises. -/
def canonicalCommit (sha : Sha256) (r : Interaction) (preview : Preview) (execution : Execution)
    (now : Instant) : Prog (Except String CanonicalCommitEvidence) :=
  if preview.canonicalCommitRequired = false then do
    let evidenceId ← newId "cce"
    return .ok (notRequiredEvidence sha r preview execution evidenceId now)
  else do
    let request := canonicalCommitRequest r preview execution
    let reply ← act (.record request)
    match reply with
    | .error e => return .error e
    | .ok evidence =>
      if canonicalCommitMatches request evidence then return .ok evidence
      else return .error "canonical commit evidence does not match the request"

/-- What the verifier said: an observation, or the failure of the port. -/
structure VerifierReply where
  observation : Option VerificationObservation
  failure : Option FailureInfo
deriving DecidableEq, Repr

def verifierReply (current : Interaction) :
    Except String VerificationObservation → VerifierReply
  | .ok o => ⟨some o, o.failure⟩
  | .error e => ⟨none, some
      { failureInfo "interaction.verification_unavailable" .unavailable "verify" e
          current.traceId with retryable := true }⟩

/-- The VerifiedResult `verify` builds. -/
def newVerifiedResult (a : RevisionArgs) (current : Interaction) (execution : Execution)
    (o : VerificationObservation) (resultId : String) (now : Instant) : VerifiedResult :=
  { verifiedResultId := resultId, interactionId := a.interactionId
    executionId := execution.executionId, scope := current.scope, verificationMethod := o.method
    outcome := o.outcome, verifiedAt := now, externalReference := o.externalReference
    evidenceDigest := o.evidenceDigest }

/-- The failure of a canonical commit. -/
def commitFailure (current : Interaction) (message : String) : FailureInfo :=
  failureInfo "interaction.canonical_commit_failed" .persistenceFailure "verify"
    ("AI-Lab canonical commit evidence unavailable: " ++ message) current.traceId

/-- The record of a verified success. -/
def Interaction.succeeded (current : Interaction) (result : VerifiedResult)
    (evidence : CanonicalCommitEvidence) (now : Instant) : Interaction :=
  { current with
    lifecycleState := .succeeded
    executionStatus := .completed
    verificationStatus := .verified
    recoveryStatus := if current.recoveryStatus ≠ .notRequired then .recovered else .notRequired
    verifiedResultId := some result.verifiedResultId
    canonicalCommitEvidenceId := some evidence.canonicalCommitEvidenceId
    canonicalObjectId := evidence.canonicalObjectId
    failure := none
    revision := current.revision + 1
    updatedAt := now }

/-- The Recovery a success closes. -/
def Recovery.recovered (r : Recovery) (evidence : CanonicalCommitEvidence) (now : Instant) :
    Recovery :=
  { r with status := .recovered, evidenceDigest := some evidence.evidenceDigest, updatedAt := now }

/-- The VerifiedResult with the commit evidence it rests on. -/
def VerifiedResult.backedBy (r : VerifiedResult) (evidence : CanonicalCommitEvidence) :
    VerifiedResult :=
  { r with canonicalCommitEvidenceId := some evidence.canonicalCommitEvidenceId }

/-- The facts of a verified success. -/
def succeededFacts (result : VerifiedResult) (evidence : CanonicalCommitEvidence)
    (recovery : Option Recovery) (now : Instant) : List Fact :=
  [.verifiedResult (result.backedBy evidence), .canonicalCommitEvidence evidence] ++
    recovery.toList.map fun r => .recovery (r.recovered evidence now)

/-- The Recovery of a verification that did not succeed. -/
def pendingRecovery (a : RevisionArgs) (current : Interaction) (reply : VerifierReply)
    (failure : Option FailureInfo) (recoveryId : String) (now : Instant) : Recovery :=
  { recoveryId, interactionId := a.interactionId, scope := current.scope, actorId := a.actorId
    status := .pending
    reason := match failure with
      | some f => f.code
      | none => "interaction.verification_failed"
    evidenceDigest := reply.observation.map VerificationObservation.evidenceDigest
    createdAt := now, updatedAt := now }

/-- The record of a verification that did not succeed. -/
def Interaction.unverified (current : Interaction) (reply : VerifierReply)
    (result : Option VerifiedResult) (failure : Option FailureInfo) (recovery : Recovery)
    (now : Instant) : Interaction :=
  { current with
    lifecycleState := .recoveryRequired
    verificationStatus := match reply.observation with
      | some o => o.status
      | none => .uncertain
    recoveryStatus := .pending
    recoveryId := some recovery.recoveryId
    verifiedResultId := result.map VerifiedResult.verifiedResultId
    failure
    revision := current.revision + 1
    updatedAt := now }

/-- The facts of a verification that did not succeed. -/
def unverifiedFacts (result : Option VerifiedResult) (recovery : Recovery) : List Fact :=
  result.toList.map .verifiedResult ++ [.recovery recovery]

/-- `current.recovery_id or self._id("rcv")`. -/
def recoveryIdOf (current : Interaction) : Prog String :=
  match current.recoveryId.filter (· ≠ "") with
  | some id => .ret id
  | none => newId "rcv"

/-- The operation, key and digest a verification is recorded under. -/
structure VerifyRecord where
  operation : Operation
  idempotencyKey : String
  digest : String

/-- The Recovery the record names, if it names one. -/
def currentRecovery (a : RevisionArgs) (current : Interaction) : Prog (Option Recovery) :=
  match current.recoveryId with
  | some id => fact a.interactionId .recovery (some id)
  | none => .ret none

/-- The commit of a verified success. -/
def commitSuccess (a : RevisionArgs) (v : VerifyRecord) (current : Interaction)
    (execution : Execution) (reply : VerifierReply) (result : VerifiedResult)
    (evidence : CanonicalCommitEvidence) (now : Instant) : Prog Unit := do
  let recovery ← currentRecovery a current
  let final := current.succeeded result evidence now
  let audit ← audit final "interaction.verified" (some current.lifecycleState) v.idempotencyKey
    [("canonical_commit_evidence_id", evidence.canonicalCommitEvidenceId),
      ("execution_id", execution.executionId), ("verified_result_id", result.verifiedResultId)]
    reply.failure
  transition ⟨final, current.revision, succeededFacts result evidence recovery now, [audit],
    v.operation, v.idempotencyKey, v.digest, none⟩

/-- The commit of a verification that did not succeed. -/
def commitFailed (a : RevisionArgs) (v : VerifyRecord) (current : Interaction)
    (execution : Execution) (reply : VerifierReply) (result : Option VerifiedResult)
    (failure : Option FailureInfo) (now : Instant) : Prog Unit := do
  let recoveryId ← recoveryIdOf current
  let recovery := pendingRecovery a current reply failure recoveryId now
  let final := current.unverified reply result failure recovery now
  let audit ← audit final "interaction.recovery_required" (some current.lifecycleState)
    v.idempotencyKey
    ([("execution_id", execution.executionId), ("recovery_id", recovery.recoveryId)] ++
      result.toList.map fun r => ("verified_result_id", r.verifiedResultId)) failure
  transition ⟨final, current.revision, unverifiedFacts result recovery, [audit], v.operation,
    v.idempotencyKey, v.digest, none⟩

/-- The last part of `verify`: what the verifier's reply leads to. -/
def settleVerification (sha : Sha256) (a : RevisionArgs) (v : VerifyRecord)
    (current : Interaction) (preview : Preview) (execution : Execution) (reply : VerifierReply)
    (now : Instant) : Prog Unit :=
  match reply.observation with
  | none => commitFailed a v current execution reply none reply.failure now
  | some o =>
    if o.status = .verified ∧ o.evidenceDigest ≠ "" then do
      let resultId ← newId "vrs"
      let result := newVerifiedResult a current execution o resultId now
      let evidence ← canonicalCommit sha current preview execution now
      match evidence with
      | .ok evidence => commitSuccess a v current execution reply result evidence now
      | .error e =>
        commitFailed a v current execution reply (some result) (some (commitFailure current e)) now
    else commitFailed a v current execution reply none reply.failure now

/-- `verify` under a given operation, key and digest. -/
def verifyAs (sha : Sha256) (a : RevisionArgs) (v : VerifyRecord) : Prog InteractionStatus := do
  let scope ← scopeOf a.workspace a.actorId
  let prior ← idempotent scope v.operation v.idempotencyKey v.digest a.workspace.traceId
  match prior with
  | some _ => status a.workspace a.actorId a.interactionId
  | none => do
    let current ← require scope a.interactionId a.workspace.traceId
    failIf (current.revision ≠ a.expectedRevision) (failureInfo "interaction.revision_conflict"
      .conflict "verify" "Interaction revision is stale" current.traceId)
    failIf (current.lifecycleState ∉ [.verifying, .recoveryRequired])
      (invalidState current "verify")
    let loaded ← fact a.interactionId .execution current.currentExecutionId
    match loaded with
    | none => fail (failureInfo "interaction.execution_missing" .conflict "verify"
        "Canonical Execution is missing" current.traceId)
    | some execution => do
      let answer ← act (.verify ⟨a.interactionId, execution.executionId,
        execution.externalReference, current.traceId⟩)
      let preview ← fact a.interactionId .preview current.currentPreviewId
      match preview with
      | none => fail (failureInfo "interaction.preview_missing" .conflict "verify"
          "Canonical Preview is missing" current.traceId)
      | some preview => do
        let now ← now
        settleVerification sha a v current preview execution (verifierReply current answer) now
        status a.workspace a.actorId a.interactionId

def verify (sha : Sha256) (a : RevisionArgs) : Prog InteractionStatus :=
  verifyAs sha a ⟨.verify, a.idempotencyKey, sha.hexdigest (revisionPayload a)⟩

/-! ## Recovery -/

/-- The failure of an execution intent without an observation. -/
def gapFailure (current : Interaction) : FailureInfo :=
  failureInfo "interaction.execution_outcome_uncertain_after_restart" .executionFailure "recover"
    "Execution intent exists without a persisted port outcome" current.traceId

/-- The Execution of such an intent. -/
def Execution.gap (execution : Execution) (current : Interaction) (now : Instant) : Execution :=
  { execution with
    status := .uncertain, failure := some (gapFailure current), finishedAt := some now }

/-- The Recovery of such an intent. -/
def gapRecovery (current : Interaction) (actorId recoveryId : String) (now : Instant) : Recovery :=
  { recoveryId, interactionId := current.interactionId, scope := current.scope, actorId
    status := .pending, reason := (gapFailure current).code, createdAt := now, updatedAt := now }

/-- The record `_reconcile_execution_gap` commits. -/
def Interaction.reconciled (current : Interaction) (recovery : Recovery) (now : Instant) :
    Interaction :=
  { current with
    lifecycleState := .recoveryRequired
    executionStatus := .uncertain
    verificationStatus := .uncertain
    recoveryStatus := .pending
    recoveryId := some recovery.recoveryId
    failure := some (gapFailure current)
    revision := current.revision + 1
    updatedAt := now }

/-- `_reconcile_execution_gap`. -/
def reconcileExecutionGap (current : Interaction) (actorId idempotencyKey digest : String) :
    Prog Interaction := do
  let loaded ← fact current.interactionId .execution current.currentExecutionId
  let missing := failureInfo "interaction.execution_missing" .conflict "recover"
    "Persisted attempted Execution is missing" current.traceId
  match loaded with
  | none => fail missing
  | some execution => do
    failIf (execution.status ≠ .attempted) missing
    let now ← now
    let recoveryId ← recoveryIdOf current
    let recovery := gapRecovery current actorId recoveryId now
    let reconciled := current.reconciled recovery now
    let audit ← audit reconciled "interaction.execution_gap_reconciled"
      (some current.lifecycleState) idempotencyKey [("execution_id", execution.executionId)]
      (some (gapFailure current))
    transition ⟨reconciled, current.revision,
      [.execution (execution.gap current now), .recovery recovery], [audit], .reconcileExecution,
      idempotencyKey, digest, none⟩
    return reconciled

/-- The key a reconciliation is recorded under. -/
def gapKey (idempotencyKey : String) : String := idempotencyKey ++ ":execution-gap"

/-- The record `recover` goes on with: a stale revision is excused by a reconciliation the same
call made before. -/
def recoverableRecord (a : RevisionArgs) (scope : Scope) (digest : String)
    (current : Interaction) : Prog Interaction :=
  if current.revision ≠ a.expectedRevision then do
    let stale := failureInfo "interaction.revision_conflict" .conflict "recover"
      "Interaction revision is stale" current.traceId
    let reconciled ← idempotent scope .reconcileExecution (gapKey a.idempotencyKey) digest
      a.workspace.traceId
    match reconciled with
    | none => fail stale
    | some reconciled => do
      failIf (reconciled.interactionId ≠ a.interactionId) stale
      require scope a.interactionId a.workspace.traceId
  else .ret current

/-- The record after the gap of its execution, if there is one, is reconciled. -/
def closeGap (a : RevisionArgs) (digest : String) (current : Interaction) : Prog Interaction :=
  if current.lifecycleState = .executing ∧ current.executionStatus = .attempted then
    reconcileExecutionGap current a.actorId (gapKey a.idempotencyKey) digest
  else .ret current

def recover (sha : Sha256) (a : RevisionArgs) : Prog InteractionStatus := do
  let scope ← scopeOf a.workspace a.actorId
  let digest := sha.hexdigest (revisionPayload a)
  let prior ← idempotent scope .recover a.idempotencyKey digest a.workspace.traceId
  match prior with
  | some _ => status a.workspace a.actorId a.interactionId
  | none => do
    let found ← require scope a.interactionId a.workspace.traceId
    let current ← recoverableRecord a scope digest found
    let current ← closeGap a digest current
    verifyAs sha { a with expectedRevision := current.revision }
      ⟨.recover, a.idempotencyKey, digest⟩

end Interactions

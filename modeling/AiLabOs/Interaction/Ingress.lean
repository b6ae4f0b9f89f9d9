import AiLabOs.Interaction.Execution

/-!
# Trusted interactions: the ingress bridge

The shell adapter as far as the bridge uses it, and the three operations of the bridge: accepting
signed evidence of an owner's message, previewing with a confirmation challenge, and confirming by
consuming the evidence and the challenge.

## Main definitions

* `adapterPreview`, `adapterStatus`: the adapter over the service
* `acceptEvidence`, `bridgePreview`, `bridgeConfirm`: the bridge
-/

namespace Interactions

open Process Process.Program

/-! ## The shell adapter -/

/-- `PreviewPayload`. -/
structure PreviewPayload where
  previewId : String
  previewRevision : Int
  status : PreviewStatus
  operation : String
  policyReference : String
  riskLevel : String
  normalizedParameters : JsonDoc
  mutationSummary : String
  expectedExternalEffects : List String
  requiresConfirmation : Bool
  requiresApproval : Bool
  canonicalCommitRequired : Bool
  expiresAt : Instant
deriving DecidableEq, Repr

/-- `AdapterResponse`. -/
structure AdapterResponse where
  requestId : String
  traceId : String
  interactionId : Option String := none
  revision : Option Int := none
  authoritative : Bool := false
  lifecycleState : Option LifecycleState := none
  executionStatus : Option ExecutionStatus := none
  verificationStatus : Option VerificationStatus := none
  recoveryStatus : Option RecoveryStatus := none
  availableOperations : List String := []
  preview : Option PreviewPayload := none
  failure : Option FailureInfo := none
  final : Bool := false
deriving DecidableEq, Repr

def previewPayloadOf (p : Preview) : PreviewPayload :=
  { previewId := p.previewId, previewRevision := p.previewRevision, status := p.status
    operation := p.operation, policyReference := p.policyReference, riskLevel := p.riskLevel
    normalizedParameters := p.normalizedParameters, mutationSummary := p.mutationSummary
    expectedExternalEffects := p.expectedExternalEffects
    requiresConfirmation := p.requiresConfirmation, requiresApproval := p.requiresApproval
    canonicalCommitRequired := p.canonicalCommitRequired, expiresAt := p.expiresAt }

/-- `project_failure`. -/
def projectFailure (failure : FailureInfo) (requestId traceId : String) (authoritative : Bool) :
    AdapterResponse :=
  { requestId, traceId := if traceId = "" then failure.traceId else traceId, authoritative
    failure := some failure }

/-- `project_status`. -/
def projectStatus (status : InteractionStatus) (view : InteractionView)
    (requestId traceId : String) : AdapterResponse :=
  { requestId, traceId
    interactionId := some status.interaction.interactionId
    revision := some status.interaction.revision
    authoritative := true
    lifecycleState := some status.interaction.lifecycleState
    executionStatus := some status.interaction.executionStatus
    verificationStatus := some status.interaction.verificationStatus
    recoveryStatus := some status.interaction.recoveryStatus
    availableOperations := view.availableOperations
    preview := status.preview.map previewPayloadOf
    failure := status.interaction.failure
    final := status.interaction.lifecycleState.terminal }

/-- `failure_from_exception`, for the exceptions that are not classified failures already. -/
def internalFailure (x : Raised) (traceId : String) : FailureInfo :=
  { code := "interaction_adapter.internal_failure"
    category := match x with
      | .valueError _ => .validation
      | _ => .internal
    message := match x with
      | .valueError m => if m = "" then "ValueError" else m
      | _ => "Unexpected internal error"
    component := "trusted_interaction_adapter", operation := "adapter", traceId }

/-- A failure the adapter itself raises, `_adapter_failure`. -/
def adapterFailure (code operation message traceId : String) : FailureInfo :=
  { code, category := .validation, message, component := "trusted_interaction_adapter"
    operation, traceId }

/-- `_correlation`: the request and the trace a call belongs to. -/
def correlationOf (assertion : ShellAssertion) : String × String :=
  let requestId := (assertion.correlation.lookup "request_id").getD ""
  (if requestId = "" then assertion.messageId else requestId,
    (assertion.correlation.lookup "trace_id").getD "")

/-- A reply of the environment, or the exception it raises. -/
def orRaise {α : Type} : Except Raised α → Prog α
  | .ok a => .ret a
  | .error x => .raise x

/-- `_resolve`. -/
def resolve (assertion : ShellAssertion) : Prog ResolvedShellContext := do
  let reply ← act (.resolveBinding assertion)
  orRaise reply

/-- `_respond`. -/
def respond (context : ResolvedShellContext) (interactionId requestId traceId : String) :
    Prog AdapterResponse := do
  let status ← status context.workspace context.actorId interactionId
  let view ← view context.workspace context.actorId interactionId
  return projectStatus status view requestId traceId

/-- `_guard`: every exception becomes a response. -/
def guarded (assertion : ShellAssertion)
    (operation : ResolvedShellContext → String → String → Prog AdapterResponse) :
    Prog AdapterResponse :=
  let (requestId, traceId) := correlationOf assertion
  (do
    let context ← resolve assertion
    operation context requestId traceId : Prog AdapterResponse).tryCatch fun x =>
    match x with
    | .failure info =>
      .ret (projectFailure info requestId traceId
        (!("interaction_adapter.".toList.isPrefixOf info.code.toList)))
    | x => .ret (projectFailure (internalFailure x traceId) requestId traceId false)

/-- What the adapter records of the assertion on the interaction it creates. -/
def interactionCorrelation (assertion : ShellAssertion) (context : ResolvedShellContext) : Dict :=
  [("channel", assertion.channel), ("shell", assertion.shell),
    ("shell_session_id", assertion.shellSessionId), ("message_id", assertion.messageId),
    ("binding_evidence_id", context.bindingEvidenceId), ("adapter", "trusted-interaction/v1"),
    ("transport", "direct")].foldl (fun d e => d.set e.1 e.2) assertion.correlation

/-- The creation the adapter asks for. -/
def adapterCreateArgs (assertion : ShellAssertion) (context : ResolvedShellContext)
    (plan : ResolvedOperationPlan) (requestId traceId idempotencyKey : String) : CreateArgs :=
  { workspace := context.workspace, actorId := context.actorId
    operation := plan.canonicalOperation, riskLevel := plan.riskLevel
    policyReference := plan.policyReference, requestId, traceId
    idempotencyKey := idempotencyKey ++ ":create", safeSummary := plan.safeSummary
    correlation := interactionCorrelation assertion context }

/-- The Preview the adapter asks for. -/
def adapterPreviewArgs (context : ResolvedShellContext) (plan : ResolvedOperationPlan)
    (created : Interaction) (idempotencyKey : String) : PreviewArgs :=
  { workspace := context.workspace, actorId := context.actorId
    interactionId := created.interactionId, expectedRevision := created.revision
    normalizedParameters := plan.normalizedParameters, mutationSummary := plan.mutationSummary
    expiresIn := plan.previewTtlSeconds * 1000000
    idempotencyKey := idempotencyKey ++ ":preview"
    targetObjectId := plan.targetObjectId, targetRevision := plan.targetRevision
    expectedExternalEffects := plan.expectedExternalEffects
    requiresConfirmation := plan.requiresConfirmation
    requiresApproval := plan.requiresApproval
    canonicalCommitRequired := plan.canonicalCommitRequired }

/-- `TrustedInteractionAdapter.preview`. -/
def adapterPreview (sha : Sha256) (assertion : ShellAssertion) (requestedOperation : String)
    (parameters : JsonDoc) (idempotencyKey : String) : Prog AdapterResponse :=
  guarded assertion fun context requestId traceId => do
    let reply ← act (.resolvePolicy context requestedOperation parameters traceId)
    let plan ← orRaise reply
    failIf (plan.previewTtlSeconds ≤ 0) (adapterFailure "interaction_adapter.policy_invalid"
      "preview" "Resolved preview expiry must be in the future" traceId)
    let created ← createInteraction sha
      (adapterCreateArgs assertion context plan requestId traceId idempotencyKey)
    let _ ← preview sha (adapterPreviewArgs context plan created idempotencyKey)
    respond context created.interactionId requestId traceId

/-- `TrustedInteractionAdapter.status`. -/
def adapterStatus (assertion : ShellAssertion) (interactionId : String) : Prog AdapterResponse :=
  guarded assertion fun context requestId traceId => respond context interactionId requestId traceId

/-! ## The bridge -/

/-- What the bridge is configured with: the owner's channel identity, the bindings it accepts and
the keyed digest of message texts. -/
structure BridgeConfig where
  rawOwnerId : String
  bindings : IngressBindings
  contentDigest : String → String

/-- The failure the bridge raises. -/
def bridgeFailure (code message operation : String) : FailureInfo :=
  { code, category := .permissionDenied, message
    component := "pilot_001_ingress_confirmation", operation }

/-- `assertion`. -/
def bridgeAssertion (cfg : BridgeConfig) (messageId : String := "trusted-ingress") :
    ShellAssertion :=
  { channel := "wecom", shell := "hermes", shellSessionId := "pilot-001-internal"
    channelIdentity := cfg.rawOwnerId, messageId
    correlation := [("request_id", messageId), ("trace_id", messageId)] }

/-- What the bridge returns: the adapter's response, and what it adds to it. -/
structure BridgeReply where
  response : AdapterResponse
  challenge : Option String := none
  confirmationId : Option String := none
deriving DecidableEq, Repr

/-- A repository error, raised as the exception it is. -/
def orRaiseError {α : Type} : Except RepositoryError α → Prog α
  | .ok a => .ret a
  | .error (.valueError m) => .raise (.valueError m)
  | .error .integrityError => .raise .integrityError

/-- `accept_evidence`. -/
def acceptEvidence (sha : Sha256) (cfg : BridgeConfig) (wire : String) : Prog String := do
  let reply ← act (.openEnvelope wire)
  match reply with
  | .error _ => fail (bridgeFailure "trusted_ingress.signature_invalid"
      "Trusted ingress signature validation failed" "accept_evidence")
  | .ok envelope => do
    failIf (envelope.channel ≠ "wecom" ∨ envelope.eventType ≠ "owner_dm_text" ∨
        envelope.bindings ≠ cfg.bindings)
      (bridgeFailure "trusted_ingress.binding_denied"
        "Trusted ingress channel or configured binding does not match" "accept_evidence")
    let acceptedAt ← now
    let stored ← act (.storeTrustedIngressEvidence envelope.evidenceId wire (digestText sha wire)
      acceptedAt envelope.issuerKeyId)
    orRaiseError stored
    return envelope.evidenceId

/-- The text the owner is asked to send. -/
def expectedText (challenge : String) : String := "确认 " ++ challenge

/-- The challenge `preview` stores. -/
def newChallenge (sha : Sha256) (preview : Preview) (interactionId : String)
    (interactionRevision : Int) (challengeId text : String) (createdAt : Instant) :
    ChallengeRow :=
  { challengeId, interactionId, previewId := preview.previewId
    previewRevision := preview.previewRevision, interactionRevision
    challengeDigest := digestText sha text, createdAt
    expiresAt := min preview.expiresAt (createdAt + 5 * 60 * 1000000) }

/-- The bridge's `preview`. -/
def bridgePreview (sha : Sha256) (cfg : BridgeConfig) (parameters : JsonDoc)
    (idempotencyKey : String) : Prog BridgeReply := do
  let response ← adapterPreview sha (bridgeAssertion cfg idempotencyKey) "user_task.create"
    parameters idempotencyKey
  match response.failure, response.preview, response.interactionId, response.revision with
  | none, some _, some interactionId, some revision => do
    let forWorkspace ← resolve (bridgeAssertion cfg)
    let forActor ← resolve (bridgeAssertion cfg)
    let status ← status forWorkspace.workspace forActor.actorId interactionId
    let preview ← asserted status.preview
    let first ← act (.tokenHex 2)
    let second ← act (.tokenHex 2)
    let challenge := first.toUpper ++ "-" ++ second.toUpper
    let now ← now
    let createdAt := if now ≤ preview.createdAt then preview.createdAt + 1 else now
    let token ← act (.tokenHex 16)
    let stored ← act (.storeConfirmationChallenge (newChallenge sha preview interactionId revision
      ("pch_" ++ token) (expectedText challenge) createdAt))
    orRaiseError stored
    return { response, challenge := some challenge }
  | _, _, _, _ => return { response }

/-- The arguments of the bridge's `confirm`. -/
structure BridgeConfirmArgs where
  interactionId : String
  expectedRevision : Int
  evidenceId : String
  confirmationText : String
  idempotencyKey : String
deriving DecidableEq, Repr

/-- The checks between the stored evidence, the challenge, the envelope and the Preview. -/
def confirmable (sha : Sha256) (cfg : BridgeConfig) (a : BridgeConfirmArgs) (preview : Preview)
    (record : EvidenceRow) (challenge : ChallengeRow) (envelope : Envelope)
    (receivedAt expiresAt now : Instant) : Prop :=
  record.consumptionStatus = .unused ∧ challenge.status = .active ∧
    envelope.channel = "wecom" ∧ envelope.eventType = "owner_dm_text" ∧
    envelope.bindings = cfg.bindings ∧ preview.createdAt < receivedAt ∧
    preview.createdAt < record.acceptedAt ∧ preview.createdAt < challenge.createdAt ∧
    now < expiresAt ∧ now < challenge.expiresAt ∧
    challenge.previewRevision = preview.previewRevision ∧
    challenge.interactionRevision = a.expectedRevision ∧
    digestText sha a.confirmationText = challenge.challengeDigest ∧
    cfg.contentDigest a.confirmationText = envelope.messageContentDigest

instance (sha : Sha256) (cfg : BridgeConfig) (a : BridgeConfirmArgs) (preview : Preview)
    (record : EvidenceRow) (challenge : ChallengeRow) (envelope : Envelope)
    (receivedAt expiresAt now : Instant) :
    Decidable (confirmable sha cfg a preview record challenge envelope receivedAt expiresAt now) :=
  inferInstanceAs (Decidable (_ ∧ _ ∧ _ ∧ _ ∧ _ ∧ _ ∧ _ ∧ _ ∧ _ ∧ _ ∧ _ ∧ _ ∧ _ ∧ _))

/-- The confirmation the bridge asks the service for. -/
def bridgeConfirmArgs (a : BridgeConfirmArgs) (context : ResolvedShellContext) (preview : Preview)
    (record : EvidenceRow) (challenge : ChallengeRow) (now : Instant) : ConfirmArgs :=
  { workspace := context.workspace, actorId := context.actorId, interactionId := a.interactionId
    previewId := preview.previewId, previewRevision := preview.previewRevision
    expectedRevision := a.expectedRevision, idempotencyKey := a.idempotencyKey
    consumption := some
      { evidenceId := a.evidenceId, evidenceRevision := record.revision
        challengeId := challenge.challengeId, previewId := preview.previewId
        previewRevision := preview.previewRevision, consumedAt := now } }

/-- The instant of a timestamp, `parse_timestamp`. -/
def parsedInstant : Option Instant → Prog Instant
  | some t => .ret t
  | none => .raise (.valueError "time data does not match format")

/-- The last part of the bridge's `confirm`: the checks, the commit and the response. -/
def consumeEvidence (sha : Sha256) (cfg : BridgeConfig) (a : BridgeConfirmArgs)
    (context : ResolvedShellContext) (preview : Preview) (record : EvidenceRow)
    (challenge : ChallengeRow) (envelope : Envelope) : Prog BridgeReply := do
  let now ← now
  let receivedAt ← parsedInstant envelope.receivedAt
  let expiresAt ← parsedInstant envelope.expiresAt
  failIf (¬confirmable sha cfg a preview record challenge envelope receivedAt expiresAt now)
    (bridgeFailure "trusted_confirmation.validation_denied"
      "Trusted evidence, ordering, challenge, content, or revision is invalid" "confirm")
  let confirmation ← confirm sha (bridgeConfirmArgs a context preview record challenge now)
  let response ← adapterStatus (bridgeAssertion cfg a.evidenceId) a.interactionId
  return { response, confirmationId := some confirmation.confirmationId }

/-- The bridge's `confirm`. -/
def bridgeConfirm (sha : Sha256) (cfg : BridgeConfig) (a : BridgeConfirmArgs) :
    Prog BridgeReply := do
  let context ← resolve (bridgeAssertion cfg a.evidenceId)
  let status ← status context.workspace context.actorId a.interactionId
  let denied := bridgeFailure "trusted_confirmation.revision_denied"
    "Interaction or Preview revision is not confirmable" "confirm"
  match status.preview with
  | none => fail denied
  | some preview => do
    failIf (status.interaction.lifecycleState ≠ .awaitingConfirmation ∨
      status.interaction.revision ≠ a.expectedRevision) denied
    let record ← act (.trustedIngressEvidence a.evidenceId)
    let challenge ← act (.confirmationChallenge a.interactionId preview.previewId)
    match record, challenge with
    | some record, some challenge => do
      let reply ← act (.openEnvelope record.payload)
      match reply with
      | .error _ => fail (bridgeFailure "trusted_confirmation.signature_invalid"
          "Evidence signature is invalid" "confirm")
      | .ok envelope => consumeEvidence sha cfg a context preview record challenge envelope
    | _, _ => fail (bridgeFailure "trusted_confirmation.evidence_missing"
        "Fresh trusted ingress evidence and challenge are required" "confirm")

end Interactions

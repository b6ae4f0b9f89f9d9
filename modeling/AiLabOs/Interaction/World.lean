import AiLabOs.Interaction.Repository
import AiLabOs.Process.Safety

/-!
# Trusted interactions: the world

What the operations act on: the tables, and everything outside the service that a run can show,
kept as history. Clocks, identifiers and ports answer as the environment pleases, with one
exception: an identifier is never handed out twice.

## Main definitions

* `Action`, `Action.Reply`: the atomic actions of the operations
* `World`: the tables, and the history of commits, identifiers and port calls
* `handler`: what an action does
* `Prog`: programs over these actions
-/

namespace Interactions

open Process

/-! ## The shell side -/

/-- `ShellAssertion`. -/
structure ShellAssertion where
  channel : String
  shell : String
  shellSessionId : String
  channelIdentity : String
  assertedWorkspace : Option String := none
  messageId : String := ""
  correlation : Dict := []
deriving DecidableEq, Repr

/-- `ResolvedShellContext`. -/
structure ResolvedShellContext where
  workspace : WorkspaceKey
  actorId : String
  bindingType : String
  bindingEvidenceId : String
deriving DecidableEq, Repr

/-- `ResolvedOperationPlan`. -/
structure ResolvedOperationPlan where
  canonicalOperation : String
  policyReference : String
  riskLevel : String
  normalizedParameters : JsonDoc
  mutationSummary : String
  safeSummary : String := ""
  targetObjectId : Option String := none
  targetRevision : Option Int := none
  expectedExternalEffects : List String := []
  requiresConfirmation : Bool := true
  requiresApproval : Bool := false
  canonicalCommitRequired : Bool := true
  previewTtlSeconds : Int := 900
deriving DecidableEq, Repr

/-- `PilotIngressBindings`. -/
structure IngressBindings where
  channelAccountBindingId : String
  ownerBindingId : String
  conversationBindingId : String
deriving DecidableEq, Repr

/-- `TrustedIngressEvidenceEnvelopeV1`, parsed. A timestamp is the instant its text denotes, if it
denotes one. -/
structure Envelope where
  evidenceId : String
  issuerKeyId : String
  channel : String
  bindings : IngressBindings
  receivedAt : Option Instant
  eventType : String
  messageContentDigest : String
  expiresAt : Option Instant
deriving DecidableEq, Repr

/-! ## Actions -/

/-- What an operation does between two awaits, one transaction or one call out at a time. -/
inductive Action where
  | now
  | newId (kind : String)
  | tokenHex (bytes : Nat)
  | idempotentResult (key : IdempotencyKey) (digest : String)
  | create (interaction : Interaction) (audit : AuditEvidence) (idempotencyKey digest : String)
  | get (scope : Scope) (interactionId : String)
  | fact (interactionId : String) (ty : FactType) (factId : Option String)
  | transition (t : Transition)
  | execute (request : ExecutionRequest)
  | verify (request : VerificationRequest)
  | record (request : CanonicalCommitRequest)
  | authorize (request : ApprovalAuthorizationRequest) (presentedEvidence : String)
  | storeTrustedIngressEvidence (evidenceId payload payloadDigest : String) (acceptedAt : Instant)
      (verificationKeyId : String)
  | trustedIngressEvidence (evidenceId : String)
  | storeConfirmationChallenge (challenge : ChallengeRow)
  | confirmationChallenge (interactionId previewId : String)
  | resolveBinding (assertion : ShellAssertion)
  | resolvePolicy (context : ResolvedShellContext) (requestedOperation : String)
      (parameters : JsonDoc) (traceId : String)
  | openEnvelope (wire : String)
deriving DecidableEq

/-- What each action returns to the operation. -/
abbrev Action.Reply : Action → Type
  | .now => Instant
  | .newId _ => String
  | .tokenHex _ => String
  | .idempotentResult _ _ => Except RepositoryError (Option Interaction)
  | .create _ _ _ _ => Except RepositoryError Interaction
  | .get _ _ => Option Interaction
  | .fact _ ty _ => Option ty.Model
  | .transition _ => Except RepositoryError Unit
  | .execute _ => Except String ExecutionObservation
  | .verify _ => Except String VerificationObservation
  | .record _ => Except String CanonicalCommitEvidence
  | .authorize _ _ => Except String (Option ApprovalAuthorizationEvidence)
  | .storeTrustedIngressEvidence _ _ _ _ _ => Except RepositoryError Unit
  | .trustedIngressEvidence _ => Option EvidenceRow
  | .storeConfirmationChallenge _ => Except RepositoryError Unit
  | .confirmationChallenge _ _ => Option ChallengeRow
  | .resolveBinding _ => Except Raised ResolvedShellContext
  | .resolvePolicy _ _ _ _ => Except Raised ResolvedOperationPlan
  | .openEnvelope _ => Except String Envelope

/-- What the environment supplies to an action. -/
inductive Input where
  | none
  | instant (t : Instant)
  | text (s : String)
  | execution (r : Except String ExecutionObservation)
  | verification (r : Except String VerificationObservation)
  | commit (r : Except String CanonicalCommitEvidence)
  | authority (r : Except String (Option ApprovalAuthorizationEvidence))
  | challenge (row : ChallengeRow)
  | binding (r : Except Raised ResolvedShellContext)
  | plan (r : Except Raised ResolvedOperationPlan)
  | envelope (r : Except String Envelope)

/-- A program of the service. -/
abbrev Prog := Program Action Action.Reply Raised

/-! ## The world -/

/-- A committed write of the aggregate: a transition from its expected revision, or a creation. -/
structure Commit where
  interaction : Interaction
  expectedRevision : Option Int
  facts : List Fact
  operation : Operation
  idempotencyKey : String
  payloadDigest : String
  consumption : Option TrustedEvidenceConsumption := none
deriving DecidableEq, Repr

/-- The key a commit is recorded under. -/
def Commit.key (c : Commit) : IdempotencyKey :=
  ⟨c.interaction.scope, c.operation, c.idempotencyKey⟩

/-- The commit of a transition. -/
def Transition.commit (t : Transition) : Commit where
  interaction := t.interaction
  expectedRevision := some t.expectedRevision
  facts := t.facts
  operation := t.operation
  idempotencyKey := t.idempotencyKey
  payloadDigest := t.payloadDigest
  consumption := t.consumption

/-- The commit of a creation. -/
def Interaction.creation (r : Interaction) (idempotencyKey digest : String) : Commit where
  interaction := r
  expectedRevision := none
  facts := []
  operation := .create
  idempotencyKey := idempotencyKey
  payloadDigest := digest

/-- The tables and the history of a run, newest first. -/
structure World where
  db : Database
  /-- The committed writes of the aggregate. -/
  commits : List Commit
  /-- The identifiers handed out, and to which call. -/
  issued : List (String × ℕ)
  /-- The commit-evidence identifiers the canonical commit authority chose, and for which
  interaction. -/
  supplied : List (String × String)
  /-- What the approval authority granted, on which request. -/
  authorised : List (ApprovalAuthorizationRequest × ApprovalAuthorizationEvidence)
  /-- The requests the execution port received. -/
  executions : List ExecutionRequest

/-- Nothing has happened yet. -/
def World.initial : World := ⟨.empty, [], [], [], [], []⟩

/-- The reply and the next world of a repository method that changes the tables. -/
def World.write (w : World) (r : Except RepositoryError Database) :
    Except RepositoryError Unit × World :=
  match r with
  | .ok db => (.ok (), { w with db })
  | .error e => (.error e, w)

/-- What an action does. -/
def handler : Handler Action Action.Reply Input World
  | _, .now, .instant t, w => some (t, w)
  | i, .newId kind, .text hex, w =>
    let id := kind ++ "_" ++ hex
    if w.issued.any fun p => p.1 = id then none
    else some (id, { w with issued := (id, i) :: w.issued })
  | _, .tokenHex _, .text s, w => some (s, w)
  | _, .idempotentResult key digest, .none, w => some (w.db.idempotentResult key digest, w)
  | _, .create interaction audit key digest, .none, w =>
    match w.db.create interaction audit key digest with
    | .error e => some (.error e, w)
    | .ok (r, db) =>
      -- a creation that finds its key already recorded writes nothing
      if (w.db.idempotency ⟨interaction.scope, .create, key⟩).isSome then some (.ok r, w)
      else some (.ok r, { w with db, commits := interaction.creation key digest :: w.commits })
  | _, .get scope id, .none, w => some (w.db.get scope id, w)
  | _, .fact id ty factId, .none, w => some (w.db.fact id ty factId, w)
  | _, .transition t, .none, w =>
    match w.db.transition t with
    | .error e => some (.error e, w)
    | .ok db => some (.ok (), { w with db, commits := t.commit :: w.commits })
  | _, .execute request, .execution r, w =>
    some (r, { w with executions := request :: w.executions })
  | _, .verify _, .verification r, w => some (r, w)
  | _, .record request, .commit r, w =>
    match r with
    | .error e => some (.error e, w)
    | .ok e =>
      some (.ok e, { w with
        supplied := (e.canonicalCommitEvidenceId, request.interactionId) :: w.supplied })
  | _, .authorize request _, .authority r, w =>
    match r with
    | .ok (some e) => some (.ok (some e), { w with authorised := (request, e) :: w.authorised })
    | r => some (r, w)
  | _, .storeTrustedIngressEvidence id payload digest acceptedAt keyId, .none, w =>
    some (w.write (w.db.storeTrustedIngressEvidence id payload digest acceptedAt keyId))
  | _, .trustedIngressEvidence id, .none, w => some (w.db.evidence id, w)
  | _, .storeConfirmationChallenge challenge, .none, w =>
    some (w.write (w.db.storeConfirmationChallenge challenge))
  | _, .confirmationChallenge id previewId, .challenge row, w =>
    if w.db.LatestChallenge id previewId row then some (some row, w) else none
  | _, .confirmationChallenge id previewId, .none, w =>
    if w.db.challenges.any fun ch => ch.interactionId = id && ch.previewId = previewId then none
    else some (none, w)
  | _, .resolveBinding _, .binding r, w => some (r, w)
  | _, .resolvePolicy _ _ _ _, .plan r, w => some (r, w)
  | _, .openEnvelope _, .envelope r, w => some (r, w)
  | _, _, _, _ => none

end Interactions

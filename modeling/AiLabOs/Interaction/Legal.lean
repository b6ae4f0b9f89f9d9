import AiLabOs.Interaction.Commits

/-!
# Trusted interactions: legal commits

What each operation may commit, by the operation that commits it: the guards it has checked, the
facts it has loaded and the identifiers it owns when its compare-and-set succeeds. Everything the
service guarantees about its records follows from this list.

## Main definitions

* `Legal`: the transitions the operations commit

## Main results

* `Legal.wellFormed`: a legal transition is a well-formed one
-/

namespace Interactions

open Process

/-- How the key of a verification is bound to the interaction: `verify` by its revision, `recover`
by the absence of an earlier commit under that key. -/
inductive VerifyKey (sha : Sha256) (w : World) (cur : Interaction) (v : VerifyRecord) : Prop
  | verify (a : RevisionArgs) (hop : v.operation = .verify)
      (hdigest : v.digest = sha.hexdigest (revisionPayload a))
      (hid : a.interactionId = cur.interactionId) (hrev : a.expectedRevision = cur.revision)
  | recover (a : RevisionArgs) (hop : v.operation = .recover)
      (hdigest : v.digest = sha.hexdigest (revisionPayload a))
      (hid : a.interactionId = cur.interactionId)
      (hfirst : ∀ c ∈ w.commits, c.operation = .recover → c.idempotencyKey = v.idempotencyKey →
        c.interaction.interactionId ≠ cur.interactionId)

/-- The canonical commit a success rests on: none required, or evidence that matches the
request. -/
inductive CommitBacked (sha : Sha256) (w : World) (i : ℕ) (cur : Interaction) (preview : Preview)
    (execution : Execution) (now : Instant) (evidence : CanonicalCommitEvidence) : Prop
  | notRequired (evidenceId : String) (hreq : preview.canonicalCommitRequired = false)
      (hown : w.Own i .canonicalCommitEvidence evidenceId)
      (hev : evidence = notRequiredEvidence sha cur preview execution evidenceId now)
  | committed (hreq : preview.canonicalCommitRequired = true)
      (hmatch : canonicalCommitMatches (canonicalCommitRequest cur preview execution) evidence)
      (hsup : (evidence.canonicalCommitEvidenceId, cur.interactionId) ∈ w.supplied)

/-- The identifier of the Recovery a commit writes: the record's own, or a new one. -/
def World.RecoveryId (w : World) (i : ℕ) (cur : Interaction) (recoveryId : String) : Prop :=
  cur.recoveryId = some recoveryId ∨ w.Own i .recovery recoveryId

/-- **The transitions of the stored record `cur` that the call `i` may commit.** -/
inductive Legal (sha : Sha256) (w : World) (i : ℕ) (cur : Interaction) : Transition → Prop
  | preview (a : PreviewArgs) (old : Option Preview) (previewId : String) (now : Instant)
      (audits : List AuditEvidence) (hid : a.interactionId = cur.interactionId)
      (hactor : cur.actorId = a.actorId) (hrev : cur.revision = a.expectedRevision)
      (hstate : cur.lifecycleState ∈ [.requested, .previewed, .awaitingConfirmation])
      (hold : w.Loaded cur.interactionId .preview cur.currentPreviewId old)
      (hnone : old = none → w.PortIdsFresh → cur.currentPreviewId = none)
      (hown : w.Own i .preview previewId) :
      Legal sha w i cur
        ⟨cur.previewed (newPreview sha a cur old previewId now) now, cur.revision,
          previewFacts old (newPreview sha a cur old previewId now), audits, .preview,
          a.idempotencyKey, sha.hexdigest (previewPayload a), none⟩
  | confirm (a : ConfirmArgs) (preview : Preview) (confirmationId : String) (now : Instant)
      (audits : List AuditEvidence) (hid : a.interactionId = cur.interactionId)
      (hrev : cur.revision = a.expectedRevision)
      (hstate : cur.lifecycleState = .awaitingConfirmation)
      (hpast : w.Past cur.interactionId (.preview preview))
      (hpid : a.previewId = preview.previewId)
      (hprev : preview.previewRevision = a.previewRevision)
      (hcurrent : cur.currentPreviewId = some preview.previewId)
      (hactor : preview.actorId = a.actorId) (hlive : now < preview.expiresAt)
      (hconsume : ∀ c, a.consumption = some c →
        c.previewId = preview.previewId ∧ c.previewRevision = preview.previewRevision)
      (hown : w.Own i .confirmation confirmationId) :
      Legal sha w i cur
        ⟨cur.confirmed preview (newConfirmation a cur preview confirmationId now) now,
          cur.revision, [.preview (preview.withStatus .confirmed),
            .confirmation (newConfirmation a cur preview confirmationId now)], audits, .confirm,
          a.idempotencyKey, sha.hexdigest (confirmPayload a cur.scope), a.consumption⟩
  | approve (a : ApproveArgs) (preview : Preview) (confirmation : Confirmation)
      (authority : ApprovalAuthorizationEvidence) (approvalId : String) (now : Instant)
      (audits : List AuditEvidence) (hid : a.interactionId = cur.interactionId)
      (hrev : cur.revision = a.expectedRevision)
      (hstate : cur.lifecycleState = .awaitingConfirmation)
      (hpast : w.Past cur.interactionId (.preview preview))
      (hpid : a.previewId = preview.previewId)
      (hprev : preview.previewRevision = a.previewRevision)
      (hcurrent : cur.currentPreviewId = some preview.previewId)
      (hneeds : preview.requiresApproval = true)
      (hconfirmation : w.Past cur.interactionId (.confirmation confirmation))
      (hconfirmed : cur.currentConfirmationId = some confirmation.confirmationId)
      (hgrant : (authorityRequest a cur, authority) ∈ w.authorised)
      (hmatch : approvalAuthorityMatches (authorityRequest a cur) authority now)
      (hown : w.Own i .approval approvalId) :
      Legal sha w i cur
        ⟨cur.approved (newApproval a cur preview authority approvalId now) now, cur.revision,
          [.approval (newApproval a cur preview authority approvalId now)], audits, .approve,
          a.idempotencyKey, sha.hexdigest (approvePayload sha a), none⟩
  | cancel (a : RevisionArgs) (preview : Option Preview) (now : Instant)
      (audits : List AuditEvidence) (hid : a.interactionId = cur.interactionId)
      (hrev : cur.revision = a.expectedRevision)
      (hterminal : cur.lifecycleState.terminal = false)
      (hstate : cur.lifecycleState ∉ [.executing, .verifying, .recoveryRequired])
      (hload : w.Loaded cur.interactionId .preview cur.currentPreviewId preview) :
      Legal sha w i cur
        ⟨cur.cancelled now, cur.revision, cancelFacts preview, audits, .cancel, a.idempotencyKey,
          sha.hexdigest (revisionPayload a), none⟩
  | expire (a : RevisionArgs) (preview : Preview) (now : Instant)
      (audits : List AuditEvidence) (hid : a.interactionId = cur.interactionId)
      (hrev : cur.revision = a.expectedRevision)
      (hstate : cur.lifecycleState ∈ [.previewed, .awaitingConfirmation])
      (hpast : w.Past cur.interactionId (.preview preview))
      (hexpired : preview.expiresAt ≤ now) :
      Legal sha w i cur
        ⟨cur.lapsed now, cur.revision, [.preview (preview.withStatus .expired)], audits, .expire,
          a.idempotencyKey, sha.hexdigest (revisionPayload a), none⟩
  | start (a : RevisionArgs) (executionId : String) (now : Instant)
      (audits : List AuditEvidence) (hid : a.interactionId = cur.interactionId)
      (hrev : cur.revision = a.expectedRevision) (hstate : cur.lifecycleState = .authorized)
      (hown : w.Own i .execution executionId) :
      Legal sha w i cur
        ⟨cur.executing (newExecution a cur executionId now) now, cur.revision,
          [.execution (newExecution a cur executionId now)], audits, .execute, a.idempotencyKey,
          sha.hexdigest (revisionPayload a), none⟩
  | observe (a : RevisionArgs) (execution : Execution) (o : ExecutionObservation)
      (recovery : Option Recovery) (finished : Instant) (audits : List AuditEvidence)
      (hid : a.interactionId = cur.interactionId) (hrev : cur.revision = a.expectedRevision + 1)
      (hstate : cur.lifecycleState = .executing)
      (hpast : w.Past cur.interactionId (.execution execution))
      (hcurrent : cur.currentExecutionId = some execution.executionId)
      (hown : ∀ v, recovery = some v → w.Own i .recovery v.recoveryId) :
      Legal sha w i cur
        ⟨cur.observed o recovery finished, cur.revision,
          observedFacts (execution.observed o finished) recovery, audits, .execute,
          a.idempotencyKey, sha.hexdigest (revisionPayload a), none⟩
  | succeed (a : RevisionArgs) (v : VerifyRecord) (preview : Preview) (execution : Execution)
      (o : VerificationObservation) (resultId : String) (evidence : CanonicalCommitEvidence)
      (recovery : Option Recovery) (now : Instant) (audits : List AuditEvidence)
      (hid : a.interactionId = cur.interactionId)
      (hstate : cur.lifecycleState ∈ [.verifying, .recoveryRequired])
      (hkey : VerifyKey sha w cur v) (hpast : w.Past cur.interactionId (.execution execution))
      (hexecution : cur.currentExecutionId = some execution.executionId)
      (hpreview : w.Past cur.interactionId (.preview preview))
      (hcurrent : cur.currentPreviewId = some preview.previewId)
      (hevidence : o.evidenceDigest ≠ "") (hown : w.Own i .verifiedResult resultId)
      (hbacked : CommitBacked sha w i cur preview execution now evidence)
      (hload : w.Loaded cur.interactionId .recovery cur.recoveryId recovery) :
      Legal sha w i cur
        ⟨cur.succeeded (newVerifiedResult a cur execution o resultId now) evidence now,
          cur.revision, succeededFacts (newVerifiedResult a cur execution o resultId now) evidence
            recovery now, audits, v.operation, v.idempotencyKey, v.digest, none⟩
  | unverified (a : RevisionArgs) (v : VerifyRecord) (reply : VerifierReply)
      (result : Option VerifiedResult) (failure : Option FailureInfo) (recoveryId : String)
      (now : Instant) (audits : List AuditEvidence) (hid : a.interactionId = cur.interactionId)
      (hstate : cur.lifecycleState ∈ [.verifying, .recoveryRequired])
      (hkey : VerifyKey sha w cur v)
      (hown : ∀ r, result = some r → w.Own i .verifiedResult r.verifiedResultId)
      (hrecovery : w.RecoveryId i cur recoveryId) :
      Legal sha w i cur
        ⟨cur.unverified reply result failure (pendingRecovery a cur reply failure recoveryId now)
          now, cur.revision,
          unverifiedFacts result (pendingRecovery a cur reply failure recoveryId now), audits,
          v.operation, v.idempotencyKey, v.digest, none⟩
  | reconcile (a : RevisionArgs) (actorId key : String) (execution : Execution)
      (recoveryId : String) (now : Instant) (audits : List AuditEvidence)
      (hid : a.interactionId = cur.interactionId)
      (hstate : cur.lifecycleState = .executing)
      (hpast : w.Past cur.interactionId (.execution execution))
      (hcurrent : cur.currentExecutionId = some execution.executionId)
      (hrecovery : w.RecoveryId i cur recoveryId) :
      Legal sha w i cur
        ⟨cur.reconciled (gapRecovery cur actorId recoveryId now) now, cur.revision,
          [.execution (execution.gap cur now), .recovery (gapRecovery cur actorId recoveryId now)],
          audits, .reconcileExecution, key, sha.hexdigest (revisionPayload a), none⟩

/-! ## Legal transitions are well formed -/

section WellFormed

variable {sha : Sha256} {w : World} {i : ℕ} {cur : Interaction} {t : Transition}

theorem Legal.interactionId (h : Legal sha w i cur t) :
    t.interaction.interactionId = cur.interactionId := by
  cases h <;> rfl

theorem Fact.not_supplied {f : Fact} (h : f.type ≠ .canonicalCommitEvidence) : ¬f.supplied :=
  fun hs => h hs.type

/-- A past Preview may be committed again with another status. -/
theorem mayWrite_preview {X : String} {p : Preview} (h : w.Past X (.preview p))
    (status : PreviewStatus) : w.MayWrite i X (.preview (p.withStatus status)) :=
  .again id (.preview p) h id rfl rfl

/-- A past Execution may be committed again. -/
theorem mayWrite_execution {X : String} {x y : Execution} (h : w.Past X (.execution x))
    (hid : x.executionId = y.executionId) : w.MayWrite i X (.execution y) :=
  .again id (.execution x) h id hid rfl

/-- A Recovery may be committed under the identifier of the record or under a new one. -/
theorem mayWrite_recovery (h : Inv w) (hseen : w.Seen cur) {v : Recovery}
    (hv : w.RecoveryId i cur v.recoveryId) : w.MayWrite i cur.interactionId (.recovery v) := by
  rcases hv with hv | hown
  · obtain ⟨v', hid, hpast⟩ := h.recovery_past hseen hv
    exact .again id (.recovery v') hpast id hid rfl
  · exact .own id hown

/-- **A legal transition is well formed.** -/
theorem Legal.wellFormed (h : Inv w) (hcur : w.db.records cur.interactionId = some cur)
    (hl : Legal sha w i cur t) : t.WellFormed w i cur := by
  have hseen := (h.record_seen hcur).2
  cases hl with
  | preview a old previewId now audits hid hactor hrev hstate hold hnone hown =>
    refine ⟨⟨rfl, rfl, rfl⟩, rfl, rfl, ?_, .inr ⟨_, ?_, rfl⟩, .inl rfl⟩
    · intro f hf
      simp only [previewFacts, List.mem_append, List.mem_map, Option.mem_toList,
        List.mem_singleton] at hf
      rcases hf with ⟨p, hp, rfl⟩ | rfl
      · exact mayWrite_preview (hold p hp).1 _
      · exact .own id hown
    · simp [previewFacts]
  | confirm a preview confirmationId now audits hid hrev hstate hpast hpid hprev hcurrent hactor
      hlive hconsume hown =>
    refine ⟨⟨rfl, rfl, rfl⟩, rfl, rfl, ?_, .inl rfl, .inl rfl⟩
    intro f hf
    simp only [List.mem_cons, List.not_mem_nil, or_false] at hf
    rcases hf with rfl | rfl
    · exact mayWrite_preview hpast _
    · exact .own id hown
  | approve a preview confirmation authority approvalId now audits hid hrev hstate hpast hpid hprev
      hcurrent hneeds hconfirmation hconfirmed hgrant hmatch hown =>
    refine ⟨⟨rfl, rfl, rfl⟩, rfl, rfl, ?_, .inl rfl, .inl rfl⟩
    intro f hf
    obtain rfl := List.mem_singleton.mp hf
    exact .own id hown
  | cancel a preview now audits hid hrev hterminal hstate hload =>
    refine ⟨⟨rfl, rfl, rfl⟩, rfl, rfl, ?_, .inl rfl, .inl rfl⟩
    intro f hf
    cases preview with
    | none => cases hf
    | some p =>
      simp only [cancelFacts] at hf
      split at hf
      · obtain rfl := List.mem_singleton.mp hf
        exact mayWrite_preview (hload p rfl).1 _
      · cases hf
  | expire a preview now audits hid hrev hstate hpast hexpired =>
    refine ⟨⟨rfl, rfl, rfl⟩, rfl, rfl, ?_, .inl rfl, .inl rfl⟩
    intro f hf
    obtain rfl := List.mem_singleton.mp hf
    exact mayWrite_preview hpast _
  | start a executionId now audits hid hrev hstate hown =>
    refine ⟨⟨rfl, rfl, rfl⟩, rfl, rfl, ?_, .inl rfl, .inl rfl⟩
    intro f hf
    obtain rfl := List.mem_singleton.mp hf
    exact .own id hown
  | observe a execution o recovery finished audits hid hrev hstate hpast hcurrent hown =>
    refine ⟨⟨rfl, rfl, rfl⟩, rfl, rfl, ?_, .inl rfl, ?_⟩
    · intro f hf
      simp only [observedFacts, List.mem_cons, List.mem_map, Option.mem_toList] at hf
      rcases hf with rfl | ⟨v, hv, rfl⟩
      · exact mayWrite_execution hpast rfl
      · exact .own id (hown v hv)
    · cases recovery with
      | none => exact .inl rfl
      | some v => exact .inr ⟨v, by simp [observedFacts], rfl⟩
  | succeed a v preview execution o resultId evidence recovery now audits hid hstate hkey hpast
      hexecution hpreview hcurrent hevidence hown hbacked hload =>
    refine ⟨⟨rfl, rfl, rfl⟩, rfl, rfl, ?_, .inl rfl, .inl rfl⟩
    intro f hf
    simp only [succeededFacts, List.mem_append, List.mem_cons, List.not_mem_nil, or_false,
      List.mem_map, Option.mem_toList] at hf
    rcases hf with (rfl | rfl) | ⟨r, hr, rfl⟩
    · exact .own id hown
    · cases hbacked with
      | notRequired evidenceId hreq hown hev =>
        subst hev
        exact .own Bool.false_ne_true hown
      | committed hreq hmatch hsup => exact .supplied hmatch.2.2.2.2.2.1 hsup
    · exact .again id (.recovery r) (hload r hr).1 id rfl rfl
  | unverified a v reply result failure recoveryId now audits hid hstate hkey hown hrecovery =>
    refine ⟨⟨rfl, rfl, rfl⟩, rfl, rfl, ?_, .inl rfl, .inr ⟨_, ?_, rfl⟩⟩
    · intro f hf
      simp only [unverifiedFacts, List.mem_append, List.mem_map, Option.mem_toList,
        List.mem_singleton] at hf
      rcases hf with ⟨r, hr, rfl⟩ | rfl
      · exact .own id (hown r hr)
      · exact mayWrite_recovery h hseen hrecovery
    · simp [unverifiedFacts]
  | reconcile a actorId key execution recoveryId now audits hid hstate hpast hcurrent hrecovery =>
    refine ⟨⟨rfl, rfl, rfl⟩, rfl, rfl, ?_, .inl rfl, .inr ⟨_, ?_, rfl⟩⟩
    · intro f hf
      simp only [List.mem_cons, List.not_mem_nil, or_false] at hf
      rcases hf with rfl | rfl
      · exact mayWrite_execution hpast rfl
      · exact mayWrite_recovery h hseen hrecovery
    · simp

end WellFormed

end Interactions

import AiLabOs.Interaction.Keys

/-!
# Trusted interactions: repeated calls

A call writes under its own key and payload only, a recovery apart, which may also write the
reconciliation of an execution. A call that finds its key claimed changes nothing, and it returns
only if the key was claimed with its own payload.

## Main definitions

* `Request.recorded`: the key a call is recorded under, and the payload it is recorded with
* `World.Recorded`: some commit claimed a key with a digest
* `Action.Under`: the writes of a call under its key
* `readsOnly`: the precondition of actions that change no table

## Main results

* `start_under`: every call writes under its key, and returns only when the key is recorded
* `start_replays`: a call that finds its key recorded changes no table
-/

namespace Interactions

open Process

/-- The key a call is recorded under, and the payload it is recorded with. -/
def Request.recorded (sha : Sha256) : Request → Option (IdempotencyKey × Payload)
  | .create a => some (⟨scopeIn a.workspace, .create, a.idempotencyKey⟩,
      createPayload a (scopeIn a.workspace))
  | .preview a => some (⟨scopeIn a.workspace, .preview, a.idempotencyKey⟩, previewPayload a)
  | .confirm a => some (⟨scopeIn a.workspace, .confirm, a.idempotencyKey⟩,
      confirmPayload a (scopeIn a.workspace))
  | .approve a => some (⟨scopeIn a.workspace, .approve, a.idempotencyKey⟩, approvePayload sha a)
  | .cancel a => some (⟨scopeIn a.workspace, .cancel, a.idempotencyKey⟩, revisionPayload a)
  | .expirePreview a => some (⟨scopeIn a.workspace, .expire, a.idempotencyKey⟩, revisionPayload a)
  | .startExecution a =>
    some (⟨scopeIn a.workspace, .execute, a.idempotencyKey⟩, revisionPayload a)
  | .verify a => some (⟨scopeIn a.workspace, .verify, a.idempotencyKey⟩, revisionPayload a)
  | .recover a => some (⟨scopeIn a.workspace, .recover, a.idempotencyKey⟩, revisionPayload a)
  | _ => none

/-- Some commit claimed the key with the digest. -/
def World.Recorded (w : World) (key : IdempotencyKey) (digest : String) : Prop :=
  ∃ cm ∈ w.commits, cm.key = key ∧ cm.payloadDigest = digest

section Recorded

variable {w w' : World} {key : IdempotencyKey} {digest digest' : String} {i : ℕ}

theorem World.Recorded.mono (h : w.commits <:+ w'.commits) (hr : w.Recorded key digest) :
    w'.Recorded key digest := by
  obtain ⟨cm, hc, hk⟩ := hr
  exact ⟨cm, h.mem hc, hk⟩

theorem Rely.recorded (h : Rely i w w') (hr : w.Recorded key digest) : w'.Recorded key digest :=
  hr.mono h.commits

/-- A key is claimed with one digest. -/
theorem Inv.recorded_unique (h : Inv w) (hr : w.Recorded key digest)
    (hr' : w.Recorded key digest') : digest = digest' := by
  obtain ⟨cm, hc, hk, rfl⟩ := hr
  obtain ⟨cm', hc', hk', rfl⟩ := hr'
  exact (h.same_key hc hc' (hk.trans hk'.symm)).1

theorem Inv.recorded_row (h : Inv w) (hr : w.Recorded key digest) :
    ∃ row, w.db.idempotency key = some row ∧ row.payloadDigest = digest := by
  obtain ⟨cm, hc, rfl, rfl⟩ := hr
  obtain ⟨row, hrow, hd, -⟩ := h.commit_row cm hc
  exact ⟨row, hrow, hd⟩

theorem Inv.row_recorded (h : Inv w) {row : IdempotencyRow}
    (hrow : w.db.idempotency key = some row) : w.Recorded key row.payloadDigest := by
  obtain ⟨cm, hc, hk, hd, -⟩ := h.row_commit hrow
  exact ⟨cm, hc, hk, hd⟩

end Recorded

/-! ## The writes of a call -/

/-- The key a recovery under this key reconciles under. -/
def IdempotencyKey.gap (key : IdempotencyKey) : IdempotencyKey :=
  ⟨key.scope, .reconcileExecution, gapKey key.key⟩

/-- A write under a key and a digest, or a reconciliation where `recovers` holds. -/
def Action.Under (key : IdempotencyKey) (digest : String) (recovers : Prop) : Action → Prop
  | .transition t =>
    t.key = key ∧ t.payloadDigest = digest ∨ recovers ∧ t.key = key.gap
  | .create r _ idempotencyKey d =>
    (⟨r.scope, .create, idempotencyKey⟩ : IdempotencyKey) = key ∧ d = digest
  | .storeTrustedIngressEvidence _ _ _ _ _ | .storeConfirmationChallenge _ => False
  | _ => True

/-- The call `i` writes under the key only, and the key is recorded when it returns. -/
abbrev KeepsUnder {α : Type} (key : IdempotencyKey) (digest : String) (recovers : Prop) (i : ℕ)
    (p : Prog α) (log : Log Action Action.Reply) (w : World) : Prop :=
  Keeps (fun _ _ e _ => e.Under key digest recovers) i (fun _ _ w => w.Recorded key digest) p log w

theorem readsFree_under (key : IdempotencyKey) (digest : String) (recovers : Prop) :
    ReadsFree fun _ _ e _ => e.Under key digest recovers := by
  intro i log e w he
  cases e <;> first | exact trivial | cases he

section Under

variable {α β : Type} {sha : Sha256} {key : IdempotencyKey} {digest : String} {recovers : Prop}
variable {i : ℕ} {log : Log Action Action.Reply} {w : World} {cur : Interaction}
variable {post : β → Log Action Action.Reply → World → Prop}

/-- A commit under the key records it. -/
theorem under_transition {t : Transition} {f : Unit → Prog β} (hkey : t.key = key)
    (hdigest : t.payloadDigest = digest)
    (h : ∀ log' w', w'.Recorded key digest →
      Keeps (fun _ _ e _ => e.Under key digest recovers) i post (f ()) log' w') :
    Keeps (fun _ _ e _ => e.Under key digest recovers) i post (transition t >>= f) log w := by
  unfold transition
  refine Safe.bind (Safe.perform fun w' _ _ => ⟨.inl ⟨hkey, hdigest⟩, fun input r w'' hr => ?_⟩)
  cases input <;> simp only [handler, reduceCtorEq] at hr
  split at hr
  · rename_i e _
    obtain ⟨rfl, rfl⟩ : _ ∧ _ := by simpa using hr
    cases e <;> exact keeps_raise
  · obtain ⟨rfl, rfl⟩ : _ ∧ _ := by simpa using hr
    exact Safe.ret (h _ _ ⟨_, List.mem_cons_self, hkey, hdigest⟩)

/-- A reconciliation of a recovery is under the key derived from its own. -/
theorem under_reconciliation {t : Transition} {f : Unit → Prog β} (hrecovers : recovers)
    (hgap : t.key = key.gap)
    (h : ∀ log' w', Keeps (fun _ _ e _ => e.Under key digest recovers) i post (f ()) log' w') :
    Keeps (fun _ _ e _ => e.Under key digest recovers) i post (transition t >>= f) log w := by
  unfold transition
  refine Safe.bind (Safe.perform fun w' _ _ => ⟨.inr ⟨hrecovers, hgap⟩, fun input r w'' hr => ?_⟩)
  rcases r with (_ | _) | _
  · exact keeps_fail
  · exact keeps_raise
  · exact Safe.ret (h _ _)

/-- The check at the start of an operation: what it finds is recorded. -/
theorem under_idempotent {scope : Scope} {op : Operation} {k traceId : String}
    {f : Option Interaction → Prog β} (hkey : key = ⟨scope, op, k⟩)
    (hnone : ∀ log' w', KeepsUnder key digest recovers i (f none) log' w')
    (hsome : ∀ prior log' w', w'.Recorded key digest →
      KeepsUnder key digest recovers i (f (some prior)) log' w') :
    KeepsUnder key digest recovers i (idempotent scope op k digest traceId >>= f) log w := by
  subst hkey
  refine keeps_idempotent (readsFree_under _ _ _) (fun w' log' _ _ _ _ => hnone log' w') ?_
  intro row w' log' _ hinv hrow hd
  exact hsome row.result log' w' (hd ▸ hinv.row_recorded hrow)

theorem under_status {workspace : WorkspaceKey} {actorId X : String}
    (h : w.Recorded key digest) :
    KeepsUnder key digest recovers i (status workspace actorId X) log w :=
  (status_keeps (readsFree_under key digest recovers)).mono (fun _ _ _ hw => hw.recorded h)
    fun _ _ _ _ => trivial

/-- An earlier result, loaded again. -/
theorem under_replay {X : String} {ty : FactType} {fid : Option String}
    (h : w.Recorded key digest) :
    KeepsUnder key digest recovers i (fact X ty fid >>= asserted) log w := by
  refine keeps_fact (readsFree_under key digest recovers) fun stored w' hw _ _ _ => ?_
  cases stored with
  | none => exact keeps_raise
  | some x => exact Safe.ret (hw.recorded h)

theorem createInteraction_under (a : CreateArgs) :
    KeepsUnder ⟨scopeIn a.workspace, .create, a.idempotencyKey⟩
      (sha.hexdigest (createPayload a (scopeIn a.workspace))) recovers i (createInteraction sha a)
      log w := by
  have hr := readsFree_under ⟨scopeIn a.workspace, .create, a.idempotencyKey⟩
    (sha.hexdigest (createPayload a (scopeIn a.workspace))) recovers
  unfold createInteraction
  refine keeps_scopeOf ?_
  refine keeps_failIf fun _ => ?_
  refine keeps_failIf fun _ => ?_
  refine keeps_now hr fun now w₁ _ => ?_
  refine keeps_newId_any hr fun id w₂ _ => ?_
  refine keeps_audit hr fun line w₃ _ _ _ _ => ?_
  refine Safe.perform fun w₄ _ hinv => ⟨⟨rfl, rfl⟩, fun input r w₅ hact => ?_⟩
  rcases r with (_ | _) | r
  · exact keeps_fail
  · exact keeps_raise
  · refine Safe.ret ?_
    cases input <;> simp only [handler, reduceCtorEq] at hact
    split at hact
    · cases hact
    · rename_i r' db hok
      rcases Database.create_ok hok with ⟨row, hrow, hd, -⟩ | ⟨hnone, -⟩
      · rw [if_pos (by simp [hrow])] at hact
        obtain ⟨-, rfl⟩ : _ ∧ _ := by simpa using hact
        exact hd ▸ hinv.row_recorded hrow
      · rw [if_neg (by simp [hnone])] at hact
        obtain ⟨-, rfl⟩ : _ ∧ _ := by simpa using hact
        exact ⟨_, List.mem_cons_self, rfl, rfl⟩

theorem preview_under (a : PreviewArgs) :
    KeepsUnder ⟨scopeIn a.workspace, .preview, a.idempotencyKey⟩
      (sha.hexdigest (previewPayload a)) recovers i (preview sha a) log w := by
  have hr := readsFree_under ⟨scopeIn a.workspace, .preview, a.idempotencyKey⟩
    (sha.hexdigest (previewPayload a)) recovers
  unfold preview
  refine keeps_scopeOf ?_
  refine under_idempotent rfl (fun _ _ => ?_) fun prior _ _ hrec => under_replay hrec
  refine keeps_require hr fun cur _ _ _ _ _ _ _ hscope _ => ?_
  refine keeps_failIf fun _ => ?_
  refine keeps_failIf fun _ => ?_
  refine keeps_failIf fun _ => ?_
  refine keeps_now hr fun now _ _ => ?_
  refine keeps_failIf fun _ => ?_
  refine keeps_fact hr fun old _ _ _ _ _ => ?_
  refine keeps_newId_any hr fun previewId _ _ => ?_
  refine keeps_audit hr fun _ _ _ _ _ _ => ?_
  refine keeps_audit hr fun _ _ _ _ _ _ => ?_
  refine keeps_audit hr fun _ _ _ _ _ _ => ?_
  refine keeps_audit hr fun _ _ _ _ _ _ => ?_
  rw [← hscope]
  exact under_transition rfl rfl fun _ _ hrec => Safe.ret hrec

theorem confirm_under (a : ConfirmArgs) :
    KeepsUnder ⟨scopeIn a.workspace, .confirm, a.idempotencyKey⟩
      (sha.hexdigest (confirmPayload a (scopeIn a.workspace))) recovers i (confirm sha a) log
      w := by
  have hr := readsFree_under ⟨scopeIn a.workspace, .confirm, a.idempotencyKey⟩
    (sha.hexdigest (confirmPayload a (scopeIn a.workspace))) recovers
  unfold confirm
  refine keeps_scopeOf ?_
  refine under_idempotent rfl (fun _ _ => ?_) fun prior _ _ hrec => under_replay hrec
  refine keeps_require hr fun cur _ _ _ _ _ _ _ hscope _ => ?_
  refine keeps_failIf fun _ => ?_
  refine keeps_failIf fun _ => ?_
  refine keeps_fact hr fun loaded _ _ _ _ _ => ?_
  refine keeps_now hr fun now _ _ => ?_
  cases loaded with
  | none => exact keeps_fail
  | some preview =>
    refine keeps_failIf fun _ => ?_
    refine keeps_failIf fun _ => ?_
    refine keeps_failIf fun _ => ?_
    refine keeps_failIf fun _ => ?_
    refine keeps_newId_any hr fun confirmationId _ _ => ?_
    refine keeps_audit hr fun _ _ _ _ _ _ => ?_
    rw [← hscope]
    exact under_transition rfl rfl fun _ _ hrec => Safe.ret hrec

theorem approve_under (a : ApproveArgs) :
    KeepsUnder ⟨scopeIn a.workspace, .approve, a.idempotencyKey⟩
      (sha.hexdigest (approvePayload sha a)) recovers i (approve sha a) log w := by
  have hr := readsFree_under ⟨scopeIn a.workspace, .approve, a.idempotencyKey⟩
    (sha.hexdigest (approvePayload sha a)) recovers
  unfold approve
  refine keeps_scopeOf ?_
  refine under_idempotent rfl (fun _ _ => ?_) fun prior _ _ hrec => under_replay hrec
  refine keeps_require hr fun cur _ _ _ _ _ _ _ hscope _ => ?_
  refine keeps_failIf fun _ => ?_
  refine keeps_failIf fun _ => ?_
  refine keeps_fact hr fun loaded _ _ _ _ _ => ?_
  refine keeps_fact hr fun confirmation _ _ _ _ _ => ?_
  refine keeps_now hr fun now _ _ => ?_
  split
  · refine keeps_failIf fun _ => ?_
    refine keeps_failIf fun _ => ?_
    refine keeps_failIf fun _ => ?_
    unfold grantApproval
    refine keeps_authorize hr fun answer _ _ _ => ?_
    rcases answer with _ | _ | authority
    · exact keeps_fail
    · exact keeps_fail
    · refine keeps_failIf fun _ => ?_
      refine keeps_newId_any hr fun approvalId _ _ => ?_
      refine keeps_audit hr fun _ _ _ _ _ _ => ?_
      rw [← hscope]
      exact under_transition rfl rfl fun _ _ hrec => Safe.ret hrec
  · exact keeps_fail

theorem cancel_under (a : RevisionArgs) :
    KeepsUnder ⟨scopeIn a.workspace, .cancel, a.idempotencyKey⟩
      (sha.hexdigest (revisionPayload a)) recovers i (cancel sha a) log w := by
  have hr := readsFree_under ⟨scopeIn a.workspace, .cancel, a.idempotencyKey⟩
    (sha.hexdigest (revisionPayload a)) recovers
  unfold cancel
  refine keeps_scopeOf ?_
  refine under_idempotent rfl (fun _ _ => ?_) fun prior _ _ hrec => Safe.ret hrec
  refine keeps_require hr fun cur _ _ _ _ _ _ _ hscope _ => ?_
  refine keeps_failIf fun _ => ?_
  refine keeps_failIf fun _ => ?_
  refine keeps_failIf fun _ => ?_
  refine keeps_now hr fun now _ _ => ?_
  refine keeps_fact hr fun preview _ _ _ _ _ => ?_
  refine keeps_audit hr fun _ _ _ _ _ _ => ?_
  rw [← hscope]
  exact under_transition rfl rfl fun _ _ hrec => Safe.ret hrec

theorem expirePreview_under (a : RevisionArgs) :
    KeepsUnder ⟨scopeIn a.workspace, .expire, a.idempotencyKey⟩
      (sha.hexdigest (revisionPayload a)) recovers i (expirePreview sha a) log w := by
  have hr := readsFree_under ⟨scopeIn a.workspace, .expire, a.idempotencyKey⟩
    (sha.hexdigest (revisionPayload a)) recovers
  unfold expirePreview
  refine keeps_scopeOf ?_
  refine under_idempotent rfl (fun _ _ => ?_) fun prior _ _ hrec => Safe.ret hrec
  refine keeps_require hr fun cur _ _ _ _ _ _ _ hscope _ => ?_
  refine keeps_failIf fun _ => ?_
  refine keeps_failIf fun _ => ?_
  refine keeps_fact hr fun loaded _ _ _ _ _ => ?_
  refine keeps_now hr fun now _ _ => ?_
  cases loaded with
  | none => exact keeps_fail
  | some preview =>
    refine keeps_failIf fun _ => ?_
    refine keeps_audit hr fun _ _ _ _ _ _ => ?_
    rw [← hscope]
    exact under_transition rfl rfl fun _ _ hrec => Safe.ret hrec

/-- The intent and the observation are recorded under one key. -/
theorem runExecution_under (a : RevisionArgs) {preview : Preview} {now : Instant} :
    KeepsUnder ⟨cur.scope, .execute, a.idempotencyKey⟩ digest recovers i
      (runExecution a digest cur preview now) log w := by
  have hr := readsFree_under ⟨cur.scope, .execute, a.idempotencyKey⟩ digest recovers
  unfold runExecution
  refine keeps_newId_any hr fun executionId _ _ => ?_
  refine keeps_audit hr fun _ _ _ _ _ _ => ?_
  refine under_transition rfl rfl fun _ _ _ => ?_
  refine Safe.perform fun _ _ _ => ⟨trivial, fun _ reply _ _ => ?_⟩
  unfold observeExecution
  refine Safe.bind ?_
  refine keeps_now hr fun finished _ _ => ?_
  refine keeps_observedRecovery hr fun recovery _ _ _ _ => ?_
  refine keeps_audit hr fun _ _ _ _ _ _ => ?_
  rw [← Program.bind_ret (transition _)]
  exact under_transition rfl rfl fun _ _ hrec => Safe.ret (under_status hrec)

theorem startExecution_under (a : RevisionArgs) :
    KeepsUnder ⟨scopeIn a.workspace, .execute, a.idempotencyKey⟩
      (sha.hexdigest (revisionPayload a)) recovers i (startExecution sha a) log w := by
  have hr := readsFree_under ⟨scopeIn a.workspace, .execute, a.idempotencyKey⟩
    (sha.hexdigest (revisionPayload a)) recovers
  unfold startExecution
  refine keeps_scopeOf ?_
  refine under_idempotent rfl (fun _ _ => ?_) fun prior _ _ hrec => under_status hrec
  refine keeps_require hr fun cur _ _ _ _ _ _ _ hscope _ => ?_
  refine keeps_failIf fun _ => ?_
  refine keeps_failIf fun _ => ?_
  refine keeps_fact hr fun loaded _ _ _ _ _ => ?_
  cases loaded with
  | none => exact keeps_fail
  | some preview =>
    refine keeps_now hr fun now _ _ => ?_
    refine keeps_fact hr fun confirmation _ _ _ _ _ => ?_
    refine keeps_fact hr fun approval _ _ _ _ _ => ?_
    refine keeps_missingOrExpired hr fun _ _ _ _ _ => ?_
    refine keeps_failIf fun _ => ?_
    refine keeps_missingOrExpired hr fun _ _ _ _ _ => ?_
    refine keeps_failIf fun _ => ?_
    rw [← hscope]
    exact runExecution_under a

theorem commitSuccess_under (a : RevisionArgs) {v : VerifyRecord} {execution : Execution}
    {reply : VerifierReply} {result : VerifiedResult} {evidence : CanonicalCommitEvidence}
    {now : Instant} (hid : a.interactionId = cur.interactionId) :
    KeepsUnder ⟨cur.scope, v.operation, v.idempotencyKey⟩ v.digest recovers i
      (commitSuccess a v cur execution reply result evidence now) log w := by
  have hr := readsFree_under ⟨cur.scope, v.operation, v.idempotencyKey⟩ v.digest recovers
  unfold commitSuccess
  refine keeps_currentRecovery hr hid fun recovery _ _ _ _ => ?_
  refine keeps_audit hr fun _ _ _ _ _ _ => ?_
  rw [← Program.bind_ret (transition _)]
  exact under_transition rfl rfl fun _ _ hrec => Safe.ret hrec

theorem commitFailed_under (a : RevisionArgs) {v : VerifyRecord} {execution : Execution}
    {reply : VerifierReply} {result : Option VerifiedResult} {failure : Option FailureInfo}
    {now : Instant} :
    KeepsUnder ⟨cur.scope, v.operation, v.idempotencyKey⟩ v.digest recovers i
      (commitFailed a v cur execution reply result failure now) log w := by
  have hr := readsFree_under ⟨cur.scope, v.operation, v.idempotencyKey⟩ v.digest recovers
  unfold commitFailed
  refine keeps_recoveryIdOf hr fun recoveryId _ _ _ _ => ?_
  refine keeps_audit hr fun _ _ _ _ _ _ => ?_
  rw [← Program.bind_ret (transition _)]
  exact under_transition rfl rfl fun _ _ hrec => Safe.ret hrec

theorem settleVerification_under (a : RevisionArgs) {v : VerifyRecord} {preview : Preview}
    {execution : Execution} {reply : VerifierReply} {now : Instant}
    (hid : a.interactionId = cur.interactionId) :
    KeepsUnder ⟨cur.scope, v.operation, v.idempotencyKey⟩ v.digest recovers i
      (settleVerification sha a v cur preview execution reply now) log w := by
  have hr := readsFree_under ⟨cur.scope, v.operation, v.idempotencyKey⟩ v.digest recovers
  unfold settleVerification
  split
  · exact commitFailed_under a
  · split
    · refine keeps_newId_any hr fun resultId _ _ => ?_
      refine keeps_canonicalCommit hr fun evidence _ _ _ _ => ?_
      cases evidence with
      | ok evidence => exact commitSuccess_under a hid
      | error e => exact commitFailed_under a
    · exact commitFailed_under a

theorem verifyAs_under (a : RevisionArgs) (v : VerifyRecord) :
    KeepsUnder ⟨scopeIn a.workspace, v.operation, v.idempotencyKey⟩ v.digest recovers i
      (verifyAs sha a v) log w := by
  have hr := readsFree_under ⟨scopeIn a.workspace, v.operation, v.idempotencyKey⟩ v.digest recovers
  unfold verifyAs
  refine keeps_scopeOf ?_
  refine under_idempotent rfl (fun _ _ => ?_) fun prior _ _ hrec => under_status hrec
  refine keeps_require hr fun cur _ _ _ _ _ _ hid hscope _ => ?_
  refine keeps_failIf fun _ => ?_
  refine keeps_failIf fun _ => ?_
  refine keeps_fact hr fun loaded _ _ _ _ _ => ?_
  cases loaded with
  | none => exact keeps_fail
  | some execution =>
    refine keeps_verify hr fun answer _ _ => ?_
    refine keeps_fact hr fun loaded _ _ _ _ _ => ?_
    cases loaded with
    | none => exact keeps_fail
    | some preview =>
      refine keeps_now hr fun now _ _ => ?_
      rw [← hscope]
      refine Safe.bind ((settleVerification_under a hid.symm).mono (fun _ _ _ hrec => ?_)
        fun _ _ _ _ => trivial)
      exact under_status hrec

theorem verify_under (a : RevisionArgs) :
    KeepsUnder ⟨scopeIn a.workspace, .verify, a.idempotencyKey⟩
      (sha.hexdigest (revisionPayload a)) recovers i (verify sha a) log w :=
  verifyAs_under a ⟨.verify, a.idempotencyKey, sha.hexdigest (revisionPayload a)⟩

/-- The reconciliation is the one write under another key. -/
theorem under_closeGap {a : RevisionArgs} {gapDigest : String} {f : Interaction → Prog β}
    (hrecovers : recovers)
    (hgap : key.gap = ⟨cur.scope, .reconcileExecution, gapKey a.idempotencyKey⟩)
    (h : ∀ r log' w', KeepsUnder key digest recovers i (f r) log' w') :
    KeepsUnder key digest recovers i (closeGap a gapDigest cur >>= f) log w := by
  have hr := readsFree_under key digest recovers
  unfold closeGap
  split
  · unfold reconcileExecutionGap
    refine Safe.bind (keeps_fact hr fun loaded _ _ _ _ _ => ?_)
    cases loaded with
    | none => exact keeps_fail
    | some execution =>
      refine keeps_failIf fun _ => ?_
      refine keeps_now hr fun now _ _ => ?_
      refine keeps_recoveryIdOf hr fun recoveryId _ _ _ _ => ?_
      refine keeps_audit hr fun _ _ _ _ _ _ => ?_
      exact under_reconciliation hrecovers hgap.symm fun _ _ => Safe.ret (h _ _ _)
  · exact h cur log w

theorem recover_under (a : RevisionArgs) (hrecovers : recovers) :
    KeepsUnder ⟨scopeIn a.workspace, .recover, a.idempotencyKey⟩
      (sha.hexdigest (revisionPayload a)) recovers i (recover sha a) log w := by
  have hr := readsFree_under ⟨scopeIn a.workspace, .recover, a.idempotencyKey⟩
    (sha.hexdigest (revisionPayload a)) recovers
  unfold recover
  refine keeps_scopeOf ?_
  refine under_idempotent rfl (fun _ _ => ?_) fun prior _ _ hrec => under_status hrec
  refine keeps_require hr fun found _ _ _ _ _ hseen hid hscope _ => ?_
  refine keeps_recoverableRecord hr hseen hid hscope fun r _ _ _ _ _ hscope' => ?_
  refine under_closeGap hrecovers (by rw [hscope']; rfl) fun r' _ _ => ?_
  exact verifyAs_under { a with expectedRevision := r'.revision }
    ⟨.recover, a.idempotencyKey, sha.hexdigest (revisionPayload a)⟩

end Under

/-- **Every call writes under its key**, a recovery apart, which may also reconcile; and when it
returns, the key is recorded with its payload. -/
theorem start_under (d : Deployment) {k : Request} {key : IdempotencyKey} {p : Payload}
    (hk : k.recorded d.sha = some (key, p)) (i : ℕ) (log : Log Action Action.Reply) (w : World) :
    KeepsUnder key (d.sha.hexdigest p) (∃ a, k = .recover a) i (start d k) log w := by
  have hdone : ∀ {α : Type} (f : α → Result) {p' : Prog α},
      KeepsUnder key (d.sha.hexdigest p) (∃ a, k = .recover a) i p' log w →
        KeepsUnder key (d.sha.hexdigest p) (∃ a, k = .recover a) i (f <$> p') log w :=
    fun f _ hp => Safe.bind (hp.mono (fun _ _ _ h => Safe.ret h) fun _ _ _ _ => trivial)
  cases k <;> simp only [Request.recorded, reduceCtorEq, Option.some.injEq, Prod.mk.injEq] at hk
  all_goals obtain ⟨rfl, rfl⟩ := hk
  case create a => exact hdone _ (createInteraction_under a)
  case preview a => exact hdone _ (preview_under a)
  case confirm a => exact hdone _ (confirm_under { a with consumption := none })
  case approve a => exact hdone _ (approve_under a)
  case cancel a => exact hdone _ (cancel_under a)
  case expirePreview a => exact hdone _ (expirePreview_under a)
  case startExecution a => exact hdone _ (startExecution_under a)
  case verify a => exact hdone _ (verify_under a)
  case recover a => exact hdone _ (recover_under a ⟨a, rfl⟩)

/-! ## Calls that find their key recorded -/

/-- An action that changes no table. -/
def readsOnly (i : ℕ) (_log : Log Action Action.Reply) (e : Action) (w : World) : Prop :=
  ∀ input r w', handler i e input w = some (r, w') → w'.db = w.db

theorem handler_reads {i : ℕ} {e : Action} {input : Input} {r : e.Reply} {w w' : World}
    (he : e.writes = false) (hr : handler i e input w = some (r, w')) : w'.db = w.db := by
  cases e <;> simp only [Action.writes, reduceCtorEq] at he
  case newId kind =>
    cases input <;> simp only [handler, reduceCtorEq] at hr
    split at hr
    · cases hr
    · obtain ⟨-, rfl⟩ : _ ∧ _ := by simpa using hr
      rfl
  case record request =>
    cases input <;> simp only [handler, reduceCtorEq] at hr
    split at hr <;>
    · obtain ⟨-, rfl⟩ : _ ∧ _ := by simpa using hr
      rfl
  case authorize request presented =>
    cases input <;> simp only [handler, reduceCtorEq] at hr
    split at hr <;>
    · obtain ⟨-, rfl⟩ : _ ∧ _ := by simpa using hr
      rfl
  case confirmationChallenge id previewId =>
    cases input <;> simp only [handler, reduceCtorEq] at hr <;> split at hr
    · cases hr
    · obtain ⟨-, rfl⟩ : _ ∧ _ := by simpa using hr
      rfl
    · obtain ⟨-, rfl⟩ : _ ∧ _ := by simpa using hr
      rfl
    · cases hr
  all_goals
    cases input <;> simp only [handler, reduceCtorEq] at hr
    obtain ⟨-, rfl⟩ : _ ∧ _ := by simpa using hr
    rfl

theorem readsFree_readsOnly : ReadsFree readsOnly :=
  fun _ _ _ _ he _ _ _ hr => handler_reads he hr

section Replays

variable {α β : Type} {sha : Sha256} {key : IdempotencyKey} {digest : String} {i : ℕ}
variable {log : Log Action Action.Reply} {w : World}

/-- The call `i` changes no table. -/
abbrev KeepsTables {α : Type} (i : ℕ) (p : Prog α) (log : Log Action Action.Reply) (w : World) :
    Prop :=
  Keeps readsOnly i (fun _ _ _ => True) p log w

/-- When the key is recorded, the check of an operation returns an earlier result or fails. -/
theorem keeps_recorded {scope : Scope} {op : Operation} {k digest' traceId : String}
    {f : Option Interaction → Prog β} (h : w.Recorded ⟨scope, op, k⟩ digest)
    (hprior : ∀ prior log' w', KeepsTables i (f (some prior)) log' w') :
    KeepsTables i (idempotent scope op k digest' traceId >>= f) log w := by
  refine keeps_idempotent readsFree_readsOnly (fun w' _ hw hinv hnone _ => ?_)
    fun row w' log' _ _ _ _ => hprior row.result log' w'
  obtain ⟨row, hrow, -⟩ := hinv.recorded_row (hw.recorded h)
  rw [hnone] at hrow
  cases hrow

theorem status_reads {workspace : WorkspaceKey} {actorId X : String} :
    KeepsTables i (status workspace actorId X) log w :=
  (status_keeps readsFree_readsOnly).mono (fun _ _ _ _ => trivial) fun _ _ _ _ => trivial

theorem replay_reads {X : String} {ty : FactType} {fid : Option String} :
    KeepsTables i (fact X ty fid >>= asserted) log w := by
  refine keeps_fact readsFree_readsOnly fun stored _ _ _ _ _ => ?_
  cases stored with
  | none => exact keeps_raise
  | some x => exact Safe.ret trivial

/-- A creation has no check of its own: the repository finds its key. -/
theorem createInteraction_replays (a : CreateArgs)
    (h : w.Recorded ⟨scopeIn a.workspace, .create, a.idempotencyKey⟩ digest) :
    KeepsTables i (createInteraction sha a) log w := by
  have hr := readsFree_readsOnly
  unfold createInteraction
  refine keeps_scopeOf ?_
  refine keeps_failIf fun _ => ?_
  refine keeps_failIf fun _ => ?_
  refine keeps_now hr fun now w₁ h₁ => ?_
  refine keeps_newId_any hr fun id w₂ h₂ => ?_
  refine keeps_audit hr fun line w₃ _ _ h₃ _ => ?_
  refine Safe.perform fun w₄ h₄ hinv => ⟨fun input r w' hact => ?_, fun _ r _ _ => ?_⟩
  · obtain ⟨row, hrow, -⟩ := hinv.recorded_row ((h₁.trans (h₂.trans (h₃.trans h₄))).recorded h)
    have hscope : (a.interaction (scopeIn a.workspace) id now).scope = scopeIn a.workspace := rfl
    cases input <;> simp only [handler, reduceCtorEq] at hact
    split at hact
    · obtain ⟨-, rfl⟩ : _ ∧ _ := by simpa using hact
      rfl
    · rw [if_pos (by rw [hscope, hrow]; rfl)] at hact
      obtain ⟨-, rfl⟩ : _ ∧ _ := by simpa using hact
      rfl
  · rcases r with (_ | _) | r
    · exact keeps_fail
    · exact keeps_raise
    · exact Safe.ret trivial

theorem preview_replays (a : PreviewArgs)
    (h : w.Recorded ⟨scopeIn a.workspace, .preview, a.idempotencyKey⟩ digest) :
    KeepsTables i (preview sha a) log w := by
  unfold preview
  exact keeps_scopeOf (keeps_recorded h fun _ _ _ => replay_reads)

theorem confirm_replays (a : ConfirmArgs)
    (h : w.Recorded ⟨scopeIn a.workspace, .confirm, a.idempotencyKey⟩ digest) :
    KeepsTables i (confirm sha a) log w := by
  unfold confirm
  exact keeps_scopeOf (keeps_recorded h fun _ _ _ => replay_reads)

theorem approve_replays (a : ApproveArgs)
    (h : w.Recorded ⟨scopeIn a.workspace, .approve, a.idempotencyKey⟩ digest) :
    KeepsTables i (approve sha a) log w := by
  unfold approve
  exact keeps_scopeOf (keeps_recorded h fun _ _ _ => replay_reads)

theorem cancel_replays (a : RevisionArgs)
    (h : w.Recorded ⟨scopeIn a.workspace, .cancel, a.idempotencyKey⟩ digest) :
    KeepsTables i (cancel sha a) log w := by
  unfold cancel
  exact keeps_scopeOf (keeps_recorded h fun _ _ _ => Safe.ret trivial)

theorem expirePreview_replays (a : RevisionArgs)
    (h : w.Recorded ⟨scopeIn a.workspace, .expire, a.idempotencyKey⟩ digest) :
    KeepsTables i (expirePreview sha a) log w := by
  unfold expirePreview
  exact keeps_scopeOf (keeps_recorded h fun _ _ _ => Safe.ret trivial)

theorem startExecution_replays (a : RevisionArgs)
    (h : w.Recorded ⟨scopeIn a.workspace, .execute, a.idempotencyKey⟩ digest) :
    KeepsTables i (startExecution sha a) log w := by
  unfold startExecution
  exact keeps_scopeOf (keeps_recorded h fun _ _ _ => status_reads)

theorem verifyAs_replays (a : RevisionArgs) (v : VerifyRecord)
    (h : w.Recorded ⟨scopeIn a.workspace, v.operation, v.idempotencyKey⟩ digest) :
    KeepsTables i (verifyAs sha a v) log w := by
  unfold verifyAs
  exact keeps_scopeOf (keeps_recorded h fun _ _ _ => status_reads)

theorem recover_replays (a : RevisionArgs)
    (h : w.Recorded ⟨scopeIn a.workspace, .recover, a.idempotencyKey⟩ digest) :
    KeepsTables i (recover sha a) log w := by
  unfold recover
  exact keeps_scopeOf (keeps_recorded h fun _ _ _ => status_reads)

end Replays

/-- **A call that finds its key recorded changes no table.** -/
theorem start_replays (d : Deployment) {k : Request} {key : IdempotencyKey} {p : Payload}
    (hk : k.recorded d.sha = some (key, p)) {digest : String} {i : ℕ}
    {log : Log Action Action.Reply} {w : World} (h : w.Recorded key digest) :
    KeepsTables i (start d k) log w := by
  have hdone : ∀ {α : Type} (f : α → Result) {p' : Prog α},
      KeepsTables i p' log w → KeepsTables i (f <$> p') log w :=
    fun f _ hp => Safe.bind (hp.mono (fun _ _ _ _ => Safe.ret trivial) fun _ _ _ _ => trivial)
  cases k <;> simp only [Request.recorded, reduceCtorEq, Option.some.injEq, Prod.mk.injEq] at hk
  all_goals obtain ⟨rfl, rfl⟩ := hk
  case create a => exact hdone _ (createInteraction_replays a h)
  case preview a => exact hdone _ (preview_replays a h)
  case confirm a => exact hdone _ (confirm_replays { a with consumption := none } h)
  case approve a => exact hdone _ (approve_replays a h)
  case cancel a => exact hdone _ (cancel_replays a h)
  case expirePreview a => exact hdone _ (expirePreview_replays a h)
  case startExecution a => exact hdone _ (startExecution_replays a h)
  case verify a =>
    exact hdone _ (verifyAs_replays a
      ⟨.verify, a.idempotencyKey, d.sha.hexdigest (revisionPayload a)⟩ h)
  case recover a => exact hdone _ (recover_replays a h)

end Interactions

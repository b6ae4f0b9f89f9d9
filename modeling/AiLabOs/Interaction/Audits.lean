import AiLabOs.Base.Query
import AiLabOs.Base.Trail
import AiLabOs.Interaction.SystemSafety
import Mathlib.Data.Prod.Lex
import Mathlib.Data.String.Basic

/-!
# Trusted interactions: the audit trail

Every commit of an interaction writes lines of its audit trail under the revision it commits: one
line that tells of the change of state, and four where a Preview is committed. `audits` reads them
by revision, by the text of the instant and by identifier.

## Main definitions

* `Database.audits`: the lines of an interaction, as they are read
* `AuditEvidence.Tells`, `Told`: what the lines of a commit tell
* `tells`: the lines a call writes tell of the record it has read

## Main results

* `start_tells`: every call writes such lines
-/

namespace Interactions

open Process

/-- The columns `audits` orders by, with the text the database has of an instant. -/
def AuditEvidence.orderKey (isoformat : Instant → String) (a : AuditEvidence) :
    Int ×ₗ String ×ₗ String :=
  toLex (a.revision, toLex (isoformat a.occurredAt, a.auditId))

/-- The line `a` is read before the line `b`. -/
def ReadBefore (isoformat : Instant → String) (a b : AuditEvidence) : Prop :=
  a.orderKey isoformat ≤ b.orderKey isoformat

instance (isoformat : Instant → String) : DecidableRel (ReadBefore isoformat) :=
  fun a b => inferInstanceAs (Decidable (a.orderKey isoformat ≤ b.orderKey isoformat))

/-- `audits`. -/
def Database.audits (isoformat : Instant → String) (db : Database) (scope : Scope)
    (interactionId : String) : List AuditEvidence :=
  match db.get scope interactionId with
  | none => []
  | some _ =>
    (db.audit.filter fun a => a.interactionId = interactionId).insertionSort (ReadBefore isoformat)

/-! ## What the lines of a commit tell -/

/-- The line tells of a record that it has come from one state to another. -/
structure AuditEvidence.Tells (a : AuditEvidence) (r : Interaction)
    (source : Option LifecycleState) (target : LifecycleState) : Prop where
  interactionId : a.interactionId = r.interactionId
  revision : a.revision = r.revision
  source : a.fromState = source
  target : a.toState = target

/-- **The lines of a transition** from a state: the change of state; or, of a Preview, that its
resolution begins and ends, that it is made, and the change of state. -/
inductive Told (source : LifecycleState) (t : Transition) : Prop
  | line (a : AuditEvidence) (haudits : t.audits = [a])
      (ha : a.Tells t.interaction (some source) t.interaction.lifecycleState)
  | preview (a b c d : AuditEvidence) (haudits : t.audits = [a, b, c, d])
      (ha : a.Tells t.interaction (some source) source)
      (hb : b.Tells t.interaction (some source) source)
      (hc : c.Tells t.interaction (some source) .previewed)
      (hd : d.Tells t.interaction (some .previewed) t.interaction.lifecycleState)

/-- A transition of a record of the past to its next revision, with its lines. -/
structure Recounts (w : World) (cur : Interaction) (t : Transition) : Prop where
  seen : w.Seen cur
  interactionId : t.interaction.interactionId = cur.interactionId
  expected : t.expectedRevision = cur.revision
  next : t.interaction.revision = cur.revision + 1
  state : t.interaction.lifecycleState ≠ .previewed
  told : Told cur.lifecycleState t

/-- The lines of a write tell of the record its call has read. -/
def tells (_ : ℕ) (_ : Log Action Action.Reply) (e : Action) (w : World) : Prop :=
  match e with
  | .transition t => ∃ cur, Recounts w cur t
  | .create r audit _ _ => audit.Tells r none r.lifecycleState ∧ r.revision = 1 ∧
      r.lifecycleState ≠ .previewed
  | _ => True

/-- The call `i` writes such lines only. -/
abbrev KeepsTelling {α : Type} (i : ℕ) (p : Prog α) (log : Log Action Action.Reply) (w : World) :
    Prop :=
  Keeps tells i (fun _ _ _ => True) p log w

theorem readsFree_tells : ReadsFree tells := by
  intro i log e w he
  cases e <;> first | exact trivial | cases he

section Operations

variable {α β : Type} {sha : Sha256} {i : ℕ} {log : Log Action Action.Reply} {w : World}
variable {cur : Interaction} {post : β → Log Action Action.Reply → World → Prop}

/-- **The commit** of a record seen before. -/
theorem tells_transition {t : Transition} {f : Unit → Prog β} (h : Recounts w cur t)
    (hf : ∀ log' w', w'.Seen t.interaction → Keeps tells i post (f ()) log' w') :
    Keeps tells i post (transition t >>= f) log w := by
  unfold transition
  refine Safe.bind (Safe.perform fun w' hw _ =>
    ⟨⟨cur, { h with seen := hw.seen h.seen }⟩, fun input r w'' hr => ?_⟩)
  cases input <;> simp only [handler, reduceCtorEq] at hr
  split at hr
  · rename_i e _
    obtain ⟨rfl, rfl⟩ : _ ∧ _ := by simpa using hr
    cases e <;> exact keeps_raise
  · obtain ⟨rfl, rfl⟩ : _ ∧ _ := by simpa using hr
    exact Safe.ret (hf _ _ ⟨_, List.mem_cons_self, rfl⟩)

/-- A commit with one line. -/
theorem tells_commit {t : Transition} {eventType key id : String} {references : Dict}
    {failure : Option FailureInfo} {occurredAt : Instant} {f : Unit → Prog β} (hseen : w.Seen cur)
    (hid : t.interaction.interactionId = cur.interactionId)
    (hrev : t.expectedRevision = cur.revision) (hnext : t.interaction.revision = cur.revision + 1)
    (hstate : t.interaction.lifecycleState ≠ .previewed)
    (haudits : t.audits = [auditOf t.interaction eventType (some cur.lifecycleState) key references
      failure id occurredAt])
    (hf : ∀ log' w', w'.Seen t.interaction → Keeps tells i post (f ()) log' w') :
    Keeps tells i post (transition t >>= f) log w :=
  tells_transition ⟨hseen, hid, hrev, hnext, hstate, .line _ haudits ⟨rfl, rfl, rfl, rfl⟩⟩ hf

/-- The check at the start of an operation. -/
theorem tells_idempotent {scope : Scope} {op : Operation} {key digest traceId : String}
    {f : Option Interaction → Prog β} (hnone : ∀ log' w', KeepsTelling i (f none) log' w')
    (hsome : ∀ prior log' w', KeepsTelling i (f (some prior)) log' w') :
    KeepsTelling i (idempotent scope op key digest traceId >>= f) log w :=
  keeps_idempotent readsFree_tells (fun w' log' _ _ _ _ => hnone log' w')
    fun row w' log' _ _ _ _ => hsome row.result log' w'

theorem tells_replay {X : String} {ty : FactType} {fid : Option String} :
    KeepsTelling i (fact X ty fid >>= asserted) log w := by
  refine keeps_fact readsFree_tells fun stored _ _ _ _ _ => ?_
  cases stored with
  | none => exact keeps_raise
  | some x => exact Safe.ret trivial

theorem tells_status {workspace : WorkspaceKey} {actorId X : String} :
    KeepsTelling i (status workspace actorId X) log w :=
  (status_keeps readsFree_tells).mono (fun _ _ _ _ => trivial) fun _ _ _ _ => trivial

theorem createInteraction_tells (a : CreateArgs) :
    KeepsTelling i (createInteraction sha a) log w := by
  have hr := readsFree_tells
  unfold createInteraction
  refine keeps_scopeOf ?_
  refine keeps_failIf fun _ => ?_
  refine keeps_failIf fun _ => ?_
  refine keeps_now hr fun now _ _ => ?_
  refine keeps_newId_any hr fun id _ _ => ?_
  refine keeps_line hr fun _ _ _ _ _ _ => ?_
  refine Safe.perform fun _ _ _ => ⟨⟨⟨rfl, rfl, rfl, rfl⟩, rfl, nofun⟩, fun _ r _ _ => ?_⟩
  rcases r with (_ | _) | _
  · exact keeps_fail
  · exact keeps_raise
  · exact Safe.ret trivial

theorem preview_tells (a : PreviewArgs) : KeepsTelling i (preview sha a) log w := by
  have hr := readsFree_tells
  unfold preview
  refine keeps_scopeOf ?_
  refine tells_idempotent (fun _ _ => ?_) fun _ _ _ => tells_replay
  refine keeps_require hr fun cur _ _ _ _ _ hseen _ _ _ => ?_
  refine keeps_failIf fun _ => ?_
  refine keeps_failIf fun _ => ?_
  refine keeps_failIf fun _ => ?_
  refine keeps_now hr fun now _ h₁ => ?_
  refine keeps_failIf fun _ => ?_
  refine keeps_fact hr fun old _ h₂ _ _ _ => ?_
  refine keeps_newId_any hr fun previewId _ h₃ => ?_
  refine keeps_line hr fun _ _ _ _ h₄ _ => ?_
  refine keeps_line hr fun _ _ _ _ h₅ _ => ?_
  refine keeps_line hr fun _ _ _ _ h₆ _ => ?_
  refine keeps_line hr fun _ _ _ _ h₇ _ => ?_
  have hseen' := (h₁.trans (h₂.trans (h₃.trans (h₄.trans (h₅.trans (h₆.trans h₇)))))).seen hseen
  refine @tells_transition _ _ _ _ cur _ _ _ ⟨hseen', rfl, rfl, rfl, ?_, ?_⟩
    fun _ _ _ => Safe.ret trivial
  · show (if _ then LifecycleState.awaitingConfirmation else .authorized) ≠ .previewed
    split <;> nofun
  · exact .preview _ _ _ _ rfl ⟨rfl, rfl, rfl, rfl⟩ ⟨rfl, rfl, rfl, rfl⟩ ⟨rfl, rfl, rfl, rfl⟩
      ⟨rfl, rfl, rfl, rfl⟩

theorem confirm_tells (a : ConfirmArgs) : KeepsTelling i (confirm sha a) log w := by
  have hr := readsFree_tells
  unfold confirm
  refine keeps_scopeOf ?_
  refine tells_idempotent (fun _ _ => ?_) fun _ _ _ => tells_replay
  refine keeps_require hr fun cur _ _ _ _ _ hseen _ _ _ => ?_
  refine keeps_failIf fun _ => ?_
  refine keeps_failIf fun _ => ?_
  refine keeps_fact hr fun loaded _ h₁ _ _ _ => ?_
  refine keeps_now hr fun now _ h₂ => ?_
  cases loaded with
  | none => exact keeps_fail
  | some preview =>
    refine keeps_failIf fun _ => ?_
    refine keeps_failIf fun _ => ?_
    refine keeps_failIf fun _ => ?_
    refine keeps_failIf fun _ => ?_
    refine keeps_newId_any hr fun confirmationId _ h₃ => ?_
    refine keeps_line hr fun _ _ _ _ h₄ _ => ?_
    have hseen' := (h₁.trans (h₂.trans (h₃.trans h₄))).seen hseen
    refine tells_commit hseen' rfl rfl rfl ?_ rfl fun _ _ _ => Safe.ret trivial
    show (if preview.requiresApproval = true then LifecycleState.awaitingConfirmation
      else .authorized) ≠ .previewed
    split <;> nofun

theorem approve_tells (a : ApproveArgs) : KeepsTelling i (approve sha a) log w := by
  have hr := readsFree_tells
  unfold approve
  refine keeps_scopeOf ?_
  refine tells_idempotent (fun _ _ => ?_) fun _ _ _ => tells_replay
  refine keeps_require hr fun cur _ _ _ _ _ hseen _ _ _ => ?_
  refine keeps_failIf fun _ => ?_
  refine keeps_failIf fun _ => ?_
  refine keeps_fact hr fun loaded _ h₁ _ _ _ => ?_
  refine keeps_fact hr fun confirmation _ h₂ _ _ _ => ?_
  refine keeps_now hr fun now _ h₃ => ?_
  split
  · refine keeps_failIf fun _ => ?_
    refine keeps_failIf fun _ => ?_
    refine keeps_failIf fun _ => ?_
    unfold grantApproval
    refine keeps_authorize hr fun answer _ h₄ _ => ?_
    rcases answer with _ | _ | authority
    · exact keeps_fail
    · exact keeps_fail
    · refine keeps_failIf fun _ => ?_
      refine keeps_newId_any hr fun approvalId _ h₅ => ?_
      refine keeps_line hr fun _ _ _ _ h₆ _ => ?_
      have hseen' := (h₁.trans (h₂.trans (h₃.trans (h₄.trans (h₅.trans h₆))))).seen hseen
      exact tells_commit hseen' rfl rfl rfl nofun rfl fun _ _ _ => Safe.ret trivial
  · exact keeps_fail

theorem cancel_tells (a : RevisionArgs) : KeepsTelling i (cancel sha a) log w := by
  have hr := readsFree_tells
  unfold cancel
  refine keeps_scopeOf ?_
  refine tells_idempotent (fun _ _ => ?_) fun _ _ _ => Safe.ret trivial
  refine keeps_require hr fun cur _ _ _ _ _ hseen _ _ _ => ?_
  refine keeps_failIf fun _ => ?_
  refine keeps_failIf fun _ => ?_
  refine keeps_failIf fun _ => ?_
  refine keeps_now hr fun now _ h₁ => ?_
  refine keeps_fact hr fun preview _ h₂ _ _ _ => ?_
  refine keeps_line hr fun _ _ _ _ h₃ _ => ?_
  have hseen' := (h₁.trans (h₂.trans h₃)).seen hseen
  exact tells_commit hseen' rfl rfl rfl nofun rfl fun _ _ _ => Safe.ret trivial

theorem expirePreview_tells (a : RevisionArgs) : KeepsTelling i (expirePreview sha a) log w := by
  have hr := readsFree_tells
  unfold expirePreview
  refine keeps_scopeOf ?_
  refine tells_idempotent (fun _ _ => ?_) fun _ _ _ => Safe.ret trivial
  refine keeps_require hr fun cur _ _ _ _ _ hseen _ _ _ => ?_
  refine keeps_failIf fun _ => ?_
  refine keeps_failIf fun _ => ?_
  refine keeps_fact hr fun loaded _ h₁ _ _ _ => ?_
  refine keeps_now hr fun now _ h₂ => ?_
  cases loaded with
  | none => exact keeps_fail
  | some preview =>
    refine keeps_failIf fun _ => ?_
    refine keeps_line hr fun _ _ _ _ h₃ _ => ?_
    have hseen' := (h₁.trans (h₂.trans h₃)).seen hseen
    exact tells_commit hseen' rfl rfl rfl nofun rfl fun _ _ _ => Safe.ret trivial

/-- The call of the execution port takes no record away. -/
theorem tells_execute {request : ExecutionRequest}
    {f : Except String ExecutionObservation → Prog β}
    (h : ∀ reply log' w', (∀ r, w.Seen r → w'.Seen r) → KeepsTelling i (f reply) log' w') :
    KeepsTelling i (act (.execute request) >>= f) log w := by
  refine Safe.perform fun w' hw _ => ⟨trivial, fun input reply w'' hr => ?_⟩
  cases input <;> simp only [handler, reduceCtorEq] at hr
  obtain ⟨rfl, rfl⟩ : _ ∧ _ := by simpa using hr
  exact h _ _ _ fun r hseen => hw.seen hseen

/-- The intent is told of before the port is asked, and the observation of the record with the
intent. -/
theorem runExecution_tells (a : RevisionArgs) {digest : String} {preview : Preview} {now : Instant}
    (hseen : w.Seen cur) : KeepsTelling i (runExecution a digest cur preview now) log w := by
  have hr := readsFree_tells
  unfold runExecution
  refine keeps_newId_any hr fun executionId _ h₁ => ?_
  refine keeps_line hr fun _ _ _ _ h₂ _ => ?_
  refine tells_commit ((h₁.trans h₂).seen hseen) rfl rfl rfl nofun rfl fun _ w₃ hseen₃ => ?_
  refine tells_execute fun reply _ w₅ h₅ => ?_
  have hseen₅ := h₅ _ hseen₃
  unfold observeExecution
  refine Safe.bind ?_
  refine keeps_now hr fun finished _ h₆ => ?_
  refine keeps_observedRecovery hr fun recovery _ _ h₇ _ => ?_
  refine keeps_line hr fun _ _ _ _ h₈ _ => ?_
  rw [← Program.bind_ret (transition _)]
  refine tells_commit ((h₆.trans (h₇.trans h₈)).seen hseen₅) rfl rfl rfl ?_ rfl
    fun _ _ _ => Safe.ret tells_status
  show (if _ then LifecycleState.failed else if _ then .recoveryRequired else .verifying) ≠
    .previewed
  split_ifs <;> simp

theorem startExecution_tells (a : RevisionArgs) : KeepsTelling i (startExecution sha a) log w := by
  have hr := readsFree_tells
  unfold startExecution
  refine keeps_scopeOf ?_
  refine tells_idempotent (fun _ _ => ?_) fun _ _ _ => tells_status
  refine keeps_require hr fun cur _ _ _ _ _ hseen _ _ _ => ?_
  refine keeps_failIf fun _ => ?_
  refine keeps_failIf fun _ => ?_
  refine keeps_fact hr fun loaded _ h₁ _ _ _ => ?_
  cases loaded with
  | none => exact keeps_fail
  | some preview =>
    refine keeps_now hr fun now _ h₂ => ?_
    refine keeps_fact hr fun confirmation _ h₃ _ _ _ => ?_
    refine keeps_fact hr fun approval _ h₄ _ _ _ => ?_
    refine keeps_missingOrExpired hr fun _ _ _ h₅ _ => ?_
    refine keeps_failIf fun _ => ?_
    refine keeps_missingOrExpired hr fun _ _ _ h₆ _ => ?_
    refine keeps_failIf fun _ => ?_
    exact runExecution_tells a
      ((h₁.trans (h₂.trans (h₃.trans (h₄.trans (h₅.trans h₆))))).seen hseen)

theorem commitSuccess_tells (a : RevisionArgs) {v : VerifyRecord} {execution : Execution}
    {reply : VerifierReply} {result : VerifiedResult} {evidence : CanonicalCommitEvidence}
    {now : Instant} (hseen : w.Seen cur) (hid : a.interactionId = cur.interactionId) :
    KeepsTelling i (commitSuccess a v cur execution reply result evidence now) log w := by
  have hr := readsFree_tells
  unfold commitSuccess
  refine keeps_currentRecovery hr hid fun recovery _ _ h₁ _ => ?_
  refine keeps_line hr fun _ _ _ _ h₂ _ => ?_
  rw [← Program.bind_ret (transition _)]
  exact tells_commit ((h₁.trans h₂).seen hseen) rfl rfl rfl nofun rfl fun _ _ _ => Safe.ret trivial

theorem commitFailed_tells (a : RevisionArgs) {v : VerifyRecord} {execution : Execution}
    {reply : VerifierReply} {result : Option VerifiedResult} {failure : Option FailureInfo}
    {now : Instant} (hseen : w.Seen cur) :
    KeepsTelling i (commitFailed a v cur execution reply result failure now) log w := by
  have hr := readsFree_tells
  unfold commitFailed
  refine keeps_recoveryIdOf hr fun recoveryId _ _ h₁ _ => ?_
  refine keeps_line hr fun _ _ _ _ h₂ _ => ?_
  rw [← Program.bind_ret (transition _)]
  exact tells_commit ((h₁.trans h₂).seen hseen) rfl rfl rfl nofun rfl fun _ _ _ => Safe.ret trivial

theorem settleVerification_tells (a : RevisionArgs) {v : VerifyRecord} {preview : Preview}
    {execution : Execution} {reply : VerifierReply} {now : Instant} (hseen : w.Seen cur)
    (hid : a.interactionId = cur.interactionId) :
    KeepsTelling i (settleVerification sha a v cur preview execution reply now) log w := by
  have hr := readsFree_tells
  unfold settleVerification
  split
  · exact commitFailed_tells a hseen
  · split
    · refine keeps_newId_any hr fun resultId _ h₁ => ?_
      refine keeps_canonicalCommit hr fun evidence _ _ h₂ _ => ?_
      have hseen' := (h₁.trans h₂).seen hseen
      cases evidence with
      | ok evidence => exact commitSuccess_tells a hseen' hid
      | error e => exact commitFailed_tells a hseen'
    · exact commitFailed_tells a hseen

theorem verifyAs_tells (a : RevisionArgs) (v : VerifyRecord) :
    KeepsTelling i (verifyAs sha a v) log w := by
  have hr := readsFree_tells
  unfold verifyAs
  refine keeps_scopeOf ?_
  refine tells_idempotent (fun _ _ => ?_) fun _ _ _ => tells_status
  refine keeps_require hr fun cur _ _ _ _ _ hseen hid _ _ => ?_
  refine keeps_failIf fun _ => ?_
  refine keeps_failIf fun _ => ?_
  refine keeps_fact hr fun loaded _ h₁ _ _ _ => ?_
  cases loaded with
  | none => exact keeps_fail
  | some execution =>
    refine keeps_verify hr fun answer _ h₂ => ?_
    refine keeps_fact hr fun loaded _ h₃ _ _ _ => ?_
    cases loaded with
    | none => exact keeps_fail
    | some preview =>
      refine keeps_now hr fun now _ h₄ => ?_
      have hseen' := (h₁.trans (h₂.trans (h₃.trans h₄))).seen hseen
      refine Safe.bind ((settleVerification_tells a hseen' hid.symm).mono (fun _ _ _ _ => ?_)
        fun _ _ _ _ => trivial)
      exact tells_status

theorem tells_closeGap {a : RevisionArgs} {digest : String} {f : Interaction → Prog β}
    (hseen : w.Seen cur) (h : ∀ r log' w', Keeps tells i post (f r) log' w') :
    Keeps tells i post (closeGap a digest cur >>= f) log w := by
  have hr := readsFree_tells
  unfold closeGap
  split
  · unfold reconcileExecutionGap
    refine Safe.bind (keeps_fact hr fun loaded _ h₁ _ _ _ => ?_)
    cases loaded with
    | none => exact keeps_fail
    | some execution =>
      refine keeps_failIf fun _ => ?_
      refine keeps_now hr fun now _ h₂ => ?_
      refine keeps_recoveryIdOf hr fun recoveryId _ _ h₃ _ => ?_
      refine keeps_line hr fun _ _ _ _ h₄ _ => ?_
      have hseen' := (h₁.trans (h₂.trans (h₃.trans h₄))).seen hseen
      refine tells_transition
        ⟨hseen', rfl, rfl, rfl, nofun, .line _ rfl ⟨rfl, rfl, rfl, rfl⟩⟩ fun _ _ _ => ?_
      exact Safe.ret (h _ _ _)
  · exact h cur log w

theorem recover_tells (a : RevisionArgs) : KeepsTelling i (recover sha a) log w := by
  have hr := readsFree_tells
  unfold recover
  refine keeps_scopeOf ?_
  refine tells_idempotent (fun _ _ => ?_) fun _ _ _ => tells_status
  refine keeps_require hr fun found _ _ _ _ _ hseen hid hscope _ => ?_
  refine keeps_recoverableRecord hr hseen hid hscope fun r _ _ _ hseen' _ _ => ?_
  exact tells_closeGap hseen' fun r' _ _ => verifyAs_tells _ _

theorem operationsKeep_tells (sha : Sha256) (i : ℕ) : OperationsKeep sha tells i where
  reads := readsFree_tells
  evidence _ _ _ _ _ _ _ := trivial
  challenge _ _ _ := trivial
  create a _ _ := createInteraction_tells a
  preview a _ _ := preview_tells a
  confirm a _ _ _ := confirm_tells a
  approve a _ _ := approve_tells a
  cancel a _ _ := cancel_tells a
  expirePreview a _ _ := expirePreview_tells a
  startExecution a _ _ _ := startExecution_tells a
  verify a _ _ := verifyAs_tells a _
  recover a _ _ := recover_tells a

end Operations

/-- **Every call** writes lines that tell of the record it has read. -/
theorem start_tells (d : Deployment) (k : Request) (i : ℕ) (w : World) :
    KeepsTelling i (start d k) [] w :=
  start_keeps (operationsKeep_tells d.sha i) k w

end Interactions

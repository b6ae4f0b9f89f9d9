import AiLabOs.Interaction.ServiceSafety

/-!
# Trusted interactions: execution, verification and recovery are safe

## Main results

* `startExecution_keeps`: the port is asked only for an intent that was committed from an
  authorised record
* `verify_keeps`, `recover_keeps`: verification and recovery commit legal transitions
* `Authorised.append`: what the authorisation check saw stays on the log of the call
-/

namespace Interactions

open Process

/-- Later readings do not change what the check saw. -/
theorem Authorised.append {log log' : Log Action Action.Reply} {more : List Instant}
    {preview : Preview} {confirmation : Option Confirmation} {approval : Option Approval}
    {now : Instant} (h : Authorised log preview confirmation approval now)
    (hlog : readings log' = readings log ++ more) :
    Authorised log' preview confirmation approval now := by
  have hget : ∀ (n : ℕ) (t : Instant), (readings log)[n]? = some t →
      (readings log')[n]? = some t := by
    intro n t ht
    rw [hlog, List.getElem?_append_left (List.getElem?_eq_some_iff.mp ht).1]
    exact ht
  refine ⟨hget 0 now h.first, fun hreq => ?_, fun hreq => ?_⟩
  · obtain ⟨c, t, hc, ht, hlt⟩ := h.confirmed hreq
    exact ⟨c, t, hc, hget 1 t ht, hlt⟩
  · obtain ⟨a, t, ha, hlt, ht⟩ := h.approved hreq
    exact ⟨a, t, ha, hlt, hget _ t ht⟩

/-- What a check that passed has read. -/
def Passed (required : Bool) (expiresAt : Option Instant) (before after : List Instant) : Prop :=
  (required = false ∧ after = before) ∨
    (required = true ∧ ∃ e t, expiresAt = some e ∧ t < e ∧ after = before ++ [t])

/-- The two checks after the first reading make the authorisation check. -/
theorem Authorised.of_passed {log : Log Action Action.Reply} {preview : Preview}
    {confirmation : Option Confirmation} {approval : Option Approval} {now : Instant}
    {middle : List Instant}
    (hc : Passed preview.requiresConfirmation (confirmation.map Confirmation.expiresAt) [now]
      middle)
    (ha : Passed preview.requiresApproval (approval.map Approval.expiresAt) middle
      (readings log)) : Authorised log preview confirmation approval now := by
  have hfirst : ∃ more, readings log = now :: more := by
    rcases hc with ⟨-, rfl⟩ | ⟨-, e, t, -, -, rfl⟩ <;>
      rcases ha with ⟨-, hl⟩ | ⟨-, e', t', -, -, hl⟩ <;> exact ⟨_, hl⟩
  refine ⟨?_, fun hreq => ?_, fun hreq => ?_⟩
  · obtain ⟨more, hl⟩ := hfirst
    rw [hl]
    rfl
  · rcases hc with ⟨hreq', -⟩ | ⟨-, e, t, he, hlt, rfl⟩
    · simp [hreq] at hreq'
    · obtain ⟨c, hc, rfl⟩ := Option.map_eq_some_iff.mp he
      refine ⟨c, t, hc, ?_, hlt⟩
      rcases ha with ⟨-, hl⟩ | ⟨-, e', t', -, -, hl⟩ <;> rw [hl] <;> rfl
  · rcases ha with ⟨hreq', -⟩ | ⟨-, e, t, he, hlt, hl⟩
    · simp [hreq] at hreq'
    · obtain ⟨a, ha, rfl⟩ := Option.map_eq_some_iff.mp he
      refine ⟨a, t, ha, hlt, ?_⟩
      rcases hc with ⟨hno, rfl⟩ | ⟨hyes, e', t', -, -, rfl⟩
      · rw [hl, hno]
        rfl
      · rw [hl, hyes]
        rfl

section Start

variable {β : Type} {sha : Sha256} {i : ℕ} {log : Log Action Action.Reply} {w : World}
variable {post : β → Log Action Action.Reply → World → Prop}

/-- A check that passes either asked for nothing, or read the clock before the expiry. -/
theorem keeps_missingOrExpired {required : Bool} {expiresAt : Option Instant}
    {f : Bool → Prog β}
    {pr : ℕ → Log Action Action.Reply → Action → World → Prop} (hpr : ReadsFree pr)
    (h : ∀ expired log' w', Rely i w w' →
      (expired = false → Passed required expiresAt (readings log) (readings log')) →
      Keeps pr i post (f expired) log' w') :
    Keeps pr i post (missingOrExpired required expiresAt >>= f) log w := by
  unfold missingOrExpired
  cases required with
  | false =>
    exact h false log w (Rely.refl i w) fun _ => .inl ⟨rfl, rfl⟩
  | true =>
    cases expiresAt with
    | none => exact h true log w (Rely.refl i w) fun hf => nomatch hf
    | some e =>
      rw [if_pos rfl]
      refine Safe.bind (keeps_now hpr fun t w' hw => Safe.ret ?_)
      refine h (decide (e ≤ t)) _ w' hw fun hf => .inr ⟨rfl, e, t, rfl, ?_, by simp⟩
      exact Int.not_le.mp (of_decide_eq_false hf)

theorem keeps_observedRecovery {a : RevisionArgs} {cur : Interaction} {o : ExecutionObservation}
    {finished : Instant} {f : Option Recovery → Prog β}
    {pr : ℕ → Log Action Action.Reply → Action → World → Prop} (hpr : ReadsFree pr)
    (h : ∀ recovery log' w', Rely i w w' →
      (∀ v, recovery = some v → w'.Own i .recovery v.recoveryId) →
      Keeps pr i post (f recovery) log' w') :
    Keeps pr i post (observedRecovery a cur o finished >>= f) log w := by
  unfold observedRecovery
  split
  · refine Safe.bind (keeps_newId .recovery hpr fun id w' hw hown _ => ?_)
    refine Safe.ret (h _ _ w' hw fun v hv => ?_)
    obtain rfl := Option.some.inj hv
    exact hown
  · exact h none log w (Rely.refl i w) fun v hv => nomatch hv

/-- The second commit of `start_execution`. -/
theorem observeExecution_keeps (a : RevisionArgs) {cur : Interaction} {executionId : String}
    {now : Instant} {o : ExecutionObservation}
    (hseen : w.Seen (cur.executing (newExecution a cur executionId now) now))
    (hid : a.interactionId = cur.interactionId) (hrev : cur.revision = a.expectedRevision)
    (hpast : w.Past cur.interactionId (.execution (newExecution a cur executionId now))) :
    Keeps (pre sha) i (fun _ _ _ => True)
      (observeExecution a (sha.hexdigest (revisionPayload a)) cur
        (cur.executing (newExecution a cur executionId now) now)
        (newExecution a cur executionId now) o) log w := by
  have hr := readsFree_pre sha
  unfold observeExecution
  refine keeps_now hr fun finished w₁ h₁ => ?_
  refine keeps_observedRecovery hr fun recovery _ w₂ h₂ hown => ?_
  refine keeps_audit hr fun line w₃ _ _ h₃ _ => ?_
  refine transition_keeps ((h₁.trans (h₂.trans h₃)).seen hseen) rfl rfl (fun w' hw _ _ => ?_)
    fun _ _ _ _ _ _ _ _ _ => trivial
  exact .observe a (newExecution a cur executionId now) o recovery finished _ hid
    (by simp [Interaction.executing, hrev]) rfl ((h₁.trans (h₂.trans (h₃.trans hw))).past hpast)
    rfl fun v hv => (h₃.trans hw).own (hown v hv)

/-- The first commit of `start_execution`, the call of the port and the observation. -/
theorem runExecution_keeps (a : RevisionArgs) {cur : Interaction} {preview : Preview}
    {confirmation : Option Confirmation} {approval : Option Approval} {now : Instant}
    (hseen : w.Seen cur) (hid : a.interactionId = cur.interactionId)
    (hrev : cur.revision = a.expectedRevision) (hstate : cur.lifecycleState = .authorized)
    (hpreview : w.Past cur.interactionId (.preview preview))
    (hcurrent : cur.currentPreviewId = some preview.previewId)
    (hconfirmation : w.Loaded cur.interactionId .confirmation cur.currentConfirmationId
      confirmation)
    (happroval : w.Loaded cur.interactionId .approval cur.currentApprovalId approval)
    (hlog : Authorised log preview confirmation approval now) :
    Keeps (pre sha) i (fun _ _ _ => True)
      (runExecution a (sha.hexdigest (revisionPayload a)) cur preview now) log w := by
  have hr := readsFree_pre sha
  unfold runExecution
  refine keeps_newId .execution hr fun executionId w₁ h₁ hown hun => ?_
  refine keeps_audit hr fun line w₂ log₂ t h₂ hlog₂ => ?_
  refine keeps_transition ((h₁.trans h₂).seen hseen) rfl rfl (fun w' hw _ _ => ?_)
    fun w₃ w₄ log₄ h₃ hcommits hissued hunexecuted hcommit hlog₄ => ?_
  · exact .start a executionId now _ hid hrev hstate ((h₂.trans hw).own hown)
  have hw₃ := h₁.trans (h₂.trans h₃)
  have hlog' : Authorised log₄ preview confirmation approval now :=
    hlog.append (hlog₄.trans (by simpa [readings] using hlog₂))
  refine keeps_execute (fun w' hw => ?_) fun reply w₅ w₆ log₆ h₅ hsame => ?_
  · have hsuffix := hcommits.trans hw.commits
    have hissued' : (executionId, i) ∈ w₄.issued :=
      hissued.mem (((h₂.trans h₃).own hown).1)
    refine .intro a cur preview confirmation approval executionId now _ hid
      (hw.commits.mem hcommit) rfl ((hw₃.seen hseen).mono hsuffix) hstate
      (hw.issued.mem hissued') (hw.unexecuted executionId hissued' (hunexecuted executionId ?_))
      ((hw₃.past hpreview).mono hsuffix) hcurrent ((hw₃.loaded hconfirmation).mono hsuffix)
      ((hw₃.loaded happroval).mono hsuffix) hlog'
    exact (h₂.trans h₃).unexecuted executionId hown.1 hun
  · have hmem := hsame ▸ h₅.commits.mem hcommit
    have hpast : w₆.Past cur.interactionId
        (.execution (newExecution a cur executionId now)) :=
      ⟨_, hmem, rfl, List.mem_singleton.mpr rfl⟩
    refine Safe.bind ((observeExecution_keeps a ⟨_, hmem, rfl⟩ hid hrev hpast).mono ?_
      fun _ _ _ _ => trivial)
    intro _ _ _ _
    exact (status_keeps hr).mono (fun _ _ _ _ => trivial) fun _ _ _ _ => trivial

theorem startExecution_keeps (a : RevisionArgs) (hlog : readings log = []) :
    Keeps (pre sha) i (fun _ _ _ => True) (startExecution sha a) log w := by
  have hr := readsFree_pre sha
  unfold startExecution
  refine keeps_scopeOf ?_
  refine keeps_idempotent hr (fun w₁ log₁ _ _ _ hlog₁ => ?_) fun row w₁ _ _ _ _ _ => ?_
  · refine keeps_require hr fun cur w₂ log₂ _ _ _ hseen hid _ hlog₂ => ?_
    refine keeps_failIf fun hrev => ?_
    refine keeps_failIf fun hstate => ?_
    refine keeps_fact hr fun loaded w₃ h₃ _ _ hload => ?_
    cases loaded with
    | none => exact keeps_fail
    | some preview =>
      refine keeps_now hr fun now w₄ h₄ => ?_
      refine keeps_fact hr fun confirmation w₅ h₅ _ _ hloadc => ?_
      refine keeps_fact hr fun approval w₆ h₆ _ _ hloada => ?_
      refine keeps_missingOrExpired hr fun expired log₇ w₇ h₇ hc => ?_
      refine keeps_failIf fun hlivec => ?_
      refine keeps_missingOrExpired hr fun expired' log₈ w₈ h₈ ha => ?_
      refine keeps_failIf fun hlivea => ?_
      obtain ⟨hpast, hpid⟩ := hload preview rfl
      rw [← hid] at hpast hloadc hloada
      have h₅' := h₆.trans (h₇.trans h₈)
      have h₄' := h₅.trans h₅'
      have h₃' := h₄.trans h₄'
      refine runExecution_keeps a ((h₃.trans h₃').seen hseen) hid.symm (not_not.mp hrev)
        (not_not.mp hstate) (h₃'.past hpast) hpid (h₅'.loaded hloadc)
        ((h₇.trans h₈).loaded hloada) ?_
      have hc' := hc (by simpa using hlivec)
      simp only [readings_append, readings_fact, readings_now, hlog₂, hlog₁, hlog,
        List.nil_append, List.append_nil] at hc'
      exact .of_passed hc' (ha (by simpa using hlivea))
  · exact (status_keeps hr).mono (fun _ _ _ _ => trivial) fun _ _ _ _ => trivial

end Start

/-! ## Verification -/

section Verify

variable {β : Type} {sha : Sha256} {i : ℕ} {log : Log Action Action.Reply} {w : World}
variable {post : β → Log Action Action.Reply → World → Prop} {cur : Interaction}

theorem CommitBacked.rely {w' : World} {preview : Preview} {execution : Execution} {now : Instant}
    {evidence : CanonicalCommitEvidence} (hw : Rely i w w')
    (h : CommitBacked sha w i cur preview execution now evidence) :
    CommitBacked sha w' i cur preview execution now evidence := by
  cases h with
  | notRequired evidenceId hreq hown hev =>
    exact .notRequired evidenceId hreq (hw.own hown) hev
  | committed hreq hmatch hsup => exact .committed hreq hmatch (hw.supplied.mem hsup)

theorem keeps_recoveryIdOf {f : String → Prog β}
    {pr : ℕ → Log Action Action.Reply → Action → World → Prop} (hpr : ReadsFree pr)
    (h : ∀ id log' w', Rely i w w' → w'.RecoveryId i cur id →
      Keeps pr i post (f id) log' w') :
    Keeps pr i post (recoveryIdOf cur >>= f) log w := by
  unfold recoveryIdOf
  split
  · rename_i id hid
    exact h id log w (Rely.refl i w) (.inl (Option.filter_eq_some_iff.mp hid).1)
  · exact keeps_newId .recovery hpr fun id w' hw hown _ =>
      h id _ w' hw (.inr hown)

theorem keeps_currentRecovery {a : RevisionArgs} {f : Option Recovery → Prog β}
    {pr : ℕ → Log Action Action.Reply → Action → World → Prop} (hpr : ReadsFree pr)
    (hid : a.interactionId = cur.interactionId)
    (h : ∀ recovery log' w', Rely i w w' →
      w'.Loaded cur.interactionId .recovery cur.recoveryId recovery →
      Keeps pr i post (f recovery) log' w') :
    Keeps pr i post (currentRecovery a cur >>= f) log w := by
  unfold currentRecovery
  split
  · rename_i id hrid
    exact keeps_fact hpr fun x w' hw _ _ hload =>
      h x _ w' hw (hid ▸ hrid ▸ hload)
  · exact h none log w (Rely.refl i w) fun y hy => nomatch hy

/-- **The canonical commit**: what it returns backs a success. -/
theorem keeps_canonicalCommit {preview : Preview} {execution : Execution} {now : Instant}
    {f : Except String CanonicalCommitEvidence → Prog β}
    {pr : ℕ → Log Action Action.Reply → Action → World → Prop} (hpr : ReadsFree pr)
    (h : ∀ r log' w', Rely i w w' →
      (∀ e, r = .ok e → CommitBacked sha w' i cur preview execution now e) →
      Keeps pr i post (f r) log' w') :
    Keeps pr i post (canonicalCommit sha cur preview execution now >>= f) log w := by
  unfold canonicalCommit
  split
  · rename_i hreq
    refine Safe.bind (keeps_newId .canonicalCommitEvidence hpr
      fun id w' hw hown _ => Safe.ret (h _ _ w' hw fun e he => ?_))
    obtain rfl := Except.ok.inj he
    exact .notRequired id hreq hown rfl
  · rename_i hreq
    refine Safe.bind (keeps_record hpr fun r w' hw hsup => ?_)
    cases r with
    | error e => exact Safe.ret (h _ _ w' hw fun e he => nomatch he)
    | ok evidence =>
      dsimp only
      split
      · rename_i hmatch
        refine Safe.ret (h _ _ w' hw fun e he => ?_)
        obtain rfl := Except.ok.inj he
        exact .committed (by simpa using hreq) hmatch (hsup _ rfl)
      · exact Safe.ret (h _ _ w' hw fun e he => nomatch he)

theorem commitSuccess_keeps (a : RevisionArgs) {v : VerifyRecord} {preview : Preview}
    {execution : Execution} {reply : VerifierReply} {o : VerificationObservation}
    {resultId : String} {evidence : CanonicalCommitEvidence} {now : Instant}
    (hseen : w.Seen cur) (hid : a.interactionId = cur.interactionId)
    (hstate : cur.lifecycleState ∈ [.verifying, .recoveryRequired])
    (hkey : ∀ w', Rely i w w' → Inv w' → w'.db.records cur.interactionId = some cur →
      VerifyKey sha w' cur v)
    (hpast : w.Past cur.interactionId (.execution execution))
    (hexecution : cur.currentExecutionId = some execution.executionId)
    (hpreview : w.Past cur.interactionId (.preview preview))
    (hcurrent : cur.currentPreviewId = some preview.previewId)
    (hevidence : o.evidenceDigest ≠ "") (hown : w.Own i .verifiedResult resultId)
    (hbacked : CommitBacked sha w i cur preview execution now evidence) :
    Keeps (pre sha) i (fun _ _ _ => True)
      (commitSuccess a v cur execution reply (newVerifiedResult a cur execution o resultId now)
        evidence now) log w := by
  unfold commitSuccess
  refine keeps_currentRecovery (readsFree_pre sha) hid fun recovery _ w₁ h₁ hload => ?_
  refine keeps_audit (readsFree_pre sha) fun line w₂ _ _ h₂ _ => ?_
  have h₁₂ := h₁.trans h₂
  refine transition_keeps (h₁₂.seen hseen) rfl rfl (fun w' hw hinv hcur => ?_)
    fun _ _ _ _ _ _ _ _ _ => trivial
  have h' := h₁₂.trans hw
  exact .succeed a v preview execution o resultId evidence recovery now _ hid hstate
    (hkey w' h' hinv hcur) (h'.past hpast) hexecution (h'.past hpreview) hcurrent hevidence
    (h'.own hown) (hbacked.rely h') ((h₂.trans hw).loaded hload)

theorem commitFailed_keeps (a : RevisionArgs) {v : VerifyRecord} {execution : Execution}
    {reply : VerifierReply} {result : Option VerifiedResult} {failure : Option FailureInfo}
    {now : Instant} (hseen : w.Seen cur) (hid : a.interactionId = cur.interactionId)
    (hstate : cur.lifecycleState ∈ [.verifying, .recoveryRequired])
    (hkey : ∀ w', Rely i w w' → Inv w' → w'.db.records cur.interactionId = some cur →
      VerifyKey sha w' cur v)
    (hown : ∀ r, result = some r → w.Own i .verifiedResult r.verifiedResultId) :
    Keeps (pre sha) i (fun _ _ _ => True)
      (commitFailed a v cur execution reply result failure now) log w := by
  unfold commitFailed
  refine keeps_recoveryIdOf (readsFree_pre sha) fun recoveryId _ w₁ h₁ hrecovery => ?_
  refine keeps_audit (readsFree_pre sha) fun line w₂ _ _ h₂ _ => ?_
  have h₁₂ := h₁.trans h₂
  refine transition_keeps (h₁₂.seen hseen) rfl rfl (fun w' hw hinv hcur => ?_)
    fun _ _ _ _ _ _ _ _ _ => trivial
  have h' := h₁₂.trans hw
  exact .unverified a v reply result failure recoveryId now _ hid hstate (hkey w' h' hinv hcur)
    (fun r hr => h'.own (hown r hr)) (hrecovery.imp id (h₂.trans hw).own)

theorem settleVerification_keeps (a : RevisionArgs) {v : VerifyRecord} {preview : Preview}
    {execution : Execution} {reply : VerifierReply} {now : Instant}
    (hseen : w.Seen cur) (hid : a.interactionId = cur.interactionId)
    (hstate : cur.lifecycleState ∈ [.verifying, .recoveryRequired])
    (hkey : ∀ w', Rely i w w' → Inv w' → w'.db.records cur.interactionId = some cur →
      VerifyKey sha w' cur v)
    (hpast : w.Past cur.interactionId (.execution execution))
    (hexecution : cur.currentExecutionId = some execution.executionId)
    (hpreview : w.Past cur.interactionId (.preview preview))
    (hcurrent : cur.currentPreviewId = some preview.previewId) :
    Keeps (pre sha) i (fun _ _ _ => True)
      (settleVerification sha a v cur preview execution reply now) log w := by
  unfold settleVerification
  split
  · exact commitFailed_keeps a hseen hid hstate hkey fun r hr => nomatch hr
  · rename_i o _
    split
    · rename_i hverified
      refine keeps_newId .verifiedResult (readsFree_pre sha) fun resultId w₁ h₁ hown _ => ?_
      refine keeps_canonicalCommit (readsFree_pre sha) fun evidence _ w₂ h₂ hbacked => ?_
      have h₁₂ := h₁.trans h₂
      have hkey' := fun w' (hw : Rely i w₂ w') => hkey w' (h₁₂.trans hw)
      cases evidence with
      | ok evidence =>
        exact commitSuccess_keeps a (h₁₂.seen hseen) hid hstate hkey' (h₁₂.past hpast)
          hexecution (h₁₂.past hpreview) hcurrent hverified.2 (h₂.own hown) (hbacked _ rfl)
      | error e =>
        refine commitFailed_keeps a (h₁₂.seen hseen) hid hstate hkey' fun r hr => ?_
        obtain rfl := Option.some.inj hr
        exact h₂.own hown
    · exact commitFailed_keeps a hseen hid hstate hkey fun r hr => nomatch hr

/-- What binds the key of a verification when it starts: the revision it names, or the record
`recover` has read already. -/
inductive VerifyStart (sha : Sha256) (w : World) (a : RevisionArgs) (v : VerifyRecord) : Prop
  | verify (hop : v.operation = .verify) (hdigest : v.digest = sha.hexdigest (revisionPayload a))
  | recover (b : RevisionArgs) (r : Interaction) (hop : v.operation = .recover)
      (hdigest : v.digest = sha.hexdigest (revisionPayload b))
      (hb : b.interactionId = a.interactionId) (hseen : w.Seen r)
      (hid : r.interactionId = a.interactionId) (hrev : r.revision = a.expectedRevision)

theorem verifyAs_keeps (a : RevisionArgs) {v : VerifyRecord} (hv : VerifyStart sha w a v) :
    Keeps (pre sha) i (fun _ _ _ => True) (verifyAs sha a v) log w := by
  have hr := readsFree_pre sha
  unfold verifyAs
  refine keeps_scopeOf ?_
  refine keeps_idempotent hr (fun w₁ _ h₁ hinv₁ hkey₁ _ => ?_) fun row w₁ _ _ _ _ _ => ?_
  · refine keeps_require hr fun cur w₂ _ h₂ _ _ hseen hid hscope _ => ?_
    refine keeps_failIf fun hrev => ?_
    refine keeps_failIf fun hstate => ?_
    refine keeps_fact hr fun loaded w₃ h₃ _ _ hload => ?_
    cases loaded with
    | none => exact keeps_fail
    | some execution =>
      refine keeps_verify hr fun answer w₄ h₄ => ?_
      refine keeps_fact hr fun loaded w₅ h₅ _ _ hload' => ?_
      cases loaded with
      | none => exact keeps_fail
      | some preview =>
        refine keeps_now hr fun now w₆ h₆ => ?_
        obtain ⟨hpast, hexecution⟩ := hload execution rfl
        obtain ⟨hpreview, hcurrent⟩ := hload' preview rfl
        rw [← hid] at hpast hpreview
        have h₄' := h₄.trans (h₅.trans h₆)
        have h₂' := h₂.trans (h₃.trans h₄')
        have hkey : ∀ w', Rely i w₆ w' → Inv w' → w'.db.records cur.interactionId = some cur →
            VerifyKey sha w' cur v := by
          intro w' hw hinv hcur
          cases hv with
          | verify hop hdigest =>
            exact .verify a hop hdigest hid.symm (not_not.mp hrev).symm
          | recover b r hop hdigest hb hseen' hrid hrrev =>
            refine .recover b hop hdigest (hb.trans hid.symm) fun c hc hcop hck hcid => ?_
            obtain ⟨r', hr', hsame, -⟩ := hinv.current c hc
            obtain rfl : r' = cur := by simpa [hcid, hcur] using hr'.symm
            have hrid' : r.interactionId = r'.interactionId := hrid.trans hid.symm
            have hkeyc : c.key = ⟨scopeIn a.workspace, v.operation, v.idempotencyKey⟩ := by
              simp only [Commit.key, hsame.scope, hscope, hcop, hck, hop]
            exact hinv₁.still_unrecorded hinv (h₂'.trans hw).commits hkey₁ (h₁.seen hseen')
              (hrid' ▸ hcur) ((not_not.mp hrev).trans hrrev.symm) hc hkeyc
              (hcid.trans hrid'.symm)
        refine Safe.bind ((settleVerification_keeps a ((h₃.trans h₄').seen hseen) hid.symm
          (not_not.mp hstate) hkey (h₄'.past hpast) hexecution (h₆.past hpreview)
          hcurrent).mono (fun _ _ _ _ => ?_) fun _ _ _ _ => trivial)
        exact (status_keeps hr).mono (fun _ _ _ _ => trivial) fun _ _ _ _ => trivial
  · exact (status_keeps hr).mono (fun _ _ _ _ => trivial) fun _ _ _ _ => trivial

theorem verify_keeps (a : RevisionArgs) :
    Keeps (pre sha) i (fun _ _ _ => True) (verify sha a) log w :=
  verifyAs_keeps a (.verify rfl rfl)

end Verify

/-! ## Recovery -/

section Recover

variable {β : Type} {sha : Sha256} {i : ℕ} {log : Log Action Action.Reply} {w : World}
variable {post : β → Log Action Action.Reply → World → Prop}

theorem keeps_recoverableRecord {a : RevisionArgs} {scope : Scope} {digest : String}
    {cur : Interaction} {f : Interaction → Prog β}
    {pr : ℕ → Log Action Action.Reply → Action → World → Prop} (hpr : ReadsFree pr)
    (hseen : w.Seen cur)
    (hid : cur.interactionId = a.interactionId) (hscope : cur.scope = scope)
    (h : ∀ r log' w', Rely i w w' → w'.Seen r → r.interactionId = a.interactionId →
      r.scope = scope → Keeps pr i post (f r) log' w') :
    Keeps pr i post (recoverableRecord a scope digest cur >>= f) log w := by
  unfold recoverableRecord
  split
  · refine Safe.bind (keeps_idempotent hpr (fun w₁ _ _ _ _ _ => keeps_fail)
      fun row w₁ _ h₁ _ _ _ => ?_)
    refine keeps_failIf fun _ => ?_
    rw [← Program.bind_ret (require _ _ _)]
    exact keeps_require hpr fun r w₂ _ h₂ _ _ hseen' hid' hscope' _ =>
      Safe.ret (h r _ w₂ (h₁.trans h₂) hseen' hid' hscope')
  · exact h cur log w (Rely.refl i w) hseen hid hscope

theorem keeps_closeGap {a : RevisionArgs} {cur : Interaction} {f : Interaction → Prog β}
    (hseen : w.Seen cur) (hid : cur.interactionId = a.interactionId)
    (h : ∀ r log' w', w'.Seen r → r.interactionId = a.interactionId →
      Keeps (pre sha) i post (f r) log' w') :
    Keeps (pre sha) i post (closeGap a (sha.hexdigest (revisionPayload a)) cur >>= f) log w := by
  have hr := readsFree_pre sha
  unfold closeGap
  split
  · rename_i hstate
    unfold reconcileExecutionGap
    refine Safe.bind (keeps_fact hr fun loaded w₁ h₁ _ _ hload => ?_)
    cases loaded with
    | none => exact keeps_fail
    | some execution =>
      refine keeps_failIf fun _ => ?_
      refine keeps_now hr fun now w₂ h₂ => ?_
      refine keeps_recoveryIdOf hr fun recoveryId _ w₃ h₃ hrecovery => ?_
      refine keeps_audit hr fun line w₄ _ _ h₄ _ => ?_
      obtain ⟨hpast, hcurrent⟩ := hload execution rfl
      have h₂₄ := h₂.trans (h₃.trans h₄)
      refine keeps_transition ((h₁.trans h₂₄).seen hseen) rfl rfl (fun w' hw _ _ => ?_)
        fun _ w₅ _ _ _ _ _ hcommit _ => Safe.ret (h _ _ w₅ ⟨_, hcommit, rfl⟩ hid)
      exact .reconcile a a.actorId (gapKey a.idempotencyKey) execution recoveryId now _ hid.symm
        hstate.1 ((h₂₄.trans hw).past hpast) hcurrent (hrecovery.imp id (h₄.trans hw).own)
  · exact h cur log w hseen hid

theorem recover_keeps (a : RevisionArgs) :
    Keeps (pre sha) i (fun _ _ _ => True) (recover sha a) log w := by
  have hr := readsFree_pre sha
  unfold recover
  refine keeps_scopeOf ?_
  refine keeps_idempotent hr (fun w₁ _ _ _ _ _ => ?_) fun row w₁ _ _ _ _ _ => ?_
  · refine keeps_require hr fun found w₂ _ _ _ _ hseen hid hscope _ => ?_
    refine keeps_recoverableRecord hr hseen hid hscope fun r _ w₃ _ hseen₃ hid₃ _ => ?_
    refine keeps_closeGap hseen₃ hid₃ fun r' _ w₄ hseen₄ hid₄ => ?_
    exact verifyAs_keeps _ (.recover a r' rfl rfl rfl hseen₄ hid₄ rfl)
  · exact (status_keeps hr).mono (fun _ _ _ _ => trivial) fun _ _ _ _ => trivial

end Recover

end Interactions

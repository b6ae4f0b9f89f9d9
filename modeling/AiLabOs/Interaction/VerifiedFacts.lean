import AiLabOs.Interaction.AuditChain
import AiLabOs.Interaction.Idempotency
import AiLabOs.Interaction.Evidence
import AiLabOs.Process.Conditioned
import AiLabOs.Process.Frames

/-!
# Trusted interactions: the fact behind a verification

A verification that does not succeed copies the verifier's status into the record. So a verifier
that answers VERIFIED without a digest leaves a record that is VERIFIED and names no result. Where
no verifier answers so, a VERIFIED record names a result of its execution.

## Main definitions

* `VerifiedResult.Of`: a result of an interaction and its execution, with evidence
* `Database.Backs`: a record names such a result, and it is stored
* `digested`: the verifier does not answer VERIFIED without a digest

## Main results

* `operationsKeep_namesPre`: what a verification commits names its result, given such answers
* `Legal.backs`: so does the record that is stored
* `verified_backed`
-/

namespace Interactions

open Process

/-- **A result of an interaction and its execution**, with evidence. -/
structure VerifiedResult.Of (v : VerifiedResult) (r : Interaction) : Prop where
  interaction : v.interactionId = r.interactionId
  execution : r.currentExecutionId = some v.executionId
  digest : v.evidenceDigest ≠ ""

/-- **The result a record names** is stored, and one of its execution. -/
def Database.Backs (db : Database) (r : Interaction) : Prop :=
  ∃ v, db.fact r.interactionId .verifiedResult r.verifiedResultId = some v ∧ v.Of r

/-- A transition writes the result its record names. -/
def Transition.Names (t : Transition) : Prop :=
  ∃ v : VerifiedResult, .verifiedResult v ∈ t.facts ∧
    t.interaction.verifiedResultId = some v.verifiedResultId ∧ v.Of t.interaction

/-- The verifier's answer is not VERIFIED without a digest. -/
def VerificationObservation.digested (o : VerificationObservation) : Bool :=
  o.status ≠ .verified || o.evidenceDigest ≠ ""

theorem VerificationObservation.digested_iff {o : VerificationObservation} :
    o.digested = true ↔ (o.status = .verified → o.evidenceDigest ≠ "") := by
  simp [digested, imp_iff_not_or]

/-- **The condition**: a verifier does not answer VERIFIED without a digest. -/
def digested : ℕ → Action → Input → World → Bool
  | _, .verify _, .verification (.ok o), _ => o.digested
  | _, _, _, _ => true

/-- No verifier answered a call so. -/
def AllDigested (log : Log Action Action.Reply) : Prop :=
  ∀ request o, ⟨.verify request, .ok o⟩ ∈ log → VerificationObservation.digested o = true

/-- A commit of a verification that leaves its record VERIFIED names the result. -/
def Action.NamesResult : Action → Prop
  | .transition t => t.operation = .verify ∨ t.operation = .recover →
      t.interaction.lifecycleState = .recoveryRequired →
      t.interaction.verificationStatus = .verified → t.Names
  | _ => True

/-- What a call commits while the verifier's answers are such. -/
def namesPre (_ : ℕ) (log : Log Action Action.Reply) (e : Action) (_ : World) : Prop :=
  AllDigested log → e.NamesResult

/-! ## Calls -/

section Calls

variable {α β : Type} {d : Deployment} {sha : Sha256} {i : ℕ} {w : World}
variable {log : Log Action Action.Reply} {cur : Interaction}

theorem readsFree_namesPre : ReadsFree namesPre := by
  intro i log e w he _
  cases e <;> first | exact trivial | cases he

/-- Calls that write under a key of another operation verify nothing. -/
theorem namesResult_of_under {key : IdempotencyKey} {digest : String} {p : Prog α}
    (hverify : key.operation ≠ .verify) (hrecover : key.operation ≠ .recover)
    (h : KeepsUnder key digest True i p log w) :
    Keeps namesPre i (fun _ _ _ => True) p log w := by
  refine (h.mono (fun _ _ _ _ => trivial) fun _ _ _ _ => trivial).weaken fun log e w hunder _ => ?_
  cases e with
  | transition t =>
    intro hop
    rcases hunder with ⟨rfl, -⟩ | ⟨-, hgap⟩
    · rcases hop with hop | hop
      · exact absurd hop hverify
      · exact absurd hop hrecover
    · have hrec : t.operation = .reconcileExecution := congrArg IdempotencyKey.operation hgap
      rw [hrec] at hop
      rcases hop with hop | hop <;> cases hop
  | _ => trivial

/-- A transition that names the result, or leaves the record in another status. -/
theorem namesResult_transition {t : Transition}
    (h : t.interaction.lifecycleState = .recoveryRequired →
      t.interaction.verificationStatus = .verified → t.Names) :
    Keeps namesPre i (fun _ _ _ => True) (transition t) log w := by
  unfold transition
  refine Safe.perform fun w' _ _ => ⟨fun _ _ => h, fun _ r _ _ => ?_⟩
  rcases r with (_ | _) | _
  · exact keeps_fail
  · exact keeps_raise
  · exact Safe.ret trivial

theorem commitFailed_namesResult (a : RevisionArgs) {v : VerifyRecord} {execution : Execution}
    {reply : VerifierReply} {result : Option VerifiedResult} {failure : Option FailureInfo}
    {now : Instant} (h : ∀ o, reply.observation = some o → o.status = .verified →
      ∃ r, result = some r ∧ r.Of cur) :
    Keeps namesPre i (fun _ _ _ => True)
      (commitFailed a v cur execution reply result failure now) log w := by
  have hr := readsFree_namesPre
  unfold commitFailed
  refine keeps_recoveryIdOf hr fun recoveryId _ _ _ _ => ?_
  refine keeps_line hr fun _ _ _ _ _ _ => ?_
  refine namesResult_transition fun _ hverified => ?_
  simp only [Interaction.unverified] at hverified
  split at hverified
  · rename_i o ho
    obtain ⟨r, rfl, hof⟩ := h o ho hverified
    exact ⟨r, by simp [unverifiedFacts], rfl, ⟨hof.interaction, hof.execution, hof.digest⟩⟩
  · cases hverified

theorem commitSuccess_namesResult (a : RevisionArgs) {v : VerifyRecord} {execution : Execution}
    {reply : VerifierReply} {result : VerifiedResult} {evidence : CanonicalCommitEvidence}
    {now : Instant} (hid : a.interactionId = cur.interactionId) :
    Keeps namesPre i (fun _ _ _ => True)
      (commitSuccess a v cur execution reply result evidence now) log w := by
  have hr := readsFree_namesPre
  unfold commitSuccess
  refine keeps_currentRecovery hr hid fun recovery _ _ _ _ => ?_
  refine keeps_line hr fun _ _ _ _ _ _ => ?_
  exact namesResult_transition fun hstate => nomatch hstate

/-- **What follows the verifier's answer**, if that is not VERIFIED without a digest. -/
theorem settleVerification_namesResult (a : RevisionArgs) {v : VerifyRecord} {preview : Preview}
    {execution : Execution} {answer : Except String VerificationObservation} {now : Instant}
    (hid : a.interactionId = cur.interactionId)
    (hexecution : cur.currentExecutionId = some execution.executionId)
    (hanswer : ∀ o, answer = .ok o → VerificationObservation.digested o = true) :
    Keeps namesPre i (fun _ _ _ => True)
      (settleVerification sha a v cur preview execution (verifierReply cur answer) now) log w := by
  have hr := readsFree_namesPre
  unfold settleVerification
  cases answer with
  | error e => exact commitFailed_namesResult a fun o ho => nomatch ho
  | ok o =>
    have hdigested := VerificationObservation.digested_iff.mp (hanswer o rfl)
    dsimp only [verifierReply]
    split
    · rename_i hverified
      refine keeps_newId_any hr fun resultId _ _ => ?_
      refine keeps_canonicalCommit hr fun evidence _ _ _ _ => ?_
      cases evidence with
      | ok evidence => exact commitSuccess_namesResult a hid
      | error e =>
        refine commitFailed_namesResult a fun o' ho' _ => ?_
        exact ⟨_, rfl, hid, hexecution, hverified.2⟩
    · rename_i hnot
      refine commitFailed_namesResult a fun o' ho' hverified => ?_
      obtain rfl := Option.some.inj ho'
      exact absurd ⟨hverified, hdigested hverified⟩ hnot

/-- **After the verifier's answer** the answer has a digest, or the log says otherwise. -/
theorem keeps_answer {request : VerificationRequest}
    {f : Except String VerificationObservation → Prog β}
    (h : ∀ answer log' w', (∀ o, answer = .ok o → VerificationObservation.digested o = true) →
      Keeps namesPre i (fun _ _ _ => True) (f answer) log' w') :
    Keeps namesPre i (fun _ _ _ => True) (act (.verify request) >>= f) log w := by
  refine Safe.perform fun w' _ _ =>
    ⟨readsFree_namesPre i log _ w' rfl, fun _ answer w'' _ => ?_⟩
  by_cases hlog : AllDigested (log ++ [⟨.verify request, answer⟩])
  · refine h answer _ w'' fun o ho => hlog request o ?_
    rw [ho]
    exact List.mem_append_right _ (List.mem_singleton_self _)
  · refine Safe.of_log (Q := fun log => ¬AllDigested log) hlog ?_ fun _ _ _ hn hc => absurd hc hn
    exact fun log entry hn hc => hn fun request o hmem => hc request o (List.mem_append_left _ hmem)

theorem verifyAs_namesResult (a : RevisionArgs) (v : VerifyRecord) :
    Keeps namesPre i (fun _ _ _ => True) (verifyAs sha a v) log w := by
  have hr := readsFree_namesPre
  have hstatus : ∀ {log w}, Keeps namesPre i (fun _ _ _ => True)
      (status a.workspace a.actorId a.interactionId) log w :=
    (status_keeps hr).mono (fun _ _ _ _ => trivial) fun _ _ _ _ => trivial
  unfold verifyAs
  refine keeps_scopeOf ?_
  refine keeps_idempotent hr (fun _ _ _ _ _ _ => ?_) fun _ _ _ _ _ _ _ => hstatus
  refine keeps_require hr fun cur _ _ _ _ _ _ hid _ _ => ?_
  refine keeps_failIf fun _ => ?_
  refine keeps_failIf fun _ => ?_
  refine keeps_fact hr fun loaded _ _ _ _ hload => ?_
  cases loaded with
  | none => exact keeps_fail
  | some execution =>
    obtain ⟨-, hexecution⟩ := hload execution rfl
    refine keeps_answer fun answer _ _ hanswer => ?_
    refine keeps_fact hr fun loaded _ _ _ _ _ => ?_
    cases loaded with
    | none => exact keeps_fail
    | some preview =>
      refine keeps_now hr fun now _ _ => ?_
      refine keeps_seq ?_ fun _ _ _ => hstatus
      exact settleVerification_namesResult a hid.symm hexecution hanswer

theorem namesResult_closeGap {a : RevisionArgs} {digest : String} {f : Interaction → Prog β}
    (h : ∀ r log' w', Keeps namesPre i (fun _ _ _ => True) (f r) log' w') :
    Keeps namesPre i (fun _ _ _ => True) (closeGap a digest cur >>= f) log w := by
  have hr := readsFree_namesPre
  unfold closeGap
  split
  · unfold reconcileExecutionGap
    refine Safe.bind (keeps_fact hr fun loaded _ _ _ _ _ => ?_)
    cases loaded with
    | none => exact keeps_fail
    | some execution =>
      refine keeps_failIf fun _ => ?_
      refine keeps_now hr fun now _ _ => ?_
      refine keeps_recoveryIdOf hr fun recoveryId _ _ _ _ => ?_
      refine keeps_line hr fun _ _ _ _ _ _ => ?_
      refine Safe.bind
        ((namesResult_transition fun _ hverified => VerificationStatus.noConfusion hverified).mono
        (fun _ _ _ _ => ?_) fun _ _ _ _ => trivial)
      exact Safe.ret (h _ _ _)
  · exact h cur log w

theorem recover_namesResult (a : RevisionArgs) :
    Keeps namesPre i (fun _ _ _ => True) (recover sha a) log w := by
  have hr := readsFree_namesPre
  unfold recover
  refine keeps_scopeOf ?_
  refine keeps_idempotent hr (fun _ _ _ _ _ _ => ?_) fun _ _ _ _ _ _ _ => ?_
  · refine keeps_require hr fun found _ _ _ _ _ hseen hid hscope _ => ?_
    refine keeps_recoverableRecord hr hseen hid hscope fun r _ _ _ _ _ _ => ?_
    exact namesResult_closeGap fun r' _ _ => verifyAs_namesResult _ _
  · exact (status_keeps hr).mono (fun _ _ _ _ => trivial) fun _ _ _ _ => trivial

theorem operationsKeep_namesPre (sha : Sha256) (i : ℕ) : OperationsKeep sha namesPre i where
  reads := readsFree_namesPre
  evidence _ _ _ _ _ _ _ _ := trivial
  challenge _ _ _ _ := trivial
  create a _ _ := namesResult_of_under (by simp) (by simp) (createInteraction_under a)
  preview a _ _ := namesResult_of_under (by simp) (by simp) (preview_under a)
  confirm a _ _ _ := namesResult_of_under (by simp) (by simp) (confirm_under a)
  approve a _ _ := namesResult_of_under (by simp) (by simp) (approve_under a)
  cancel a _ _ := namesResult_of_under (by simp) (by simp) (cancel_under a)
  expirePreview a _ _ :=
    namesResult_of_under (by simp) (by simp) (expirePreview_under a)
  startExecution a _ _ _ :=
    namesResult_of_under (by simp) (by simp) (startExecution_under a)
  verify a _ _ := verifyAs_namesResult a _
  recover a _ _ := recover_namesResult a

end Calls

/-! ## Commits -/

/-- **Every VERIFIED record** waits for its recovery or is a success, and its result is stored. -/
def VerifiedBacked (w : World) : Prop :=
  ∀ X r, w.db.records X = some r → r.verificationStatus = .verified →
    r.lifecycleState ∈ [.succeeded, .recoveryRequired] ∧ w.db.Backs r

/-- The result of a record rests on the facts of its interaction only. -/
theorem Database.Backs.frame {db db' : Database} {r : Interaction} (h : db.Backs r)
    (hfact : ∀ ty fid, db'.fact r.interactionId ty fid = db.fact r.interactionId ty fid) :
    db'.Backs r := by
  obtain ⟨v, hv, hof⟩ := h
  exact ⟨v, (hfact _ _).trans hv, hof⟩

section Commit

variable {sha : Sha256} {w : World} {i : ℕ} {cur : Interaction} {t : Transition} {db : Database}

/-- A verification that does not succeed writes one fact of a kind. -/
theorem unverifiedFacts_unique {result : Option VerifiedResult} {recovery : Recovery} {f g : Fact}
    (hf : f ∈ unverifiedFacts result recovery) (hg : g ∈ unverifiedFacts result recovery)
    (ht : f.type = g.type) : f = g := by
  cases result with
  | none =>
    simp only [unverifiedFacts, Option.toList_none, List.map_nil, List.nil_append,
      List.mem_singleton] at hf hg
    rw [hf, hg]
  | some r =>
    simp only [unverifiedFacts, Option.toList_some, List.map_cons, List.map_nil, List.cons_append,
      List.nil_append, List.mem_cons, List.not_mem_nil, or_false] at hf hg
    rcases hf with rfl | rfl <;> rcases hg with rfl | rfl <;> first | rfl | cases ht

/-- **What a commit leaves** of an interaction that was as it should be: a VERIFIED record whose
result it has written. -/
theorem Legal.backs (hl : Legal sha w i cur t) (hinv : Inv w) (hauth : Authorisation w)
    (hfresh : w.PortIdsFresh) (hbacked : VerifiedBacked w)
    (hcur : w.db.records cur.interactionId = some cur) (hc : w.db.Committed t db)
    (hnames : (Action.transition t).NamesResult)
    (hv : t.interaction.verificationStatus = .verified) :
    t.interaction.lifecycleState ∈ [.succeeded, .recoveryRequired] ∧ db.Backs t.interaction := by
  have hw := hl.wellFormed hinv hcur
  have hsuccess : t.interaction.lifecycleState = .succeeded →
      t.interaction.lifecycleState ∈ [.succeeded, .recoveryRequired] ∧
        db.Backs t.interaction := by
    intro hs
    obtain ⟨p, v, e, hev⟩ := hl.successEvidence hinv hauth hfresh hcur hc hs
    exact ⟨by simp [hs], v, hev.result, hev.interactions.1, hev.executions.1, hev.digests.1⟩
  -- a record in another state was not VERIFIED before
  have hbefore : cur.lifecycleState ∉ [.succeeded, .recoveryRequired] →
      cur.verificationStatus ≠ .verified :=
    fun hstate hverified => hstate (hbacked _ _ hcur hverified).1
  cases hl with
  | succeed => exact hsuccess rfl
  | unverified a v reply result failure recoveryId now audits hid hstate hkey hown hrecovery =>
    refine ⟨by simp [Interaction.unverified], ?_⟩
    have hop : v.operation = .verify ∨ v.operation = .recover := by
      cases hkey with
      | verify a hop => exact .inl hop
      | recover a hop => exact .inr hop
    obtain ⟨r, hmem, hnamed, hof⟩ := hnames hop rfl hv
    refine ⟨r, ?_, hof⟩
    rw [hnamed]
    refine hc.fact .verifiedResult hmem fun f hf hfid => ?_
    exact unverifiedFacts_unique hf hmem
      ((hw.may _ hf).type_eq hinv hfresh (hw.may _ hmem) hfid)
  | preview a old previewId now audits hid hactor hrev hstate =>
    refine absurd hv (hbefore ?_)
    simp only [List.mem_cons, List.not_mem_nil, or_false] at hstate
    rcases hstate with h | h | h <;> simp [h]
  | confirm a preview confirmationId now audits hid hrev hstate =>
    exact absurd hv (hbefore (by simp [hstate]))
  | approve a preview confirmation authority approvalId now audits hid hrev hstate =>
    exact absurd hv (hbefore (by simp [hstate]))
  | cancel a preview now audits hid hrev hterminal hstate =>
    refine absurd hv (hbefore fun h => ?_)
    simp only [List.mem_cons, List.not_mem_nil, or_false] at h
    rcases h with h | h
    · rw [h] at hterminal
      cases hterminal
    · exact hstate (by simp [h])
  | expire a preview now audits hid hrev hstate =>
    refine absurd hv (hbefore ?_)
    simp only [List.mem_cons, List.not_mem_nil, or_false] at hstate
    rcases hstate with h | h <;> simp [h]
  | start => cases hv
  | observe a execution o recovery finished audits hid hrev hstate =>
    simp only [Interaction.observed] at hv
    split at hv
    · cases hv
    · split at hv <;> cases hv
  | reconcile => cases hv

end Commit

/-- An effect that commits nothing leaves the aggregate alone. -/
theorem Effect.same {sha : Sha256} {i : ℕ} {log : Log Action Action.Reply} {w w' : World}
    (h : Effect sha i log w w') (hcommits : w'.commits = w.commits) : w.SameAggregate w' := by
  rcases h.aggregate with ⟨_, _, _, _, _, _, rfl⟩ | ⟨_, _, _, _, _, _, _, _, rfl⟩ | hsame
  · exact absurd hcommits (List.cons_ne_self _ _)
  · exact absurd hcommits (List.cons_ne_self _ _)
  · exact hsame

/-- Identifiers that are fresh after an effect were fresh before it. -/
theorem Effect.portIdsFresh {sha : Sha256} {i : ℕ} {log : Log Action Action.Reply} {w w' : World}
    (h : Effect sha i log w w') (hfresh : w'.PortIdsFresh) : w.PortIdsFresh := by
  rcases h.aggregate with ⟨_, _, _, _, _, _, rfl⟩ | ⟨_, _, _, _, _, _, _, _, rfl⟩ | hsame
  · exact World.commit_portIdsFresh.mp hfresh
  · exact World.commit_portIdsFresh.mp hfresh
  · exact hsame.portIdsFresh hfresh

/-- A creation leaves every other interaction as it is. -/
theorem VerifiedBacked.create {w w' : World} (h : VerifiedBacked w) {i : ℕ} {r : Interaction}
    {audit : AuditEvidence} {key digest : String} {input : Input}
    {reply : (Action.create r audit key digest).Reply}
    (hrequested : r.verificationStatus ≠ .verified)
    (hr : handler i (.create r audit key digest) input w = some (reply, w')) :
    VerifiedBacked w' := by
  cases input <;> simp only [handler, reduceCtorEq] at hr
  split at hr
  · obtain ⟨rfl, rfl⟩ : _ ∧ _ := by simpa using hr
    exact h
  · rename_i res db hok
    rcases Database.create_ok hok with ⟨row, hrow, -⟩ | ⟨hkey, hnew, -, rfl⟩
    · rw [if_pos (by simp [hrow])] at hr
      obtain ⟨rfl, rfl⟩ : _ ∧ _ := by simpa using hr
      exact h
    · rw [if_neg (by simp [hkey])] at hr
      obtain ⟨rfl, rfl⟩ : _ ∧ _ := by simpa using hr
      intro X rec hrec hv
      by_cases hX : X = r.interactionId
      · obtain rfl : r = rec := by simpa [Database.created, hX] using hrec
        exact absurd hv hrequested
      · have hold : w.db.records X = some rec := by
          rw [← hrec]
          exact (Function.update_of_ne hX _ _).symm
        obtain ⟨hstate, hbacks⟩ := h X rec hold hv
        exact ⟨hstate, hbacks.frame fun _ _ => rfl⟩

/-! ## Runs -/

section Runs

variable {d : Deployment} {c : Calls}

/-- The configurations of the runs in which the verifier's answers are such. -/
def DigestedReachable (d : Deployment) (c : Calls) : Prop :=
  ReachesIf handler (start d) (meets digested) (idle World.initial) c

/-- **Every answer of the verifier** is such. -/
theorem DigestedReachable.allDigested (h : DigestedReachable d c) {i : ℕ}
    {call : Call Request Action Action.Reply Raised Result} (hi : c.calls[i]? = some call) :
    AllDigested call.log := by
  refine ReachesIf.induction (motive := fun c => ∀ (i : ℕ) call, c.calls[i]? = some call →
    AllDigested call.log) h (fun i call hi => by simp [idle] at hi)
    (fun c ev c' _ hold hok he => ?_) i call hi
  intro j call hj
  rcases call_cases he hj with hj' | ⟨k, -, rfl⟩ |
    ⟨input, k, log, e, next, r, rfl, hj', hact, rfl⟩
  · exact hold j call hj'
  · intro _ _ hmem
    cases hmem
  · intro request o hmem
    rcases List.mem_append.mp hmem with hmem | hmem
    · exact hold j _ hj' request o hmem
    · cases List.mem_singleton.mp hmem
      simp only [meets, awaited_eq hj', Option.all_some] at hok
      cases input <;> simp only [handler, reduceCtorEq, Option.some.injEq, Prod.mk.injEq] at hact
      obtain ⟨rfl, -⟩ := hact
      simpa [digested] using hok

/-- A write that is about to happen names its result. -/
theorem DigestedReachable.names (h : DigestedReachable d c) {i : ℕ} {k : Request}
    {log : Log Action Action.Reply} {e : Action} {next : e.Reply → Prog Result}
    (hi : c.calls[i]? = some ⟨k, log, .await e next⟩) : e.NamesResult := by
  have hr : Reachable d c := h.reaches
  have hsafe := Reaches.every (fun _ => True) (sound d.sha) (startsSafe d) inv_initial
    (fun i k w _ _ => start_keeps (operationsKeep_namesPre d.sha i) k w)
    (fun _ _ _ _ _ _ _ _ => trivial) (fun _ _ _ _ _ _ _ _ => trivial) h.reaches trivial hi
  exact (hsafe.act hr.inv).1 (h.allDigested hi)

/-- **Every VERIFIED record is backed** in such a run, under fresh port identifiers. -/
theorem DigestedReachable.backed (h : DigestedReachable d c) (hfresh : c.world.PortIdsFresh) :
    VerifiedBacked c.world := by
  refine ReachesIf.induction (motive := fun c => c.world.PortIdsFresh → VerifiedBacked c.world) h
    (fun _ X r hr => by simp [idle, World.initial, Database.empty] at hr)
    (fun c ev c' hc hold _ he hfresh => ?_) hfresh
  have hr : Reachable d c := hc.reaches
  rcases step_cases he with ⟨k, -, rfl⟩ | ⟨i, input, k, log, e, next, r, w, -, hi, hact, rfl⟩
  · exact hold hfresh
  · have hnames := DigestedReachable.names hc hi
    have hpre : pre d.sha i log e c.world := hr.allSafe.meets_pre hi
    have hbefore := (pre.effect hpre hact).portIdsFresh hfresh
    intro X rec hrec hv
    by_cases htransition : ∃ t, e = .transition t
    · obtain ⟨t, rfl⟩ := htransition
      cases input <;> simp only [handler, reduceCtorEq] at hact
      split at hact
      · obtain ⟨-, rfl⟩ : _ ∧ _ := by simpa using hact
        exact hold hbefore X rec hrec hv
      · rename_i db hok
        obtain ⟨-, rfl⟩ : _ ∧ _ := by simpa using hact
        have hc' := Database.transition_ok hok
        obtain ⟨cur, hcur, hscope, hrev⟩ := hc'.current
        obtain ⟨hid, hlegal⟩ := hpre cur hcur hscope hrev
        rw [← hid] at hcur
        rw [hc'.records, hlegal.interactionId] at hrec
        by_cases hX : X = cur.interactionId
        · obtain rfl : t.interaction = rec := by simpa [hX] using hrec
          exact hlegal.backs hr.inv hr.authorisation hbefore (hold hbefore) hcur hc' hnames hv
        · rw [Function.update_of_ne hX] at hrec
          obtain ⟨hstate, hbacks⟩ := hold hbefore X rec hrec hv
          obtain rfl := (hr.inv.record_seen hrec).1
          exact ⟨hstate, hbacks.frame
            (fact_frame hr.inv hbefore (hlegal.wellFormed hr.inv hcur) hc' hX)⟩
    · by_cases hcreate : ∃ r audit key digest, e = .create r audit key digest
      · obtain ⟨r', audit, key, digest, rfl⟩ := hcreate
        obtain ⟨a, id, now, hshape, -⟩ := hpre
        have hrequested : r'.verificationStatus ≠ .verified := by
          rw [hshape]
          rintro ⟨⟩
        exact VerifiedBacked.create (hold hbefore) hrequested hact X rec hrec hv
      · have hsame := (pre.effect hpre hact).same (handler_keeps_trail
          (fun r audit key digest he => hcreate ⟨r, audit, key, digest, he⟩)
          (fun t he => htransition ⟨t, he⟩) hact).2.2
        obtain ⟨hstate, hbacks⟩ := hold hbefore X rec (hsame.records ▸ hrec) hv
        exact ⟨hstate, hbacks.frame fun ty fid => by simp only [Database.fact, hsame.facts]⟩

end Runs

/-- **A VERIFIED record is backed by a fact** in every configuration of a run in which the verifier
does not answer VERIFIED without a digest, under fresh port identifiers. -/
theorem verified_backed {d : Deployment} {c : Calls} (h : DigestedReachable d c)
    (hfresh : c.world.PortIdsFresh) {X : String} {r : Interaction}
    (hr : c.world.db.records X = some r) (hv : r.verificationStatus = .verified) :
    c.world.db.Backs r :=
  (h.backed hfresh X r hr hv).2

namespace Scenario

/-- The call 3 verifies the execution; the verifier's answer is VERIFIED with the given digest, and
the canonical commit fails. -/
def verifiedWith (digest : String) : List Step :=
  ([.arrive (.verify (revisionArgs "u" 4 "verify"))] : List Step) ++ plain 3 3 ++
    ([.act 3 (.verification (.ok { status := .verified, evidenceDigest := digest }))] :
      List Step) ++
    plain 3 1 ++ ([.act 3 (.instant 2), .act 3 (.text "1")] : List Step)

/-- What precedes the verification. -/
def awaitsVerification : List Step :=
  created ++ previewed false false ++ intended 2 "u" 2 0 [] ++ executed 2 ++ observed 2

/-- The canonical commit authority is unavailable. -/
def uncommitted : List Step :=
  awaitsVerification ++ verifiedWith "digest" ++
    ([.act 3 (.commit (.error "unavailable")), .act 3 (.text "2")] : List Step) ++
      audited 3 ["b3"] ++ plain 3 9

/-- The answer is VERIFIED without a digest. -/
def undigested : List Step :=
  awaitsVerification ++ verifiedWith "" ++ audited 3 ["b3"] ++ plain 3 9

end Scenario

/-- A VERIFIED record whose canonical commit failed is backed. -/
theorem verified_backed_uncommitted : ∃ r : Interaction,
    (Scenario.after Scenario.uncommitted).world.db.records "int_1" = some r ∧
    r.verificationStatus = .verified ∧ r.lifecycleState = .recoveryRequired ∧
    (Scenario.after Scenario.uncommitted).world.db.Backs r := by
  have h : DigestedReachable Scenario.deployment (Scenario.after Scenario.uncommitted) :=
    Scenario.reachesIf (by decide +kernel)
  have hfresh : (Scenario.after Scenario.uncommitted).world.PortIdsFresh := by decide +kernel
  have hstate : ((Scenario.after Scenario.uncommitted).world.db.records "int_1").map
      (fun r => (r.verificationStatus, r.lifecycleState)) =
        some (.verified, .recoveryRequired) := by decide +kernel
  obtain ⟨r, hr, heq⟩ := Option.map_eq_some_iff.mp hstate
  obtain ⟨hv, hl⟩ := Prod.mk.inj heq
  exact ⟨r, hr, hv, hl, verified_backed h hfresh hr hv⟩

/-- **A VERIFIED record without a result**, after an answer without a digest. -/
theorem verified_unbacked : ¬ ∀ (d : Deployment) (c : Calls), Reachable d c →
    c.world.PortIdsFresh → ∀ X r, c.world.db.records X = some r →
      r.verificationStatus = .verified → c.world.db.Backs r := by
  intro h
  have hfresh : (Scenario.after Scenario.undigested).world.PortIdsFresh := by decide +kernel
  have hstate : ((Scenario.after Scenario.undigested).world.db.records "int_1").map
      (fun r => (r.verificationStatus, r.verifiedResultId)) = some (.verified, none) := by
    decide +kernel
  obtain ⟨r, hr, heq⟩ := Option.map_eq_some_iff.mp hstate
  obtain ⟨hv, hnone⟩ := Prod.mk.inj heq
  obtain ⟨v, hfact, -⟩ := h _ _ (Scenario.reachable Scenario.undigested) hfresh _ r hr hv
  rw [hnone] at hfact
  cases hfact

end Interactions

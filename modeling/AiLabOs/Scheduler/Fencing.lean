import AiLabOs.Scheduler.Claims

/-!
# Scheduler: fencing

Every operation of a runtime keeps the invariant of claims, so it holds in every reachable state,
whatever runtimes share the database and whatever their clocks show. A runtime settles its claim
with what it made of the row it claimed, and only while its token is the token of the row.

## Main definitions

* `pre`: what a runtime knows when it performs an action
* `ClaimLaw`: status, token, expiry and running run of a job agree
* `FencingLaw`: a claim is settled once, and only by its token or after its expiry

## Main results

* `effect`: every action that meets its precondition has an effect
* `claims_consistent`, `claims_fenced`: the two laws in every reachable state
-/

namespace Scheduler

open Process

/-! ## Operations -/

section Operations

variable {w : World}

theorem Inv.free (h : Inv w) {job : Job} (hjob : job ∈ w.db.jobs) (hne : job.status ≠ .running) :
    Free job :=
  ((h.consistent job hjob).free hne).1

/-- An update of one free job, which stays free. -/
theorem effect_update (h : Inv w) {hit : Job → Bool} {f : Job → Job} (jobId : String)
    (hkey : ∀ row, hit row = true → row.id = jobId) (hid : ∀ row, (f row).id = row.id)
    (hcount : ∀ row, (f row).runCount = row.runCount)
    (hstatus : ∀ row, hit row = true → row.status ≠ .running)
    (hfree : ∀ row, hit row = true → Free row → Free (f row)) :
    Effect w { w with db := { w.db with jobs := Table.update hit f w.db.jobs } } := by
  rcases Table.update_cases h.jobs jobId hkey hid with ⟨-, heq⟩ | ⟨row, hrow, hp, -, -, heq⟩
  · exact .idle (by rw [heq])
  · have hrowFree := h.free hrow (hstatus row hp)
    exact .changed row (f row) hrow (hid row) hrowFree (hfree row hp hrowFree) (hcount row)
      (by rw [heq])

theorem waits_not_running {status : JobStatus} (h : status.waits = true) : status ≠ .running := by
  cases status <;> simp_all [JobStatus.waits]

theorem effect_pauseJob (h : Inv w) (jobId : String) (revision : ℕ) (now : DateTime) :
    Effect w { w with db := (w.db.pauseJob jobId revision now).2 } := by
  refine effect_update h jobId (fun row hp => ?_) (fun _ => rfl) (fun _ => rfl) (fun row hp => ?_)
    fun row _ hfree => ⟨nofun, hfree.token, hfree.expires⟩
  all_goals simp only [Bool.and_eq_true, decide_eq_true_eq] at hp
  · exact hp.1.1.1
  · exact waits_not_running hp.1.2

theorem effect_resumeJob (h : Inv w) (jobId : String) (revision : ℕ) (next : Option DateTime)
    (now : DateTime) : Effect w { w with db := (w.db.resumeJob jobId revision next now).2 } := by
  refine effect_update h jobId (fun row hp => ?_) (fun _ => rfl) (fun _ => rfl) (fun row hp => ?_)
    fun row _ hfree => ⟨nofun, hfree.token, hfree.expires⟩
  all_goals simp only [Bool.and_eq_true, decide_eq_true_eq] at hp
  · exact hp.1.1.1
  · rw [hp.1.2]
    simp

theorem cancellable_not_running {status : JobStatus} (h : cancellable status = true) :
    status ≠ .running := by
  cases status <;> simp_all [cancellable, JobStatus.waits]

theorem effect_cancelJob (h : Inv w) (jobId : String) (now : DateTime) :
    Effect w { w with db := (w.db.cancelJob jobId now).2 } := by
  refine effect_update h jobId (fun row hp => ?_) (fun _ => rfl) (fun _ => rfl) (fun row hp => ?_)
    fun row _ _ => ⟨nofun, rfl, rfl⟩
  all_goals simp only [Bool.and_eq_true, decide_eq_true_eq] at hp
  · exact hp.1
  · exact cancellable_not_running hp.2

theorem reschedulable_not_running {status : JobStatus} (h : reschedulable status = true) :
    status ≠ .running := by
  cases status <;> simp_all [reschedulable, JobStatus.waits]

theorem effect_rescheduleJob (h : Inv w) (jobId : String) (revision : ℕ) (runAt : DateTime)
    (timezone : String) (payload : Payload) (now : DateTime) :
    Effect w { w with
      db := (w.db.rescheduleJob jobId revision runAt timezone payload now).2 } := by
  refine effect_update h jobId (fun row hp => ?_) (fun _ => rfl) (fun _ => rfl) (fun row hp => ?_)
    fun row _ hfree => ⟨nofun, hfree.token, hfree.expires⟩
  all_goals simp only [Bool.and_eq_true, decide_eq_true_eq] at hp
  · exact hp.1.1.1
  · exact reschedulable_not_running hp.2

theorem effect_renewClaim (h : Inv w) (jobId token : String) (expiresAt now : DateTime) :
    Effect w { w with db := (w.db.renewClaim jobId token expiresAt now).2 } := by
  have hkey : ∀ row, renewable jobId token now row = true →
      row.id = jobId ∧ row.status = .running := by
    intro row hp
    obtain ⟨hid, hrunning, -⟩ := renewable_iff.mp hp
    exact ⟨hid, hrunning⟩
  have hid : ∀ row, (Database.renewedRow expiresAt now row).id = row.id := fun _ => rfl
  unfold Database.renewClaim
  dsimp only
  rcases Table.update_cases h.jobs jobId (fun row hp => (hkey row hp).1) hid with
    ⟨-, heq⟩ | ⟨row, hrow, hp, -, -, heq⟩
  · exact .idle (by rw [heq])
  · have hrunning := (hkey row hp).2
    exact .renewed row (Database.renewedRow expiresAt now row) hrow rfl hrunning hrunning rfl rfl
      rfl
      (by rw [heq])

/-- **A deletion** takes a free job with its runs, or changes nothing. -/
theorem deleteJob_cases (h : Inv w) (jobId : String) (revision : Option ℕ) :
    (w.db.deleteJob jobId revision).2 = w.db ∨
      (∀ job ∈ w.db.jobs, job.id = jobId → Free job) ∧ (w.db.deleteJob jobId revision).2 =
        ⟨w.db.jobs.filter fun job => job.id ≠ jobId,
          w.db.runs.filter fun run => run.jobId ≠ jobId⟩ := by
  unfold Database.deleteJob
  split
  · exact .inl rfl
  · rename_i rev _
    dsimp only
    have hkey : ∀ row : Job, (row.id = jobId && row.revision = rev && row.status ≠ .running &&
        row.claimToken.isNone) = true → row.id = jobId ∧ row.status ≠ .running := by
      intro row hp
      simp only [Bool.and_eq_true, decide_eq_true_eq] at hp
      exact ⟨hp.1.1.1, hp.1.2⟩
    rcases Table.countP_cases h.jobs jobId (fun row hp => (hkey row hp).1) with
      h0 | ⟨row, hrow, hp, hid, h1⟩
    · rw [if_neg (by omega)]
      left
      rw [List.filter_eq_self.mpr fun row hrow => by
        rw [Bool.not_eq_true', Bool.eq_false_iff]
        exact List.countP_eq_zero.mp h0 row hrow]
    · rw [if_pos h1]
      refine .inr ⟨fun job hjob hjid => ?_, ?_⟩
      · rw [h.jobs.eq hjob hrow (hjid.trans hid.symm)]
        exact h.free hrow (hkey row hp).2
      · -- the row that meets the condition is the only one of its key
        have hsame : w.db.jobs.filter (fun job => !(job.id = jobId && job.revision = rev &&
            job.status ≠ .running && job.claimToken.isNone)) =
            w.db.jobs.filter fun job => job.id ≠ jobId := by
          refine List.filter_congr fun job hjob => ?_
          by_cases hjid : job.id = jobId
          · rw [h.jobs.eq hjob hrow (hjid.trans hid.symm), hp, hid]
            simp
          · simp [hjid]
        rw [hsame]

theorem effect_deleteJob (h : Inv w) (jobId : String) (revision : Option ℕ) :
    Effect w { w with db := (w.db.deleteJob jobId revision).2 } := by
  rcases deleteJob_cases h jobId revision with heq | ⟨hfree, heq⟩
  · exact .idle (by rw [heq])
  · exact .deleted jobId hfree (by rw [heq])

theorem effect_saveJob {job : Job} (hfree : Free job) {db : Database}
    (hok : w.db.saveJob job = .ok db) : Effect w { w with db } := by
  unfold Database.saveJob at hok
  split at hok
  · cases hok
  · rename_i hnew
    cases hok
    refine .saved job (fun row hrow heq => hnew ?_) hfree rfl
    exact List.any_eq_true.mpr ⟨row, hrow, by simpa using heq⟩

theorem claimable_not_running {job : Job} {now : DateTime} (h : claimable job now = true) :
    job.status ≠ .running := by
  unfold claimable at h
  simp only [Bool.and_eq_true] at h
  exact waits_not_running h.1.1

/-- **A claim** takes the row of its job, if that is due, or changes nothing. -/
theorem claimJob_ok {db db' : Database} (hunique : Table.Unique Job.id db.jobs)
    {jobId token runId : String} {now expiresAt : DateTime} {reply : Option Job}
    (hok : db.claimJob jobId now token expiresAt runId = .ok (reply, db')) :
    (reply = none ∧ db' = db) ∨ ∃ row ∈ db.jobs, row.id = jobId ∧ claimable row now = true ∧
      reply = some (Database.claimedRow now token expiresAt row) ∧
      db' = ⟨Table.put Job.id (Database.claimedRow now token expiresAt row) db.jobs,
        db.runs ++ [Database.claimedRun now token runId
          (Database.claimedRow now token expiresAt row)]⟩ := by
  unfold Database.claimJob at hok
  dsimp only at hok
  have hkey : ∀ row : Job, (row.id = jobId && claimable row now) = true →
      row.id = jobId ∧ claimable row now = true := by
    intro row hp
    simpa using hp
  split at hok
  · cases hok
    exact .inl ⟨rfl, rfl⟩
  · rename_i hcount
    rcases Table.update_cases hunique jobId (fun row hp => (hkey row hp).1)
      (f := Database.claimedRow now token expiresAt) (fun _ => rfl) with
      ⟨h0, -⟩ | ⟨row, hrow, hp, hid, -, heq⟩
    · omega
    · have hmem : Database.claimedRow now token expiresAt row ∈
          Table.put Job.id (Database.claimedRow now token expiresAt row) db.jobs :=
        Table.mem_put_self hrow rfl
      have hfind := Table.find?_eq hunique.put hmem
      rw [heq] at hok
      rw [show (Database.claimedRow now token expiresAt row).id = jobId from hid] at hfind
      rw [hfind] at hok
      dsimp only at hok
      split at hok
      · cases hok
      · cases hok
        exact .inr ⟨row, hrow, hid, (hkey row hp).2, rfl, rfl⟩

theorem effect_claimJob (h : Inv w) {jobId : String} {now expiresAt : DateTime} {ids : ClaimIds}
    (hfresh : w.Fresh ids) {reply : Option Job} {db : Database}
    (hok : w.db.claimJob jobId now ids.token expiresAt ids.runId = .ok (reply, db)) :
    (reply = none ∧ db = w.db) ∨ ∃ job, reply = some job ∧ job.id = jobId ∧
      job.status = .running ∧
      Effect w ⟨db, ⟨ids.token, ids.runId, jobId, job.runCount⟩ :: w.claims, w.settled⟩ := by
  rcases claimJob_ok h.jobs hok with hnone | ⟨row, hrow, rfl, hdue, rfl, rfl⟩
  · exact .inl hnone
  · refine .inr ⟨_, rfl, rfl, rfl, ?_⟩
    have hfree := h.free hrow (claimable_not_running hdue)
    exact .claimed row (Database.claimedRow now ids.token expiresAt row) _ ids hrow rfl hfree rfl
      ⟨rfl, rfl, rfl, rfl⟩ rfl hfresh rfl rfl rfl rfl

/-- What a runtime knows of a claim it settles. -/
structure Settles (w : World) (job : Job) (run : JobRun) (token : String) : Prop where
  claim : ∃ claim ∈ w.claims, claim.token = token ∧ claim.runId = run.id ∧
    claim.runCount + 1 ≤ job.runCount
  job : job.status ≠ .running
  run : run.status ≠ .running

/-- **A settlement by the owner** frees the job and ends its run, or is refused. -/
theorem effect_finalizeClaim (h : Inv w) {job : Job} {run : JobRun} {token : String}
    (hsettles : Settles w job run token) {db : Database}
    (hok : w.db.finalizeClaim job run token = .ok db) :
    Effect w { w with db, settled := (token, .finalized) :: w.settled } := by
  obtain ⟨⟨claim, hclaim, hct, hcr, hcount⟩, hjob, hover⟩ := hsettles
  unfold Database.finalizeClaim at hok
  dsimp only at hok
  have hkey : ∀ row : Job, (row.id = job.id && row.claimToken = some token) = true →
      row.id = job.id ∧ row.claimToken = some token := by
    intro row hp
    simpa using hp
  split at hok
  · cases hok
  · rename_i h1
    rcases Table.update_cases h.jobs job.id (fun row hp => (hkey row hp).1)
      (f := Database.finalizedRow job) (fun _ => rfl) with ⟨h0, -⟩ | ⟨row, hrow, hp, hid, -, heq⟩
    · omega
    · obtain ⟨held, hheldmem, hheld, hht, honly⟩ := h.run_of_token hrow (hkey row hp).2
      -- the run of the row is the run of the claim
      obtain ⟨claim', hclaim', hof⟩ := h.claimed held hheldmem
      have hsame : claim' = claim :=
        h.claimTokens.eq hclaim' hclaim (hof.token.trans (hht.trans hct.symm))
      have hrunId : held.id = run.id := hof.runId.symm.trans (hsame ▸ hcr)
      have hrunCount : claim.runCount = row.runCount := by
        have hatt := (h.counted row hrow held hheldmem hheld.jobId).running hheld.running
        have hatt' := hof.attempt
        rw [hsame] at hatt'
        omega
      have hhit : (held.id = run.id && held.claimToken = token) = true := by simp [hrunId, hht]
      have hruns : Table.update (fun row : JobRun => row.id = run.id && row.claimToken = token)
          (Database.finishedRun run) w.db.runs =
          Table.put JobRun.id (Database.finishedRun run held) w.db.runs :=
        Table.update_eq_put h.runs hheldmem hhit (fun other hother => by
          simp only [Bool.and_eq_true, decide_eq_true_eq] at hother
          exact hother.1.trans hrunId.symm) rfl
      split at hok
      · cases hok
      · cases hok
        rw [heq, hruns, ← hht]
        exact .finalized row (Database.finalizedRow job row) held (Database.finishedRun run held)
          hrow hheldmem hheld rfl ⟨hjob, rfl, rfl⟩ (by
            rw [← hrunCount]
            exact hcount) rfl rfl rfl rfl hover rfl

end Operations

/-! ## Actions -/

/-- What a runtime knows when it performs an action. -/
def pre (_ : ℕ) (_ : Log Action Action.Reply) (e : Action) (w : World) : Prop :=
  match e with
  | .saveJob job => Free job
  | .finalizeClaim job run token => Settles w job run token
  | _ => True

/-- **Every action that meets its precondition has an effect.** -/
theorem effect {i : ℕ} {log : Log Action Action.Reply} {e : Action} {input : Input} {r : e.Reply}
    {w w' : World} (h : Inv w) (hpre : pre i log e w) (hr : handler i e input w = some (r, w')) :
    Effect w w' := by
  cases e with
  | now =>
    cases input <;> simp only [handler, Option.some.injEq, Prod.mk.injEq, reduceCtorEq] at hr
    exact .idle hr.2.symm
  | newId =>
    cases input <;> simp only [handler, Option.some.injEq, Prod.mk.injEq, reduceCtorEq] at hr
    exact .idle hr.2.symm
  | execute job run =>
    cases input <;> simp only [handler, reduceCtorEq] at hr
    split at hr
    · cases hr
      exact .idle rfl
    · cases hr
  | saveJob job =>
    cases input <;> simp only [handler, reduceCtorEq] at hr
    split at hr
    · cases hr
      exact .idle rfl
    · rename_i db hok
      cases hr
      exact effect_saveJob hpre hok
  | claimJob jobId now expiresAt =>
    cases input <;> simp only [handler, reduceCtorEq] at hr
    split at hr
    · rename_i ids hfresh
      split at hr
      · cases hr
        exact .idle rfl
      · rename_i db hok
        cases hr
        rcases effect_claimJob h hfresh hok with ⟨-, rfl⟩ | ⟨job, hreply, -⟩
        · exact .idle rfl
        · cases hreply
      · rename_i job db hok
        cases hr
        rcases effect_claimJob h hfresh hok with ⟨hreply, -⟩ | ⟨job', hreply, -, -, heffect⟩
        · cases hreply
        · cases hreply
          exact heffect
    · cases hr
  | finalizeClaim job run token =>
    cases input <;> simp only [handler, reduceCtorEq] at hr
    split at hr
    · cases hr
      exact .idle rfl
    · rename_i db hok
      cases hr
      exact effect_finalizeClaim h hpre hok
  | renewClaim jobId token expiresAt now =>
    cases input <;> simp only [handler, Option.some.injEq, Prod.mk.injEq, reduceCtorEq] at hr
    rw [← hr.2]
    exact effect_renewClaim h jobId token expiresAt now
  | releaseExpiredClaims now retryAt =>
    cases input <;> simp only [handler, Option.some.injEq, Prod.mk.injEq, reduceCtorEq] at hr
    exact .released now retryAt hr.2.symm
  | pauseJob jobId revision now =>
    cases input <;> simp only [handler, Option.some.injEq, Prod.mk.injEq, reduceCtorEq] at hr
    rw [← hr.2]
    exact effect_pauseJob h jobId revision now
  | resumeJob jobId revision next now =>
    cases input <;> simp only [handler, Option.some.injEq, Prod.mk.injEq, reduceCtorEq] at hr
    rw [← hr.2]
    exact effect_resumeJob h jobId revision next now
  | deleteJob jobId revision =>
    cases input <;> simp only [handler, Option.some.injEq, Prod.mk.injEq, reduceCtorEq] at hr
    rw [← hr.2]
    exact effect_deleteJob h jobId revision
  | cancelJob jobId now =>
    cases input <;> simp only [handler, Option.some.injEq, Prod.mk.injEq, reduceCtorEq] at hr
    rw [← hr.2]
    exact effect_cancelJob h jobId now
  | rescheduleJob jobId revision runAt timezone payload now =>
    cases input <;> simp only [handler, Option.some.injEq, Prod.mk.injEq, reduceCtorEq] at hr
    rw [← hr.2]
    exact effect_rescheduleJob h jobId revision runAt timezone payload now

theorem sound : Sound protocol handler pre := by
  intro i log e input r w w' hinv hpre hr
  have heffect := effect hinv hpre hr
  exact ⟨heffect.inv hinv, fun _ _ => heffect.rely⟩

/-! ## Programs -/

section Programs

variable {i : ℕ} {log : Log Action Action.Reply} {w w' : World} {α : Type}

variable {post : α → Log Action Action.Reply → World → Prop}

/-- The call keeps its preconditions, and ensures `post` when it returns. -/
abbrev Keeps (i : ℕ) (post : α → Log Action Action.Reply → World → Prop) (p : Prog α)
    (log : Log Action Action.Reply) (w : World) : Prop :=
  Safe protocol handler pre i post (fun _ _ _ => True) p log w

/-- A claim that was made with that token, run and count. -/
def Known (w : World) (token runId : String) (runCount : ℕ) : Prop :=
  ∃ claim ∈ w.claims, claim.token = token ∧ claim.runId = runId ∧ claim.runCount = runCount

theorem Known.rely {token runId : String} {runCount : ℕ} (h : Known w token runId runCount)
    (hw : Rely w w') : Known w' token runId runCount := by
  obtain ⟨claim, hclaim, hrest⟩ := h
  exact ⟨claim, hw hclaim, hrest⟩

/-- An action without a precondition that makes no claim. -/
theorem keeps_perform {e : Action} {f : e.Reply → Prog α}
    (hpre : ∀ w, pre i log e w) (h : ∀ r w', Rely w w' → Keeps i post (f r) (log ++ [⟨e, r⟩]) w') :
    Keeps i post (Program.perform e >>= f) log w :=
  Safe.perform fun w' hw' hinv => ⟨hpre w', fun _ r w'' hr =>
    h r w'' (List.Subset.trans hw' (effect hinv (hpre w') hr).rely)⟩

theorem keeps_now {f : DateTime → Prog α}
    (h : ∀ now log' w', Rely w w' → Keeps i post (f now) log' w') :
    Keeps i post (clockNow >>= f) log w :=
  keeps_perform (e := .now) (fun _ => trivial) fun r w' hw' => h r _ w' hw'

theorem keeps_plus {t : DateTime} {delta : Int} {f : DateTime → Prog α}
    (h : ∀ t', Keeps i post (f t') log w) : Keeps i post (plusOrRaise t delta >>= f) log w := by
  unfold plusOrRaise
  split
  · exact h _
  · exact Safe.raise trivial

theorem keeps_raise {e : PersistenceError} : Keeps i post (raisePersistence e : Prog α) log w := by
  cases e <;> exact Safe.raise trivial

/-- **The settlement** of a claim that counts the attempt. -/
theorem keeps_finalize {job : Job} {run : JobRun} {token : String} {n : ℕ}
    (hknown : Known w token run.id n) (hcount : n + 1 ≤ job.runCount)
    (hjob : job.status ≠ .running) (hrun : run.status ≠ .running) :
    Keeps i (fun _ _ _ => True) (finalize job run token) log w := by
  refine Safe.perform fun w' hw' _ => ⟨⟨?_, hjob, hrun⟩, fun _ r w'' _ => ?_⟩
  · obtain ⟨claim, hclaim, hct, hcr, rfl⟩ := hknown.rely hw'
    exact ⟨claim, hclaim, hct, hcr, hcount⟩
  · cases r with
    | ok _ => exact Safe.ret trivial
    | error e => exact keeps_raise

theorem keeps_failRun {job : Job} {run : JobRun} {token : String} {error : FailureInfo} {n : ℕ}
    (hknown : Known w token run.id n) (hcount : n ≤ job.runCount) :
    Keeps i (fun _ _ _ => True) (failRun job run token error) log w := by
  refine keeps_now fun now log' w' hw' => keeps_finalize (hknown.rely hw') ?_ nofun nofun
  exact Nat.succ_le_succ hcount

theorem afterExecution_status (job : Job) (run : JobRun) :
    (afterExecution job run).status ≠ .running := by
  unfold afterExecution
  split
  · dsimp only
    split <;> simp
  · dsimp only
    split <;> simp

@[simp] theorem afterExecution_runCount (job : Job) (run : JobRun) :
    (afterExecution job run).runCount = job.runCount := by
  unfold afterExecution
  split <;> rfl

theorem keeps_nextRun {config : Config} {job : Job}
    {f : Except Raised (Option DateTime) → Prog α}
    (h : ∀ next log' w', Rely w w' → Keeps i post (f next) log' w') :
    Keeps i post (nextRun config job >>= f) log w := by
  unfold nextRun
  split
  · exact Safe.bind (keeps_now fun now log' w' hw' => Safe.ret (h _ log' w' hw'))
  · split
    · refine Safe.bind (keeps_now fun now log' w' hw' => ?_)
      split
      · exact Safe.ret (h _ log' w' hw')
      · exact Safe.ret (h _ log' w' hw')
    · exact h _ log w (List.Subset.refl _)

/-- **A run** of a claimed job, with what the executor makes of it. -/
theorem keeps_runJob {config : Config} {job : Job} {run : JobRun} {token : String}
    (hknown : Known w token run.id job.runCount) :
    Keeps i (fun _ _ _ => True) (runJob config job run token) log w := by
  refine Safe.perform fun w₁ hw₁ hinv => ⟨trivial, fun input execution w₂ hr => ?_⟩
  have hended : execution.Ended := by
    cases input <;> simp only [handler, reduceCtorEq] at hr
    split at hr
    · cases hr
      assumption
    · cases hr
  have hpre : pre i log (.execute { job with status := .running } run) w₁ := trivial
  have hknown₂ := (hknown.rely hw₁).rely (effect hinv hpre hr).rely
  cases execution with
  | raised counted error =>
    refine keeps_failRun hknown₂ ?_
    split <;> simp
  | finished status failure finishedAt =>
    refine keeps_nextRun fun next log₃ w₃ hw₃ => ?_
    have hknown₃ := hknown₂.rely hw₃
    have hover : status ≠ .running := by
      rcases hended with rfl | rfl | rfl
      all_goals simp
    cases next with
    | error x =>
      refine keeps_failRun hknown₃ ?_
      rw [afterExecution_runCount]
      exact Nat.le_succ _
    | ok next =>
      refine keeps_now fun updatedAt log₄ w₄ hw₄ => keeps_finalize (hknown₃.rely hw₄) ?_
        (afterExecution_status _ _) hover
      rw [afterExecution_runCount]
      rfl

theorem keeps_dispatchDueJob (config : Config) (jobId : String) (now : DateTime) :
    Keeps i (fun _ _ _ => True) (dispatchDueJob config jobId now) log w := by
  refine keeps_plus fun expiresAt => ?_
  refine Safe.perform fun w₁ _ hinv => ⟨trivial, fun input r w₂ hr => ?_⟩
  obtain ⟨ids, reply⟩ := r
  cases input <;> simp only [handler, reduceCtorEq] at hr
  split at hr
  · rename_i hfresh
    split at hr
    · cases hr
      exact keeps_raise
    · cases hr
      exact Safe.ret trivial
    · cases hr
      exact keeps_runJob ⟨_, List.mem_cons_self .., rfl, rfl, rfl⟩
  · cases hr

theorem keeps_schedule (request : ScheduleRequest) :
    Keeps i (fun _ _ _ => True) (schedule request) log w := by
  unfold schedule
  split
  · exact Safe.raise trivial
  · have hnext : ∀ f : Except Raised (Option DateTime) → Prog Job,
        (∀ next log' w', Keeps i (fun _ _ _ => True) (f next) log' w') →
        Keeps i (fun _ _ _ => True) (firstRun request.trigger >>= f) log w := by
      intro f hf
      unfold firstRun
      split
      · exact hf _ log w
      · exact Safe.bind (keeps_now fun now log' w' _ => Safe.ret (hf _ log' w'))
    refine hnext _ fun next log₁ w₁ => ?_
    cases next with
    | error x => exact Safe.raise trivial
    | ok next =>
      refine keeps_perform (e := .newId) (fun _ => trivial) fun id w₂ _ => ?_
      refine keeps_now fun createdAt log₃ w₃ _ => ?_
      refine Safe.perform fun w₄ _ _ => ⟨⟨nofun, rfl, rfl⟩, fun _ r w₅ _ => ?_⟩
      cases r with
      | ok _ => exact Safe.ret trivial
      | error e => exact keeps_raise

/-- Every call keeps its preconditions. -/
theorem startsSafe : StartsSafe protocol handler pre start := by
  intro i k w _
  have hone : ∀ (e : Action), (∀ w, pre i [] e w) →
      Keeps i (fun _ _ _ => True) (Program.perform e >>= fun _ => (pure () : Prog Unit)) [] w :=
    fun e hpre => keeps_perform hpre fun _ _ _ => Safe.ret trivial
  cases k with
  | schedule request =>
    exact Safe.bind ((keeps_schedule request).mono (fun _ _ _ _ => Safe.ret trivial)
      fun _ _ _ h => h)
  | dispatch config jobId now => exact keeps_dispatchDueJob config jobId now
  | renew jobId token expiresAt now => exact hone _ fun _ => trivial
  | release config now =>
    exact keeps_plus fun retryAt => hone (.releaseExpiredClaims now retryAt) fun _ => trivial
  | pause jobId revision now => exact hone _ fun _ => trivial
  | resume jobId revision next now => exact hone _ fun _ => trivial
  | delete jobId revision => exact hone _ fun _ => trivial
  | cancel jobId now => exact hone _ fun _ => trivial
  | reschedule jobId revision runAt timezone payload now => exact hone _ fun _ => trivial

end Programs

/-! ## The laws -/

section Laws

variable {c : Calls}

theorem inv_of_reaches {w₀ : World} (hw₀ : Inv w₀) (h : Reaches handler start (idle w₀) c) :
    Inv c.world :=
  ((AllSafe.idle hw₀).reaches sound startsSafe h).1

theorem Reachable.inv (h : Reachable c) : Inv c.world := inv_of_reaches inv_initial h

/-- The runs of a job that are running. -/
def runningRuns (db : Database) (job : Job) : List JobRun :=
  db.runs.filter fun run => run.jobId = job.id && run.status = .running

/-- **The law of claims** for one job: it is running exactly when it has a token, exactly when it
has an expiry, exactly when one of its runs is running, and that run has its token. -/
structure ClaimLaw (db : Database) (job : Job) : Prop where
  token : job.status = .running ↔ job.claimToken.isSome
  expires : job.status = .running ↔ job.claimExpiresAt.isSome
  runs : job.status = .running ↔ (runningRuns db job).length = 1
  same : ∀ run ∈ runningRuns db job, job.claimToken = some run.claimToken

theorem Inv.claimLaw {w : World} (h : Inv w) {job : Job} (hjob : job ∈ w.db.jobs) :
    ClaimLaw w.db job := by
  have hmem : ∀ run, run ∈ runningRuns w.db job ↔
      run ∈ w.db.runs ∧ run.jobId = job.id ∧ run.status = .running := fun run => by
    simp [runningRuns]
  by_cases hrunning : job.status = .running
  · obtain ⟨run, hrun, hheld, honly⟩ := (h.consistent job hjob).held hrunning
    have hone : (runningRuns w.db job).length = 1 := by
      rw [runningRuns, ← List.countP_eq_length_filter]
      refine Table.countP_eq_one (List.Nodup.of_map _ h.runs) hrun
        (by simp [hheld.jobId, hheld.running]) fun other hother hp => ?_
      simp only [Bool.and_eq_true, decide_eq_true_eq] at hp
      exact honly other hother hp.1 hp.2
    refine ⟨iff_of_true hrunning (by rw [hheld.token]; rfl), iff_of_true hrunning hheld.expires,
      iff_of_true hrunning hone, fun other hother => ?_⟩
    obtain ⟨hother, hjid, hr⟩ := (hmem other).mp hother
    rw [honly other hother hjid hr]
    exact hheld.token
  · obtain ⟨hfree, hnone⟩ := (h.consistent job hjob).free hrunning
    have hnil : runningRuns w.db job = [] := by
      refine List.eq_nil_iff_forall_not_mem.mpr fun run hrun => ?_
      obtain ⟨hrun, hjid, hr⟩ := (hmem run).mp hrun
      exact hnone run hrun hjid hr
    refine ⟨iff_of_false hrunning (by simp [hfree.token]),
      iff_of_false hrunning (by simp [hfree.expires]), iff_of_false hrunning (by simp [hnil]),
      fun run hrun => ?_⟩
    rw [hnil] at hrun
    cases hrun

/-- **Claims are consistent** in every reachable state. -/
theorem claims_consistent (h : Reachable c) : ∀ job ∈ c.world.db.jobs, ClaimLaw c.world.db job :=
  fun _ hjob => h.inv.claimLaw hjob

/-- The action names a claim that its job is not under. -/
def Stale (db : Database) : Action → Prop
  | .finalizeClaim job _ token => ∀ row ∈ db.jobs, row.id = job.id → row.claimToken ≠ some token
  | .renewClaim jobId token _ _ => ∀ row ∈ db.jobs, row.id = jobId → row.claimToken ≠ some token
  | _ => False

/-- **The law of fencing** in one state: every token is settled at most once, and only one that a
claim was made with; a settlement or renewal with a token that is not the one of the row changes no
table; a claim outlives every release that observes an earlier instant than its expiry; at every
instant a renewal of a claim succeeds or a release frees its job, and not both; a renewal that
succeeds moves the expiry; and the runs of a job are different attempts. -/
structure FencingLaw (w : World) : Prop where
  once : (w.settled.map Prod.fst).Nodup
  handed : ∀ s ∈ w.settled, ∃ claim ∈ w.claims, claim.token = s.1
  fenced : ∀ i e input r w', Stale w.db e → handler i e input w = some (r, w') → w' = w
  early : ∀ job ∈ w.db.jobs, ∀ t, job.claimExpiresAt = some t → ∀ now retryAt, now < t →
    job ∈ (w.db.releaseExpiredClaims now retryAt).2.jobs
  boundary : ∀ job ∈ w.db.jobs, ∀ token, job.claimToken = some token → ∀ now expiresAt retryAt,
    Xor ((w.db.renewClaim job.id token expiresAt now).1 = true)
      (∃ row ∈ (w.db.releaseExpiredClaims now retryAt).2.jobs,
        row.id = job.id ∧ row.claimToken = none)
  renewed : ∀ job ∈ w.db.jobs, ∀ token now expiresAt,
    (w.db.renewClaim job.id token expiresAt now).1 = true →
    ∃ row ∈ (w.db.renewClaim job.id token expiresAt now).2.jobs,
      row.id = job.id ∧ row.claimToken = some token ∧ row.claimExpiresAt = some expiresAt
  attempts : ∀ a ∈ w.db.runs, ∀ b ∈ w.db.runs, a.jobId = b.jobId → a.attempt = b.attempt → a = b

/-- An action with a stale token changes nothing. -/
theorem stale_unchanged {i : ℕ} {e : Action} {input : Input} {r : e.Reply} {w w' : World}
    (hstale : Stale w.db e) (hr : handler i e input w = some (r, w')) : w' = w := by
  cases e <;> try exact absurd hstale id
  case finalizeClaim job run token =>
    cases input <;> simp only [handler, reduceCtorEq] at hr
    have hnone : w.db.jobs.countP (fun row => row.id = job.id && row.claimToken = some token) = 0 :=
      List.countP_eq_zero.mpr fun row hrow hp => by
        simp only [Bool.and_eq_true, decide_eq_true_eq] at hp
        exact hstale row hrow hp.1 hp.2
    have hlost : w.db.finalizeClaim job run token =
        .error (.claimLost "Scheduler job claim is no longer owned") := by
      unfold Database.finalizeClaim
      exact if_pos (by omega)
    rw [hlost] at hr
    cases hr
    rfl
  case renewClaim jobId token expiresAt now =>
    cases input <;> simp only [handler, Option.some.injEq, Prod.mk.injEq, reduceCtorEq] at hr
    have hnone : w.db.jobs.countP (renewable jobId token now) = 0 :=
      List.countP_eq_zero.mpr fun row hrow hp => by
        obtain ⟨hid, -, htoken, -⟩ := renewable_iff.mp hp
        exact hstale row hrow hid htoken
    rw [← hr.2, Database.renewClaim]
    dsimp only
    rw [Table.update_of_none hnone]

/-- A renewal succeeds on the job that it can renew. -/
theorem renewClaim_iff {db : Database} (h : Table.Unique Job.id db.jobs) {job : Job}
    (hjob : job ∈ db.jobs) {token : String} {now expiresAt : DateTime} :
    (db.renewClaim job.id token expiresAt now).1 = true ↔
      renewable job.id token now job = true := by
  have hsame : ∀ other ∈ db.jobs, renewable job.id token now other = true → other = job :=
    fun other hother hrenew => h.eq hother hjob (renewable_iff.mp hrenew).1
  rw [Database.renewClaim, decide_eq_true_eq]
  constructor
  · intro hone
    obtain ⟨other, hother, hrenew⟩ := Table.exists_of_countP_eq_one hone
    exact hsame other hother hrenew ▸ hrenew
  · exact fun hrenew => Table.countP_eq_one (List.Nodup.of_map _ h) hjob hrenew hsame

/-- A release frees the jobs whose claim has expired. -/
theorem released_iff {db : Database} (h : Table.Unique Job.id db.jobs) {job : Job}
    (hjob : job ∈ db.jobs) (htoken : job.claimToken ≠ none) {now retryAt : DateTime} :
    (∃ row ∈ (db.releaseExpiredClaims now retryAt).2.jobs, row.id = job.id ∧
      row.claimToken = none) ↔ expired now job = true := by
  constructor
  · rintro ⟨row, hrow, hid, hnone⟩
    obtain ⟨old, hold, rfl⟩ := Table.mem_update.mp hrow
    by_cases hexp : expired now old = true
    · rw [if_pos hexp] at hid
      rwa [h.eq hold hjob hid] at hexp
    · rw [if_neg hexp] at hid hnone
      rw [h.eq hold hjob hid] at hnone
      exact absurd hnone htoken
  · intro hexp
    exact ⟨_, Table.mem_update.mpr ⟨job, hjob, rfl⟩, by rw [if_pos hexp]; rfl,
      by rw [if_pos hexp]; rfl⟩

/-- **Claims are fenced** in every reachable state. -/
theorem claims_fenced (h : Reachable c) : FencingLaw c.world where
  once := h.inv.settledOnce
  handed := h.inv.settledClaim
  fenced i e input r w' hstale hr := stale_unchanged hstale hr
  early job hjob t ht now retryAt hlt := by
    refine Table.mem_update.mpr ⟨job, hjob, if_neg fun hexp => ?_⟩
    obtain ⟨-, t', ht', hle⟩ := expired_iff.mp hexp
    rw [Option.some.inj (ht.symm.trans ht')] at hlt
    exact absurd hlt (not_lt.mpr hle)
  boundary job hjob token htoken now expiresAt retryAt := by
    rw [renewClaim_iff h.inv.jobs hjob, released_iff h.inv.jobs hjob (by simp [htoken])]
    have hrunning := (h.inv.consistent job hjob).of_token htoken
    obtain ⟨run, -, hheld, -⟩ := (h.inv.consistent job hjob).held hrunning
    obtain ⟨t, ht⟩ := Option.isSome_iff_exists.mp hheld.expires
    have hrenew : renewable job.id token now job = true ↔ now < t := by
      simp [renewable_iff, hrunning, htoken, ht]
    have hexpire : expired now job = true ↔ t ≤ now := by
      simp [expired_iff, hrunning, ht]
    rw [hrenew, hexpire]
    rcases lt_or_ge now t with hlt | hge
    · exact .inl ⟨hlt, not_le.mpr hlt⟩
    · exact .inr ⟨hge, not_lt.mpr hge⟩
  renewed job hjob token now expiresAt hrenew := by
    have hhit := (renewClaim_iff h.inv.jobs hjob).mp hrenew
    refine ⟨_, Table.mem_update.mpr ⟨job, hjob, rfl⟩, ?_⟩
    rw [if_pos hhit]
    exact ⟨rfl, (renewable_iff.mp hhit).2.2.1, rfl⟩
  attempts := h.inv.attempts

end Laws

/-! ## A run -/

namespace Scenario

/-- An instant of one day. -/
def at_ (hour : Fin 24) : DateTime :=
  ⟨2026, 7, 25, hour, 0, 0, 0, by
    refine ⟨?_, ?_, ?_, hour.isLt, ?_, ?_, ?_⟩
    all_goals decide⟩

/-- A job is claimed at nine and its claim released at ten, while its owner is still running it; the
owner settles in vain, and the next attempt renews its claim, fails and settles it. -/
def events : List (Event Request Input) := [
  .arrive (.schedule {
    jobName := "backup"
    trigger := { triggerType := .oneShot, runAt := at_ 8 } }),
  .act 0 (.clock (at_ 7)), .act 0 (.hex "job"), .act 0 (.clock (at_ 7)), .act 0 .reached,
  .arrive (.dispatch {} "job" (at_ 9)), .act 1 (.claim ⟨"token1", "run1"⟩),
  .arrive (.release {} (at_ 10)), .act 2 .reached,
  .act 1 (.executed (.finished .success none (at_ 10))), .act 1 (.clock (at_ 10)), .act 1 .reached,
  .arrive (.dispatch {} "job" (at_ 11)), .act 3 (.claim ⟨"token2", "run2"⟩),
  .arrive (.renew "job" "token2" (at_ 13) (at_ 11)), .act 4 .reached,
  .act 3 (.executed (.finished .failed none (at_ 11))), .act 3 (.clock (at_ 11)),
  .act 3 (.clock (at_ 11)), .act 3 .reached]

/-- The configuration it leads to. -/
def after : Calls := (run handler start (idle World.initial) events).getD (idle World.initial)

/-- The configuration after the renewal. -/
def renewed : Calls :=
  (run handler start (idle World.initial) (events.take 16)).getD (idle World.initial)

theorem reaches_getD {c : Calls} {evs : List (Event Request Input)}
    (hrun : (run handler start c evs).isSome = true) :
    Reaches handler start c ((run handler start c evs).getD c) := by
  obtain ⟨c', hc⟩ := Option.isSome_iff_exists.mp hrun
  refine ⟨evs, ?_⟩
  rw [hc]
  rfl

theorem reachable : Reachable after := reaches_getD (by decide +kernel)

theorem reachable_renewed : Reachable renewed := reaches_getD (by decide +kernel)

end Scenario

/-- In that run the job waits for its third attempt. -/
theorem claims_consistent_scenario :
    Scenario.after.world.db.jobs.map (fun job => (job.status, job.runCount)) = [(.retrying, 2)] ∧
    ∀ job ∈ Scenario.after.world.db.jobs, ClaimLaw Scenario.after.world.db job :=
  ⟨by decide +kernel, claims_consistent Scenario.reachable⟩

/-- In that run one claim was released and one was settled by its owner, who had renewed it. -/
theorem claims_fenced_scenario :
    Scenario.after.world.settled = [("token2", .finalized), ("token1", .released)] ∧
    FencingLaw Scenario.after.world ∧
    Scenario.renewed.world.db.jobs.map Job.claimExpiresAt = [some (Scenario.at_ 13)] ∧
    FencingLaw Scenario.renewed.world :=
  ⟨by decide +kernel, claims_fenced Scenario.reachable, by decide +kernel,
    claims_fenced Scenario.reachable_renewed⟩

end Scheduler

import AiLabOs.Scheduler.Ownership

/-!
# Scheduler: accounts

A job that has ended is inert: no next run, no claim. And the attempts at a job are counted: its
count is the number of its runs that are over. Every operation of a runtime keeps both, except the
settlement of an attempt that ended in the exception branch of `_run_job`: it leaves the next run
of a failed job in place, and counts an attempt again that the executor has counted.

## Main definitions

* `Inert`, `Accounted`: the two laws
* `exceptional`: an attempt ended in the exception branch
* `settlesCleanly`: an event is not the settlement of such an attempt
* `Ledger`: the invariant

## Main results

* `Ledger.act`: every other action keeps the invariant
* `accounted_until_exceptional`: the laws hold until the first such settlement, which breaks them
-/

namespace Scheduler

open Process

/-! ## The laws -/

/-- The job has ended. -/
def JobStatus.terminal (status : JobStatus) : Bool :=
  status = .completed || status = .failed || status = .cancelled

/-- Nothing is left to do for the job. -/
structure Inert (job : Job) : Prop where
  nextRunAt : job.trigger.nextRunAt = none
  token : job.claimToken = none
  expires : job.claimExpiresAt = none

/-- The runs of a job that are over. -/
def endedRuns (db : Database) (job : Job) : ℕ :=
  db.runs.countP fun run => run.jobId = job.id && run.status ≠ .running

/-- **The law of accounts**: jobs that have ended are inert, and every job counts its runs. -/
structure Accounted (db : Database) : Prop where
  inert : ∀ job ∈ db.jobs, job.status.terminal = true → Inert job
  counted : ∀ job ∈ db.jobs, job.runCount = endedRuns db job

/-! ## The exception branch -/

/-- Computing the next run at that instant raises. -/
def nextRaises (config : Config) (job : Job) (now : DateTime) : Bool :=
  if job.status = .active ∧ job.trigger.triggerType ≠ .manual then
    match computeNext job.trigger now with
    | .error _ => true
    | .ok _ => false
  else if job.status = .retrying then (now.plus config.retryDelay).isNone
  else false

/-- **The attempt ended in the exception branch**: the executor raised, or the next run could not be
computed from the clock reading after it. -/
def exceptional (config : Config) : Log Action Action.Reply → Bool
  | ⟨.execute _ _, .raised _ _⟩ :: _ => true
  | ⟨.execute job run, .finished status failure finishedAt⟩ :: ⟨.now, reading⟩ :: _ =>
    let run := finishRun run status failure finishedAt job
    nextRaises config (afterExecution (countAttempt job run) run) reading
  | _ :: rest => exceptional config rest
  | [] => false

/-- The configuration a call works with. -/
def Request.config : Request → Config
  | .dispatch config _ _ => config
  | .release config _ => config
  | _ => {}

/-- The event is not the settlement, under the token of its row, of an attempt that ended in the
exception branch. -/
def settlesCleanly (c : Calls) : Event Request Input → Bool
  | .arrive _ => true
  | .act i _ =>
    match c.calls[i]? with
    | some ⟨request, log, .await (.finalizeClaim _ _ token) _⟩ =>
      !(exceptional request.config log &&
        c.world.db.jobs.any fun row => row.claimToken = some token)
    | _ => true

/-! ## The invariant -/

/-- All runs of a job. -/
def allRuns (db : Database) (jobId : String) : ℕ := db.runs.countP fun run => run.jobId = jobId

/-- The runs of the job are those it has counted, and the running one. -/
def Counts (db : Database) (job : Job) : Prop :=
  allRuns db job.id = job.runCount + if job.status = .running then 1 else 0

/-- **The invariant.** -/
structure Ledger (db : Database) : Prop where
  inert : ∀ job ∈ db.jobs, job.status.terminal = true → job.trigger.nextRunAt = none
  counts : ∀ job ∈ db.jobs, Counts db job

section Invariant

variable {w w' : World}

/-- A job that changes without an attempt beginning or ending. -/
structure Unattempted (row new : Job) : Prop where
  id : new.id = row.id
  runCount : new.runCount = row.runCount
  running : new.status = .running ↔ row.status = .running
  inert : new.status.terminal = true → new.trigger.nextRunAt = none

/-- An update of jobs at which nothing begins or ends. -/
theorem Ledger.update (h : Ledger w.db) {hit : Job → Bool} {f : Job → Job}
    (hf : ∀ row, hit row = true → Unattempted row (f row)) :
    Ledger { w.db with jobs := Table.update hit f w.db.jobs } where
  inert job hjob hterminal := by
    obtain ⟨row, hrow, rfl⟩ := Table.mem_update.mp hjob
    split at hterminal
    · rename_i hhit
      rw [if_pos hhit]
      exact (hf row hhit).inert hterminal
    · rename_i hhit
      rw [if_neg hhit]
      exact h.inert row hrow hterminal
  counts job hjob := by
    obtain ⟨row, hrow, rfl⟩ := Table.mem_update.mp hjob
    have hcounts := h.counts row hrow
    split
    · rename_i hhit
      obtain ⟨hid, hcount, hrunning, -⟩ := hf row hhit
      unfold Counts at hcounts ⊢
      rw [hid, hcount, if_congr hrunning rfl rfl]
      exact hcounts
    · exact hcounts

/-- What the account needs to know of an action: a new job has not been tried, and a settlement
counts one attempt and leaves no next run to a job that has ended. -/
def Accountable (w : World) : Action → Prop
  | .saveJob job => job.status = .active ∧ job.runCount = 0
  | .finalizeClaim job _ token => job.status ≠ .running ∧ ∀ row ∈ w.db.jobs,
      row.claimToken = some token → job.runCount = row.runCount + 1 ∧
        (job.status.terminal = true → job.trigger.nextRunAt = none)
  | _ => True

theorem Ledger.save (h : Ledger w.db) (hinv : Inv w) {job : Job}
    (hnew : ∀ row ∈ w.db.jobs, row.id ≠ job.id) (hactive : job.status = .active)
    (hcount : job.runCount = 0) : Ledger { w.db with jobs := w.db.jobs ++ [job] } where
  inert row hrow hterminal := by
    rcases List.mem_append.mp hrow with hrow | hrow
    · exact h.inert row hrow hterminal
    · rw [List.mem_singleton.mp hrow, hactive] at hterminal
      cases hterminal
  counts row hrow := by
    rcases List.mem_append.mp hrow with hrow | hrow
    · exact h.counts row hrow
    · have hnone : allRuns w.db job.id = 0 := List.countP_eq_zero.mpr fun run hrun heq =>
        hinv.no_run hnew run hrun (by simpa using heq)
      rw [List.mem_singleton.mp hrow]
      show allRuns w.db job.id = _
      rw [hnone, hcount, hactive]
      rfl

/-- A claim begins an attempt. -/
theorem Ledger.claim (h : Ledger w.db) {row new : Job} {run : JobRun} (hrow : row ∈ w.db.jobs)
    (hid : new.id = row.id) (hfree : row.status ≠ .running) (hrunning : new.status = .running)
    (hcount : new.runCount = row.runCount) (hrun : run.jobId = row.id) :
    Ledger ⟨Table.put Job.id new w.db.jobs, w.db.runs ++ [run]⟩ where
  inert job hjob hterminal := by
    rcases Table.mem_put.mp hjob with ⟨rfl, -⟩ | ⟨hjob, -⟩
    · rw [hrunning] at hterminal
      cases hterminal
    · exact h.inert job hjob hterminal
  counts job hjob := by
    unfold Counts allRuns
    rw [List.countP_append, List.countP_singleton]
    rcases Table.mem_put.mp hjob with ⟨rfl, -⟩ | ⟨hjob, hne⟩
    · have hcounts := h.counts row hrow
      unfold Counts allRuns at hcounts
      rw [if_neg hfree] at hcounts
      rw [if_pos hrunning, hid, hcount, hcounts, hrun]
      simp
    · have hcounts := h.counts job hjob
      unfold Counts allRuns at hcounts
      have hother : run.jobId ≠ job.id := fun heq => hne (heq.symm.trans (hrun.trans hid.symm))
      rw [hcounts]
      simp [hother]

/-- The end of attempts: some jobs count one each, and their runs change otherwise. -/
theorem Ledger.settle (h : Ledger w.db) {hit : Job → Bool} {f : Job → Job} {hitRun : JobRun → Bool}
    {g : JobRun → JobRun} (hrunning : ∀ row ∈ w.db.jobs, hit row = true → row.status = .running)
    (hid : ∀ row, (f row).id = row.id)
    (hf : ∀ row ∈ w.db.jobs, hit row = true → (f row).status ≠ .running ∧
      (f row).runCount = row.runCount + 1 ∧
      ((f row).status.terminal = true → (f row).trigger.nextRunAt = none))
    (hg : ∀ run, (g run).jobId = run.jobId) :
    Ledger ⟨Table.update hit f w.db.jobs, Table.update hitRun g w.db.runs⟩ where
  inert job hjob hterminal := by
    obtain ⟨row, hrow, rfl⟩ := Table.mem_update.mp hjob
    split at hterminal
    · rename_i hhit
      rw [if_pos hhit]
      exact (hf row hrow hhit).2.2 hterminal
    · rename_i hhit
      rw [if_neg hhit]
      exact h.inert row hrow hterminal
  counts job hjob := by
    have hsame : ∀ jobId, allRuns ⟨Table.update hit f w.db.jobs,
        Table.update hitRun g w.db.runs⟩ jobId = allRuns w.db jobId := by
      intro jobId
      unfold allRuns Table.update
      rw [List.countP_map]
      refine List.countP_congr fun run _ => ?_
      rw [Function.comp_apply]
      split
      · rw [hg]
      · rfl
    obtain ⟨row, hrow, rfl⟩ := Table.mem_update.mp hjob
    have hcounts := h.counts row hrow
    unfold Counts at hcounts ⊢
    rw [hsame]
    split
    · rename_i hhit
      obtain ⟨hended, hcount, -⟩ := hf row hrow hhit
      rw [if_pos (hrunning row hrow hhit)] at hcounts
      rw [hid, if_neg hended, hcount]
      exact hcounts
    · exact hcounts

theorem Ledger.delete (h : Ledger w.db) (jobId : String) :
    Ledger ⟨w.db.jobs.filter fun job => job.id ≠ jobId,
      w.db.runs.filter fun run => run.jobId ≠ jobId⟩ where
  inert job hjob := h.inert job (List.mem_filter.mp hjob).1
  counts job hjob := by
    obtain ⟨hjob, hne⟩ := List.mem_filter.mp hjob
    have hcounts := h.counts job hjob
    unfold Counts allRuns at hcounts ⊢
    rw [← hcounts, List.countP_filter]
    refine List.countP_congr fun run _ => ?_
    simp only [decide_eq_true_eq] at hne
    simp only [Bool.and_eq_true, decide_eq_true_eq]
    exact ⟨fun hrun => hrun.1, fun hrun => ⟨hrun, hrun ▸ hne⟩⟩

/-- **Every action** that the account may know keeps the invariant. -/
theorem Ledger.act {i : ℕ} {e : Action} {input : Input} {r : e.Reply} (h : Ledger w.db)
    (hinv : Inv w) (hacc : Accountable w e)
    (hr : handler i e input w = some (r, w')) : Ledger w'.db := by
  cases e with
  | now =>
    cases input <;> simp only [handler, Option.some.injEq, Prod.mk.injEq, reduceCtorEq] at hr
    exact hr.2 ▸ h
  | newId =>
    cases input <;> simp only [handler, Option.some.injEq, Prod.mk.injEq, reduceCtorEq] at hr
    exact hr.2 ▸ h
  | execute job run =>
    cases input <;> simp only [handler, reduceCtorEq] at hr
    split at hr
    · cases hr
      exact h
    · cases hr
  | saveJob job =>
    cases input <;> simp only [handler, reduceCtorEq] at hr
    split at hr
    · cases hr
      exact h
    · rename_i db hok
      cases hr
      unfold Database.saveJob at hok
      split at hok
      · cases hok
      · rename_i hnew
        cases hok
        refine h.save hinv (fun row hrow heq => hnew ?_) hacc.1 hacc.2
        exact List.any_eq_true.mpr ⟨row, hrow, by simpa using heq⟩
  | claimJob jobId now expiresAt =>
    cases input <;> simp only [handler, reduceCtorEq] at hr
    split at hr
    · split at hr
      · cases hr
        exact h
      all_goals
        rename_i db hok
        cases hr
        rcases claimJob_ok hinv.jobs hok with ⟨-, rfl⟩ | ⟨row, hrow, -, hdue, -, rfl⟩
        · exact h
        · exact h.claim hrow rfl (claimable_not_running hdue) rfl rfl rfl
    · cases hr
  | finalizeClaim job run token =>
    cases input <;> simp only [handler, reduceCtorEq] at hr
    split at hr
    · cases hr
      exact h
    · rename_i db hok
      cases hr
      unfold Database.finalizeClaim at hok
      dsimp only at hok
      have htoken : ∀ row : Job, (row.id = job.id && row.claimToken = some token) = true →
          row.claimToken = some token := by
        intro row hhit
        simp only [Bool.and_eq_true, decide_eq_true_eq] at hhit
        exact hhit.2
      split at hok
      · cases hok
      · split at hok
        · cases hok
        · cases hok
          refine h.settle (fun row hrow hhit => ?_) (fun _ => rfl) (fun row hrow hhit => ?_)
            fun _ => rfl
          · exact (hinv.consistent row hrow).of_token (htoken row hhit)
          · obtain ⟨hcount, hinert⟩ := hacc.2 row hrow (htoken row hhit)
            exact ⟨hacc.1, hcount, hinert⟩
  | renewClaim jobId token expiresAt now =>
    cases input <;> simp only [handler, Option.some.injEq, Prod.mk.injEq, reduceCtorEq] at hr
    rw [← hr.2]
    refine h.update fun row hhit => ⟨rfl, rfl, Iff.rfl, fun hterminal => ?_⟩
    obtain ⟨-, hrunning, -⟩ := renewable_iff.mp hhit
    change row.status.terminal = true at hterminal
    rw [hrunning] at hterminal
    cases hterminal
  | releaseExpiredClaims now retryAt =>
    cases input <;> simp only [handler, Option.some.injEq, Prod.mk.injEq, reduceCtorEq] at hr
    rw [← hr.2]
    refine h.settle (fun row _ hhit => expired_running hhit) (fun _ => rfl) (fun row _ _ => ?_)
      fun _ => rfl
    refine ⟨(releasedRow_free now retryAt row).status, rfl, fun hterminal => ?_⟩
    unfold Database.releasedRow at hterminal ⊢
    dsimp only at hterminal ⊢
    split at hterminal
    · exact if_pos ‹_›
    · cases hterminal
  | pauseJob jobId revision now =>
    cases input <;> simp only [handler, Option.some.injEq, Prod.mk.injEq, reduceCtorEq] at hr
    rw [← hr.2]
    refine h.update fun row hhit => ⟨rfl, rfl, ⟨by rintro ⟨⟩, fun hrunning => ?_⟩, by rintro ⟨⟩⟩
    simp only [Bool.and_eq_true] at hhit
    exact absurd hrunning (waits_not_running hhit.1.2)
  | resumeJob jobId revision next now =>
    cases input <;> simp only [handler, Option.some.injEq, Prod.mk.injEq, reduceCtorEq] at hr
    rw [← hr.2]
    refine h.update fun row hhit => ⟨rfl, rfl, ⟨by rintro ⟨⟩, fun hrunning => ?_⟩, by rintro ⟨⟩⟩
    simp only [Bool.and_eq_true, decide_eq_true_eq] at hhit
    rw [hhit.1.2] at hrunning
    cases hrunning
  | deleteJob jobId revision =>
    cases input <;> simp only [handler, Option.some.injEq, Prod.mk.injEq, reduceCtorEq] at hr
    rw [← hr.2]
    rcases deleteJob_cases hinv jobId revision with heq | ⟨-, heq⟩
    · show Ledger (w.db.deleteJob jobId revision).2
      rw [heq]
      exact h
    · show Ledger (w.db.deleteJob jobId revision).2
      rw [heq]
      exact h.delete jobId
  | cancelJob jobId now =>
    cases input <;> simp only [handler, Option.some.injEq, Prod.mk.injEq, reduceCtorEq] at hr
    rw [← hr.2]
    refine h.update fun row hhit => ⟨rfl, rfl, ⟨by rintro ⟨⟩, fun hrunning => ?_⟩, fun _ => rfl⟩
    simp only [Bool.and_eq_true] at hhit
    exact absurd hrunning (cancellable_not_running hhit.2)
  | rescheduleJob jobId revision runAt timezone payload now =>
    cases input <;> simp only [handler, Option.some.injEq, Prod.mk.injEq, reduceCtorEq] at hr
    rw [← hr.2]
    refine h.update fun row hhit => ⟨rfl, rfl, ⟨by rintro ⟨⟩, fun hrunning => ?_⟩, by rintro ⟨⟩⟩
    simp only [Bool.and_eq_true] at hhit
    exact absurd hrunning (reschedulable_not_running hhit.2)

end Invariant

/-! ## What a settlement writes -/

/-- **The settlement of a claim**, as its call has computed it from the job it claimed. -/
structure Settling (config : Config) (log : Log Action Action.Reply) (claimed : Job)
    (ids : ClaimIds) (job : Job) (run : JobRun) (token : String) : Prop where
  entry : ∃ jobId now expiresAt, claimEntry jobId now expiresAt ids claimed ∈ log
  token : token = ids.token
  runId : run.id = ids.runId
  id : job.id = claimed.id
  ended : job.status ≠ .running
  failed : exceptional config log = true →
    job.status = .failed ∧ job.trigger.nextRunAt.isSome = true
  clean : exceptional config log = false → job.runCount = claimed.runCount + 1 ∧
    (job.status.terminal = true → job.trigger.nextRunAt = none)

/-- What the log of a call tells of what it writes. -/
def accountPre (config : Config) (_ : ℕ) (log : Log Action Action.Reply) (e : Action)
    (_ : World) : Prop :=
  match e with
  | .saveJob job => job.status = .active ∧ job.runCount = 0
  | .finalizeClaim job run token => ∃ claimed ids, Settling config log claimed ids job run token
  | _ => True

/-- A job that was claimed had a next run. -/
theorem claim_due {i : ℕ} {w w' : World} {jobId : String} {now expiresAt : DateTime}
    {input : Input} {ids : ClaimIds} {job : Job} (hinv : Inv w)
    (hr : handler i (.claimJob jobId now expiresAt) input w = some ((ids, .ok (some job)), w')) :
    job.trigger.nextRunAt.isSome = true := by
  cases input <;> simp only [handler, reduceCtorEq] at hr
  split at hr
  · split at hr
    · cases hr
    · cases hr
    · rename_i found db hok
      cases hr
      rcases claimJob_ok hinv.jobs hok with ⟨hnone, -⟩ | ⟨row, -, -, hdue, hsome, -⟩
      · cases hnone
      · obtain rfl := Option.some.inj hsome
        unfold claimable isDue at hdue
        simp only [Bool.and_eq_true, Option.any_eq_true] at hdue
        obtain ⟨⟨-, t, ht, -⟩, -⟩ := hdue
        exact Option.isSome_of_eq_some ht
  · cases hr

section Programs

variable {i : ℕ} {log : Log Action Action.Reply} {w : World} {α : Type} {config : Config}

/-- The call writes what its log tells. -/
abbrev Accounts (config : Config) (i : ℕ) (p : Prog α) (log : Log Action Action.Reply)
    (w : World) : Prop :=
  Safe protocol handler (accountPre config) i (fun _ _ _ => True) (fun _ _ _ => True) p log w

theorem accounts_now {post : α → Log Action Action.Reply → World → Prop} {f : DateTime → Prog α}
    (h : ∀ now w', Safe protocol handler (accountPre config) i post (fun _ _ _ => True) (f now)
      (log ++ [⟨.now, now⟩]) w') :
    Safe protocol handler (accountPre config) i post (fun _ _ _ => True) (clockNow >>= f) log w :=
  Safe.perform fun _ _ _ => ⟨trivial, fun _ now w' _ => h now w'⟩

theorem accounts_raise {e : PersistenceError} :
    Accounts config i (raisePersistence e : Prog α) log w := by
  cases e <;> exact Safe.raise trivial

theorem accounts_finalize {job : Job} {run : JobRun} {token : String}
    (h : ∃ claimed ids, Settling config log claimed ids job run token) :
    Accounts config i (finalize job run token) log w := by
  refine Safe.perform fun _ _ _ => ⟨h, fun _ r w' _ => ?_⟩
  cases r with
  | ok _ => exact Safe.ret trivial
  | error e => exact accounts_raise

@[simp] theorem afterExecution_id (job : Job) (run : JobRun) :
    (afterExecution job run).id = job.id := by
  unfold afterExecution
  split <;> rfl

@[simp] theorem afterExecution_trigger (job : Job) (run : JobRun) :
    (afterExecution job run).trigger = job.trigger := by
  unfold afterExecution
  split <;> rfl

/-- The exception branch of an attempt whose log shows it. -/
theorem accounts_failRun {job failing : Job} {run : JobRun} {ids : ClaimIds} {error : FailureInfo}
    (hentry : ∃ jobId now expiresAt, claimEntry jobId now expiresAt ids job ∈ log)
    (hid : failing.id = job.id) (hnext : failing.trigger.nextRunAt.isSome = true)
    (hrun : run.id = ids.runId)
    (hexc : ∀ now, exceptional config (log ++ [⟨.now, now⟩]) = true) :
    Accounts config i (failRun failing run ids.token error) log w := by
  refine accounts_now fun now w' => accounts_finalize ⟨job, ids, ?_⟩
  obtain ⟨jobId, claimedAt, expiresAt, hmem⟩ := hentry
  refine ⟨⟨jobId, claimedAt, expiresAt, List.mem_append_left _ hmem⟩, rfl, hrun, hid, nofun,
    fun _ => ⟨rfl, hnext⟩, fun hclean => ?_⟩
  rw [hexc now] at hclean
  cases hclean

/-- **A run** of a job that was claimed with a next run. -/
theorem accounts_runJob {jobId : String} {now expiresAt : DateTime} {ids : ClaimIds} {job : Job}
    {run : JobRun} (hrun : run.id = ids.runId) (hnext : job.trigger.nextRunAt.isSome = true) :
    Accounts config i (runJob config job run ids.token)
      [claimEntry jobId now expiresAt ids job] w := by
  have hentry : ∀ rest, ∃ jobId' now' expiresAt', claimEntry jobId' now' expiresAt' ids job ∈
      claimEntry jobId now expiresAt ids job :: rest :=
    fun rest => ⟨jobId, now, expiresAt, List.mem_cons_self ..⟩
  refine Safe.perform fun w₁ _ _ => ⟨trivial, fun input execution w₂ _ => ?_⟩
  cases execution with
  | raised counted error =>
    refine accounts_failRun (hentry _) ?_ ?_ hrun fun _ => rfl
    · split <;> rfl
    · split <;> exact hnext
  | finished status failure finishedAt =>
    dsimp only
    set running : Job := { job with status := .running } with hrunning
    set run' := finishRun run status failure finishedAt running with hrun'
    set after := afterExecution (countAttempt running run') run' with hafter
    have hid : after.id = job.id := by rw [hafter, afterExecution_id]; rfl
    have htrigger : after.trigger = job.trigger := by rw [hafter, afterExecution_trigger]; rfl
    have hcount : after.runCount = job.runCount + 1 := by rw [hafter, afterExecution_runCount]; rfl
    have hended : after.status ≠ .running := afterExecution_status _ _
    -- the log shows whether the next run could be computed
    have hshown : ∀ reading rest, exceptional config
        (claimEntry jobId now expiresAt ids job :: ⟨.execute running run,
          .finished status failure finishedAt⟩ :: ⟨.now, reading⟩ :: rest) =
        nextRaises config after reading := fun _ _ => rfl
    -- the settlement of the normal branch
    have hsettle : ∀ (next : Option DateTime) (rest : Log Action Action.Reply) w,
        (∀ updatedAt, exceptional config
          (claimEntry jobId now expiresAt ids job :: (rest ++ [⟨.now, updatedAt⟩])) = false) →
        (after.status.terminal = true → next = none) →
        Accounts config i (clockNow >>= fun updatedAt => finalize { after with
            trigger := { after.trigger with nextRunAt := next }
            updatedAt
            claimToken := some ids.token } run' ids.token)
          (claimEntry jobId now expiresAt ids job :: rest) w := by
      intro next rest w hclean hnone
      refine accounts_now fun updatedAt w' => accounts_finalize ⟨job, ids, ?_⟩
      refine ⟨hentry _, rfl, hrun, hid, hended, fun hexc => ?_, fun _ => ⟨hcount, hnone⟩⟩
      rw [List.cons_append, hclean] at hexc
      cases hexc
    -- the failure of the computation
    have hfail : ∀ (error : FailureInfo) (reading : DateTime) w,
        nextRaises config after reading = true →
        Accounts config i (failRun after run' ids.token error)
          [claimEntry jobId now expiresAt ids job, ⟨.execute running run,
            .finished status failure finishedAt⟩, ⟨.now, reading⟩] w := by
      intro error reading w hraises
      refine accounts_failRun (hentry _) hid (htrigger ▸ hnext) hrun fun later => ?_
      exact (hshown reading [⟨.now, later⟩]).trans hraises
    unfold nextRun
    by_cases hactive : after.status = .active ∧ after.trigger.triggerType ≠ .manual
    · rw [if_pos hactive]
      refine Safe.bind (accounts_now fun reading w₃ => Safe.ret ?_)
      have hraises : nextRaises config after reading =
          match computeNext after.trigger reading with
          | .error _ => true
          | .ok _ => false := by
        rw [nextRaises, if_pos hactive]
      cases hnextRun : computeNext after.trigger reading with
      | error x =>
        rw [hnextRun] at hraises
        exact hfail _ reading w₃ hraises
      | ok next =>
        rw [hnextRun] at hraises
        refine hsettle next _ w₃ (fun _ => (hshown reading _).trans hraises) fun hterminal => ?_
        rw [hactive.1] at hterminal
        cases hterminal
    · rw [if_neg hactive]
      by_cases hretrying : after.status = .retrying
      · rw [if_pos hretrying]
        refine Safe.bind (accounts_now fun reading w₃ => ?_)
        have hraises : nextRaises config after reading =
            (reading.plus config.retryDelay).isNone := by
          rw [nextRaises, if_neg hactive, if_pos hretrying]
        cases hplus : reading.plus config.retryDelay with
        | none =>
          rw [hplus] at hraises
          exact Safe.ret (hfail _ reading w₃ hraises)
        | some t =>
          rw [hplus] at hraises
          refine Safe.ret (hsettle (some t) _ w₃ (fun _ => (hshown reading _).trans hraises)
            fun hterminal => ?_)
          rw [hretrying] at hterminal
          cases hterminal
      · rw [if_neg hretrying]
        refine hsettle none _ w₂ (fun updatedAt => (hshown updatedAt []).trans ?_) fun _ => rfl
        rw [nextRaises, if_neg hactive, if_neg hretrying]

theorem accounts_dispatchDueJob (jobId : String) (now : DateTime) :
    Accounts config i (dispatchDueJob config jobId now) [] w := by
  unfold dispatchDueJob plusOrRaise
  split
  · refine Safe.perform fun w₁ _ hinv => ⟨trivial, fun input r w₂ hr => ?_⟩
    obtain ⟨ids, reply⟩ := r
    cases reply with
    | error e => exact accounts_raise
    | ok claimed =>
      cases claimed with
      | none => exact Safe.ret trivial
      | some job => exact accounts_runJob rfl (claim_due hinv hr)
  · exact Safe.raise trivial

theorem accounts_schedule (request : ScheduleRequest) :
    Accounts config i (schedule request) log w := by
  unfold schedule
  split
  · exact Safe.raise trivial
  · have hnext : ∀ f : Except Raised (Option DateTime) → Prog Job,
        (∀ next log w, Accounts config i (f next) log w) →
        Accounts config i (firstRun request.trigger >>= f) log w := by
      intro f hf
      unfold firstRun
      split
      · exact hf _ log w
      · exact Safe.bind (accounts_now fun now w' => Safe.ret (hf _ _ w'))
    refine hnext _ fun next log w => ?_
    cases next with
    | error x => exact Safe.raise trivial
    | ok next =>
      refine Safe.perform fun _ _ _ => ⟨trivial, fun _ id w' _ => ?_⟩
      refine accounts_now fun createdAt w' => ?_
      refine Safe.perform fun _ _ _ => ⟨⟨rfl, rfl⟩, fun _ r w' _ => ?_⟩
      cases r with
      | ok _ => exact Safe.ret trivial
      | error e => exact accounts_raise

/-- **Every call** writes what its log tells. -/
theorem accounts_start (request : Request) :
    Accounts request.config i (start request) [] w := by
  have hone : ∀ (config : Config) (e : Action) (f : e.Reply → Prog Unit),
      (∀ log w, accountPre config i log e w) → (∀ r, f r = .ret ()) →
      Accounts config i (Program.perform e >>= f) [] w := by
    intro config e f hpre hf
    refine Safe.perform fun w' _ _ => ⟨hpre _ w', fun _ r w'' _ => ?_⟩
    rw [hf r]
    exact Safe.ret trivial
  cases request with
  | schedule request =>
    exact Safe.bind ((accounts_schedule request).mono (fun _ _ _ _ => Safe.ret trivial)
      fun _ _ _ h => h)
  | dispatch config jobId now => exact accounts_dispatchDueJob jobId now
  | renew jobId token expiresAt now => exact hone _ _ _ (fun _ _ => trivial) fun _ => rfl
  | release config now =>
    show Accounts config i (release config now) [] w
    unfold release plusOrRaise
    split
    · exact hone _ _ _ (fun _ _ => trivial) fun _ => rfl
    · exact Safe.raise trivial
  | pause jobId revision now => exact hone _ _ _ (fun _ _ => trivial) fun _ => rfl
  | resume jobId revision next now => exact hone _ _ _ (fun _ _ => trivial) fun _ => rfl
  | delete jobId revision => exact hone _ _ _ (fun _ _ => trivial) fun _ => rfl
  | cancel jobId now => exact hone _ _ _ (fun _ _ => trivial) fun _ => rfl
  | reschedule jobId revision runAt timezone payload now =>
    exact hone _ _ _ (fun _ _ => trivial) fun _ => rfl

end Programs

/-! ## Runs -/

section Runs

variable {c c' : Calls}

/-- What a call is about to write is what its log tells. -/
theorem Reachable.accountPre (h : Reachable c) {i : ℕ} {k : Request}
    {log : Log Action Action.Reply} {e : Action} {next : e.Reply → Prog Unit}
    (hi : c.calls[i]? = some ⟨k, log, .await e next⟩) :
    Scheduler.accountPre k.config i log e c.world := by
  have hsafe : Accounts k.config i (.await e next) log c.world :=
    Reaches.every (fun request => request = k) sound startsSafe inv_initial
      (fun i request w hk _ => hk ▸ accounts_start request)
      (fun _ _ _ _ _ _ _ _ => trivial) (fun _ _ _ _ _ _ _ _ => trivial) h rfl hi
  exact (hsafe.act h.inv).1

end Runs

/-! ## A run -/

namespace Scenario

/-- The attempt fails, and its retry would be due after the last date there is: adding the retry
delay to the clock raises once the executor has counted the attempt. -/
def raising : List (Event Request Input) := events.take 5 ++ ([
  .arrive (.dispatch { retryDelay := 300000000000000000 } "job" (at_ 9)),
  .act 1 (.claim ⟨"token1", "run1"⟩), .act 1 (.executed (.finished .failed none (at_ 9))),
  .act 1 (.clock (at_ 9)), .act 1 (.clock (at_ 9)), .act 1 .reached] : List (Event Request Input))

/-- The configuration it leads to. -/
def raised : Calls := (run handler start (idle World.initial) raising).getD (idle World.initial)

/-- The run of a claim, a release and a failed attempt has no exception. -/
theorem clean : ReachesIf handler start settlesCleanly (idle World.initial) after := by
  have hrun : (runIf handler start settlesCleanly (idle World.initial) events).isSome = true := by
    decide +kernel
  obtain ⟨c, hc⟩ := Option.isSome_iff_exists.mp hrun
  refine ⟨events, ?_⟩
  rw [after, run_of_runIf hc]
  exact hc

end Scenario

end Scheduler

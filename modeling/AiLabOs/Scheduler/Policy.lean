import AiLabOs.Process.Solo
import AiLabOs.Scheduler.Ownership

/-!
# Scheduler: the retry policy

An attempt that fails is settled twice over: by the runtime that ran it, from the job it has in
memory, or by whoever releases its claim after it died, from the row. Both count the attempt and
retry the job after the retry delay, until it has been tried as often as it may be.

## Main definitions

* `Retried`: what a failed attempt makes of a job
* `SameSettlement`: two rows that differ in none of the columns a settlement decides about
* `failing`: the environment of an attempt that fails at an instant
* `Attempt`, `Tried`: attempts at a job, each of which died or failed

## Main results

* `retried_release`, `solo_failing`: both ways retry the job
* `crash_path_is_failure_path`: they agree, and a job is tried as often either way
-/

namespace Scheduler

open Process

/-! ## The policy -/

/-- The job after a failed attempt: retried at an instant, or failed for good. -/
structure Retried (row : Job) (retryAt : DateTime) (new : Job) : Prop where
  id : new.id = row.id
  maxRetries : new.maxRetries = row.maxRetries
  status : new.status = if row.maxRetries ≤ row.retryCount + 1 then .failed else .retrying
  retryCount : new.retryCount = row.retryCount + 1
  runCount : new.runCount = row.runCount + 1
  token : new.claimToken = none
  expires : new.claimExpiresAt = none
  nextRunAt : new.trigger.nextRunAt =
    if row.maxRetries ≤ row.retryCount + 1 then none else some retryAt

/-- Two rows of a job that agree in what a settlement decides. -/
structure SameSettlement (a b : Job) : Prop where
  id : a.id = b.id
  status : a.status = b.status
  retryCount : a.retryCount = b.retryCount
  runCount : a.runCount = b.runCount
  token : a.claimToken = b.claimToken
  expires : a.claimExpiresAt = b.claimExpiresAt
  nextRunAt : a.trigger.nextRunAt = b.trigger.nextRunAt

section Policy

variable {row new new' : Job} {retryAt : DateTime}

/-- A failed attempt leaves nothing open. -/
theorem Retried.same (h : Retried row retryAt new) (h' : Retried row retryAt new') :
    SameSettlement new new' where
  id := h.id.trans h'.id.symm
  status := h.status.trans h'.status.symm
  retryCount := h.retryCount.trans h'.retryCount.symm
  runCount := h.runCount.trans h'.runCount.symm
  token := h.token.trans h'.token.symm
  expires := h.expires.trans h'.expires.symm
  nextRunAt := h.nextRunAt.trans h'.nextRunAt.symm

theorem Retried.failed_iff (h : Retried row retryAt new) :
    new.status = .failed ↔ row.maxRetries ≤ row.retryCount + 1 := by
  rw [h.status]
  split
  · exact iff_of_true rfl ‹_›
  · exact iff_of_false nofun ‹_›

/-- The terms alone decide what a failed attempt makes of a job. -/
theorem Retried.of_terms {row' : Job} (hsame : SameTerms row row')
    (h : Retried row' retryAt new) : Retried row retryAt new where
  id := h.id.trans hsame.id.symm
  maxRetries := h.maxRetries.trans hsame.maxRetries.symm
  status := by rw [h.status, hsame.maxRetries, hsame.retryCount]
  retryCount := by rw [h.retryCount, hsame.retryCount]
  runCount := by rw [h.runCount, hsame.runCount]
  token := h.token
  expires := h.expires
  nextRunAt := by rw [h.nextRunAt, hsame.maxRetries, hsame.retryCount]

end Policy

/-! ## The release of a claim -/

section Release

variable {db : Database} {row : Job} {now retryAt : DateTime}

theorem retried_releasedRow (row : Job) (now retryAt : DateTime) :
    Retried row retryAt (Database.releasedRow now retryAt row) :=
  ⟨rfl, rfl, rfl, rfl, rfl, rfl, rfl, rfl⟩

/-- **A release** retries every job whose claim has expired. -/
theorem retried_release (hrow : row ∈ db.jobs) (hexpired : expired now row = true) :
    ∃ new ∈ (db.releaseExpiredClaims now retryAt).2.jobs, Retried row retryAt new := by
  refine ⟨_, Table.mem_update.mpr ⟨row, hrow, rfl⟩, ?_⟩
  rw [if_pos hexpired]
  exact retried_releasedRow row now retryAt

end Release

/-! ## A failed attempt -/

/-- The environment of an attempt that the executor reports failed or timed out, while the clock
shows `now`. -/
def failing (now : DateTime) : Handler Action Action.Reply Input World
  | i, .now, .clock reading, w =>
    if reading = now then handler i .now (.clock reading) w else none
  | i, .execute job run, .executed (.finished status failure finishedAt), w =>
    if status = .failed ∨ status = .timeout then
      handler i (.execute job run) (.executed (.finished status failure finishedAt)) w
    else none
  | i, .finalizeClaim job run token, .reached, w =>
    handler i (.finalizeClaim job run token) .reached w
  | _, _, _, _ => none

section Attempt

variable {w : World} {row job : Job} {run : JobRun} {token : String} {n i : ℕ}
variable {log : Log Action Action.Reply} {now retryAt : DateTime} {α : Type}

/-- A clock reading. -/
theorem solo_now {post : α → Log Action Action.Reply → World → Prop}
    {fail : Raised → Log Action Action.Reply → World → Prop} {f : DateTime → Prog α}
    (h : ∀ log', Solo (failing now) i post fail (f now) log' w) :
    Solo (failing now) i post fail (clockNow >>= f) log w := by
  refine Solo.perform ⟨.clock now, now, w, by simp [failing, handler]⟩ fun input r w' hr => ?_
  cases input <;> simp only [failing, reduceCtorEq] at hr
  split at hr
  · rename_i heq
    simp only [handler, Option.some.injEq, Prod.mk.injEq] at hr
    rw [← hr.1, ← hr.2, heq]
    exact h _
  · cases hr

/-- **The owner of a claim** retries the job when its attempt fails. -/
theorem solo_failing (config : Config) (run : JobRun) (h : Inv w) (hrow : row ∈ w.db.jobs)
    (htoken : row.claimToken = some token) (hsame : SameTerms job row)
    (hknown : Known w token run.id n) (hretry : now.plus config.retryDelay = some retryAt) :
    Solo (failing now) i
      (fun _ _ w' => Table.Unique Job.id w'.db.jobs ∧ ∃ new ∈ w'.db.jobs, Retried row retryAt new)
      (fun _ _ _ => False) (runJob config job run token) log w := by
  have hcan : ∀ e : Execution, e = .finished .failed none now →
      failing now i (.execute { job with status := .running } run) (.executed e) w =
        some (e, w) := by
    rintro e rfl
    simp [failing, handler, Execution.Ended]
  refine Solo.perform ⟨_, _, _, hcan _ rfl⟩ fun input execution w' hr => ?_
  -- the execution ended with a failure or a timeout, and left the world as it was
  obtain ⟨status, failure, finishedAt, rfl, rfl, hstatus⟩ : ∃ status failure finishedAt,
      execution = .finished status failure finishedAt ∧ w' = w ∧ status ≠ .success := by
    cases input <;> simp only [failing, reduceCtorEq] at hr
    rename_i execution'
    cases execution' <;> simp only [reduceCtorEq] at hr
    split at hr
    · rename_i hended
      simp only [handler] at hr
      split at hr
      · cases hr
        refine ⟨_, _, _, rfl, rfl, ?_⟩
        rcases hended with rfl | rfl
        all_goals simp
      · cases hr
    · cases hr
  dsimp only
  set run' := finishRun run status failure finishedAt { job with status := .running } with hrun'
  set after := afterExecution (countAttempt { job with status := .running } run') run' with hafter
  have hne : run'.status ≠ .success := hstatus
  have hvalue : after = { job with
      lastRunAt := run'.finishedAt
      lastResult := run'.status.value
      lastError := run'.failure
      runCount := job.runCount + 1
      retryCount := job.retryCount + 1
      status := if job.maxRetries ≤ job.retryCount + 1 then .failed else .retrying } := by
    rw [hafter, afterExecution, if_neg hne]
    rfl
  have hheld : ∀ job' : Job, job'.id = row.id → ∃ runs, w'.db.finalizeClaim job' run' token =
      .ok ⟨Table.put Job.id (Database.finalizedRow job' row) w'.db.jobs, runs⟩ :=
    fun job' hid => finalize_held h hrow htoken hid hknown
  -- the settlement of the job that the attempt leaves
  have hsettle : ∀ (next : Option DateTime) (updatedAt : DateTime) log,
      next = (if row.maxRetries ≤ row.retryCount + 1 then none else some retryAt) →
      Solo (failing now) i
        (fun _ _ w' => Table.Unique Job.id w'.db.jobs ∧ ∃ new ∈ w'.db.jobs, Retried row retryAt new)
        (fun _ _ _ => False)
        (finalize { after with
          trigger := { after.trigger with nextRunAt := next }
          updatedAt
          claimToken := some token } run' token) log w' := by
    intro next updatedAt log hnext
    obtain ⟨runs, hok⟩ := hheld { after with
      trigger := { after.trigger with nextRunAt := next }
      updatedAt
      claimToken := some token } (by rw [hvalue]; exact hsame.id)
    refine Solo.perform ⟨.reached, _, _, by simp only [failing, handler, hok]; rfl⟩
      fun input r w'' hr => ?_
    cases input <;> simp only [failing, handler, reduceCtorEq] at hr
    rw [hok] at hr
    cases hr
    refine Solo.ret ⟨h.jobs.put, _, Table.mem_put_self hrow rfl, ?_⟩
    rw [hvalue]
    refine ⟨rfl, rfl, ?_, ?_, ?_, rfl, rfl, hnext⟩
    · show (if job.maxRetries ≤ _ then _ else _) = _
      rw [hsame.maxRetries, hsame.retryCount]
    · show job.retryCount + 1 = _
      rw [hsame.retryCount]
    · show job.runCount + 1 = _
      rw [hsame.runCount]
  have hterms : (job.maxRetries ≤ job.retryCount + 1) ↔ row.maxRetries ≤ row.retryCount + 1 := by
    rw [hsame.maxRetries, hsame.retryCount]
  by_cases hmax : row.maxRetries ≤ row.retryCount + 1
  · have hfailed : after.status = .failed := by
      rw [hvalue]
      exact if_pos (hterms.mpr hmax)
    have hnext : nextRun config after = .ret (.ok none) := by
      rw [nextRun, hfailed]
      rfl
    rw [hnext]
    exact solo_now fun log' => hsettle none now log' (if_pos hmax).symm
  · have hretrying : after.status = .retrying := by
      rw [hvalue]
      exact if_neg fun hle => hmax (hterms.mp hle)
    obtain ⟨plan, hnext, hplan⟩ : ∃ plan : DateTime → Prog (Except Raised (Option DateTime)),
        nextRun config after = clockNow >>= plan ∧ plan now = .ret (.ok (some retryAt)) := by
      rw [nextRun, hretrying, if_neg (by simp), if_pos rfl]
      refine ⟨_, rfl, ?_⟩
      rw [hretry]
      rfl
    rw [hnext]
    refine Solo.bind (solo_now fun log' => ?_)
    rw [hplan]
    refine Solo.ret ?_
    exact solo_now fun log' => hsettle (some retryAt) now log' (if_neg hmax).symm

end Attempt

/-! ## Attempts -/

/-- One attempt at a job that waits: claimed, it dies and its claim is released, or it fails and its
owner settles it. -/
inductive Attempt (config : Config) (row new : Job) : Prop
  | dies (w₀ : World) (c : Calls) (i : ℕ) (held : Job) (ids : ClaimIds)
      (claimedAt expiresAt now retryAt : DateTime) (hw₀ : Inv w₀)
      (h : Reaches handler start (idle w₀) c)
      (hdue : claimable row claimedAt = true)
      (hclaimed : ClaimedBy c i (Database.claimedRow claimedAt ids.token expiresAt row) ids)
      (hheld : held ∈ c.world.db.jobs) (htoken : held.claimToken = some ids.token)
      (hexpired : expired now held = true) (hretry : now.plus config.retryDelay = some retryAt)
      (hnew : new ∈ (c.world.db.releaseExpiredClaims now retryAt).2.jobs) (hid : new.id = row.id)
  | fails (w₀ : World) (c : Calls) (i : ℕ) (held : Job) (ids : ClaimIds)
      (claimedAt expiresAt now retryAt : DateTime) (hw₀ : Inv w₀)
      (h : Reaches handler start (idle w₀) c)
      (hdue : claimable row claimedAt = true)
      (hclaimed : ClaimedBy c i (Database.claimedRow claimedAt ids.token expiresAt row) ids)
      (hheld : held ∈ c.world.db.jobs) (htoken : held.claimToken = some ids.token)
      (hretry : now.plus config.retryDelay = some retryAt)
      (log log' : Log Action Action.Reply) (w' : World)
      (hrun : Alone (failing now) i (runJob config
        (Database.claimedRow claimedAt ids.token expiresAt row)
        (newRun (Database.claimedRow claimedAt ids.token expiresAt row) ids claimedAt) ids.token)
        log c.world (.returned ()) log' w')
      (hnew : new ∈ w'.db.jobs) (hid : new.id = row.id)

/-- Attempts at a job, one after the other. Between them anything may happen that leaves it as it
is. -/
inductive Tried (config : Config) (row : Job) : ℕ → Job → Prop
  | none : Tried config row 0 row
  | next (n : ℕ) (mid new : Job) (htried : Tried config row n mid)
      (hattempt : Attempt config mid new) : Tried config row (n + 1) new

section Tries

variable {config : Config} {row new : Job}

/-- **One attempt**, however it ends, retries a job that waited. -/
theorem Attempt.retried (h : Attempt config row new) :
    row.status.waits = true ∧ ∃ retryAt, Retried row retryAt new := by
  have hwaits : ∀ t, claimable row t = true → row.status.waits = true := by
    intro t hdue
    unfold claimable at hdue
    simp only [Bool.and_eq_true] at hdue
    exact hdue.1.1
  cases h with
  | dies w₀ c i held ids claimedAt expiresAt now retryAt hw₀ h hdue hclaimed hheld htoken hexpired
      hretry hnew hid =>
    obtain ⟨-, howns⟩ := owns_of_reaches hw₀ h hclaimed
    have hsame := howns held hheld htoken
    obtain ⟨new', hnew', hretried⟩ := retried_release hheld hexpired
    have hunique : Table.Unique Job.id (c.world.db.releaseExpiredClaims now retryAt).2.jobs :=
      ((inv_of_reaches hw₀ h).release now retryAt).jobs
    have heq : new = new' :=
      hunique.eq hnew hnew' (hid.trans (hsame.id.trans hretried.id.symm))
    subst heq
    exact ⟨hwaits _ hdue, retryAt, Retried.of_terms ⟨hsame.id, hsame.trigger, hsame.maxRetries,
      hsame.retryCount, hsame.runCount⟩ hretried⟩
  | fails w₀ c i held ids claimedAt expiresAt now retryAt hw₀ h hdue hclaimed hheld htoken hretry
      log log' w' hrun hnew hid =>
    obtain ⟨hknown, howns⟩ := owns_of_reaches hw₀ h hclaimed
    have hsame := howns held hheld htoken
    obtain ⟨hunique, new', hnew', hretried⟩ := (solo_failing config
      (newRun (Database.claimedRow claimedAt ids.token expiresAt row) ids claimedAt)
      (inv_of_reaches hw₀ h) hheld htoken hsame hknown hretry).alone hrun
    have heq : new = new' :=
      hunique.eq hnew hnew' (hid.trans (hsame.id.trans hretried.id.symm))
    subst heq
    exact ⟨hwaits _ hdue, retryAt, Retried.of_terms ⟨hsame.id, hsame.trigger, hsame.maxRetries,
      hsame.retryCount, hsame.runCount⟩ hretried⟩

/-- The counters after some attempts. -/
theorem Tried.counts {n : ℕ} (h : Tried config row n new) :
    new.maxRetries = row.maxRetries ∧ new.retryCount = row.retryCount + n ∧
      new.runCount = row.runCount + n := by
  induction h with
  | none => exact ⟨rfl, rfl, rfl⟩
  | next n mid new htried hattempt ih =>
    obtain ⟨hmax, hretry, hrun⟩ := ih
    obtain ⟨-, retryAt, hretried⟩ := hattempt.retried
    refine ⟨hretried.maxRetries.trans hmax, ?_, ?_⟩
    · rw [hretried.retryCount, hretry]
      exact Nat.add_assoc ..
    · rw [hretried.runCount, hrun]
      exact Nat.add_assoc ..

theorem Tried.last {n : ℕ} (h : Tried config row (n + 1) new) :
    ∃ mid, Tried config row n mid ∧ Attempt config mid new := by
  cases h with
  | next n mid new htried hattempt => exact ⟨mid, htried, hattempt⟩

/-- **How often a job is tried**: its last attempt is the one that uses up its retries. -/
theorem Tried.failed_iff {n : ℕ} (h : Tried config row (n + 1) new) :
    new.status = .failed ↔ ((n + 1 : ℕ) : Int) = max 1 (row.maxRetries - row.retryCount) := by
  obtain ⟨mid, htried, hattempt⟩ := h.last
  obtain ⟨hmax, hretry, -⟩ := htried.counts
  obtain ⟨hwaits, retryAt, hretried⟩ := hattempt.retried
  rw [hretried.failed_iff, hmax, hretry]
  -- the attempt before the last one, if any, did not fail the job for good
  have hbefore : n = 0 ∨ (row.retryCount + n : Int) < row.maxRetries := by
    cases n with
    | zero => exact .inl rfl
    | succ n =>
      right
      obtain ⟨mid', htried', hattempt'⟩ := htried.last
      obtain ⟨hmax', hretry', -⟩ := htried'.counts
      obtain ⟨-, retryAt', hretried'⟩ := hattempt'.retried
      by_contra hle
      have hfailed : mid.status = .failed := by
        rw [hretried'.failed_iff, hmax', hretry']
        push_cast at hle ⊢
        omega
      rw [hfailed] at hwaits
      cases hwaits
  push_cast
  omega

end Tries

/-! ## The laws -/

section Laws

/-- **The two settlements** of a claim agree: the release of a row whose claim has expired, and the
attempt of its owner that fails at the same instant. -/
def SettlesAlike (config : Config) (w : World) (row job : Job) (ids : ClaimIds)
    (claimedAt now retryAt : DateTime) : Prop :=
  ∃ released ∈ (w.db.releaseExpiredClaims now retryAt).2.jobs,
    released.id = row.id ∧ (released.status = .failed ↔ row.maxRetries ≤ row.retryCount + 1) ∧
    released.trigger.nextRunAt = (if released.status = .failed then none else some retryAt) ∧
    ∀ i log, Solo (failing now) i
      (fun _ _ w' => ∃ failed ∈ w'.db.jobs, SameSettlement released failed) (fun _ _ _ => False)
      (runJob config job (newRun job ids claimedAt) ids.token) log w

/-- **The crash path is the failure path.** In every state whose tables agree, whatever the counters
of the job are: a running job is under a claim, and for whoever has it in memory under that claim
the release and a failed attempt at the same instant leave the same row. In every run from such a
state whoever claimed a job has it so in memory. So a job whose process dies on every attempt is
tried as often as one that fails on every attempt, in whatever order the two mix. -/
theorem crash_path_is_failure_path (config : Config) :
    (∀ w, Inv w → ∀ row ∈ w.db.jobs, row.status = .running →
      (∃ (ids : ClaimIds) (n : ℕ), row.claimToken = some ids.token ∧
        Known w ids.token ids.runId n) ∧
      ∀ job (ids : ClaimIds) n, row.claimToken = some ids.token →
        Known w ids.token ids.runId n → SameTerms job row →
        ∀ claimedAt now retryAt, expired now row = true →
          now.plus config.retryDelay = some retryAt →
          SettlesAlike config w row job ids claimedAt now retryAt) ∧
    (∀ w₀ c, Inv w₀ → Reaches handler start (idle w₀) c → Inv c.world ∧
      ∀ i job ids, ClaimedBy c i job ids → Known c.world ids.token ids.runId job.runCount ∧
        ∀ row ∈ c.world.db.jobs, row.claimToken = some ids.token → SameTerms job row) ∧
    ∀ row n new, Tried config row (n + 1) new →
      (new.status = .failed ↔ ((n + 1 : ℕ) : Int) = max 1 (row.maxRetries - row.retryCount)) := by
  refine ⟨fun w h row hrow hrunning => ⟨?_, ?_⟩, fun w₀ c hw₀ h => ⟨inv_of_reaches hw₀ h, ?_⟩,
    fun row n new htried => htried.failed_iff⟩
  · obtain ⟨run, -, hheld, -⟩ := (h.consistent row hrow).held hrunning
    obtain ⟨claim, hclaim, hct⟩ := h.claim_of_token hrow hheld.token
    exact ⟨⟨claim.token, claim.runId⟩, claim.runCount, by rw [hheld.token, hct], claim, hclaim,
      rfl, rfl, rfl⟩
  · intro job ids n htoken hknown hsame claimedAt now retryAt hexpired hretry
    obtain ⟨released, hreleased, hretried⟩ := retried_release hrow hexpired
    refine ⟨released, hreleased, hretried.id, hretried.failed_iff, ?_, fun i log => ?_⟩
    · rw [hretried.nextRunAt]
      exact if_congr hretried.failed_iff.symm rfl rfl
    · refine (solo_failing config (newRun job ids claimedAt) h hrow htoken hsame hknown
        hretry).mono ?_ fun _ _ _ hfalse => hfalse
      rintro _ _ w' ⟨-, new, hnew, hnewRetried⟩
      exact ⟨new, hnew, hretried.same hnewRetried⟩
  · exact fun i job ids hclaimed => owns_of_reaches hw₀ h hclaimed

end Laws

/-! ## A run -/

namespace Scenario

/-- Tables with one job, which failed four times and succeeded five times, and has three tries
left. -/
def worn : World where
  db.jobs := [{
    id := "job"
    name := "backup"
    trigger := { triggerType := .oneShot, nextRunAt := at_ 8 }
    status := .retrying
    maxRetries := 7
    retryCount := 4
    runCount := 9
    updatedAt := at_ 8 }]
  db.runs := []
  claims := []
  settled := []

theorem inv_worn : Inv worn where
  jobs := List.nodup_singleton _
  runs := List.nodup_nil
  tokens := List.nodup_nil
  claimTokens := List.nodup_nil
  consistent job hjob := by
    rw [List.mem_singleton.mp hjob]
    exact ⟨fun _ => ⟨⟨by decide, rfl, rfl⟩, fun _ h => by cases h⟩, fun h => by cases h⟩
  owned _ h := by cases h
  claimed _ h := by cases h
  counted _ _ _ h := by cases h
  attempts _ h := by cases h
  settledOnce := List.nodup_nil
  settledClaim _ h := by cases h
  settledGone _ h := by cases h

/-- The job is claimed at nine, and its owner is running it. -/
def claimed : Calls :=
  (run handler start (idle worn)
    [.arrive (.dispatch {} "job" (at_ 9)), .act 0 (.claim ⟨"token1", "run1"⟩)]).getD (idle worn)

theorem reaches_claimed : Reaches handler start (idle worn) claimed :=
  reaches_getD (by decide +kernel)

end Scenario

/-- In that state the owner's failure at ten and the release of its claim at ten leave the same
row. -/
theorem crash_path_is_failure_path_scenario :
    ∃ row ∈ Scenario.claimed.world.db.jobs, row.maxRetries = 7 ∧ row.retryCount = 4 ∧
      ∃ ids retryAt, SettlesAlike {} Scenario.claimed.world row row ids (Scenario.at_ 9)
        (Scenario.at_ 10) retryAt := by
  have hrow : ∃ row ∈ Scenario.claimed.world.db.jobs, row.status = .running ∧
      expired (Scenario.at_ 10) row = true ∧ row.maxRetries = 7 ∧ row.retryCount = 4 := by
    decide +kernel
  have hretry : ((Scenario.at_ 10).plus 1000000).isSome = true := by decide +kernel
  obtain ⟨row, hmem, hrunning, hexpired, hmax, hcount⟩ := hrow
  obtain ⟨retryAt, hplus⟩ := Option.isSome_iff_exists.mp hretry
  have hlaw := crash_path_is_failure_path {}
  have hinv := (hlaw.2.1 _ _ Scenario.inv_worn Scenario.reaches_claimed).1
  obtain ⟨⟨ids, n, htoken, hknown⟩, hsettles⟩ := hlaw.1 _ hinv row hmem hrunning
  exact ⟨row, hmem, hmax, hcount, ids, retryAt,
    hsettles row ids n htoken hknown (.refl row) _ _ _ hexpired hplus⟩

end Scheduler

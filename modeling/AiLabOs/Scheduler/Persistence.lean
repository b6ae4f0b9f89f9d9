import AiLabOs.Base.Table
import AiLabOs.Scheduler.Models

/-!
# Scheduler: persistence

Two tables: the jobs and their runs. Every operation is one transaction: a conditional update of a
job, with the insertion or the update of its run where it has one. Instants are stored as
`isoformat` texts, and the conditions compare these texts.

## Main definitions

* `Database`: the two tables
* `claimable`, `expired`: the conditions of a claim and of its release
* `Database.saveJob`, `claimJob`, `finalizeClaim`, `renewClaim`, `releaseExpiredClaims`, `pauseJob`,
  `resumeJob`, `deleteJob`, `cancelJob`, `rescheduleJob`: the operations
-/

namespace Scheduler

inductive PersistenceError where
  | persistence (message : String)
  | claimLost (message : String)
deriving DecidableEq, Repr

/-- `scheduler.db`. -/
structure Database where
  jobs : List Job
  runs : List JobRun
deriving DecidableEq

/-- `status IN ('active', 'retrying')`. -/
def JobStatus.waits (status : JobStatus) : Bool := status = .active || status = .retrying

/-- `next_run_at IS NOT NULL AND next_run_at<=now`. -/
def isDue (job : Job) (now : DateTime) : Bool :=
  job.trigger.nextRunAt.any fun t => t.isoformat ≤ now.isoformat

/-- The condition of a claim. -/
def claimable (job : Job) (now : DateTime) : Bool :=
  job.status.waits && isDue job now &&
    (job.claimToken.isNone || job.claimExpiresAt.any fun t => t.isoformat < now.isoformat)

/-- The condition of a release. -/
def expired (now : DateTime) (job : Job) : Bool :=
  job.status = .running && job.claimExpiresAt.any fun t => t.isoformat ≤ now.isoformat

/-- The condition of a renewal. -/
def renewable (jobId token : String) (now : DateTime) (job : Job) : Bool :=
  job.id = jobId && job.status = .running && job.claimToken = some token &&
    job.claimExpiresAt.any fun t => now.isoformat < t.isoformat

/-- The texts are compared as the instants they stand for. -/
theorem expired_iff {now : DateTime} {job : Job} : expired now job = true ↔
    job.status = .running ∧ ∃ t, job.claimExpiresAt = some t ∧ t ≤ now := by
  simp only [expired, Bool.and_eq_true, decide_eq_true_eq, Option.any_eq_true,
    DateTime.isoformat_le]

theorem renewable_iff {jobId token : String} {now : DateTime} {job : Job} :
    renewable jobId token now job = true ↔ job.id = jobId ∧ job.status = .running ∧
      job.claimToken = some token ∧ ∃ t, job.claimExpiresAt = some t ∧ now < t := by
  simp only [renewable, Bool.and_eq_true, decide_eq_true_eq, Option.any_eq_true,
    DateTime.isoformat_lt, and_assoc]

/-- `status IN ('active', 'retrying', 'paused')`. -/
def cancellable (status : JobStatus) : Bool := status.waits || status = .paused

/-- `status IN ('active', 'retrying', 'paused', 'failed', 'cancelled')`. -/
def reschedulable (status : JobStatus) : Bool :=
  status.waits || status = .paused || status = .failed || status = .cancelled

/-- The failure of a run whose claim has expired. -/
def expiredFailure : FailureInfo where
  code := "scheduler.job.claim_expired"
  category := .executionFailure
  message := "Scheduler claim expired"
  component := "scheduler.persistence"
  operation := "recover_claim"
  retryable := true

namespace Database

variable (db : Database)

/-- The empty tables. -/
def empty : Database := ⟨[], []⟩

/-- `get_job`. -/
def getJob (jobId : String) : Option Job := db.jobs.find? fun job => job.id = jobId

/-- `save_job`. -/
def saveJob (job : Job) : Except PersistenceError Database :=
  if db.jobs.any fun row => row.id = job.id then
    .error (.persistence "Scheduler job save failed")
  else .ok { db with jobs := db.jobs ++ [job] }

/-- The row of a claimed job. -/
def claimedRow (now : DateTime) (token : String) (expiresAt : DateTime) (job : Job) : Job :=
  { job with
    status := .running
    claimToken := some token
    claimExpiresAt := some expiresAt
    updatedAt := now
    revision := job.revision + 1 }

/-- The row of a new run. -/
def claimedRun (now : DateTime) (token runId : String) (row : Job) : JobRun where
  id := runId
  jobId := row.id
  attempt := row.runCount + 1
  startedAt := now
  claimToken := token
  traceId := if row.traceId = "" then runId else row.traceId

/-- `claim_job`. -/
def claimJob (jobId : String) (now : DateTime) (token : String) (expiresAt : DateTime)
    (runId : String) : Except PersistenceError (Option Job × Database) :=
  let hit := fun job : Job => job.id = jobId && claimable job now
  if db.jobs.countP hit ≠ 1 then .ok (none, db)
  else
    let jobs := Table.update hit (claimedRow now token expiresAt) db.jobs
    match jobs.find? fun job => job.id = jobId with
    | none => .error (.persistence "Scheduler job claim failed")
    | some row =>
      if db.runs.any fun run => run.id = runId then
        .error (.persistence "Scheduler job claim failed")
      else .ok (some row, ⟨jobs, db.runs ++ [claimedRun now token runId row]⟩)

/-- The row of a job whose claim is settled by its owner. -/
def finalizedRow (job row : Job) : Job :=
  { row with
    status := job.status
    trigger := { row.trigger with nextRunAt := job.trigger.nextRunAt }
    retryCount := job.retryCount
    runCount := job.runCount
    lastRunAt := job.lastRunAt
    lastResult := job.lastResult
    lastError := job.lastError
    claimToken := none
    claimExpiresAt := none
    updatedAt := job.updatedAt
    revision := row.revision + 1 }

/-- The row of a run that ended. -/
def finishedRun (run row : JobRun) : JobRun :=
  { row with
    finishedAt := run.finishedAt
    status := run.status
    failure := run.failure
    traceId := run.traceId }

/-- `finalize_claim`. -/
def finalizeClaim (job : Job) (run : JobRun) (token : String) : Except PersistenceError Database :=
  let hit := fun row : Job => row.id = job.id && row.claimToken = some token
  if db.jobs.countP hit ≠ 1 then
    .error (.claimLost "Scheduler job claim is no longer owned")
  else
    let hitRun := fun row : JobRun => row.id = run.id && row.claimToken = token
    if db.runs.countP hitRun ≠ 1 then
      .error (.claimLost "Scheduler JobRun claim is no longer owned")
    else .ok ⟨Table.update hit (finalizedRow job) db.jobs,
      Table.update hitRun (finishedRun run) db.runs⟩

/-- The row of a job whose claim is renewed. -/
def renewedRow (expiresAt now : DateTime) (job : Job) : Job :=
  { job with
    claimExpiresAt := some expiresAt
    updatedAt := now
    revision := job.revision + 1 }

/-- `renew_claim`. -/
def renewClaim (jobId token : String) (expiresAt now : DateTime) : Bool × Database :=
  let hit := renewable jobId token now
  (db.jobs.countP hit = 1,
    { db with jobs := Table.update hit (renewedRow expiresAt now) db.jobs })

/-- The row of a job whose claim has expired. -/
def releasedRow (now retryAt : DateTime) (job : Job) : Job :=
  let exhausted : Prop := job.maxRetries ≤ job.retryCount + 1
  { job with
    status := if exhausted then .failed else .retrying
    retryCount := job.retryCount + 1
    runCount := job.runCount + 1
    trigger := { job.trigger with nextRunAt := if exhausted then none else some retryAt }
    lastResult := "failed"
    lastError := some expiredFailure
    claimToken := none
    claimExpiresAt := none
    updatedAt := now
    revision := job.revision + 1 }

/-- The row of a run whose claim has expired. -/
def releasedRun (now : DateTime) (run : JobRun) : JobRun :=
  { run with
    status := .failed
    finishedAt := some now
    failure := some expiredFailure }

/-- The tokens of the claims that have expired. -/
def expiredTokens (now : DateTime) : List String :=
  (db.jobs.filter (expired now)).filterMap Job.claimToken

/-- `release_expired_claims`, given the instant of the next attempt. -/
def releaseExpiredClaims (now retryAt : DateTime) : ℕ × Database :=
  (db.jobs.countP (expired now), {
    runs := Table.update (fun run => run.status = .running && run.claimToken ∈ db.expiredTokens now)
      (releasedRun now) db.runs
    jobs := Table.update (expired now) (releasedRow now retryAt) db.jobs })

/-- The row an update that names a job leaves, if it changed one. -/
def changedRow (hit : Job → Bool) (jobs : List Job) (jobId : String) : Option Job :=
  if db.jobs.countP hit ≠ 1 then none else jobs.find? fun job => job.id = jobId

/-- The row of a paused job. -/
def pausedRow (now : DateTime) (job : Job) : Job :=
  { job with
    status := .paused
    updatedAt := now
    revision := job.revision + 1 }

/-- `pause_job`. -/
def pauseJob (jobId : String) (expectedRevision : ℕ) (now : DateTime) : Option Job × Database :=
  let hit := fun job : Job => job.id = jobId && job.revision = expectedRevision &&
    job.status.waits && job.claimToken.isNone
  let jobs := Table.update hit (pausedRow now) db.jobs
  (db.changedRow hit jobs jobId, { db with jobs })

/-- The row of a resumed job. -/
def resumedRow (nextRunAt : Option DateTime) (now : DateTime) (job : Job) : Job :=
  { job with
    status := .active
    trigger := { job.trigger with nextRunAt }
    updatedAt := now
    revision := job.revision + 1 }

/-- `resume_job`. -/
def resumeJob (jobId : String) (expectedRevision : ℕ) (nextRunAt : Option DateTime)
    (now : DateTime) : Option Job × Database :=
  let hit := fun job : Job => job.id = jobId && job.revision = expectedRevision &&
    job.status = .paused && job.claimToken.isNone
  let jobs := Table.update hit (resumedRow nextRunAt now) db.jobs
  (db.changedRow hit jobs jobId, { db with jobs })

/-- `delete_job`. -/
def deleteJob (jobId : String) (expectedRevision : Option ℕ) : Bool × Database :=
  match expectedRevision.or ((db.getJob jobId).map Job.revision) with
  | none => (false, db)
  | some revision =>
    let hit := fun job : Job => job.id = jobId && job.revision = revision &&
      job.status ≠ .running && job.claimToken.isNone
    if db.jobs.countP hit = 1 then
      (true, ⟨db.jobs.filter fun job => !hit job, db.runs.filter fun run => run.jobId ≠ jobId⟩)
    else (false, { db with jobs := db.jobs.filter fun job => !hit job })

/-- The row of a cancelled job. -/
def cancelledRow (now : DateTime) (job : Job) : Job :=
  { job with
    status := .cancelled
    trigger := { job.trigger with nextRunAt := none }
    claimToken := none
    claimExpiresAt := none
    updatedAt := now
    revision := job.revision + 1 }

/-- `cancel_job`. -/
def cancelJob (jobId : String) (now : DateTime) : Bool × Database :=
  let hit := fun job : Job => job.id = jobId && cancellable job.status
  (db.jobs.countP hit = 1, { db with jobs := Table.update hit (cancelledRow now) db.jobs })

/-- The row of a rescheduled job. -/
def rescheduledRow (runAt : DateTime) (timezone : String) (actionPayload : Payload)
    (now : DateTime) (job : Job) : Job :=
  { job with
    trigger := { job.trigger with runAt := some runAt, nextRunAt := some runAt, timezone }
    actionPayload
    status := .active
    retryCount := 0
    lastError := none
    updatedAt := now
    revision := job.revision + 1 }

/-- `reschedule_job`. -/
def rescheduleJob (jobId : String) (expectedRevision : ℕ) (runAt : DateTime) (timezone : String)
    (actionPayload : Payload) (now : DateTime) : Bool × Database :=
  let hit := fun job : Job => job.id = jobId && job.revision = expectedRevision &&
    job.claimToken.isNone && reschedulable job.status
  (db.jobs.countP hit = 1, { db with
    jobs := Table.update hit (rescheduledRow runAt timezone actionPayload now) db.jobs })

end Database

end Scheduler

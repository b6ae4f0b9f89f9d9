import AiLabOs.Process.Safety
import AiLabOs.Scheduler.Persistence
import AiLabOs.Scheduler.Triggers

/-!
# Scheduler: runtimes

Any number of runtimes over one database. A runtime claims a job that is due, lets the executor
run it while it renews the claim, and settles the claim with the state the execution left; any
runtime releases claims that have expired. What the runtime computes from the row it has claimed is
in its memory only, until the claim is settled.

## Main definitions

* `Action`, `World`, `handler`: what a runtime does, one transaction at a time
* `Execution`, `finishRun`, `afterExecution`, `runtimeFailed`: the states of `_run_job`
* `schedule`, `dispatchDueJob`, `runJob`: the programs
* `Request`, `start`, `Reachable`: runtimes in flight over the tables
-/

namespace Scheduler

open Process

/-! ## Executions -/

/-- How `executor.execute` ends: with a run, or with an exception raised before or after it has
counted the attempt. A cancelled execution is a call that does not go on. -/
inductive Execution where
  | finished (status : JobRunStatus) (failure : Option FailureInfo) (finishedAt : DateTime)
  | raised (counted : Bool) (error : FailureInfo)

/-- What the executor makes of how its handler ended: the statuses it gives a run. -/
def Execution.Ended : Execution → Prop
  | .finished status _ _ => status = .success ∨ status = .timeout ∨ status = .failed
  | .raised _ _ => True

instance (execution : Execution) : Decidable execution.Ended := by
  unfold Execution.Ended
  cases execution <;> infer_instance

/-- The run that `JobExecutor.execute` returns. -/
def finishRun (run : JobRun) (status : JobRunStatus) (failure : Option FailureInfo)
    (finishedAt : DateTime) (job : Job) : JobRun :=
  { run with
    status, failure
    finishedAt := some finishedAt
    traceId := if run.traceId ≠ "" then run.traceId
      else if job.traceId ≠ "" then job.traceId else run.id }

/-- The job that `JobExecutor.execute` leaves. -/
def countAttempt (job : Job) (run : JobRun) : Job :=
  { job with
    lastRunAt := run.finishedAt
    lastResult := run.status.value
    lastError := run.failure
    runCount := job.runCount + 1 }

/-- The state of a job after a run, before its next run is computed. -/
def afterExecution (job : Job) (run : JobRun) : Job :=
  if run.status = .success then
    { job with
      lastError := run.failure
      retryCount := 0
      status := if job.trigger.triggerType = .oneShot then .completed else .active }
  else
    { job with
      lastError := run.failure
      retryCount := job.retryCount + 1
      status := if job.maxRetries ≤ job.retryCount + 1 then .failed else .retrying }

/-- The state after an exception of the runtime. -/
def runtimeFailed (job : Job) (run : JobRun) (error : FailureInfo) (now : DateTime) :
    Job × JobRun :=
  ({ job with
      status := .failed
      lastError := some error
      runCount := job.runCount + 1
      lastRunAt := some now
      lastResult := JobRunStatus.failed.value },
    { run with
      status := .failed
      failure := some error
      finishedAt := some now })

/-- `failure_from_exception` of an exception of the runtime. -/
def runtimeFailure (jobId : String) (error : Raised) : FailureInfo where
  code := "scheduler.job.runtime_failed"
  category := .executionFailure
  message := error.message
  component := "scheduler.runtime"
  operation := "run_job"
  retryable := true
  details := [("job_id", .str jobId)]

/-! ## Actions -/

/-- `SchedulerConfig`, its durations in microseconds. -/
structure Config where
  claimTtl : Int := 30000000
  retryDelay : Int := 1000000

/-- What a runtime awaits. -/
inductive Action where
  | now
  | newId
  | saveJob (job : Job)
  | claimJob (jobId : String) (now expiresAt : DateTime)
  | execute (job : Job) (run : JobRun)
  | finalizeClaim (job : Job) (run : JobRun) (token : String)
  | renewClaim (jobId token : String) (expiresAt now : DateTime)
  | releaseExpiredClaims (now retryAt : DateTime)
  | pauseJob (jobId : String) (expectedRevision : ℕ) (now : DateTime)
  | resumeJob (jobId : String) (expectedRevision : ℕ) (nextRunAt : Option DateTime)
      (now : DateTime)
  | deleteJob (jobId : String) (expectedRevision : Option ℕ)
  | cancelJob (jobId : String) (now : DateTime)
  | rescheduleJob (jobId : String) (expectedRevision : ℕ) (runAt : DateTime) (timezone : String)
      (actionPayload : Payload) (now : DateTime)

/-- The identifiers of a claim, drawn when it is made. -/
structure ClaimIds where
  token : String
  runId : String
deriving DecidableEq

/-- The reply to an action. -/
@[reducible] def Action.Reply : Action → Type
  | .now => DateTime
  | .newId => String
  | .saveJob _ => Except PersistenceError Unit
  | .claimJob _ _ _ => ClaimIds × Except PersistenceError (Option Job)
  | .execute _ _ => Execution
  | .finalizeClaim _ _ _ => Except PersistenceError Unit
  | .renewClaim _ _ _ _ => Bool
  | .releaseExpiredClaims _ _ => ℕ
  | .pauseJob _ _ _ => Option Job
  | .resumeJob _ _ _ _ => Option Job
  | .deleteJob _ _ => Bool
  | .cancelJob _ _ => Bool
  | .rescheduleJob _ _ _ _ _ _ => Bool

/-- What the environment supplies: a clock reading, an identifier, the identifiers of a claim, the
end of an execution, and that the database is reached. A transaction that fails leaves the tables
as they were and ends its call, which then gets no further event. -/
inductive Input where
  | clock (reading : DateTime)
  | hex (digits : String)
  | claim (ids : ClaimIds)
  | executed (execution : Execution)
  | reached

/-- A claim that was made. -/
structure Claim where
  token : String
  runId : String
  jobId : String
  runCount : ℕ
deriving DecidableEq

/-- How a claim was settled. -/
inductive Settlement where
  | finalized
  | released
deriving DecidableEq, Repr

/-- The tables, with the history of claims and of their settlements, newest first. -/
structure World where
  db : Database
  claims : List Claim
  settled : List (String × Settlement)

def World.initial : World := ⟨.empty, [], []⟩

/-- Neither identifier has been used for a claim or a run. -/
def World.Fresh (w : World) (ids : ClaimIds) : Prop :=
  (∀ claim ∈ w.claims, claim.token ≠ ids.token) ∧ ∀ claim ∈ w.claims, claim.runId ≠ ids.runId

instance (w : World) (ids : ClaimIds) : Decidable (w.Fresh ids) := by
  unfold World.Fresh
  infer_instance

/-- The settlements a release makes. -/
def releases (db : Database) (now : DateTime) : List (String × Settlement) :=
  (db.expiredTokens now).map fun token => (token, .released)

/-- What an action does. -/
def handler : Handler Action Action.Reply Input World
  | _, .now, .clock reading, w => some (reading, w)
  | _, .newId, .hex digits, w => some (digits, w)
  | _, .execute _ _, .executed execution, w =>
    if execution.Ended then some (execution, w) else none
  | _, .saveJob job, .reached, w =>
    match w.db.saveJob job with
    | .error e => some (.error e, w)
    | .ok db => some (.ok (), { w with db })
  | _, .claimJob jobId now expiresAt, .claim ids, w =>
    if w.Fresh ids then
      match w.db.claimJob jobId now ids.token expiresAt ids.runId with
      | .error e => some ((ids, .error e), w)
      | .ok (none, db) => some ((ids, .ok none), { w with db })
      | .ok (some job, db) => some ((ids, .ok (some job)),
          { w with db, claims := ⟨ids.token, ids.runId, jobId, job.runCount⟩ :: w.claims })
    else none
  | _, .finalizeClaim job run token, .reached, w =>
    match w.db.finalizeClaim job run token with
    | .error e => some (.error e, w)
    | .ok db => some (.ok (), { w with db, settled := (token, .finalized) :: w.settled })
  | _, .renewClaim jobId token expiresAt now, .reached, w =>
    let (renewed, db) := w.db.renewClaim jobId token expiresAt now
    some (renewed, { w with db })
  | _, .releaseExpiredClaims now retryAt, .reached, w =>
    let (released, db) := w.db.releaseExpiredClaims now retryAt
    some (released, { w with db, settled := releases w.db now ++ w.settled })
  | _, .pauseJob jobId revision now, .reached, w =>
    let (job, db) := w.db.pauseJob jobId revision now
    some (job, { w with db })
  | _, .resumeJob jobId revision nextRunAt now, .reached, w =>
    let (job, db) := w.db.resumeJob jobId revision nextRunAt now
    some (job, { w with db })
  | _, .deleteJob jobId revision, .reached, w =>
    let (deleted, db) := w.db.deleteJob jobId revision
    some (deleted, { w with db })
  | _, .cancelJob jobId now, .reached, w =>
    let (cancelled, db) := w.db.cancelJob jobId now
    some (cancelled, { w with db })
  | _, .rescheduleJob jobId revision runAt timezone payload now, .reached, w =>
    let (changed, db) := w.db.rescheduleJob jobId revision runAt timezone payload now
    some (changed, { w with db })
  | _, _, _, _ => none

/-- Programs over these actions. -/
abbrev Prog := Program Action Action.Reply Raised

/-- `clock.now()`. -/
def clockNow : Prog DateTime := .perform Action.now

/-- `uuid4().hex`. -/
def newHex : Prog String := .perform Action.newId

/-- The exception of a transaction that failed. -/
def raisePersistence {α : Type} : PersistenceError → Prog α
  | .persistence message => .raise (.other message)
  | .claimLost message => .raise (.other message)

/-- An instant and a duration. -/
def plusOrRaise (t : DateTime) (delta : Int) : Prog DateTime :=
  match t.plus delta with
  | some t' => pure t'
  | none => .raise (.other "date value out of range")

/-! ## Programs -/

/-- The first run of a trigger. -/
def firstRun (trigger : Trigger) : Prog (Except Raised (Option DateTime)) :=
  if trigger.triggerType = .manual then return .ok trigger.nextRunAt
  else do
    let now ← clockNow
    return computeNext trigger now

/-- `schedule`, after the registry has accepted the name. -/
def schedule (request : ScheduleRequest) : Prog Job := do
  if !request.trigger.validate then .raise (.other "Invalid trigger")
  else do
    let next ← firstRun request.trigger
    match next with
    | .error x => .raise x
    | .ok next =>
      let id ← newHex
      let createdAt ← clockNow
      let job : Job := {
        id
        name := request.jobName
        trigger := { request.trigger with nextRunAt := next }
        actionType := request.actionType
        actionPayload := request.actionPayload
        traceId := request.traceId
        updatedAt := createdAt }
      let reply ← Program.perform (Action.saveJob job)
      match reply with
      | .ok () => return job
      | .error e => raisePersistence e

/-- `finalize_claim`, as `_run_job` calls it. -/
def finalize (job : Job) (run : JobRun) (token : String) : Prog Unit := do
  let reply ← Program.perform (Action.finalizeClaim job run token)
  match reply with
  | .ok () => return ()
  | .error e => raisePersistence e

/-- The exception branch of `_run_job`. -/
def failRun (job : Job) (run : JobRun) (token : String) (error : FailureInfo) : Prog Unit := do
  let now ← clockNow
  let (job, run) := runtimeFailed job run error now
  finalize job run token

/-- The next run of a job after an execution. -/
def nextRun (config : Config) (job : Job) : Prog (Except Raised (Option DateTime)) :=
  if job.status = .active ∧ job.trigger.triggerType ≠ .manual then do
    let now ← clockNow
    return computeNext job.trigger now
  else if job.status = .retrying then do
    let now ← clockNow
    match now.plus config.retryDelay with
    | some t => return .ok (some t)
    | none => return .error (.other "date value out of range")
  else return .ok none

/-- `_run_job`, of a job whose claim this runtime holds. -/
def runJob (config : Config) (job : Job) (run : JobRun) (token : String) : Prog Unit := do
  let job := { job with status := .running }
  let execution ← Program.perform (Action.execute job run)
  match execution with
  | .raised counted error =>
    let job := if counted then { job with runCount := job.runCount + 1 } else job
    failRun job run token error
  | .finished status failure finishedAt => do
    let run := finishRun run status failure finishedAt job
    let job := afterExecution (countAttempt job run) run
    let next ← nextRun config job
    match next with
    | .error x => failRun job run token (runtimeFailure job.id x)
    | .ok next => do
      let updatedAt ← clockNow
      let job := { job with
        trigger := { job.trigger with nextRunAt := next }
        updatedAt
        claimToken := some token }
      finalize job run token

/-- The run of a claimed job, in memory. -/
def newRun (job : Job) (ids : ClaimIds) (now : DateTime) : JobRun where
  id := ids.runId
  jobId := job.id
  startedAt := now
  traceId := if job.traceId ≠ "" then job.traceId else ids.runId
  attempt := job.runCount + 1
  claimToken := ids.token

/-- `_dispatch_due_job` of a job the tick at `now` found due, and the task it spawns. -/
def dispatchDueJob (config : Config) (jobId : String) (now : DateTime) : Prog Unit := do
  let expiresAt ← plusOrRaise now config.claimTtl
  let (ids, reply) ← Program.perform (Action.claimJob jobId now expiresAt)
  match reply with
  | .error e => raisePersistence e
  | .ok none => return ()
  | .ok (some job) => runJob config job (newRun job ids now) ids.token

/-- `release_expired_claims`, as the tick calls it. -/
def release (config : Config) (now : DateTime) : Prog Unit := do
  let retryAt ← plusOrRaise now config.retryDelay
  let _ ← Program.perform (Action.releaseExpiredClaims now retryAt)
  return ()

/-! ## The system -/

/-- What a call of a runtime does. The renewal and the management of jobs have their arguments from
outside: from the claims and the rows some runtime has read. -/
inductive Request where
  | schedule (request : ScheduleRequest)
  | dispatch (config : Config) (jobId : String) (now : DateTime)
  | renew (jobId token : String) (expiresAt now : DateTime)
  | release (config : Config) (now : DateTime)
  | pause (jobId : String) (expectedRevision : ℕ) (now : DateTime)
  | resume (jobId : String) (expectedRevision : ℕ) (nextRunAt : Option DateTime) (now : DateTime)
  | delete (jobId : String) (expectedRevision : Option ℕ)
  | cancel (jobId : String) (now : DateTime)
  | reschedule (jobId : String) (expectedRevision : ℕ) (runAt : DateTime) (timezone : String)
      (actionPayload : Payload) (now : DateTime)

/-- The program of a request. -/
def start : Request → Prog Unit
  | .schedule request => schedule request >>= fun _ => pure ()
  | .dispatch config jobId now => dispatchDueJob config jobId now
  | .renew jobId token expiresAt now =>
    .perform (Action.renewClaim jobId token expiresAt now) >>= fun _ => pure ()
  | .release config now => release config now
  | .pause jobId revision now =>
    .perform (Action.pauseJob jobId revision now) >>= fun _ => pure ()
  | .resume jobId revision nextRunAt now =>
    .perform (Action.resumeJob jobId revision nextRunAt now) >>= fun _ => pure ()
  | .delete jobId revision => .perform (Action.deleteJob jobId revision) >>= fun _ => pure ()
  | .cancel jobId now => .perform (Action.cancelJob jobId now) >>= fun _ => pure ()
  | .reschedule jobId revision runAt timezone payload now =>
    .perform (Action.rescheduleJob jobId revision runAt timezone payload now) >>= fun _ => pure ()

/-- The runtimes in flight over the tables. -/
abbrev Calls := Process.Config Request Action Action.Reply Raised Unit World

/-- Some run from empty tables leads to `c`. -/
def Reachable (c : Calls) : Prop := Reaches handler start (idle World.initial) c

end Scheduler

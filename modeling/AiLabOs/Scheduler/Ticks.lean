import AiLabOs.Scheduler.Registry
import AiLabOs.Scheduler.Runtime

/-!
# Scheduler: one runtime

One runtime over a database that no other uses: its ticks, the executions of `_run_job` it has
started, and the management of jobs. Persistence never suspends, so a tick and a call that manages
a job are one step each; an execution is interrupted wherever it awaits. What a call returns or
raises is read by no later step and left out.

## Main definitions

* `Limits`: the configuration with the limit on executions
* `Flight`, `Runtime`: an execution that was started, and the state
* `Runtime.tick`, `Runtime.dispatchDueJob`: one scheduling cycle
* `RuntimeEvent`, `Runtime.step`: what can happen
* `Runtime.inFlight`: how many executions are in flight
-/

namespace Scheduler

open Process

/-- `SchedulerConfig`, with the limit on executions. -/
structure Limits extends Config where
  maxConcurrentJobs : ℕ := 10

/-- An execution of `_run_job`: the job and the token it was started with, and what it has still to
do. -/
structure Flight where
  jobId : String
  token : String
  rest : Prog Unit

/-- The execution has neither returned nor raised. -/
def Flight.live (flight : Flight) : Bool :=
  match flight.rest with
  | .await _ _ => true
  | _ => false

/-- A runtime over its database. -/
structure Runtime where
  world : World
  registry : Registry
  flights : List Flight

/-- How a job that is due meets admission and the database: the first refuses new work, the second
fails, or a claim is tried with fresh identifiers. -/
inductive Draw where
  | refused
  | unreached
  | drawn (ids : ClaimIds)

namespace Runtime

variable (s : Runtime)

/-- A runtime that has started nothing yet. -/
def fresh (db : Database) (registry : Registry) : Runtime := ⟨⟨db, [], []⟩, registry, []⟩

/-- **How many executions are in flight.** -/
def inFlight : ℕ := s.flights.countP Flight.live

/-- One transaction of the database. -/
def perform (e : Action) (input : Input) : Option (e.Reply × Runtime) :=
  (handler 0 e input s.world).map fun p => (p.1, { s with world := p.2 })

/-- `_sync_registry_from_persistence`. -/
def sync : Runtime := { s with registry := (s.registry.sync s.world.db.jobs).1 }

/-- `_registry.replace`. -/
def replace (job : Job) : Runtime := { s with registry := s.registry.replace job }

/-! ### Ticks -/

/-- `TriggerEngine.should_fire`. -/
def shouldFire (trigger : Trigger) (now : DateTime) : Bool :=
  trigger.nextRunAt.any fun t => t ≤ now

/-- What follows a claim that was tried, and whether the tick goes on. -/
def afterClaim (config : Limits) (now : DateTime) :
    ClaimIds × Except PersistenceError (Option Job) → Runtime → Runtime × Bool
  | (_, .error _), s => (s, false)
  | (_, .ok none), s => (s, true)
  | (ids, .ok (some job)), s => ({ s with
      registry := s.registry.replace job
      flights := s.flights ++ [⟨job.id, ids.token,
        runJob config.toConfig job (newRun job ids now) ids.token⟩] }, true)

/-- `_dispatch_due_job`, and whether the tick goes on. -/
def dispatchDueJob (config : Limits) (now : DateTime) (job : Job) :
    Draw → Option (Runtime × Bool)
  | .refused => some (s, false)
  | .unreached =>
    if config.maxConcurrentJobs ≤ s.registry.runningCount then some (s, true) else some (s, false)
  | .drawn ids =>
    if config.maxConcurrentJobs ≤ s.registry.runningCount then some (s, true)
    else match now.plus config.claimTtl with
      | none => some (s, false)
      | some expiresAt =>
        (s.perform (.claimJob job.id now expiresAt) (.claim ids)).map fun p =>
          afterClaim config now p.1 p.2

/-- The loop of `_tick` over the jobs that wait. -/
def dispatchAll (config : Limits) (now : DateTime) (draws : String → Draw) :
    List Job → Runtime → Option Runtime
  | [], s => some s
  | job :: jobs, s =>
    if shouldFire job.trigger now then
      (s.dispatchDueJob config now job (draws job.id)).bind fun p =>
        if p.2 then dispatchAll config now draws jobs p.1 else some p.1
    else dispatchAll config now draws jobs s

/-- `_tick` after the registry has been brought up to date. -/
def dispatchWaiting (config : Limits) (now : DateTime) (draws : String → Draw) : Option Runtime :=
  let activeJobs := s.registry.filter fun job => job.status.waits
  if activeJobs.all fun job => job.trigger.validate then
    dispatchAll config now draws activeJobs s
  else some s

/-- `_tick` after the release of expired claims. -/
def refreshAndDispatch (config : Limits) (now : DateTime) (loads : Bool) (draws : String → Draw) :
    Option Runtime :=
  if loads then
    if (s.registry.sync s.world.db.jobs).2 then s.sync.dispatchWaiting config now draws
    else some s.sync
  else some s

/-- `_tick`, which finds the clock at `now`; `loads` says whether the jobs could be read. -/
def tick (config : Limits) (now : DateTime) (loads : Bool) (draws : String → Draw) :
    Option Runtime :=
  match now.plus config.retryDelay with
  | none => some s
  | some retryAt =>
    (s.perform (.releaseExpiredClaims now retryAt) .reached).bind fun p =>
      p.2.refreshAndDispatch config now loads draws

/-! ### Executions -/

/-- The registry after an action of an execution: a settlement refreshes it. -/
def settled (registry : Registry) (db : Database) : (e : Action) → e.Reply → Registry
  | .finalizeClaim job _ _, .ok () => (db.getJob job.id).elim registry registry.replace
  | _, _ => registry

/-- The execution `i` performs the action it awaits. -/
def act (i : ℕ) (input : Input) : Option Runtime :=
  match s.flights[i]? with
  | some ⟨jobId, token, .await e next⟩ =>
    (handler i e input s.world).map fun p => {
      world := p.2
      registry := settled s.registry p.2.db e p.1
      flights := s.flights.set i ⟨jobId, token, next p.1⟩ }
  | _ => none

/-- The execution `i` is cancelled, or the transaction it awaits fails. -/
def ends (i : ℕ) : Option Runtime :=
  s.flights[i]?.map fun flight =>
    { s with flights := s.flights.set i { flight with rest := .raise (.other "cancelled") } }

/-- One round of `_renew_claim_loop` beside the execution `i`. -/
def renew (config : Limits) (i : ℕ) (now : DateTime) : Option Runtime :=
  match s.flights[i]?, now.plus config.claimTtl with
  | none, _ => none
  | some _, none => some s
  | some flight, some expiresAt =>
    if flight.live then
      (s.perform (.renewClaim flight.jobId flight.token expiresAt now) .reached).map Prod.snd
    else none

/-! ### The management of jobs -/

/-- The job `schedule` makes. -/
def scheduledJob (request : ScheduleRequest) (id : String) (nextRunAt : Option DateTime)
    (createdAt : DateTime) : Job where
  id := id
  name := request.jobName
  trigger := { request.trigger with nextRunAt }
  actionType := request.actionType
  actionPayload := request.actionPayload
  traceId := request.traceId
  updatedAt := createdAt

/-- The next run of a trigger at `now`. -/
def nextRunAt (trigger : Trigger) (now : DateTime) : Except Raised (Option DateTime) :=
  if trigger.triggerType = .manual then .ok trigger.nextRunAt else computeNext trigger now

/-- `save_job` of a job that was registered, which is taken back when it fails. -/
def save (job : Job) : Option Runtime :=
  (s.perform (.saveJob job) .reached).map fun p =>
    match p.1 with
    | .ok () => p.2
    | .error _ => { p.2 with registry := p.2.registry.unregister job.id }

/-- `schedule`. -/
def schedule (request : ScheduleRequest) (id : String) (now createdAt : DateTime) :
    Option Runtime :=
  if (s.registry.getByName request.jobName).isSome || !request.trigger.validate then some s
  else match nextRunAt request.trigger now with
    | .error _ => some s
    | .ok next =>
      let job := scheduledJob request id next createdAt
      match s.registry.register job with
      | none => some s
      | some registry => { s with registry }.save job

/-- What follows a change of a job: the registry takes the row, or is brought up to date. -/
def afterChange : Option Job × Runtime → Runtime
  | (some job, s) => s.replace job
  | (none, s) => s.sync

/-- `pause_job`. -/
def pauseJob (jobId : String) (now : DateTime) : Option Runtime :=
  match s.world.db.getJob jobId with
  | none => some s
  | some job =>
    if job.status = .running then some (s.replace job)
    else ((s.replace job).perform (.pauseJob jobId job.revision now) .reached).map afterChange

/-- `resume_job`, with the clock readings for the next run and for the change. -/
def resumeJob (jobId : String) (now changedAt : DateTime) : Option Runtime :=
  match s.world.db.getJob jobId with
  | none => some s
  | some job =>
    if job.status ≠ .paused ∨ !job.trigger.validate then some (s.replace job)
    else match nextRunAt job.trigger now with
      | .error _ => some (s.replace job)
      | .ok next =>
        ((s.replace job).perform (.resumeJob jobId job.revision next changedAt) .reached).map
          afterChange

/-- What follows a deletion. -/
def afterDelete (jobId : String) : Bool × Runtime → Runtime
  | (true, s) => { s with registry := s.registry.unregister jobId }
  | (false, s) => s.sync

/-- `delete_job`. -/
def deleteJob (jobId : String) : Option Runtime :=
  match s.world.db.getJob jobId with
  | none => some s
  | some job =>
    if job.status = .running then some (s.replace job)
    else ((s.replace job).perform (.deleteJob jobId (some job.revision)) .reached).map
      (afterDelete jobId)

/-- `cancel_job`. -/
def cancelJob (jobId : String) (now : DateTime) : Option Runtime :=
  match s.world.db.getJob jobId with
  | none => some s
  | some job => ((s.replace job).perform (.cancelJob jobId now) .reached).map fun p => p.2.sync

/-- `reschedule_one_shot`. -/
def rescheduleOneShot (jobId : String) (runAt : DateTime) (timezoneName : String)
    (actionPayload : Payload) (now : DateTime) : Option Runtime :=
  match s.world.db.getJob jobId with
  | none => some s
  | some job =>
    if job.trigger.triggerType ≠ .oneShot then some (s.replace job)
    else ((s.replace job).perform
      (.rescheduleJob jobId job.revision runAt timezoneName actionPayload now) .reached).map
        fun p => p.2.sync

end Runtime

/-- One thing that happens. -/
inductive RuntimeEvent where
  | tick (now : DateTime) (loads : Bool) (draws : String → Draw)
  | act (i : ℕ) (input : Input)
  | ends (i : ℕ)
  | renew (i : ℕ) (now : DateTime)
  | schedule (request : ScheduleRequest) (id : String) (now createdAt : DateTime)
  | pause (jobId : String) (now : DateTime)
  | resume (jobId : String) (now changedAt : DateTime)
  | delete (jobId : String)
  | cancel (jobId : String) (now : DateTime)
  | reschedule (jobId : String) (runAt : DateTime) (timezoneName : String)
      (actionPayload : Payload) (now : DateTime)
  /-- `list_jobs`. -/
  | list

namespace Runtime

/-- One event, if it can happen. -/
def step (config : Limits) (s : Runtime) : RuntimeEvent → Option Runtime
  | .tick now loads draws => s.tick config now loads draws
  | .act i input => s.act i input
  | .ends i => s.ends i
  | .renew i now => s.renew config i now
  | .schedule request id now createdAt => s.schedule request id now createdAt
  | .pause jobId now => s.pauseJob jobId now
  | .resume jobId now changedAt => s.resumeJob jobId now changedAt
  | .delete jobId => s.deleteJob jobId
  | .cancel jobId now => s.cancelJob jobId now
  | .reschedule jobId runAt timezoneName actionPayload now =>
    s.rescheduleOneShot jobId runAt timezoneName actionPayload now
  | .list => some s.sync

/-- What events lead to, if each of them can happen and meets the condition. -/
def runIf (config : Limits) (ok : Runtime → RuntimeEvent → Bool) (s : Runtime) :
    List RuntimeEvent → Option Runtime
  | [] => some s
  | ev :: evs =>
    if ok s ev then (s.step config ev).bind fun s' => runIf config ok s' evs else none

/-- What events lead to. -/
def run (config : Limits) : Runtime → List RuntimeEvent → Option Runtime :=
  runIf config fun _ _ => true

end Runtime

end Scheduler

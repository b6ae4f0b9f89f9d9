import AiLabOs.Base.DateTime
import AiLabOs.Base.Failure

/-!
# Scheduler: models

A job says what runs and when; a run is one attempt at it. The runtime that executes a job holds
a claim on it: a token and an instant at which the claim expires.

## Main definitions

* `Trigger`: when a job is due
* `Job`, `JobRun`: a job and an attempt, both in memory and as rows
-/

namespace Scheduler

inductive JobStatus where
  | active
  | retrying
  | paused
  | running
  | completed
  | failed
  | cancelled
deriving DecidableEq, Repr

inductive TriggerType where
  | cron
  | interval
  | oneShot
  | manual
  | event
deriving DecidableEq, Repr

inductive JobRunStatus where
  | running
  | success
  | failed
  | timeout
  | cancelled
deriving DecidableEq, Repr

/-- The text of a run's status. -/
def JobRunStatus.value : JobRunStatus → String
  | .running => "running"
  | .success => "success"
  | .failed => "failed"
  | .timeout => "timeout"
  | .cancelled => "cancelled"

/-- `Trigger`. -/
structure Trigger where
  triggerType : TriggerType := .manual
  cronExpression : String := ""
  intervalSeconds : Int := 0
  runAt : Option DateTime := none
  timezone : String := "Asia/Shanghai"
  nextRunAt : Option DateTime := none
deriving DecidableEq

/-- `Job`, with the fields of its `JobInfo` that are read. -/
structure Job where
  id : String
  name : String
  trigger : Trigger
  actionType : String := "workflow"
  actionPayload : Payload := []
  traceId : String := ""
  status : JobStatus := .active
  maxRetries : Int := 3
  retryCount : ℕ := 0
  runCount : ℕ := 0
  lastRunAt : Option DateTime := none
  lastResult : String := ""
  lastError : Option FailureInfo := none
  claimToken : Option String := none
  claimExpiresAt : Option DateTime := none
  updatedAt : DateTime
  revision : ℕ := 1
deriving DecidableEq

/-- `JobRun`. -/
structure JobRun where
  id : String
  jobId : String
  status : JobRunStatus := .running
  startedAt : DateTime
  finishedAt : Option DateTime := none
  traceId : String := ""
  failure : Option FailureInfo := none
  attempt : ℕ := 1
  claimToken : String := ""
deriving DecidableEq

/-- `ScheduleRequest`. -/
structure ScheduleRequest where
  jobName : String
  trigger : Trigger
  actionType : String := "workflow"
  actionPayload : Payload := []
  traceId : String := ""

end Scheduler

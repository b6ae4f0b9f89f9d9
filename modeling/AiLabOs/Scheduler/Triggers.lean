import AiLabOs.Base.Text
import AiLabOs.Base.TimeDelta
import AiLabOs.Scheduler.Models

/-!
# Scheduler: triggers

When a job runs next. Of the cron expressions only minute and hour steps are supported.

## Main definitions

* `cronSteps`, `nextCron`: the supported expressions, and their next match
* `computeNext`: the next run of a trigger
* `Trigger.validate`: whether a trigger can be scheduled
-/

namespace Scheduler

/-- `str.split()`. -/
def words (s : String) : List (List Char) :=
  (s.toList.splitOnP Text.isSpace).filter fun word => word ≠ []

/-- The number of an ASCII digit. -/
def digit (c : Char) : Option ℕ :=
  if '0' ≤ c ∧ c ≤ '9' then some (c.toNat - '0'.toNat) else none

/-- A step field: `*`, or `*/n` with `n` from 1 to the maximum and at most two digits. -/
def cronField (maximum : ℕ) : List Char → Option ℕ
  | ['*'] => some 1
  | ['*', '/', c] => do
    let n ← digit c
    if 1 ≤ n ∧ n ≤ maximum then some n else none
  | ['*', '/', c, c'] => do
    let n ← digit c
    let n' ← digit c'
    if 1 ≤ n ∧ 10 * n + n' ≤ maximum then some (10 * n + n') else none
  | _ => none

/-- `_cron_steps`. -/
def cronSteps (expression : String) : Option (ℕ × ℕ) :=
  match words expression with
  | [minute, hour, ['*'], ['*'], ['*']] => do
    let minuteStep ← cronField 60 minute
    let hourStep ← cronField 24 hour
    return (minuteStep, hourStep)
  | _ => none

/-- `range(0, stop, step)`. -/
def steps (stop step : ℕ) : List ℕ := (List.range stop).filter fun n => n % step = 0

/-- The matches of a day, from an hour on, in order. -/
def cronMatches (day : DateTime) (minuteStep hourStep fromHour : ℕ) : List DateTime :=
  ((steps 24 hourStep).filter fun hour => fromHour ≤ hour).flatMap fun hour =>
    (steps 60 minuteStep).filterMap fun minute => day.atMinute hour minute

/-- `_next_cron`: the first match after `now`, today or tomorrow. -/
def nextCron (expression : String) (now : DateTime) : Option DateTime := do
  let (minuteStep, hourStep) ← cronSteps expression
  match (cronMatches now minuteStep hourStep now.hour).find? fun t => now < t with
  | some t => some t
  | none =>
    let tomorrow ← now.plus 86400000000
    (cronMatches tomorrow minuteStep hourStep 0).find? fun t => now < t

/-- `TriggerEngine.compute_next`. A sum that leaves the calendar raises. -/
def computeNext (trigger : Trigger) (now : DateTime) : Except Raised (Option DateTime) :=
  match trigger.triggerType with
  | .oneShot => .ok trigger.runAt
  | .interval =>
    if trigger.intervalSeconds ≤ 0 then .ok none
    else
      match now.plus (trigger.intervalSeconds * 1000000) with
      | some t => .ok (some t)
      | none => .error (.other "date value out of range")
  | .cron => .ok (nextCron trigger.cronExpression now)
  | .manual => .ok none
  | .event => .ok none

/-- `TriggerEngine.validate`. -/
def Trigger.validate (trigger : Trigger) : Bool :=
  match trigger.triggerType with
  | .cron => (cronSteps trigger.cronExpression).isSome
  | .interval => 0 < trigger.intervalSeconds
  | .oneShot => trigger.runAt.isSome
  | .manual => true
  | .event => true

end Scheduler

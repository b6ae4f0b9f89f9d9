import AiLabOs.Base.Assoc
import AiLabOs.Base.Json
import AiLabOs.Process.Paths
import Mathlib.Data.Int.Notation

/-!
# Workflows: the runtime

A run registers a state machine under the identifier of its workflow, plans, has the executor carry
the plan out, and moves its machine along. A cancellation moves the machine that is registered. The
executor does not look at it.

## Main definitions

* `validTransitions`, `WorkflowStatus.canTransition`: the state machine
* `Action`, `handler`: what a run does to the machines, and what it awaits
* `execute`: the executor
* `run`, `cancel`: the calls of the runtime
-/

namespace Workflows

open Process

/-! ## The state machine -/

inductive WorkflowStatus where
  | created
  | ready
  | planning
  | running
  | waiting
  | retrying
  | paused
  | resumed
  | completed
  | failed
  | cancelled
deriving DecidableEq, Repr

/-- `_VALID_TRANSITIONS`. -/
def validTransitions : WorkflowStatus → List WorkflowStatus
  | .created => [.ready]
  | .ready => [.planning, .cancelled]
  | .planning => [.running, .failed, .cancelled]
  | .running => [.waiting, .paused, .completed, .failed, .cancelled]
  | .waiting => [.running, .retrying, .cancelled]
  | .retrying => [.running, .failed, .cancelled]
  | .paused => [.resumed, .cancelled]
  | .resumed => [.running]
  | .completed => []
  | .failed => [.retrying]
  | .cancelled => []

/-- `can_transition`. -/
def WorkflowStatus.canTransition (current target : WorkflowStatus) : Bool :=
  (validTransitions current).contains target

/-- `is_terminal`. -/
def WorkflowStatus.isTerminal : WorkflowStatus → Bool
  | .completed | .failed | .cancelled => true
  | _ => false

/-! ## Workflows and their plans -/

inductive StepType where
  | agentCall
  | toolCall
  | condition
  | parallel
  | wait
deriving DecidableEq, Repr

/-- `WorkflowStep`, as far as the executor reads it. -/
structure WorkflowStep where
  id : String
  name : String := ""
  stepType : StepType := .agentCall
  maxRetries : ℤ := 1
  retryCount : ℤ := 0
deriving DecidableEq

structure WorkflowPlan where
  workflowId : String := ""
  steps : List WorkflowStep := []
deriving DecidableEq

structure WorkflowRequest where
  workflowName : String := ""
  workflowId : String := ""
deriving DecidableEq

structure WorkflowResult where
  workflowId : String
  status : WorkflowStatus
  stepsCompleted : ℕ
  stepsFailed : ℕ
  outputs : List (String × Json)
  errors : List String
deriving DecidableEq

/-- What a call raises: the runtime's own exceptions, and what it awaits raises. All of them are
`Exception`s. The `asyncio.CancelledError` of a task that is itself cancelled is not among them: it
passes the `except` block of `run`, and such runs are left out. -/
inductive Exn where
  | notFound (workflowName : String)
  /-- `WorkflowStateError`. -/
  | state (current target : WorkflowStatus)
  /-- The planner is unknown. -/
  | valueError (plannerType : String)
  /-- An empty plan: the attribute `steps` of a coroutine. -/
  | attributeError
  | awaited (message : String)
deriving DecidableEq

inductive WorkflowEvent where
  | created
  | started
  | stepStarted
  | stepCompleted
  | stepFailed
  | completed
  | failed
  | cancelled
  | retry
deriving DecidableEq, Repr

/-- What a step comes to: an output, a `StepExecutionError`, or another exception. -/
inductive StepOutcome where
  | output (value : Json)
  | stepError (message : String)
  | raised (message : String)
deriving DecidableEq

/-! ## Machines and actions -/

/-- A state machine, and the call that made it. -/
structure Machine where
  owner : ℕ
  current : WorkflowStatus
deriving DecidableEq

/-- The machines, and the one that is registered under each workflow. -/
structure World where
  machines : List Machine := []
  active : List (String × ℕ) := []

/-- What a call awaits, or does to the machines between two awaits. -/
inductive Action where
  | initializeInstance
  | plan
  | shutdown
  | publish (event : WorkflowEvent)
  | executeStep (step : WorkflowStep)
  /-- A new machine is `READY`, and registered. -/
  | register (workflowId : String)
  | transition (machine : ℕ) (target : WorkflowStatus)
  /-- The machine that is registered, if any, is cancelled. -/
  | cancel (workflowId : String)

abbrev Action.Reply : Action → Type
  | .initializeInstance | .shutdown | .publish _ => Except Exn Unit
  | .plan => Except Exn WorkflowPlan
  | .executeStep _ => StepOutcome
  | .register _ => ℕ
  | .transition _ _ => Except Exn Unit
  | .cancel _ => Except Exn (Option ℕ)

/-- What the environment supplies. -/
inductive Input where
  | done
  | raises (message : String)
  | plan (plan : WorkflowPlan)
  | step (outcome : StepOutcome)

/-- The machine `n` makes a transition. -/
def World.transition (w : World) (n : ℕ) (m : Machine) (target : WorkflowStatus) :
    Except Exn Unit × World :=
  if m.current.canTransition target then
    (.ok (), { w with machines := w.machines.set n { m with current := target } })
  else (.error (.state m.current target), w)

/-- What is awaited ends, or raises. -/
def awaitedReply : Input → Option (Except Exn Unit)
  | .done => some (.ok ())
  | .raises message => some (.error (.awaited message))
  | _ => none

/-- The types of steps that the executor does not know. -/
def StepType.unknown : StepType → Bool
  | .condition | .parallel => true
  | _ => false

/-- What a step can come to: an unknown type raises a `StepExecutionError`. -/
def WorkflowStep.allows (step : WorkflowStep) : StepOutcome → Bool
  | .stepError _ => true
  | _ => !step.stepType.unknown

def handler : Handler Action Action.Reply Input World
  | _, .initializeInstance, input, w => (awaitedReply input).map fun r => (r, w)
  | _, .shutdown, input, w => (awaitedReply input).map fun r => (r, w)
  | _, .publish _, input, w => (awaitedReply input).map fun r => (r, w)
  | _, .plan, .plan plan, w => some (.ok plan, w)
  | _, .plan, .raises message, w => some (.error (.awaited message), w)
  | _, .executeStep step, .step outcome, w =>
    if step.allows outcome then some (outcome, w) else none
  | i, .register workflowId, .done, w => some (w.machines.length, {
      machines := w.machines ++ [⟨i, .ready⟩]
      active := Assoc.set w.active workflowId w.machines.length })
  | _, .transition n target, .done, w => (w.machines[n]?).map fun m => w.transition n m target
  | _, .cancel workflowId, .done, w =>
    match Assoc.get w.active workflowId with
    | none => some (.ok none, w)
    | some n => (w.machines[n]?).map fun m =>
      let (r, w') := w.transition n m .cancelled
      (r.map fun _ => some n, w')
  | _, _, _, _ => none

/-! ## The executor -/

abbrev Prog (α : Type) := Program Action Action.Reply Exn α

/-- The value of a reply, or its exception. -/
def orRaise {α : Type} : Except Exn α → Prog α
  | .ok a => .ret a
  | .error e => .raise e

/-- An event is published. -/
def publish (event : WorkflowEvent) : Prog Unit := Program.perform (.publish event) >>= orRaise

/-- A machine makes a transition. -/
def transition (machine : ℕ) (target : WorkflowStatus) : Prog Unit :=
  Program.perform (.transition machine target) >>= orRaise

/-- What the executor has so far. -/
structure Progress where
  completed : ℕ := 0
  failed : ℕ := 0
  outputs : List (String × Json) := []
  errors : List String := []
deriving DecidableEq

/-- The progress with the output of a step. -/
def Progress.complete (p : Progress) (step : WorkflowStep) (value : Json) : Progress :=
  { p with completed := p.completed + 1, outputs := Assoc.set p.outputs step.id value }

/-- The progress with the error of a step. -/
def Progress.fail (p : Progress) (step : WorkflowStep) (message : String) : Progress :=
  { p with
    failed := p.failed + 1
    errors := p.errors ++ ["Step " ++ step.name ++ ": " ++ message] }

/-- The progress after the one retry of a failed step. -/
def Progress.retried (p : Progress) (step : WorkflowStep) : StepOutcome → Progress
  | .output value =>
    { p.complete step value with failed := p.failed - 1, errors := p.errors.dropLast }
  | _ => p

/-- The `except` block of a step. -/
def handleStepError (p : Progress) (step : WorkflowStep) : Prog Progress := do
  publish .stepFailed
  if step.retryCount < step.maxRetries then do
    publish .retry
    let outcome ← Program.perform (.executeStep step)
    pure (p.retried step outcome)
  else pure p

/-- What follows the outcome of a step. -/
def settleStep (p : Progress) (step : WorkflowStep) : StepOutcome → Prog Progress
  | .output value => do
    publish .stepCompleted
    pure (p.complete step value)
  | .stepError message => handleStepError (p.fail step message) step
  | .raised message => .raise (.awaited message)

/-- One turn of the loop of `execute`. -/
def executeStep (p : Progress) (step : WorkflowStep) : Prog Progress :=
  if (Assoc.get p.outputs step.id).isSome then .ret p
  else do
    publish .stepStarted
    let outcome ← Program.perform (.executeStep step)
    settleStep p step outcome

/-- The loop of `execute`. -/
def executeSteps : Progress → List WorkflowStep → Prog Progress
  | p, [] => .ret p
  | p, step :: steps => executeStep p step >>= fun p => executeSteps p steps

/-- The result of a plan. -/
def Progress.result (p : Progress) (workflowId : String) : WorkflowResult where
  workflowId
  status := if p.failed = 0 then .completed else .failed
  stepsCompleted := p.completed
  stepsFailed := p.failed
  outputs := p.outputs
  errors := p.errors

/-- `execute`. -/
def execute (plan : WorkflowPlan) : Prog WorkflowResult := do
  let p ← executeSteps {} plan.steps
  pure (p.result plan.workflowId)

/-! ## The runtime -/

structure WorkflowConfig where
  plannerType : String := "rule"

/-- `wf_instance.plan(request)`. -/
def planOf : Prog WorkflowPlan := Program.perform .plan >>= orRaise

/-- The plan of a run. The planner has no steps for an empty one, and then a coroutine is asked for
its steps. -/
def planning (config : WorkflowConfig) (workflowId : String) : Prog WorkflowPlan :=
  if config.plannerType = "rule" then do
    let plan ← planOf
    if plan.steps = [] then do
      let _ ← planOf
      .raise .attributeError
    else pure { plan with
      workflowId := if plan.workflowId = "" then workflowId else plan.workflowId }
  else .raise (.valueError config.plannerType)

/-- The end of a run that has a result. -/
def complete (machine : ℕ) (result : WorkflowResult) : Prog WorkflowResult :=
  if result.status = .completed then do
    transition machine .completed
    publish .completed
    pure result
  else do
    transition machine .failed
    publish .failed
    pure result

/-- The `try` block of `run`. -/
def carryOut (config : WorkflowConfig) (workflowId : String) (machine : ℕ) :
    Prog WorkflowResult := do
  transition machine .planning
  let plan ← planning config workflowId
  transition machine .running
  publish .started
  let result ← execute plan
  complete machine result

/-- The `except` block of `run`. -/
def handleException (machine : ℕ) (x : Exn) : Prog WorkflowResult := do
  transition machine .failed
  publish .failed
  .raise x

/-- A program, with what it returns or raises as its value. -/
def attempt {α : Type} (p : Prog α) : Prog (Except Exn α) :=
  (p >>= fun a => .ret (.ok a)).tryCatch fun x => .ret (.error x)

/-- The `finally` block of `run`. -/
def finishing (p : Prog WorkflowResult) : Prog WorkflowResult := do
  let outcome ← attempt p
  Program.perform .shutdown >>= orRaise
  orRaise outcome

/-- The `try` statement of `run`. -/
def guardedRun (config : WorkflowConfig) (workflowId : String) (machine : ℕ) :
    Prog WorkflowResult :=
  (carryOut config workflowId machine).tryCatch (handleException machine)

/-- `run`. The registry has the identifiers of the workflows by name. -/
def run (config : WorkflowConfig) (registry : String → Option String) (request : WorkflowRequest) :
    Prog WorkflowResult :=
  match registry request.workflowName with
  | none => .raise (.notFound request.workflowName)
  | some workflowId => do
    Program.perform .initializeInstance >>= orRaise
    let machine ← Program.perform (.register workflowId)
    publish .created
    finishing (guardedRun config workflowId machine)

/-- What follows the cancellation of a machine. -/
def announceCancel : Option ℕ → Prog Bool
  | none => .ret false
  | some _ => do
    publish .cancelled
    pure true

/-- `cancel`. -/
def cancel (workflowId : String) : Prog Bool := do
  let found ← Program.perform (.cancel workflowId) >>= orRaise
  announceCancel found

inductive Request where
  | run (request : WorkflowRequest)
  | cancel (workflowId : String)

inductive Answer where
  | result (result : WorkflowResult)
  | found (found : Bool)
deriving DecidableEq

variable (config : WorkflowConfig) (registry : String → Option String)

def start : Request → Prog Answer
  | .run request => do
    let result ← run config registry request
    pure (.result result)
  | .cancel workflowId => do
    let found ← cancel workflowId
    pure (.found found)

abbrev Calls := Config Request Action Action.Reply Exn Answer World

/-- A configuration that some run of calls reaches. -/
def Reachable (c : Calls) : Prop := Reaches handler (start config registry) (idle {}) c

end Workflows

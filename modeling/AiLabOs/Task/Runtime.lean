import AiLabOs.Base.Failure
import AiLabOs.Process.Program
import Mathlib.Data.Int.Notation

/-!
# Task runtime

Any number of calls of the runtime, interleaved at its awaits: a publication, or a run of a
workflow. What lies between two awaits is given as several actions; that lets other calls in more
often than the code does, and never less often.

## Main definitions

* `TaskStatus`, `validTransitions`: the state machine of a task
* `Action`, `World`, `handler`: what a call awaits, and what that does
* `createTask`, `run`, `pause`, `resume`, `cancel`, `retry`: the operations
* `Reachable`: calls in flight over a runtime
-/

namespace Tasks

open Process

/-! ## The state machine -/

/-- `TaskStatus`. -/
inductive TaskStatus where
  | created
  | ready
  | running
  | waiting
  | paused
  | failed
  | retrying
  | cancelled
  | completed
  | timeout
  | destroyed
deriving DecidableEq, Repr

/-- The text of a status. -/
def TaskStatus.value : TaskStatus → String
  | .created => "created"
  | .ready => "ready"
  | .running => "running"
  | .waiting => "waiting"
  | .paused => "paused"
  | .failed => "failed"
  | .retrying => "retrying"
  | .cancelled => "cancelled"
  | .completed => "completed"
  | .timeout => "timeout"
  | .destroyed => "destroyed"

/-- `_VALID_TRANSITIONS`. -/
def validTransitions : TaskStatus → List TaskStatus
  | .created => [.ready, .cancelled]
  | .ready => [.running, .cancelled]
  | .running => [.waiting, .paused, .completed, .failed, .timeout, .cancelled]
  | .waiting => [.running, .cancelled, .timeout]
  | .paused => [.running, .cancelled]
  | .failed => [.retrying, .destroyed]
  | .retrying => [.running, .failed, .cancelled]
  | .timeout => [.retrying, .destroyed]
  | .cancelled => [.destroyed]
  | .completed => [.destroyed]
  | .destroyed => []

/-- `can_transition`. -/
def TaskStatus.canTransition (current target : TaskStatus) : Bool :=
  (validTransitions current).contains target

/-! ## Tasks -/

/-- What a call raises. -/
inductive Exn where
  | notFound (taskId : String)
  | state (current target : TaskStatus)
  | publication (message : String)
deriving DecidableEq, Repr

/-- `TaskRequest`, as far as a run reads it. -/
structure TaskRequest where
  taskName : String := ""
  workflowNames : List String := []
  timeout : ℤ := 600
  maxRetries : ℤ := 3
  traceId : String := ""
deriving DecidableEq, Repr

/-- `TaskCheckpoint`. -/
structure TaskCheckpoint where
  status : TaskStatus
  currentWorkflowIndex : ℕ
  completedWorkflows : List String
  retryCount : ℕ
deriving DecidableEq, Repr

/-- How far the run of a task has come: the call that runs it has not decided the outcome yet, or
is publishing it. -/
inductive RunPhase where
  | idle
  | active (runner : ℕ)
  | settling (runner : ℕ)
deriving DecidableEq, Repr

/-- A task: its state machine, its status in the registry, and its context. -/
structure TaskEntry where
  request : TaskRequest
  machine : TaskStatus := .created
  status : TaskStatus := .created
  workflowIds : List String := []
  checkpoint : Option TaskCheckpoint := none
  phase : RunPhase := .idle
deriving DecidableEq, Repr

/-- `TaskResult`. The outputs are those of the workflows, by their names. -/
structure TaskResult where
  taskId : String
  status : TaskStatus
  outputs : List (String × Payload) := []
  retryCount : ℕ := 0
  errors : List String := []
  traceId : String := ""
  retryable : Bool := false
  failure : Option FailureInfo := none
deriving DecidableEq, Repr

/-- How a workflow ends under `wait_for`. -/
inductive WorkflowOutcome where
  | completed (outputs : Payload)
  /-- It returns with another status. -/
  | unfinished (errors : List String)
  | timeout (text : String)
  /-- It raises a classified failure. -/
  | failed (info : FailureInfo)
  | raised (text className : String)
deriving DecidableEq, Repr

/-! ## Actions -/

/-- What a call awaits. -/
inductive Action where
  | register (request : TaskRequest)
  /-- A step of a run: a transition of the state machine, and of the status. -/
  | move (taskId : String) (target : TaskStatus)
  | publish (taskId eventType : String)
  /-- The publication of the outcome of a run. -/
  | report (taskId eventType : String)
  | load (taskId : String)
  | cancelFlag (taskId : String)
  | runWorkflow (name traceId : String) (timeout : ℤ)
  | checkpoint (taskId name : String) (index : ℕ) (completed : List String) (retryCount : ℕ)
  | pause (taskId : String)
  | resume (taskId : String)
  | cancel (taskId : String)
  | retry (taskId : String)
deriving DecidableEq, Repr

/-- The reply to an action. -/
@[reducible] def Action.Reply : Action → Type
  | .register _ => String
  | .move _ _ => Except Exn Unit
  | .publish _ _ => Except Exn Unit
  | .report _ _ => Except Exn Unit
  | .load _ => TaskRequest × Option TaskCheckpoint
  | .cancelFlag _ => Bool
  | .runWorkflow _ _ _ => WorkflowOutcome
  | .checkpoint _ _ _ _ _ => Unit
  | .pause _ => Bool
  | .resume _ => Bool
  | .cancel _ => Except Exn Unit
  | .retry _ => Bool

/-- What the environment supplies: nothing, the identifier of a task, how a workflow ends, or that
the bus raises. -/
inductive Input where
  | done
  | id (taskId : String)
  | outcome (outcome : WorkflowOutcome)
  | raised (message : String)
deriving DecidableEq, Repr

/-- The runtime: the tasks and the cancel flags. -/
structure World where
  tasks : String → Option TaskEntry := fun _ => none
  cancelFlags : String → Bool := fun _ => false

namespace World

/-- The runtime with one task changed. -/
def set (w : World) (taskId : String) (entry : TaskEntry) : World :=
  { w with tasks := Function.update w.tasks taskId (some entry) }

/-- The phase a step of a run leads to. -/
def phaseAfter (i : ℕ) : TaskStatus → RunPhase
  | .ready => .active i
  | .running => .active i
  | _ => .settling i

/-- `sm.transition(target)` and `set_status(target)`, in a run. -/
def move (w : World) (i : ℕ) (taskId : String) (target : TaskStatus) : Except Exn Unit × World :=
  match w.tasks taskId with
  | none => (.error (.notFound taskId), w)
  | some entry =>
    if entry.machine.canTransition target then
      (.ok (), w.set taskId { entry with
        machine := target, status := target, phase := phaseAfter i target })
    else (.error (.state entry.machine target), w)

/-- `sm.transition(target)` under a condition, and `set_status(target)`: whether it is made. -/
def control (w : World) (taskId : String) (allowed : TaskStatus → Bool)
    (change : TaskEntry → TaskEntry) : Bool × World :=
  match w.tasks taskId with
  | none => (false, w)
  | some entry =>
    if allowed entry.machine then (true, w.set taskId (change entry)) else (false, w)

/-- The runtime with the cancel flag of a task set. -/
def flagged (w : World) (taskId : String) : World :=
  { w with cancelFlags := Function.update w.cancelFlags taskId true }

/-- The body of `cancel`. -/
def cancel (w : World) (taskId : String) : Except Exn Unit × World :=
  match w.tasks taskId with
  | none => (.ok (), w.flagged taskId)
  | some entry =>
    if entry.machine.canTransition .cancelled then
      (.ok (), (w.flagged taskId).set taskId { entry with
        machine := .cancelled, status := .cancelled })
    else (.error (.state entry.machine .cancelled), w.flagged taskId)

/-- The runtime after a workflow has completed: it is noted in the context, and the place of the
run in a checkpoint. -/
def recordWorkflow (w : World) (taskId name : String) (index : ℕ) (completed : List String)
    (retryCount : ℕ) : World :=
  match w.tasks taskId with
  | none => w
  | some entry =>
    w.set taskId { entry with
      workflowIds :=
        if name ∈ entry.workflowIds then entry.workflowIds else entry.workflowIds ++ [name]
      checkpoint := some ⟨entry.machine, index, completed, retryCount⟩
      status := entry.machine }

/-- The runtime after the outcome of a run is published. -/
def reported (w : World) (taskId : String) : World :=
  match w.tasks taskId with
  | none => w
  | some entry => w.set taskId { entry with phase := .idle }

end World

/-- What an action does. -/
def handler : Handler Action Action.Reply Input World
  | _, .register request, .id taskId, w =>
    if (w.tasks taskId).isNone then some (taskId, w.set taskId { request }) else none
  | i, .move taskId target, .done, w => some (w.move i taskId target)
  | _, .publish _ _, .done, w => some (.ok (), w)
  | _, .publish _ _, .raised message, w => some (.error (.publication message), w)
  | _, .report taskId _, .done, w => some (.ok (), w.reported taskId)
  | _, .report taskId _, .raised message, w =>
    some (.error (.publication message), w.reported taskId)
  | _, .load taskId, .done, w =>
    some (match w.tasks taskId with
      | none => ({}, none)
      | some entry => (entry.request, entry.checkpoint), w)
  | _, .cancelFlag taskId, .done, w => some (w.cancelFlags taskId, w)
  | _, .runWorkflow _ _ _, .outcome outcome, w => some (outcome, w)
  | _, .checkpoint taskId name index completed retryCount, .done, w =>
    some ((), w.recordWorkflow taskId name index completed retryCount)
  | _, .pause taskId, .done, w =>
    some (w.control taskId (fun machine => machine.canTransition .paused) fun entry =>
      { entry with machine := .paused, status := .paused })
  | _, .resume taskId, .done, w =>
    some (w.control taskId (fun machine => machine = .paused) fun entry =>
      { entry with machine := .running, status := .running })
  | _, .cancel taskId, .done, w => some (w.cancel taskId)
  | _, .retry taskId, .done, w =>
    some (w.control taskId (fun machine => machine.canTransition .retrying) fun entry =>
      { entry with machine := .retrying })
  | _, _, _, _ => none

/-! ## The operations -/

/-- What an operation returns. -/
inductive Answer where
  | created (taskId : String)
  | result (result : TaskResult)
  | done (changed : Bool)
deriving DecidableEq, Repr

/-- Programs over these actions. -/
abbrev Prog := Program Action Action.Reply Exn

/-- The result of an action, its exception raised. -/
def orRaise {α : Type} : Except Exn α → Prog α
  | .ok a => .ret a
  | .error exn => .raise exn

/-- `publish_task_event`. -/
def publish (taskId eventType : String) : Prog Unit := do
  let result ← Program.perform (Action.publish taskId eventType)
  orRaise result

/-- A step of a run. -/
def move (taskId : String) (target : TaskStatus) : Prog Unit := do
  let result ← Program.perform (Action.move taskId target)
  orRaise result

/-- The publication of the outcome of a run, which it then returns. -/
def report (taskId eventType : String) (result : TaskResult) : Prog TaskResult := do
  let published ← Program.perform (Action.report taskId eventType)
  orRaise published
  return result

/-- `create_task`. -/
def createTask (request : TaskRequest) : Prog String := do
  let taskId ← Program.perform (Action.register request)
  publish taskId "task.created"
  return taskId

/-- `_terminal_failure`. -/
def terminalFailure (taskId : String) (failure : FailureInfo) (status : TaskStatus)
    (retryCount : ℕ) (outputs : List (String × Payload)) : Prog TaskResult := do
  move taskId status
  report taskId (if status = .timeout then "task.timeout" else "task.failed") {
    taskId, status, outputs, retryCount
    errors := [failure.message]
    traceId := failure.traceId
    retryable := failure.retryable
    failure := some failure }

/-- The failure of a plan. -/
def planFailure (code : String) (category : ErrorCategory) (message operation traceId : String) :
    FailureInfo where
  code := code
  category := category
  message := message
  component := "task.runtime"
  operation := operation
  traceId := traceId

/-- `failure_from_exception`, with the workflow and the attempt, for an exception that is not
classified. -/
def workflowFailure (code : String) (category : ErrorCategory)
    (text className traceId name : String)
    (attempt : ℕ) : FailureInfo where
  code := code
  category := category
  message := if text = "" then className else text
  component := "task.workflow"
  operation := "execute"
  retryable := true
  traceId := traceId
  details := [("workflow", .str name), ("attempt", .int attempt)]

/-- What an attempt at a workflow comes to: its outputs, or its failure and the status that leads
to. -/
def WorkflowOutcome.result (outcome : WorkflowOutcome) (name traceId : String) (attempt : ℕ) :
    Except (FailureInfo × TaskStatus) Payload :=
  match outcome with
  | .completed outputs => .ok outputs
  | .unfinished errors =>
    let joined := "; ".intercalate errors
    .error (workflowFailure "task.workflow.execution_failed" .dependencyFailure
      (if joined = "" then "Workflow failed" else joined) "TaskExecutionError" traceId name
      attempt, .failed)
  | .timeout text =>
    .error (workflowFailure "task.workflow.timeout" .timeout text "TimeoutError" traceId name
      attempt, .timeout)
  | .failed info =>
    .error (if traceId = "" ∨ info.traceId ≠ "" then info else { info with traceId }, .failed)
  | .raised text className =>
    .error (workflowFailure "task.workflow.execution_failed" .dependencyFailure text className
      traceId name attempt, .failed)

/-- The outputs with those of one workflow set. -/
def setOutputs (outputs : List (String × Payload)) (name : String) (made : Payload) :
    List (String × Payload) :=
  if outputs.any fun entry => entry.1 = name then
    outputs.map fun entry => if entry.1 = name then (name, made) else entry
  else outputs ++ [(name, made)]

/-- The attempts at a workflow, `left` of them after this one: its outputs, or the failure of the
last one, and the retries so far. -/
def attempts (taskId name traceId : String) (timeout : ℤ) (attempt retryCount : ℕ) :
    ℕ → Prog (Except (FailureInfo × TaskStatus) Payload × ℕ)
  | 0 => do
    let outcome ← Program.perform (Action.runWorkflow name traceId timeout)
    return (outcome.result name traceId attempt, retryCount)
  | left + 1 => do
    let outcome ← Program.perform (Action.runWorkflow name traceId timeout)
    match outcome.result name traceId attempt with
    | .ok outputs => return (.ok outputs, retryCount)
    | .error _ => do
      publish taskId "task.retry"
      attempts taskId name traceId timeout (attempt + 1) (retryCount + 1) left

/-- The workflows from the one with this index on. -/
def runWorkflows (taskId traceId : String) (timeout : ℤ) (maxRetries : ℕ) :
    List String → ℕ → List (String × Payload) → ℕ → Prog TaskResult
  | [], _, outputs, retryCount => do
    move taskId .completed
    report taskId "task.completed" { taskId, status := .completed, outputs, retryCount, traceId }
  | name :: rest, index, outputs, retryCount => do
    let flag ← Program.perform (Action.cancelFlag taskId)
    if flag = true then do
      move taskId .cancelled
      report taskId "task.cancelled" { taskId, status := .cancelled, traceId }
    else do
      let (made, retryCount) ← attempts taskId name traceId timeout 1 retryCount maxRetries
      match made with
      | .error (failure, status) => terminalFailure taskId failure status retryCount outputs
      | .ok made => do
        let outputs := setOutputs outputs name made
        Program.perform (Action.checkpoint taskId name (index + 1) (outputs.map Prod.fst)
          retryCount)
        runWorkflows taskId traceId timeout maxRetries rest (index + 1) outputs retryCount

/-- `run`. -/
def run (workflowRuntime : Bool) (taskId : String) : Prog TaskResult := do
  move taskId .ready
  publish taskId "task.started"
  move taskId .running
  publish taskId "task.running"
  let (request, checkpoint) ← Program.perform (Action.load taskId)
  let index := (checkpoint.map TaskCheckpoint.currentWorkflowIndex).getD 0
  let retryCount := (checkpoint.map TaskCheckpoint.retryCount).getD 0
  if request.workflowNames = [] then
    terminalFailure taskId
      (planFailure "task.plan.empty" .validation "Task execution plan is empty" "plan"
        request.traceId) .failed retryCount []
  else if workflowRuntime = false then
    terminalFailure taskId
      (planFailure "task.workflow.not_configured" .notConfigured
        "WorkflowRuntime is not configured" "workflow.execute" request.traceId)
      .failed retryCount []
  else
    runWorkflows taskId request.traceId (max 1 request.timeout) request.maxRetries.toNat
      (request.workflowNames.drop index) index [] retryCount

/-- `pause`. -/
def pause (taskId : String) : Prog Bool := do
  let changed ← Program.perform (Action.pause taskId)
  if changed = true then publish taskId "task.paused"
  return changed

/-- `resume`. -/
def resume (taskId : String) : Prog Bool := do
  let changed ← Program.perform (Action.resume taskId)
  if changed = true then publish taskId "task.resumed"
  return changed

/-- `cancel`. -/
def cancel (taskId : String) : Prog Bool := do
  let result ← Program.perform (Action.cancel taskId)
  orRaise result
  publish taskId "task.cancelled"
  return true

/-- `retry`. -/
def retry (taskId : String) : Prog Bool := do
  let changed ← Program.perform (Action.retry taskId)
  if changed = true then publish taskId "task.retry"
  return changed

/-! ## Calls -/

/-- What a call asks for. -/
inductive Request where
  | createTask (request : TaskRequest)
  | run (taskId : String)
  | pause (taskId : String)
  | resume (taskId : String)
  | cancel (taskId : String)
  | retry (taskId : String)
deriving DecidableEq, Repr

/-- The program of a request. -/
def start (workflowRuntime : Bool) : Request → Prog Answer
  | .createTask request => createTask request >>= fun taskId => .ret (.created taskId)
  | .run taskId => run workflowRuntime taskId >>= fun result => .ret (.result result)
  | .pause taskId => pause taskId >>= fun changed => .ret (.done changed)
  | .resume taskId => resume taskId >>= fun changed => .ret (.done changed)
  | .cancel taskId => cancel taskId >>= fun changed => .ret (.done changed)
  | .retry taskId => retry taskId >>= fun changed => .ret (.done changed)

/-- Calls in flight over a runtime. -/
abbrev Calls := Config Request Action Action.Reply Exn Answer World

/-- Some run from a runtime without tasks leads to `c`. -/
def Reachable (workflowRuntime : Bool) (c : Calls) : Prop :=
  Reaches handler (start workflowRuntime) (idle {}) c

end Tasks

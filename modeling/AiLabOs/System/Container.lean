import AiLabOs.Process.Program
import Mathlib.Data.List.Range

/-!
# System: the container

Any number of calls of `start` and `shutdown` on one container, interleaved wherever one of them is
suspended. The lock of the lifecycle is never held across a suspension, so a transition does not
suspend, and a check of the state is one step with the transition after it. An initialiser or a
closer is a step when it ends; until then its call waits in it. A shutdown runs in a task of its
own, which the callers of `shutdown` wait for.

## Main definitions

* `SystemLifecycleState`, `transition`: the lifecycle
* `SystemContainer`: the components a container is composed of
* `Action`, `World`, `handler`: what a call awaits, and what that does
* `startSystem`, `shutdown`, `runShutdown`: the operations, and the task
* `Reachable`: calls in flight over a container
-/

namespace Containers

open Process

/-! ## The lifecycle -/

/-- `SystemLifecycleState`. -/
inductive SystemLifecycleState where
  | created
  | starting
  | ready
  | draining
  | stopped
  | failed
deriving DecidableEq, Repr

/-- The text of a state. -/
def SystemLifecycleState.value : SystemLifecycleState → String
  | .created => "created"
  | .starting => "starting"
  | .ready => "ready"
  | .draining => "draining"
  | .stopped => "stopped"
  | .failed => "failed"

/-- `_VALID_TRANSITIONS`. -/
def validTransitions : SystemLifecycleState → List SystemLifecycleState
  | .created => [.starting, .stopped]
  | .starting => [.ready, .draining, .failed]
  | .ready => [.draining]
  | .draining => [.stopped, .failed]
  | .stopped => []
  | .failed => []

/-- What a call raises. -/
inductive Exn where
  | invalidTransition (current target : SystemLifecycleState)
  | initialization (message : String)
  /-- What a component raises, by its text. -/
  | component (message : String)
deriving DecidableEq, Repr

/-- The text of an exception. -/
def Exn.text : Exn → String
  | .invalidTransition current target =>
    "Transition " ++ current.value ++ " -> " ++ target.value ++ " is not allowed"
  | .initialization message => message
  | .component message => message

/-- `LifecycleStateMachine.transition`: the state it leaves. -/
def transition (current target : SystemLifecycleState) : Except Exn SystemLifecycleState :=
  if current = target then .ok current
  else if target ∈ validTransitions current then .ok target
  else .error (.invalidTransition current target)

/-- `LifecycleStateMachine.try_transition`: the state it leaves. -/
def tryTransition (current target : SystemLifecycleState) : SystemLifecycleState :=
  match transition current target with
  | .ok next => next
  | .error _ => current

/-! ## Components -/

/-- A component of a container. Providers and stores are known by their place. -/
inductive Component where
  | eventBus
  | provider (i : ℕ)
  | memoryStore (i : ℕ)
  | workLogService
  | interactionService
  | userTaskService
  | inboxService
  | waitingForService
  | reminderService
  | knowledgeManager
  | tool (name : String)
  | agentRuntime
  | workflowRuntime
  | schedulerRuntime
  | reminderBridge
  | taskRuntime
  | coordinationRuntime
  | applicationRuntime
  | databaseManager
deriving DecidableEq, Repr

/-- `SystemContainer`: the names of its providers, stores and tools, and which of the other
components it has. -/
structure SystemContainer where
  providers : List String := []
  memoryStores : List String := []
  tools : List String := []
  userTaskService : Bool := false
  reminderService : Bool := false
  knowledgeManager : Bool := false
  schedulerRuntime : Bool := false
  reminderBridge : Bool := false
  coordinationRuntime : Bool := false
  /-- The bridge has an attribute `close`. `ReminderSchedulerBridge` has none, so that the bridge of
  the repository is initialised and never closed. -/
  bridgeCloses : Bool := false

/-- A component that may be missing. -/
def optional {α : Type} (present : Bool) (a : α) : List α := if present then [a] else []

/-- A step of the start-up: a component is initialised, or the scheduler begins to tick. -/
inductive Opening where
  | initializer (component : Component)
  | startScheduler
deriving DecidableEq, Repr

/-- The component a step of the start-up is about. -/
def Opening.component : Opening → Component
  | .initializer component => component
  | .startScheduler => .schedulerRuntime

/-- The tools a step of the start-up adds to the instances. -/
def Opening.tools : Opening → List String
  | .initializer (.tool name) => [name]
  | _ => []

namespace SystemContainer

/-- The steps of `start`, in order. -/
def openings (s : SystemContainer) : List Opening :=
  List.flatten [
    [.initializer .eventBus],
    (List.range s.providers.length).map fun i => .initializer (.provider i),
    (List.range s.memoryStores.length).map fun i => .initializer (.memoryStore i),
    [.initializer .workLogService, .initializer .interactionService],
    optional s.userTaskService (.initializer .userTaskService),
    [.initializer .inboxService, .initializer .waitingForService],
    optional s.reminderService (.initializer .reminderService),
    optional s.knowledgeManager (.initializer .knowledgeManager),
    s.tools.map fun name => .initializer (.tool name),
    [.initializer .agentRuntime, .initializer .workflowRuntime],
    optional s.schedulerRuntime (.initializer .schedulerRuntime),
    optional s.reminderBridge (.initializer .reminderBridge),
    optional s.schedulerRuntime .startScheduler,
    [.initializer .taskRuntime],
    optional s.coordinationRuntime (.initializer .coordinationRuntime),
    [.initializer .applicationRuntime]]

/-- What a shutdown closes before the tools. -/
def closingsBeforeTools (s : SystemContainer) : List Component :=
  List.flatten [
    optional s.schedulerRuntime .schedulerRuntime,
    optional (s.reminderBridge && s.bridgeCloses) .reminderBridge,
    [.applicationRuntime],
    optional s.coordinationRuntime .coordinationRuntime,
    [.taskRuntime],
    optional s.schedulerRuntime .schedulerRuntime,
    optional s.reminderService .reminderService,
    [.waitingForService, .inboxService, .workLogService, .interactionService],
    optional s.userTaskService .userTaskService,
    [.workflowRuntime, .agentRuntime]]

/-- What a shutdown closes after the tools. -/
def closingsAfterTools (s : SystemContainer) : List Component :=
  List.flatten [
    optional s.knowledgeManager .knowledgeManager,
    (List.range s.memoryStores.length).reverse.map .memoryStore,
    (List.range s.providers.length).reverse.map .provider,
    [.eventBus, .databaseManager]]

/-- A component that can be closed: the bridge is none unless it has a `close`. -/
def closable (s : SystemContainer) : Component → Bool
  | .reminderBridge => s.bridgeCloses
  | _ => true

/-- The name a component is closed under. -/
def closeName (s : SystemContainer) : Component → String
  | .eventBus => "event_bus"
  | .provider i => "provider:" ++ s.providers.getD i ""
  | .memoryStore i => "memory:" ++ s.memoryStores.getD i ""
  | .workLogService => "work_log_service"
  | .interactionService => "interaction_service"
  | .userTaskService => "user_task_service"
  | .inboxService => "inbox_service"
  | .waitingForService => "waiting_for_service"
  | .reminderService => "reminder_service"
  | .knowledgeManager => "knowledge_manager"
  | .tool name => "tool:" ++ name
  | .agentRuntime => "agent_runtime"
  | .workflowRuntime => "workflow_runtime"
  | .schedulerRuntime => "scheduler_runtime"
  | .reminderBridge => "reminder_bridge"
  | .taskRuntime => "task_runtime"
  | .coordinationRuntime => "coordination_runtime"
  | .applicationRuntime => "application_runtime"
  | .databaseManager => "database_manager"

end SystemContainer

/-! ## Actions -/

/-- What a call awaits: what it does up to the point where it is suspended next. -/
inductive Action where
  /-- The check of the state in `start`, and the transition to STARTING. -/
  | enter
  /-- The end of an initialiser. -/
  | initializer (opening : Opening)
  /-- The transition to READY. -/
  | ready
  /-- `shutdown` up to its wait, for a start-up that failed or for a caller. -/
  | requestShutdown (startupFailed : Bool)
  /-- The end of the shutdown task. -/
  | join
  /-- The beginning of the shutdown task. -/
  | drain
  /-- The end of a closer. -/
  | close (component : Component)
  | toolInstances
  | clearTools
  /-- The last transition of the shutdown task. -/
  | finish
deriving DecidableEq, Repr

/-- The reply to an action. -/
@[reducible] def Action.Reply : Action → Type
  | .enter => SystemLifecycleState
  | .initializer _ => Except Exn Unit
  | .ready => Except Exn Unit
  | .requestShutdown _ => Bool
  | .join => Except Exn Unit
  | .drain => Unit
  | .close _ => Unit
  | .toolInstances => List String
  | .clearTools => Unit
  | .finish => Except Exn Unit

/-- What the environment supplies: that a component returns, or what it raises. -/
inductive Input where
  | done
  | raised (message : String)
deriving DecidableEq, Repr

/-- What has become of a component: its last initialiser or closer that ended. -/
inductive Status where
  | fresh
  | initialized
  | closed
  | closeFailed
deriving DecidableEq, Repr

/-- The shutdown task: created, run by a call, or ended. -/
inductive ShutdownTask where
  | created
  | running (runner : ℕ)
  | ended (outcome : Except Exn Unit)

/-- A container as it runs, with the call that is starting it and what has become of its
components. -/
structure World where
  state : SystemLifecycleState := .created
  shutdownTask : Option ShutdownTask := none
  shutdownFailures : List String := []
  startupFailed : Bool := false
  toolInstances : List String := []
  starter : Option ℕ := none
  status : Component → Status := fun _ => .fresh

namespace World

/-- A shutdown has begun. -/
def shutdownBegun (w : World) : Bool :=
  w.shutdownTask.isSome || w.state = .stopped || w.state = .failed

/-- The world after a step of the start-up: a tool is remembered. -/
def initialized (w : World) (opening : Opening) : World :=
  { w with
    status := Function.update w.status opening.component .initialized
    toolInstances := w.toolInstances ++ opening.tools }

/-- The world after a closer: one that raises is recorded. -/
def closed (w : World) (s : SystemContainer) (component : Component) : Input → World
  | .done => { w with status := Function.update w.status component .closed }
  | .raised _ =>
    { w with
      status := Function.update w.status component .closeFailed
      shutdownFailures := w.shutdownFailures ++ [s.closeName component] }

/-- The world in which a start-up may have failed. -/
def recordStartup (w : World) (failed : Bool) : World :=
  { w with startupFailed := w.startupFailed || failed }

/-- `shutdown` up to its wait: whether it waits, and the world then. -/
def requestShutdown (w : World) : Bool × World :=
  if w.state = .stopped ∨ w.state = .failed then (false, w)
  else if w.state = .created then (false, { w with state := tryTransition w.state .stopped })
  else (true, { w with shutdownTask := some (w.shutdownTask.getD .created) })

/-- The state a shutdown ends in. -/
def finalState (w : World) : SystemLifecycleState :=
  if w.shutdownFailures ≠ [] ∨ w.startupFailed = true then .failed else .stopped

end World

/-- What an action does. -/
def handler (s : SystemContainer) : Handler Action Action.Reply Input World
  | i, .enter, .done, w =>
    if w.state = .created then
      some (w.state, { w with state := tryTransition w.state .starting, starter := some i })
    else some (w.state, w)
  | _, .initializer opening, .done, w => some (.ok (), w.initialized opening)
  | _, .initializer _, .raised message, w => some (.error (.component message), w)
  | _, .ready, .done, w =>
    match transition w.state .ready with
    | .ok next => some (.ok (), { w with state := next })
    | .error exn => some (.error exn, w)
  | _, .requestShutdown startupFailed, .done, w =>
    some (w.recordStartup startupFailed).requestShutdown
  | _, .join, .done, w =>
    match w.shutdownTask with
    | some (.ended outcome) => some (outcome, w)
    | _ => none
  | i, .drain, .done, w =>
    match w.shutdownTask with
    | some .created =>
      some ((), { w with
        state := tryTransition w.state .draining
        shutdownTask := some (.running i) })
    | _ => none
  | _, .close component, input, w => some ((), w.closed s component input)
  | _, .toolInstances, .done, w => some (w.toolInstances, w)
  | _, .clearTools, .done, w => some ((), { w with toolInstances := [] })
  | _, .finish, .done, w =>
    match transition w.state w.finalState with
    | .ok next => some (.ok (), { w with state := next, shutdownTask := some (.ended (.ok ())) })
    | .error exn => some (.error exn, { w with shutdownTask := some (.ended (.error exn)) })
  | _, _, _, _ => none

/-! ## The operations -/

/-- Programs over these actions. -/
abbrev Prog := Program Action Action.Reply Exn

/-- The result of an action, its exception raised. -/
def orRaise {α : Type} : Except Exn α → Prog α
  | .ok a => .ret a
  | .error exn => .raise exn

/-- The initialisers, one after the other. -/
def initializeAll : List Opening → Prog Unit
  | [] => return
  | opening :: rest => do
    let result ← Program.perform (Action.initializer opening)
    orRaise result
    initializeAll rest

/-- `shutdown`. -/
def shutdown (startupFailed : Bool) : Prog Unit := do
  let waits ← Program.perform (Action.requestShutdown startupFailed)
  if waits = true then do
    let outcome ← Program.perform Action.join
    orRaise outcome
  else return

/-- The start-up, which is rolled back by a shutdown if it fails. -/
def initializeOrRollBack (s : SystemContainer) : Prog Unit :=
  Program.tryCatch
    (do
      initializeAll s.openings
      let result ← Program.perform Action.ready
      orRaise result)
    fun exn => do
      shutdown true
      .raise (.initialization exn.text)

/-- `start`. -/
def startSystem (s : SystemContainer) : Prog Unit := do
  let state ← Program.perform Action.enter
  match state with
  | .ready => return
  | .starting => .raise (.initialization "System startup is already in progress")
  | .draining => .raise (.initialization "Cannot start while system is draining")
  | .stopped => .raise (.initialization "SystemContainer cannot be restarted")
  | .failed => .raise (.initialization "Failed SystemContainer cannot be restarted")
  | .created => initializeOrRollBack s

/-- The closers, one after the other. -/
def closeAll : List Component → Prog Unit
  | [] => return
  | component :: rest => do
    Program.perform (Action.close component)
    closeAll rest

/-- `_run_shutdown`. -/
def runShutdown (s : SystemContainer) : Prog Unit := do
  Program.perform Action.drain
  closeAll s.closingsBeforeTools
  let tools ← Program.perform Action.toolInstances
  closeAll (tools.reverse.map .tool)
  Program.perform Action.clearTools
  closeAll s.closingsAfterTools
  let result ← Program.perform Action.finish
  orRaise result

/-! ## Calls -/

/-- What a call asks for. The task of a shutdown is a call too, which waits until the task is
created. -/
inductive Request where
  | start
  | shutdown
  | shutdownTask
deriving DecidableEq, Repr

/-- The program of a request. -/
def start (s : SystemContainer) : Request → Prog Unit
  | .start => startSystem s
  | .shutdown => shutdown false
  | .shutdownTask => runShutdown s

/-- Calls in flight over a container. -/
abbrev Calls := Config Request Action Action.Reply Exn Unit World

/-- Some run from a container that has been created leads to `c`. -/
def Reachable (s : SystemContainer) (c : Calls) : Prop :=
  Reaches (handler s) (start s) (idle {}) c

end Containers

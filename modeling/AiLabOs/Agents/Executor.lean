import AiLabOs.Base.Failure
import AiLabOs.Process.Attempt

/-!
# Agents

A run of an agent publishes that it has started, reads memory and knowledge, asks the provider,
saves the exchange and publishes how it ended. The services it calls answer as they like.

## Main definitions

* `AgentStatus`, `AgentStatus.allows`: the lifecycle
* `Services`, `AgentRequest`, `AgentResponse`: what a run is given, and what it returns
* `Action`, `Reply`: what a run awaits
* `AgentExecutor.execute`: one interaction cycle
-/

namespace Agents

open Process Program

/-! ## The data of a run -/

inductive AgentStatus where
  | created
  | initialized
  | ready
  | running
  | idle
  | stopped
  | destroyed
  | degraded
  | error
deriving DecidableEq, Repr

def AgentStatus.value : AgentStatus → String
  | .created => "created"
  | .initialized => "initialized"
  | .ready => "ready"
  | .running => "running"
  | .idle => "idle"
  | .stopped => "stopped"
  | .destroyed => "destroyed"
  | .degraded => "degraded"
  | .error => "error"

/-- `VALID_TRANSITIONS`. -/
def AgentStatus.targets : AgentStatus → List AgentStatus
  | .created => [.initialized, .error, .destroyed]
  | .initialized => [.ready, .error, .destroyed]
  | .ready => [.running, .stopped, .error, .destroyed]
  | .running => [.idle, .degraded, .error, .stopped]
  | .idle => [.running, .stopped, .error, .destroyed]
  | .degraded => [.running, .stopped, .error, .destroyed]
  | .stopped => [.destroyed]
  | .error => [.stopped, .destroyed]
  | .destroyed => []

/-- `AgentLifecycleManager.transition`, which leaves the status where the table does not let it. -/
def AgentStatus.transition (status target : AgentStatus) : AgentStatus :=
  if target ∈ status.targets then target else status

/-- The condition of `assert_runnable`. -/
def AgentStatus.runnable (status : AgentStatus) : Bool :=
  status = .ready || status = .idle || status = .degraded || status = .running

/-- `AgentInfo` and `AgentConfig`, as far as a run reads them. -/
structure Settings where
  agentId : String
  name : String := ""
  description : String := ""
  capabilities : List String := []
  systemPrompt : String := ""
  knowledgeEnabled : Bool := true
  /-- What `_classify` reads in the name of a class and its text. -/
  classify : String → String → ErrorCategory × Bool := fun _ _ => (.internal, false)

/-- Which services an executor has. -/
structure Services where
  bus : Bool := false
  llm : Bool := false
  memory : Bool := false
  /-- The memory manager has `health`. -/
  memoryHealth : Bool := false
  /-- The memory manager has `record_failure`. -/
  recordsFailures : Bool := false
  knowledge : Bool := false
  toolRegistry : Bool := false
  toolExecutor : Bool := false

structure AgentRequest where
  userInput : String := ""
  sessionId : String := ""
  memoryEnabled : Bool := true
  knowledgeEnabled : Bool := true
  toolsEnabled : Bool := true
  traceId : String := ""
deriving DecidableEq, Repr

structure ToolCall where
  name : String
  arguments : Payload
deriving DecidableEq, Repr

structure ToolCallRecord where
  toolName : String
  arguments : Payload
  result : String
  success : Bool
  error : Option String
deriving DecidableEq, Repr

inductive ResponseStatus where
  | ok
  | degraded
  | failed
deriving DecidableEq, Repr

/-- `AgentResponse`, less its latency. -/
structure AgentResponse where
  answer : String
  toolCalls : List ToolCallRecord := []
  sessionId : String
  agentId : String
  status : ResponseStatus
  traceId : String
  retryable : Bool := false
  failure : Option FailureInfo := none
  /-- `metadata["memory_saved"]`. -/
  memorySaved : Option Bool := none
deriving DecidableEq, Repr

structure Message where
  role : String
  content : String
deriving DecidableEq, Repr

/-- `AgentContext`, as far as it is read. `variables["tool_calls"]` is its list of tool calls. -/
structure AgentContext where
  sessionId : String
  agentId : String
  systemPrompt : String
  messages : List Message
  toolCalls : List ToolCall := []

/-- An exception: a classified failure, or what `_classify` makes of another one, with its text. -/
inductive Exn where
  | failure (info : FailureInfo)
  | other (category : ErrorCategory) (retryable : Bool) (message : String)
  /-- `asyncio.CancelledError`, or another exception that is no `Exception`. -/
  | cancelled
deriving DecidableEq, Repr

/-- `except Exception` catches it. -/
def Exn.caught : Exn → Bool
  | .failure _ | .other _ _ _ => true
  | .cancelled => false

/-- `AgentNotReadyError`. -/
def notReady (settings : Settings) (status : AgentStatus) : Exn :=
  let message := "Agent " ++ settings.name ++ " is " ++ status.value ++ ", cannot run"
  let (category, retryable) := settings.classify "AgentNotReadyError" message
  .other category retryable message

inductive AgentEventType where
  | started
  | completed
  | degraded
  | failed
deriving DecidableEq, Repr

/-! ## Actions -/

/-- What a run awaits, or does to the status of the agent. -/
inductive Action where
  /-- `uuid.uuid4().hex[:12]`. -/
  | newSession
  /-- `assert_runnable` and the transition to `RUNNING`. -/
  | enter
  | transition (target : AgentStatus)
  | initializeAgent
  | shutdown
  /-- The text is the status in the payload of the event. -/
  | publish (event : AgentEventType) (failure : Option FailureInfo)
  /-- `health()` says that the memory is not configured. -/
  | memoryHealth
  | retrieve
  | search (text : String)
  | generate (messages : List Message)
  | executeTool (call : ToolCall)
  | save (userInput response sessionId : String)
  | recordFailure (failure : FailureInfo)
deriving DecidableEq, Repr

abbrev Reply : Action → Type
  | .newSession => String
  | .enter => Except Exn Unit
  | .transition _ | .initializeAgent | .shutdown => Unit
  | .publish _ _ => Except Exn Unit
  | .memoryHealth => Except Exn Bool
  | .retrieve => Except Exn (List String)
  | .search _ => Except Exn (List String)
  | .generate _ => Except Exn String
  | .executeTool _ => Except Exn (Bool × String)
  | .save _ _ _ => Except Exn Unit
  | .recordFailure _ => Except Exn Unit

abbrev AgentProgram (ε α : Type) := Program Action Reply ε α

abbrev act {ε : Type} (action : Action) : AgentProgram ε (Reply action) := perform action

/-- The step of a run that an exception is ascribed to. -/
inductive Operation where
  | dependenciesValidate
  | memoryRetrieve
  | knowledgeRetrieve
  | contextBuild
  | providerGenerate
  | toolExecute
deriving DecidableEq, Repr

/-- `operation.split(".", 1)`. -/
def Operation.parts : Operation → String × String
  | .dependenciesValidate => ("dependencies", "validate")
  | .memoryRetrieve => ("memory", "retrieve")
  | .knowledgeRetrieve => ("knowledge", "retrieve")
  | .contextBuild => ("context", "build")
  | .providerGenerate => ("provider", "generate")
  | .toolExecute => ("tool", "execute")

/-- An exception, and where it was raised. -/
abbrev Fault := Operation × Exn

/-- A reply, or the exception it is. -/
def unwrap {α : Type} (operation : Operation) : Except Exn α → AgentProgram Fault α
  | .ok a => .ret a
  | .error exn => .raise (operation, exn)

/-- What a condition asks for, or a default. -/
def whenever {ε α : Type} (condition : Bool) (p : AgentProgram ε α) (default : α) :
    AgentProgram ε α :=
  if condition then p else .ret default

/-! ## Failures -/

/-- `failure_from_exception`. A classified failure keeps what it says. -/
def failureFromException (exn : Exn) (component operation traceId code : String)
    (category : Option ErrorCategory := none) (retryable : Option Bool := none) : FailureInfo :=
  match exn with
  | .failure info =>
    if traceId = "" ∨ info.traceId ≠ "" then info else { info with traceId := traceId }
  | .other inferred inferredRetryable message =>
    let final := category.getD inferred
    { code, category := final
      message := if final = .internal then "Unexpected internal error" else message
      component, operation, traceId
      retryable := retryable.getD inferredRetryable }
  | .cancelled =>
    { code, category := category.getD .cancelled, message := "CancelledError"
      component, operation, traceId, retryable := retryable.getD false }

/-- The failure of a run. What a service did not classify counts as a failure of that service. -/
def runFailure (operation : Operation) (exn : Exn) (traceId : String) : FailureInfo :=
  let (component, action) := operation.parts
  let failure := failureFromException exn ("agent." ++ component) action traceId
    ("agent." ++ component ++ "." ++ action ++ "_failed")
  if failure.category = .internal ∧
      (operation = .memoryRetrieve ∨ operation = .knowledgeRetrieve ∨
        operation = .providerGenerate ∨ operation = .toolExecute) then
    { failure with
      category := .dependencyFailure
      retryable := decide (operation ≠ .toolExecute) }
  else failure

/-- The failure of saving an exchange. -/
def saveFailure (exn : Exn) (traceId : String) : FailureInfo :=
  failureFromException exn "agent.memory" "save" traceId "agent.memory.save_failed"
    (some .persistenceFailure) (some true)

/-! ## The executor -/

/-- The first characters of a text. -/
def sliced (n : ℕ) (s : String) : String := String.ofList (s.toList.take n)

/-- `ContextBuilder`. -/
def buildMessages (request : AgentRequest) (memory knowledge : List String) : List Message :=
  let knowledgeText := " ".intercalate ((knowledge.take 3).map (sliced 500))
  let memoryText := " ".intercalate ((memory.take 5).map (sliced 300))
  (if knowledgeText = "" then [] else [⟨"system", "Relevant knowledge: " ++ knowledgeText⟩]) ++
  (if memoryText = "" then [] else [⟨"system", "Recent context: " ++ memoryText⟩]) ++
  [⟨"user", request.userInput⟩]

def buildSystemPrompt (settings : Settings) : String :=
  let first := if settings.systemPrompt = "" then
    "You are " ++ settings.name ++ ". " ++ settings.description else settings.systemPrompt
  if settings.capabilities = [] then first
  else first ++ " Capabilities: " ++ ", ".intercalate settings.capabilities

def buildContext (settings : Settings) (request : AgentRequest) (memory knowledge : List String) :
    AgentContext where
  sessionId := request.sessionId
  agentId := settings.agentId
  systemPrompt := buildSystemPrompt settings
  messages := buildMessages request memory knowledge

section Executor

variable (settings : Settings) (services : Services)

def notConfigured (code component operation message traceId : String) (category : ErrorCategory) :
    Exn :=
  .failure { code, category, message, component, operation, traceId }

/-- `_validate_requested_dependencies`. -/
def validateRequestedDependencies (request : AgentRequest) (traceId : String) :
    AgentProgram Fault Unit := do
  let memoryMissing ← whenever (request.memoryEnabled && services.memory && services.memoryHealth)
    (act .memoryHealth >>= unwrap .dependenciesValidate) (!services.memory)
  let missing : Option Exn :=
    if request.memoryEnabled && memoryMissing then
      some (notConfigured "agent.memory.not_configured" "agent.memory" "retrieve"
        "Memory service is not configured" traceId .notConfigured)
    else if request.knowledgeEnabled && !settings.knowledgeEnabled then
      some (notConfigured "agent.knowledge.disabled" "agent.knowledge" "retrieve"
        "Knowledge service is disabled" traceId .disabled)
    else if request.knowledgeEnabled && settings.knowledgeEnabled && !services.knowledge then
      some (notConfigured "agent.knowledge.not_configured" "agent.knowledge" "retrieve"
        "Knowledge service is not configured" traceId .notConfigured)
    else if request.toolsEnabled && !(services.toolRegistry && services.toolExecutor) then
      some (notConfigured "agent.tool.not_configured" "agent.tool" "execute"
        "Tool runtime is not configured" traceId .notConfigured)
    else none
  match missing with
  | some exn => .raise (.dependenciesValidate, exn)
  | none => .ret ()

/-- `_fetch_memory`. -/
def fetchMemory : AgentProgram Fault (List String) :=
  if services.memory then act .retrieve >>= unwrap .memoryRetrieve
  else .raise (.memoryRetrieve, .other .notConfigured false "MemoryManager is not configured")

/-- `_fetch_knowledge`. -/
def fetchKnowledge (request : AgentRequest) : AgentProgram Fault (List String) :=
  act (.search request.userInput) >>= unwrap .knowledgeRetrieve

/-- `_invoke_llm`. -/
def invokeLlm (context : AgentContext) : AgentProgram Fault String :=
  if services.llm then act (.generate context.messages) >>= unwrap .providerGenerate
  else .raise (.providerGenerate, .other .notConfigured false "LLM provider is not configured")

def invokeEach : List ToolCall → AgentProgram Fault (List ToolCallRecord)
  | [] => .ret []
  | call :: calls => do
    let (success, text) ← act (.executeTool call) >>= unwrap .toolExecute
    let records ← invokeEach calls
    .ret (⟨call.name, call.arguments, text, success, if success then none else some text⟩ ::
      records)

/-- `_invoke_tools`. -/
def invokeTools (context : AgentContext) : AgentProgram Fault (List ToolCallRecord) :=
  if services.toolExecutor then invokeEach context.toolCalls
  else .raise (.toolExecute, .other .notConfigured false "ToolExecutor is not configured")

/-- The tools of a run; the first that failed ends it. -/
def runTools (request : AgentRequest) (context : AgentContext) :
    AgentProgram Fault (List ToolCallRecord) :=
  if request.toolsEnabled then do
    let records ← invokeTools services context
    match records.find? fun record => !record.success with
    | some record =>
      let error := record.error.getD ""
      let message := if error = "" then "Tool " ++ record.toolName ++ " failed" else error
      let (category, retryable) := settings.classify "ToolExecutionError" message
      .raise (.toolExecute, .other category retryable message)
    | none => .ret records
  else .ret []

/-- `_save_memory`, for its outcome. -/
def saveMemory (request : AgentRequest) (answer : String) :
    AgentProgram Fault (Except Exn Unit) :=
  if services.memory then
    act (.save request.userInput (sliced 500 answer) request.sessionId)
  else .ret (.error (.other .notConfigured false "MemoryManager is not configured"))

/-- An event of the run, if there is a bus. The exception of a publication is one of the step the
run was at. -/
def publish (event : AgentEventType) (failure : Option FailureInfo) (operation : Operation) :
    AgentProgram Fault Unit :=
  if services.bus then act (.publish event failure) >>= unwrap operation else .ret ()

/-- `record_failure` of the memory manager, if it has one. -/
def recordFailure (failure : FailureInfo) (operation : Operation) : AgentProgram Fault Unit :=
  if services.memory && services.recordsFailures then
    act (.recordFailure failure) >>= unwrap operation
  else .ret ()

/-- The end of the `try` of `execute`, which was at this step when it had its response. -/
def conclude (request : AgentRequest) (response : AgentResponse) (operation : Operation) :
    AgentProgram Fault AgentResponse := do
  match ← whenever request.memoryEnabled (saveMemory services request response.answer) (.ok ()) with
  | .error exn =>
    if exn.caught then do
      let failure := saveFailure exn response.traceId
      recordFailure services failure operation
      publish services .degraded (some failure) operation
      .ret { response with
        status := .degraded, failure := some failure, retryable := failure.retryable
        memorySaved := some false }
    else .raise (operation, exn)
  | .ok () => do
    publish services .completed none operation
    .ret response

/-- The `try` of `execute`. -/
def cycle (request : AgentRequest) (sessionId traceId : String) :
    AgentProgram Fault AgentResponse := do
  validateRequestedDependencies settings services request traceId
  let memory ← whenever request.memoryEnabled (fetchMemory services) []
  let knowledge ← whenever request.knowledgeEnabled (fetchKnowledge request) []
  let context := buildContext settings request memory knowledge
  let answer ← invokeLlm services context
  let tools ← runTools settings services request context
  conclude services request
    { answer, toolCalls := tools, sessionId, agentId := settings.agentId, status := .ok, traceId }
    (if request.toolsEnabled then .toolExecute else .providerGenerate)

/-- The `except` of `execute`. -/
def handleFault (fault : Fault) (sessionId traceId : String) :
    AgentProgram Exn AgentResponse := do
  let failure := runFailure fault.1 fault.2 traceId
  match ← attempt (do
      whenever (fault.1 = .memoryRetrieve) (recordFailure services failure fault.1) ()
      publish services .failed (some failure) fault.1) with
  | .error lost => .raise lost.2
  | .ok () => .ret {
      answer := "", sessionId, agentId := settings.agentId, status := .failed, traceId
      retryable := failure.retryable, failure := some failure }

/-- `execute`. -/
def execute (request : AgentRequest) : AgentProgram Exn AgentResponse := do
  let sessionId ← whenever (request.sessionId = "") (act .newSession) request.sessionId
  let traceId := if request.traceId = "" then sessionId else request.traceId
  match ← attempt (publish services .started none .dependenciesValidate) with
  | .error fault => .raise fault.2
  | .ok () => do
    match ← attempt (cycle settings services request sessionId traceId) with
    | .ok response => .ret response
    | .error fault =>
      if fault.2.caught then handleFault settings services fault sessionId traceId
      else .raise fault.2

end Executor

end Agents

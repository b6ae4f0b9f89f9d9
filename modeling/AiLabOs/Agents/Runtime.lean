import AiLabOs.Agents.Executor
import AiLabOs.Process.Conditioned

/-!
# The runtime of an agent

Calls of the runtime share the status of the agent and interleave at the awaits of its runs.

## Main definitions

* `World`, `handler`: the status, and what the actions do to it
* `run`: one run, between its two transitions
* `RunLaw`: what a run that returns has published, saved and returned
* `Raised`: what a run that raises has done; a `CancelledError` passes each `except Exception`

## Main results

* `agent_run_law`: a run that returns publishes one ending, the one it returns
* `agent_dead_law`: an agent whose run has failed never runs again; a run that was cancelled leaves
  the status as it is
-/

namespace Agents

open Process Program

/-! ## Calls -/

/-- The status of the agent. -/
structure World where
  status : AgentStatus := .created
deriving DecidableEq, Repr

/-- What the services answer. -/
inductive Input where
  | done
  | fails (exn : Exn)
  | text (s : String)
  | texts (l : List String)
  | flag (b : Bool)
  | tool (success : Bool) (text : String)

def World.transition (w : World) (target : AgentStatus) : World :=
  { w with status := w.status.transition target }

def World.initializeAgent (w : World) : World := (w.transition .initialized).transition .ready

def World.shutdown (w : World) : World :=
  if w.status = .destroyed ∨ w.status = .stopped then w.transition .destroyed
  else (w.transition .stopped).transition .destroyed

def handler (settings : Settings) : Handler Action Reply Input World := fun _ action input w =>
  match action, input with
  | .newSession, .text s => some (s, w)
  | .enter, _ =>
    if w.status.runnable then some (.ok (), w.transition .running)
    else some (.error (notReady settings w.status), w)
  | .transition target, _ => some ((), w.transition target)
  | .initializeAgent, _ => some ((), w.initializeAgent)
  | .shutdown, _ => some ((), w.shutdown)
  | .publish _ _, .done => some (.ok (), w)
  | .publish _ _, .fails exn => some (.error exn, w)
  | .memoryHealth, .flag b => some (.ok b, w)
  | .memoryHealth, .fails exn => some (.error exn, w)
  | .retrieve, .texts l => some (.ok l, w)
  | .retrieve, .fails exn => some (.error exn, w)
  | .search _, .texts l => some (.ok l, w)
  | .search _, .fails exn => some (.error exn, w)
  | .generate _, .text s => some (.ok s, w)
  | .generate _, .fails exn => some (.error exn, w)
  | .executeTool _, .tool success text => some (.ok (success, text), w)
  | .executeTool _, .fails exn => some (.error exn, w)
  | .save _ _ _, .done => some (.ok (), w)
  | .save _ _ _, .fails exn => some (.error exn, w)
  | .recordFailure _, .done => some (.ok (), w)
  | .recordFailure _, .fails exn => some (.error exn, w)
  | _, _ => none

/-- The status a run leaves. -/
def ResponseStatus.leaves : ResponseStatus → AgentStatus
  | .failed => .error
  | .degraded => .degraded
  | .ok => .idle

section Calls

variable (settings : Settings) (services : Services)

/-- `DefaultAgentRuntime.run`. -/
def run (request : AgentRequest) : AgentProgram Exn AgentResponse := do
  match ← act .enter with
  | .error exn => .raise exn
  | .ok () => do
    match ← attempt (execute settings services request) with
    | .ok response => do
      act (.transition response.status.leaves)
      .ret response
    | .error exn =>
      if exn.caught then do
        act (.transition .error)
        .raise exn
      else .raise exn

inductive Request where
  | initializeAgent
  | run (request : AgentRequest)
  | shutdown
deriving DecidableEq, Repr

def start : Request → AgentProgram Exn (Option AgentResponse)
  | .initializeAgent => do
    act .initializeAgent
    .ret none
  | .run request => do
    let response ← run settings services request
    .ret (some response)
  | .shutdown => do
    act .shutdown
    .ret none

end Calls

abbrev Calls := Config Request Action Reply Exn (Option AgentResponse) World

/-- Some interleaving of calls leads here. -/
def Reachable (settings : Settings) (services : Services) (c : Calls) : Prop :=
  Reaches (handler settings) (start settings services) (idle {}) c

/-! ## What a run has done -/

/-- The events it published, and whether the publication went through. -/
def published (log : Log Action Reply) : List (AgentEventType × Bool) :=
  log.filterMap fun entry =>
    match entry with
    | ⟨.publish event _, reply⟩ => some (event, reply.isOk)
    | _ => none

/-- Whether it could save, each time it tried. -/
def saves (log : Log Action Reply) : List Bool :=
  log.filterMap fun entry =>
    match entry with
    | ⟨.save _ _ _, reply⟩ => some reply.isOk
    | _ => none

/-- Whether it could record a failure in the memory, each time it tried. -/
def records (log : Log Action Reply) : List Bool :=
  log.filterMap fun entry =>
    match entry with
    | ⟨.recordFailure _, reply⟩ => some reply.isOk
    | _ => none

/-- The tools it called. -/
def toolRuns (log : Log Action Reply) : List ToolCall :=
  log.filterMap fun entry =>
    match entry with
    | ⟨.executeTool call, _⟩ => some call
    | _ => none

/-- What a run has done that the outside sees. -/
structure Story where
  published : List (AgentEventType × Bool) := []
  saves : List Bool := []
  records : List Bool := []
  toolRuns : List ToolCall := []
deriving DecidableEq, Repr

def story (log : Log Action Reply) : Story :=
  ⟨published log, saves log, records log, toolRuns log⟩

/-- A publication, if there is a bus. -/
def Services.told (services : Services) (event : AgentEventType) (delivered : Bool) :
    List (AgentEventType × Bool) :=
  if services.bus then [(event, delivered)] else []

/-- The story with one more event, if there is a bus. -/
def Story.tell (m : Story) (services : Services) (event : AgentEventType) (delivered : Bool) :
    Story :=
  { m with published := m.published ++ services.told event delivered }

/-- The memory records failures. -/
def Services.keeps (services : Services) : Bool := services.memory && services.recordsFailures

/-- What recording a failure comes to, when it goes well. -/
def Services.kept (services : Services) : List Bool := if services.keeps then [true] else []

/-- What saving the exchange comes to, when it goes well. -/
def AgentRequest.saved (request : AgentRequest) : List Bool :=
  if request.memoryEnabled then [true] else []

/-- What a run has done that is about to publish that it failed. An ending that could not be
published turns the run into a failed one, and so does a failure of saving that could not be
recorded. -/
inductive Failing (services : Services) (request : AgentRequest) : Story → Prop
  | failed : Failing services request ⟨services.told .started true, [], [], []⟩
  | unretrieved : Failing services request ⟨services.told .started true, [], services.kept, []⟩
  | uncompleted (h : services.bus = true) : Failing services request
      ⟨[(.started, true), (.completed, false)], request.saved, [], []⟩
  | undegraded (h : services.bus = true) (hm : request.memoryEnabled = true) :
      Failing services request ⟨[(.started, true), (.degraded, false)], [false], services.kept, []⟩
  | unrecorded (h : services.keeps = true) (hm : request.memoryEnabled = true) :
      Failing services request ⟨services.told .started true, [false], [false], []⟩

/-- What a run has done that returns so: it published that it started, and then its ending. -/
inductive Ends (services : Services) (request : AgentRequest) : ResponseStatus → Story → Prop
  | ok : Ends services request .ok
      ⟨services.told .started true ++ services.told .completed true, request.saved, [], []⟩
  | degraded (h : request.memoryEnabled = true) : Ends services request .degraded
      ⟨services.told .started true ++ services.told .degraded true, [false], services.kept, []⟩
  | failed (m : Story) (h : Failing services request m) :
      Ends services request .failed (m.tell services .failed true)

/-- What a run has done that raises, since it could not publish that it started or failed, or could
not record its failure. -/
inductive Lost (services : Services) (request : AgentRequest) : Story → Prop
  | started (h : services.bus = true) : Lost services request ⟨[(.started, false)], [], [], []⟩
  | unretrieved (h : services.keeps = true) :
      Lost services request ⟨services.told .started true, [], [false], []⟩
  | failed (m : Story) (h : Failing services request m) (hbus : services.bus = true) :
      Lost services request (m.tell services .failed false)

/-- What a run may have done when it is cancelled: whatever it awaited then has failed, and no
ending went through. -/
inductive Interrupted (services : Services) (request : AgentRequest) : Story → Prop
  | lost (m : Story) (h : Lost services request m) : Interrupted services request m
  | failing (m : Story) (h : Failing services request m) : Interrupted services request m
  | saving (h : request.memoryEnabled = true) :
      Interrupted services request ⟨services.told .started true, [false], [], []⟩

/-- **How a run raises.** -/
inductive Raised (settings : Settings) (services : Services) (request : AgentRequest) (exn : Exn)
    (log : Log Action Reply) : Prop
  /-- It was refused, and has done nothing else. -/
  | refused (status : AgentStatus) (h : status.runnable = false)
      (hexn : exn = notReady settings status) (hlog : log = [⟨.enter, .error exn⟩])
  | lost (h : exn.caught = true) (hlost : Lost services request (story log))
  | cancelled (h : exn.caught = false) (hstory : Interrupted services request (story log))

/-- **The law of a run**: what it returns, next to what it has done. -/
structure RunLaw (services : Services) (request : AgentRequest) (response : AgentResponse)
    (m : Story) : Prop where
  ends : Ends services request response.status m
  untooled : response.toolCalls = []
  failure : response.status = .ok ↔ response.failure = none
  retryable : response.retryable = (response.failure.map FailureInfo.retryable).getD false
  answer : response.status = .failed → response.answer = ""

/-! ## The status -/

/-- Some run has begun. -/
def AgentStatus.begun (status : AgentStatus) : Bool :=
  match status with
  | .created | .initialized | .ready => false
  | _ => true

/-- No run can begin any more. -/
def AgentStatus.dead (status : AgentStatus) : Bool :=
  match status with
  | .error | .stopped | .destroyed => true
  | _ => false

theorem begun_transition {status : AgentStatus} (h : status.begun = true) (target : AgentStatus) :
    (status.transition target).begun = true := by
  revert h
  cases status <;> cases target <;> decide

theorem dead_transition {status : AgentStatus} (h : status.dead = true) (target : AgentStatus) :
    (status.transition target).dead = true := by
  revert h
  cases status <;> cases target <;> decide

/-- A run that fails after it has begun kills the agent. -/
theorem dead_of_error {status : AgentStatus} (h : status.begun = true) :
    (status.transition .error).dead = true := by
  revert h
  cases status <;> decide

theorem begun_running {status : AgentStatus} (h : status.runnable = true) :
    (status.transition .running).begun = true := by
  revert h
  cases status <;> decide

theorem not_runnable_of_dead {status : AgentStatus} (h : status.dead = true) :
    status.runnable = false := by
  revert h
  cases status <;> decide

/-- What stays, whatever the calls do to the status. -/
structure Moved (w w' : World) : Prop where
  begun : w.status.begun = true → w'.status.begun = true
  dead : w.status.dead = true → w'.status.dead = true

theorem Moved.refl (w : World) : Moved w w := ⟨id, id⟩

theorem Moved.trans {u v w : World} (h : Moved u v) (h' : Moved v w) : Moved u w :=
  ⟨h'.begun ∘ h.begun, h'.dead ∘ h.dead⟩

theorem Moved.transition (w : World) (target : AgentStatus) : Moved w (w.transition target) :=
  ⟨fun h => begun_transition h target, fun h => dead_transition h target⟩

theorem moved {settings : Settings} {i : ℕ} {action : Action} {input : Input} {r : Reply action}
    {w w' : World} (h : handler settings i action input w = some (r, w')) : Moved w w' := by
  cases action with
  | enter =>
    simp only [handler] at h
    split at h
    · obtain ⟨-, rfl⟩ := Prod.mk.inj (Option.some.inj h)
      exact .transition w .running
    · obtain ⟨-, rfl⟩ := Prod.mk.inj (Option.some.inj h)
      exact .refl w
  | transition target =>
    obtain ⟨-, rfl⟩ := Prod.mk.inj (Option.some.inj h)
    exact .transition w target
  | initializeAgent =>
    obtain ⟨-, rfl⟩ := Prod.mk.inj (Option.some.inj h)
    exact (Moved.transition w _).trans (.transition _ _)
  | shutdown =>
    obtain ⟨-, rfl⟩ := Prod.mk.inj (Option.some.inj h)
    unfold World.shutdown
    split
    · exact .transition w _
    · exact (Moved.transition w _).trans (.transition _ _)
  | _ =>
    -- the services do not touch the status
    cases input <;> simp only [handler, Option.some.injEq, Prod.mk.injEq, reduceCtorEq] at h <;>
      exact h.2 ▸ .refl w

def protocol : Protocol World where
  Inv _ := True
  Rely _ := Moved
  refl _ := Moved.refl
  trans := Moved.trans

def pre (_ : ℕ) (_ : Log Action Reply) (_ : Action) (_ : World) : Prop := True

theorem sound (settings : Settings) : Sound protocol (handler settings) pre :=
  fun _ _ h => ⟨trivial, fun _ _ => moved h⟩

/-! ## The story of a run -/

/-- The action tells nothing to the outside. -/
def Action.quiet : Action → Bool
  | .newSession | .memoryHealth | .retrieve | .search _ | .generate _ => true
  | _ => false

theorem story_append (log log' : Log Action Reply) :
    story (log ++ log') = ⟨published log ++ published log', saves log ++ saves log',
      records log ++ records log', toolRuns log ++ toolRuns log'⟩ := by
  simp only [story, published, saves, records, toolRuns, List.filterMap_append]

theorem story_quiet {action : Action} (h : action.quiet = true) (r : Reply action)
    (log : Log Action Reply) : story (log ++ [⟨action, r⟩]) = story log := by
  rw [story_append]
  cases action with
  | newSession | memoryHealth | retrieve | search | generate =>
    simp only [published, saves, records, toolRuns, List.filterMap_cons_none, List.filterMap_nil,
      List.append_nil, story]
  | _ => cases h

theorem story_publish (event : AgentEventType) (failure : Option FailureInfo)
    (r : Except Exn Unit) (log : Log Action Reply) :
    story (log ++ [⟨.publish event failure, r⟩]) =
      { story log with published := (story log).published ++ [(event, r.isOk)] } := by
  rw [story_append]
  simp only [story, published, saves, records, toolRuns, List.filterMap_cons_none,
    List.filterMap_nil, List.append_nil]
  rfl

theorem story_save (userInput response sessionId : String) (r : Except Exn Unit)
    (log : Log Action Reply) :
    story (log ++ [⟨.save userInput response sessionId, r⟩]) =
      { story log with saves := (story log).saves ++ [r.isOk] } := by
  rw [story_append]
  simp only [story, published, saves, records, toolRuns, List.filterMap_cons_none,
    List.filterMap_nil, List.append_nil]
  rfl

theorem story_record (failure : FailureInfo) (r : Except Exn Unit) (log : Log Action Reply) :
    story (log ++ [⟨.recordFailure failure, r⟩]) =
      { story log with records := (story log).records ++ [r.isOk] } := by
  rw [story_append]
  simp only [story, published, saves, records, toolRuns, List.filterMap_cons_none,
    List.filterMap_nil, List.append_nil]
  rfl

section Tells

variable {settings : Settings} {services : Services} {i : ℕ} {α β ε δ : Type} {m : Story}
variable {post : α → Story → Prop} {fail : ε → Story → Prop} {p : AgentProgram ε α}

/-- A run that has begun, and has done what `m` tells, goes on with the program and ends so. -/
def Tells (settings : Settings) (i : ℕ) (m : Story) (p : AgentProgram ε α)
    (post : α → Story → Prop) (fail : ε → Story → Prop) : Prop :=
  ∀ log (w : World), story log = m → w.status.begun = true →
    Safe protocol (handler settings) pre i
      (fun a log w => post a (story log) ∧ w.status.begun = true)
      (fun x log w => fail x (story log) ∧ w.status.begun = true) p log w

theorem Tells.ret {a : α} (h : post a m) : Tells settings i m (.ret a) post fail :=
  fun _ _ hm hw => .ret ⟨hm ▸ h, hw⟩

theorem Tells.raise {x : ε} (h : fail x m) : Tells settings i m (.raise x) post fail :=
  fun _ _ hm hw => .raise ⟨hm ▸ h, hw⟩

theorem Tells.mono (h : Tells settings i m p post fail) {post' : α → Story → Prop}
    {fail' : ε → Story → Prop} (hpost : ∀ a m', post a m' → post' a m')
    (hfail : ∀ x m', fail x m' → fail' x m') : Tells settings i m p post' fail' :=
  fun log w hm hw => (h log w hm hw).mono (fun a _ _ hp => ⟨hpost a _ hp.1, hp.2⟩)
    fun x _ _ hp => ⟨hfail x _ hp.1, hp.2⟩

theorem Tells.bind {f : α → AgentProgram ε β} {post : β → Story → Prop} {mid : α → Story → Prop}
    (h : Tells settings i m p mid fail)
    (hf : ∀ a m', mid a m' → Tells settings i m' (f a) post fail) :
    Tells settings i m (p >>= f) post fail :=
  fun log w hm hw => .bind ((h log w hm hw).mono
    (fun a log w hp => hf a _ hp.1 log w rfl hp.2) fun _ _ _ hp => hp)

/-- `Tells.bind`, with what holds in between said. -/
theorem Tells.through {f : α → AgentProgram ε β} {post : β → Story → Prop}
    (mid : α → Story → Prop) (h : Tells settings i m p mid fail)
    (hf : ∀ a m', mid a m' → Tells settings i m' (f a) post fail) :
    Tells settings i m (p >>= f) post fail :=
  h.bind hf

theorem Tells.attempt {post : Except ε α → Story → Prop} {fail : δ → Story → Prop}
    (h : Tells settings i m p (fun a => post (.ok a)) fun x => post (.error x)) :
    Tells settings i m (Program.attempt (δ := δ) p) post fail :=
  fun log w hm hw => .attempt (h log w hm hw)

/-- **One action**, by what it adds to the story. -/
theorem Tells.act {action : Action} {f : Reply action → Story → Story}
    (hstory : ∀ r log, story (log ++ [⟨action, r⟩]) = f r (story log)) :
    Tells settings i m (act (ε := ε) action) (fun r m' => m' = f r m) fail := by
  intro log w hm hw
  refine Safe.perform (f := .ret) fun w' hrely _ => ⟨trivial, fun input r w'' hact => .ret ?_⟩
  exact ⟨hm ▸ hstory r log, (moved hact).begun (hrely.begun hw)⟩

theorem Tells.quiet {action : Action} (h : action.quiet = true) :
    Tells settings i m (Agents.act (ε := ε) action) (fun _ m' => m' = m) fail :=
  .act (f := fun _ m => m) (story_quiet h)

theorem Tells.unwrap {operation : Operation} {r : Except Exn α} :
    Tells settings i m (Agents.unwrap operation r) (fun _ m' => m' = m) fun _ m' => m' = m := by
  cases r with
  | ok a => exact .ret rfl
  | error exn => exact .raise rfl

/-- A service is asked, and answers or raises. -/
theorem Tells.ask {action : Action} {operation : Operation} (h : action.quiet = true)
    {f : Reply action → Except Exn α} :
    Tells settings i m (Agents.act action >>= fun r => Agents.unwrap operation (f r))
      (fun _ m' => m' = m) fun _ m' => m' = m :=
  (Tells.quiet h).bind fun _ _ heq => heq ▸ .unwrap

/-- The memory a run asks for is there, once its dependencies are validated. -/
theorem tells_validate {request : AgentRequest} {traceId : String} :
    Tells settings i m (validateRequestedDependencies settings services request traceId)
      (fun _ m' => m' = m ∧ (request.memoryEnabled = true → services.memory = true))
      fun _ m' => m' = m := by
  have hmissing : Tells settings i m
      (whenever (request.memoryEnabled && services.memory && services.memoryHealth)
        (act .memoryHealth >>= unwrap .dependenciesValidate) (!services.memory))
      (fun missing m' => m' = m ∧ (missing = false → request.memoryEnabled = true →
        services.memory = true)) fun _ m' => m' = m := by
    unfold whenever
    split
    · next hcond =>
      have hmemory : services.memory = true := by
        simp only [Bool.and_eq_true] at hcond
        exact hcond.1.2
      exact (Tells.ask rfl).mono (fun _ _ heq => ⟨heq, fun _ _ => hmemory⟩) fun _ _ heq => heq
    · exact .ret ⟨rfl, fun hfalse _ => by simpa using hfalse⟩
  refine hmissing.bind fun missing m' hm => ?_
  obtain ⟨rfl, hmemory⟩ := hm
  dsimp only
  split
  · exact .raise rfl
  · next hnone =>
    refine .ret ⟨rfl, fun henabled => ?_⟩
    -- a memory that is missing would have been reported
    cases missing with
    | false => exact hmemory rfl henabled
    | true => simp [henabled] at hnone

theorem tells_fetchMemory :
    Tells settings i m (fetchMemory services) (fun _ m' => m' = m) fun _ m' => m' = m := by
  unfold fetchMemory
  split
  · exact .ask rfl
  · exact .raise rfl

theorem tells_fetchKnowledge {request : AgentRequest} :
    Tells settings i m (fetchKnowledge request) (fun _ m' => m' = m) fun _ m' => m' = m :=
  .ask rfl

theorem tells_invokeLlm {context : AgentContext} :
    Tells settings i m (invokeLlm services context) (fun _ m' => m' = m) fun _ m' => m' = m := by
  unfold invokeLlm
  split
  · exact .ask rfl
  · exact .raise rfl

/-- A context that asks for no tools. -/
theorem tells_runTools {request : AgentRequest} {context : AgentContext}
    (hcontext : context.toolCalls = []) :
    Tells settings i m (runTools settings services request context)
      (fun records m' => m' = m ∧ records = []) fun _ m' => m' = m := by
  unfold runTools
  split
  · have hinvoke : Tells settings i m (invokeTools services context)
        (fun records m' => m' = m ∧ records = []) fun _ m' => m' = m := by
      unfold invokeTools
      split
      · rw [hcontext]
        exact .ret ⟨rfl, rfl⟩
      · exact .raise rfl
    refine hinvoke.bind fun records m' hrecords => ?_
    obtain ⟨rfl, rfl⟩ := hrecords
    exact .ret ⟨rfl, rfl⟩
  · exact .ret ⟨rfl, rfl⟩

theorem tells_publish {event : AgentEventType} {failure : Option FailureInfo}
    {operation : Operation} :
    Tells settings i m (publish services event failure operation)
      (fun _ m' => m' = m.tell services event true)
      fun fault m' => fault.1 = operation ∧ services.bus = true ∧
        m' = m.tell services event false := by
  unfold publish Story.tell Services.told
  split
  · next hbus =>
    refine (Tells.act (f := fun (r : Except Exn Unit) m =>
      { m with published := m.published ++ [(event, r.isOk)] })
      (story_publish event failure)).bind fun r m' hm => ?_
    subst hm
    cases r with
    | ok done => exact .ret rfl
    | error exn => exact .raise ⟨rfl, hbus, rfl⟩
  · exact .ret (by rw [List.append_nil])

theorem tells_saveMemory {request : AgentRequest} {answer : String}
    (hmemory : services.memory = true) :
    Tells settings i m (saveMemory services request answer)
      (fun r m' => m' = { m with saves := m.saves ++ [r.isOk] }) fun _ _ => False := by
  unfold saveMemory
  rw [if_pos hmemory]
  exact @Tells.act settings i Fault m _ (.save request.userInput (sliced 500 answer)
    request.sessionId) (fun r m => { m with saves := m.saves ++ [r.isOk] }) (story_save _ _ _)

theorem tells_recordFailure {failure : FailureInfo} {operation : Operation} :
    Tells settings i m (recordFailure services failure operation)
      (fun _ m' => m' = { m with records := m.records ++ services.kept })
      fun fault m' => fault.1 = operation ∧ services.keeps = true ∧
        m' = { m with records := m.records ++ [false] } := by
  unfold recordFailure Services.kept
  by_cases hkeeps : services.keeps = true
  · have hasked : (services.memory && services.recordsFailures) = true := hkeeps
    rw [if_pos hkeeps, if_pos hasked]
    refine (Tells.act (f := fun (r : Except Exn Unit) m =>
      { m with records := m.records ++ [r.isOk] }) (story_record failure)).bind fun r m' hm => ?_
    subst hm
    cases r with
    | ok done => exact .ret rfl
    | error exn => exact .raise ⟨rfl, hkeeps, rfl⟩
  · have hasked : ¬(services.memory && services.recordsFailures) = true := hkeeps
    rw [if_neg hkeeps, if_neg hasked]
    exact .ret (by rw [List.append_nil])

/-- How the `try` of a run ends, which has told the story so far. Only a failure of the first step
is recorded later. -/
inductive CycleEnds (services : Services) (request : AgentRequest) (m : Story) :
    Except Fault AgentResponse → Story → Prop
  | ok (response : AgentResponse) (hstatus : response.status = .ok)
      (htools : response.toolCalls = []) (hfailure : response.failure = none)
      (hretryable : response.retryable = false) :
      CycleEnds services request m (.ok response)
        ({ m with saves := m.saves ++ request.saved }.tell services .completed true)
  | degraded (response : AgentResponse) (failure : FailureInfo)
      (hstatus : response.status = .degraded) (htools : response.toolCalls = [])
      (hfailure : response.failure = some failure)
      (hretryable : response.retryable = failure.retryable)
      (henabled : request.memoryEnabled = true) :
      CycleEnds services request m (.ok response)
        ({ m with saves := m.saves ++ [false], records := m.records ++ services.kept }.tell
          services .degraded true)
  | failed (fault : Fault) : CycleEnds services request m (.error fault) m
  | uncompleted (fault : Fault) (hlate : fault.1 ≠ .memoryRetrieve) (hbus : services.bus = true) :
      CycleEnds services request m (.error fault)
        ({ m with saves := m.saves ++ request.saved }.tell services .completed false)
  | undegraded (fault : Fault) (hlate : fault.1 ≠ .memoryRetrieve) (hbus : services.bus = true)
      (henabled : request.memoryEnabled = true) :
      CycleEnds services request m (.error fault)
        ({ m with saves := m.saves ++ [false], records := m.records ++ services.kept }.tell
          services .degraded false)
  | unrecorded (fault : Fault) (hlate : fault.1 ≠ .memoryRetrieve) (hkeeps : services.keeps = true)
      (henabled : request.memoryEnabled = true) :
      CycleEnds services request m (.error fault)
        { m with saves := m.saves ++ [false], records := m.records ++ [false] }
  | saving (fault : Fault) (hcancelled : fault.2.caught = false)
      (henabled : request.memoryEnabled = true) :
      CycleEnds services request m (.error fault) { m with saves := m.saves ++ [false] }

theorem tells_whenever {condition : Bool} {default : α} {mid : ε → Story → Prop}
    (h : Tells settings i m p (fun _ m' => m' = m) mid) :
    Tells settings i m (whenever condition p default) (fun _ m' => m' = m) mid := by
  unfold whenever
  split
  · exact h
  · exact .ret rfl

theorem tells_conclude {request : AgentRequest} {response : AgentResponse} {operation : Operation}
    (hlate : operation ≠ .memoryRetrieve)
    (hmemory : request.memoryEnabled = true → services.memory = true)
    (hstatus : response.status = .ok) (htools : response.toolCalls = [])
    (hfailure : response.failure = none) (hretryable : response.retryable = false) :
    Tells settings i m (conclude services request response operation)
      (fun response => CycleEnds services request m (.ok response))
      fun fault => CycleEnds services request m (.error fault) := by
  have hsaved : Tells settings i m
      (whenever request.memoryEnabled (saveMemory services request response.answer) (.ok ()))
      (fun r m' => (r.isOk = true ∧ m' = { m with saves := m.saves ++ request.saved }) ∨
        (r.isOk = false ∧ request.memoryEnabled = true ∧
          m' = { m with saves := m.saves ++ [false] }))
      fun fault => CycleEnds services request m (.error fault) := by
    unfold whenever
    split
    · next henabled =>
      refine (tells_saveMemory (hmemory henabled)).mono (fun r m' heq => ?_) fun _ _ h => h.elim
      cases hr : r.isOk with
      | true => exact .inl ⟨rfl, by rw [heq, hr, AgentRequest.saved, if_pos henabled]⟩
      | false => exact .inr ⟨rfl, henabled, by rw [heq, hr]⟩
    · next hdisabled =>
      refine .ret (.inl ⟨rfl, ?_⟩)
      rw [AgentRequest.saved, if_neg hdisabled, List.append_nil]
  -- the exchange is saved, or the response is degraded and the failure recorded
  refine hsaved.bind fun r m' hr => ?_
  cases r with
  | ok done =>
    obtain ⟨-, rfl⟩ := hr.resolve_right fun h => Bool.noConfusion h.1
    refine (tells_publish.mono (fun _ _ h => h) ?_).bind fun _ m'' heq => heq ▸ .ret ?_
    · rintro fault m'' ⟨rfl, hbus, rfl⟩
      exact .uncompleted fault hlate hbus
    · exact .ok response hstatus htools hfailure hretryable
  | error exn =>
    obtain ⟨-, henabled, rfl⟩ := hr.resolve_left fun h => Bool.noConfusion h.1
    dsimp only
    split
    · refine (tells_recordFailure.mono (fun _ _ h => h) ?_).bind fun _ m'' heq => heq ▸ ?_
      · rintro fault m'' ⟨rfl, hkeeps, rfl⟩
        exact .unrecorded fault hlate hkeeps henabled
      refine (tells_publish.mono (fun _ _ h => h) ?_).bind fun _ m'' heq => heq ▸ .ret ?_
      · rintro fault m'' ⟨rfl, hbus, rfl⟩
        exact .undegraded fault hlate hbus henabled
      · exact .degraded _ (saveFailure exn response.traceId) rfl htools rfl rfl henabled
    · next hcancelled =>
      exact .raise (.saving (operation, exn) (Bool.eq_false_iff.mpr hcancelled) henabled)

theorem tells_cycle {request : AgentRequest} {sessionId traceId : String} :
    Tells settings i m (cycle settings services request sessionId traceId)
      (fun response => CycleEnds services request m (.ok response))
      fun fault => CycleEnds services request m (.error fault) := by
  have hquiet : ∀ (fault : Fault) m', m' = m → CycleEnds services request m (.error fault) m' :=
    fun fault _ heq => heq ▸ .failed fault
  refine (tells_validate.mono (fun _ _ h => h) hquiet).bind fun _ m' hm => ?_
  obtain ⟨rfl, hmemory⟩ := hm
  refine (tells_whenever (tells_fetchMemory.mono (fun _ _ h => h) hquiet)).bind
    fun memory m' hm => ?_
  subst hm
  refine (tells_whenever (tells_fetchKnowledge.mono (fun _ _ h => h) hquiet)).bind
    fun knowledge m' hm => ?_
  subst hm
  refine (tells_invokeLlm.mono (fun _ _ h => h) hquiet).bind fun answer m' hm => ?_
  subst hm
  refine ((tells_runTools rfl).mono (fun _ _ h => h) hquiet).bind fun tools m' hm => ?_
  obtain ⟨rfl, rfl⟩ := hm
  -- only the end of the cycle publishes and saves
  refine tells_conclude ?_ hmemory rfl rfl rfl rfl
  split <;> exact Operation.noConfusion

/-! ## One run -/

/-- The story of a run once it has published that it started. -/
def begun (services : Services) : Story := ⟨services.told .started true, [], [], []⟩

theorem told_of_bus (hbus : services.bus = true) (event : AgentEventType) (delivered : Bool) :
    services.told event delivered = [(event, delivered)] := if_pos hbus

theorem runLaw_of_cycle {request : AgentRequest} {response : AgentResponse} {m : Story}
    (h : CycleEnds services request (begun services) (.ok response) m) :
    RunLaw services request response m := by
  cases h with
  | ok _ hstatus htools hfailure hretryable =>
    refine ⟨?_, htools, ⟨fun _ => hfailure, fun _ => hstatus⟩, ?_, fun h => ?_⟩
    · rw [hstatus]
      exact .ok
    · rw [hretryable, hfailure]
      rfl
    · rw [hstatus] at h
      cases h
  | degraded _ failure hstatus htools hfailure hretryable henabled =>
    refine ⟨?_, htools, ⟨fun h => ?_, fun h => ?_⟩, ?_, fun h => ?_⟩
    · rw [hstatus]
      exact .degraded henabled
    · rw [hstatus] at h
      cases h
    · rw [hfailure] at h
      cases h
    · rw [hretryable, hfailure]
      rfl
    · rw [hstatus] at h
      cases h

/-- What a run has done whose `try` raised: it fails, or was cancelled while it saved. -/
theorem failing_of_cycle {request : AgentRequest} {fault : Fault}
    (h : CycleEnds services request (begun services) (.error fault) m) :
    Failing services request m ∨ fault.2.caught = false ∧ Interrupted services request m := by
  cases h with
  | failed fault => exact .inl .failed
  | uncompleted fault hlate hbus =>
    simp only [Story.tell, begun, told_of_bus hbus]
    exact .inl (.uncompleted hbus)
  | undegraded fault hlate hbus henabled =>
    simp only [Story.tell, begun, told_of_bus hbus]
    exact .inl (.undegraded hbus henabled)
  | unrecorded fault hlate hkeeps henabled => exact .inl (.unrecorded hkeeps henabled)
  | saving fault hcancelled henabled => exact .inr ⟨hcancelled, .saving henabled⟩

/-- A run whose `try` raised at its first step has done nothing more. -/
theorem begun_of_first {request : AgentRequest} {fault : Fault}
    (h : CycleEnds services request (begun services) (.error fault) m)
    (hfirst : fault.1 = .memoryRetrieve) (hcaught : fault.2.caught = true) :
    m = begun services := by
  cases h with
  | failed fault => rfl
  | uncompleted fault hlate _ => exact absurd hfirst hlate
  | undegraded fault hlate _ _ => exact absurd hfirst hlate
  | unrecorded fault hlate _ _ => exact absurd hfirst hlate
  | saving fault hcancelled _ => exact absurd hcaught (Bool.eq_false_iff.mp hcancelled)

/-- The publication of a failure, and what comes before it. -/
theorem tells_fail {request : AgentRequest} {fault : Fault} {failure : FailureInfo}
    (h : CycleEnds services request (begun services) (.error fault) m)
    (hcaught : fault.2.caught = true) :
    Tells settings i m (do
        whenever (fault.1 = .memoryRetrieve) (recordFailure services failure fault.1) ()
        publish services .failed (some failure) fault.1)
      (fun _ m' => Ends services request .failed m') fun _ m' => Lost services request m' := by
  refine Tells.through (fun _ m' => Failing services request m') ?_ fun _ m' hfailing => ?_
  · unfold whenever
    split
    · next hfirst =>
      -- only a retrieval that fails has its failure recorded here, and it comes first
      have hfirst : fault.1 = .memoryRetrieve := of_decide_eq_true hfirst
      obtain rfl := begun_of_first h hfirst hcaught
      refine tells_recordFailure.mono (fun _ m' heq => heq ▸ .unretrieved) fun lost m' heq => ?_
      obtain ⟨-, hkeeps, rfl⟩ := heq
      exact .unretrieved hkeeps
    · refine .ret ((failing_of_cycle h).resolve_right fun hcancelled => ?_)
      exact Bool.noConfusion (hcaught.symm.trans hcancelled.1)
  · refine tells_publish.mono (fun _ m'' heq => heq ▸ .failed m' hfailing) fun lost m'' heq => ?_
    exact heq.2.2 ▸ .failed m' hfailing heq.2.1

theorem tells_handleFault {request : AgentRequest} {fault : Fault} {sessionId traceId : String}
    (h : CycleEnds services request (begun services) (.error fault) m)
    (hcaught : fault.2.caught = true) :
    Tells settings i m (handleFault settings services fault sessionId traceId)
      (fun response m' => RunLaw services request response m')
      fun _ m' => Lost services request m' := by
  refine Tells.through (fun r m' => (r.isOk = true ∧ Ends services request .failed m') ∨
      (r.isOk = false ∧ Lost services request m'))
    (.attempt ((tells_fail h hcaught).mono (fun _ _ h => .inl ⟨rfl, h⟩)
      fun _ _ h => .inr ⟨rfl, h⟩)) fun r m' hr => ?_
  cases r with
  | error lost => exact .raise (hr.resolve_left fun h => Bool.noConfusion h.1).2
  | ok done =>
    have hends := (hr.resolve_right fun h => Bool.noConfusion h.1).2
    refine .ret ⟨hends, rfl, ⟨fun h => ?_, fun h => ?_⟩, rfl, fun _ => rfl⟩
    · cases h
    · cases h

theorem tells_execute {request : AgentRequest} :
    Tells settings i {} (execute settings services request)
      (fun response m' => RunLaw services request response m')
      fun exn m' => Lost services request m' ∨
        (exn.caught = false ∧ Interrupted services request m') := by
  refine (tells_whenever (Tells.quiet rfl)).bind fun sessionId m' hm => ?_
  subst hm
  refine Tells.through (fun r m' => (r.isOk = true ∧ m' = begun services) ∨
      (r.isOk = false ∧ Lost services request m'))
    (.attempt (tells_publish.mono (fun _ _ heq => ?_) fun _ _ heq => ?_)) fun r m' hr => ?_
  · exact .inl ⟨rfl, heq⟩
  · refine .inr ⟨rfl, ?_⟩
    rw [heq.2.2]
    simp only [Story.tell, told_of_bus heq.2.1]
    exact .started heq.2.1
  cases r with
  | error fault => exact .raise (.inl (hr.resolve_left fun h => Bool.noConfusion h.1).2)
  | ok done =>
    obtain ⟨-, rfl⟩ := hr.resolve_right fun h => Bool.noConfusion h.1
    refine (Tells.attempt (tells_cycle (m := begun services))).bind fun r m' hr => ?_
    cases r with
    | ok response => exact .ret (runLaw_of_cycle hr)
    | error fault =>
      dsimp only
      split
      · next hcaught =>
        exact (tells_handleFault hr hcaught).mono (fun _ _ h => h) fun _ _ h => .inl h
      · next hcancelled =>
        exact .raise (.inr ⟨Bool.eq_false_iff.mpr hcancelled,
          (failing_of_cycle hr).elim (.failing _) And.right⟩)

end Tells

/-! ## The laws -/

section Laws

variable {settings : Settings} {services : Services} {c c' : Calls} {i : ℕ}
variable {request : AgentRequest} {log : Log Action Reply}

theorem story_enter (r : Except Exn Unit) (log : Log Action Reply) :
    story (log ++ [⟨.enter, r⟩]) = story log := by
  rw [story_append]
  simp only [published, saves, records, toolRuns, List.filterMap_cons_none, List.filterMap_nil,
    List.append_nil, story]

theorem story_transition (target : AgentStatus) (log : Log Action Reply) :
    story (log ++ [⟨.transition target, ()⟩]) = story log := by
  rw [story_append]
  simp only [published, saves, records, toolRuns, List.filterMap_cons_none, List.filterMap_nil,
    List.append_nil, story]

/-- How a run ends that returns. -/
def Returned (services : Services) (request : AgentRequest) (response : AgentResponse)
    (log : Log Action Reply) (w : World) : Prop :=
  RunLaw services request response (story log) ∧
    (response.status = .failed → w.status.dead = true)

/-- How a run ends that raises. -/
def RaisedExn (settings : Settings) (services : Services) (request : AgentRequest) (exn : Exn)
    (log : Log Action Reply) (w : World) : Prop :=
  Raised settings services request exn log ∧
    (exn.caught = true → ⟨.enter, .ok ()⟩ ∈ log → w.status.dead = true)

theorem run_safe (w : World) :
    Safe protocol (handler settings) pre i (Returned services request)
      (RaisedExn settings services request) (run settings services request) [] w := by
  -- the run asks whether it may begin; whoever is refused is done
  apply Safe.perform
  intro w' _ _
  refine ⟨trivial, fun input r w'' hact => ?_⟩
  have hstory : story [⟨.enter, r⟩] = {} := story_enter r []
  simp only [handler] at hact
  split at hact
  · next hrunnable =>
    -- the story of the cycle, and then the last transition
    obtain ⟨rfl, rfl⟩ := Prod.mk.inj (Option.some.inj hact)
    refine .bind (.attempt ((tells_execute (i := i) [⟨.enter, .ok ()⟩] (w'.transition .running)
      hstory (begun_running hrunnable)).mono (fun response log w hp => ?_) fun exn log w hp => ?_))
    · apply Safe.perform
      intro w₁ hrely _
      refine ⟨trivial, fun input r w₂ hact => .ret ⟨?_, fun hfailed => ?_⟩⟩
      · rw [story_transition]
        exact hp.1
      · obtain ⟨-, rfl⟩ := Prod.mk.inj (Option.some.inj hact)
        rw [hfailed]
        exact dead_of_error (hrely.begun hp.2)
    · dsimp only
      split
      · next hcaught =>
        apply Safe.perform
        intro w₁ hrely _
        refine ⟨trivial, fun input r w₂ hact => .raise ⟨.lost hcaught ?_, fun _ _ => ?_⟩⟩
        · rw [story_transition]
          exact hp.1.resolve_right fun h => Bool.noConfusion (hcaught.symm.trans h.1)
        · obtain ⟨-, rfl⟩ := Prod.mk.inj (Option.some.inj hact)
          exact dead_of_error (hrely.begun hp.2)
      · next hcancelled =>
        -- a `CancelledError` passes the handler, and the status stays as it is
        have hcancelled : exn.caught = false := Bool.eq_false_iff.mpr hcancelled
        refine .raise ⟨.cancelled hcancelled ?_, fun hcaught => ?_⟩
        · exact hp.1.elim (.lost _) And.right
        · exact Bool.noConfusion (hcaught.symm.trans hcancelled)
  · next hrefused =>
    obtain ⟨rfl, rfl⟩ := Prod.mk.inj (Option.some.inj hact)
    refine .raise ⟨.refused w'.status (Bool.eq_false_iff.mpr hrefused) rfl rfl, fun _ hmem => ?_⟩
    cases List.mem_singleton.mp hmem

/-- What a call of the runtime ensures. -/
def Ensures (services : Services) (k : Request) (answer : Option AgentResponse)
    (log : Log Action Reply) (w : World) : Prop :=
  ∀ request, k = .run request → ∃ response, answer = some response ∧
    Returned services request response log w

def Fails (settings : Settings) (services : Services) (k : Request) (exn : Exn)
    (log : Log Action Reply) (w : World) : Prop :=
  ∀ request, k = .run request → RaisedExn settings services request exn log w

theorem start_safe (k : Request) (w : World) :
    Safe protocol (handler settings) pre i (Ensures services k) (Fails settings services k)
      (start settings services k) [] w := by
  have hother : ∀ (action : Action) (f : Reply action → AgentProgram Exn (Option AgentResponse)),
      (∀ request, k ≠ .run request) → (∀ r, f r = .ret none) →
        Safe protocol (handler settings) pre i (Ensures services k) (Fails settings services k)
          (act action >>= f) [] w := by
    intro action f hk hf
    apply Safe.perform
    intro w' _ _
    refine ⟨trivial, fun input r w'' _ => ?_⟩
    rw [hf r]
    exact .ret fun request heq => absurd heq (hk request)
  cases k with
  | initializeAgent =>
    exact hother .initializeAgent _ (fun _ h => Request.noConfusion h) fun _ => rfl
  | shutdown => exact hother .shutdown _ (fun _ h => Request.noConfusion h) fun _ => rfl
  | run request =>
    refine .bind ((run_safe w).mono (fun response log w hp => .ret ?_) fun exn log w hp => ?_)
    · intro other heq
      obtain rfl := Request.run.inj heq
      exact ⟨response, rfl, hp⟩
    · intro other heq
      obtain rfl := Request.run.inj heq
      exact hp

theorem call_safe (h : Reachable settings services c) {k : Request}
    {p : AgentProgram Exn (Option AgentResponse)} (hi : c.calls[i]? = some ⟨k, log, p⟩) :
    Safe protocol (handler settings) pre i (Ensures services k) (Fails settings services k)
      p log c.world := by
  refine Reaches.each (fun _ => True) (sound settings)
    (fun i k w _ => (start_safe k w).mono (fun _ _ _ _ => trivial) fun _ _ _ _ => trivial) trivial
    (fun i k w _ _ => start_safe k w) ?_ ?_ h trivial hi
  · rintro i k answer log w w' hrely - hp request rfl
    obtain ⟨response, rfl, hlaw, hdead⟩ := hp request rfl
    exact ⟨response, rfl, hlaw, fun hfailed => hrely.dead (hdead hfailed)⟩
  · rintro i k exn log w w' hrely - hp request rfl
    obtain ⟨hraised, hdead⟩ := hp request rfl
    exact ⟨hraised, fun hcaught hbegun => hrely.dead (hdead hcaught hbegun)⟩

/-- **The law of runs**: in every interleaving of any calls, a run that returns has published that
it started and then one ending, the one it returns; it saved the exchange as that ending says, and
called no tool. A run that raises was refused, could not publish that it started or failed or record
its failure, or was cancelled. -/
theorem agent_run_law (h : Reachable settings services c) :
    (∀ response, c.calls[i]? = some ⟨.run request, log, .ret (some response)⟩ →
      RunLaw services request response (story log)) ∧
    ∀ exn, c.calls[i]? = some ⟨.run request, log, .raise exn⟩ →
      Raised settings services request exn log := by
  refine ⟨fun response hi => ?_, fun exn hi => ?_⟩
  · obtain ⟨other, heq, hlaw, -⟩ := (call_safe h hi).of_ret request rfl
    exact Option.some.inj heq ▸ hlaw
  · exact ((call_safe h hi).of_raise request rfl).1

/-- A run that has not asked yet whether it may begin, or was refused, and has done nothing else. -/
def Barred (settings : Settings) (services : Services) (request : AgentRequest)
    (log : Log Action Reply) (rest : AgentProgram Exn (Option AgentResponse)) : Prop :=
  (log = [] ∧ rest = start settings services (.run request)) ∨
    ∃ status, log = [⟨.enter, .error (notReady settings status)⟩] ∧
      rest = .raise (notReady settings status)

/-- What a dead agent does with an event. -/
theorem barred_step {d d' : Calls} {n : ℕ} {ev : Event Request Input}
    (hdead : d.world.status.dead = true) (hn : n ≤ d.calls.length)
    (hbarred : ∀ (i : ℕ) request log rest, n ≤ i → d.calls[i]? = some ⟨.run request, log, rest⟩ →
      Barred settings services request log rest)
    (he : step (handler settings) (start settings services) d ev = some d') :
    n ≤ d'.calls.length ∧
      ∀ (i : ℕ) request log rest, n ≤ i → d'.calls[i]? = some ⟨.run request, log, rest⟩ →
        Barred settings services request log rest := by
  constructor
  · rcases step_cases he with ⟨k, -, rfl⟩ | ⟨i, input, k, log, e, next, r, w, -, -, -, rfl⟩
    · simp only [List.length_append]
      omega
    · simpa only [List.length_set] using hn
  · intro i request log rest hi hcall
    rcases call_cases he hcall with
      hold | ⟨k, -, hnew⟩ | ⟨input, k, log', e, next, r, -, hold, hact, hnew⟩
    · exact hbarred i request log rest hi hold
    · obtain ⟨rfl, rfl, rfl⟩ := Call.mk.inj hnew
      exact .inl ⟨rfl, rfl⟩
    · obtain ⟨rfl, rfl, rfl⟩ := Call.mk.inj hnew
      rcases hbarred i request log' _ hi hold with ⟨rfl, hrest⟩ | ⟨status, -, hrest⟩
      · -- it asks to be let in, and is refused
        obtain ⟨rfl, hnext⟩ := Program.await.inj hrest
        obtain rfl := eq_of_heq hnext
        simp only [handler, not_runnable_of_dead hdead, Bool.false_eq_true, if_false] at hact
        obtain ⟨rfl, -⟩ := Prod.mk.inj (Option.some.inj hact)
        exact .inr ⟨d.world.status, rfl, rfl⟩
      · cases hrest

/-- **The law of failed agents**: once a run has failed, by its response or by an `Exception` after
it began, the agent is dead, and stays so in every run; a run that arrives at a dead agent is
refused, and does nothing else. -/
theorem agent_dead_law (h : Reachable settings services c) :
    (∀ response, c.calls[i]? = some ⟨.run request, log, .ret (some response)⟩ →
      response.status = .failed → c.world.status.dead = true) ∧
    (∀ exn, c.calls[i]? = some ⟨.run request, log, .raise exn⟩ → exn.caught = true →
      ⟨.enter, .ok ()⟩ ∈ log → c.world.status.dead = true) ∧
    (c.world.status.dead = true →
      ∀ c', Reaches (handler settings) (start settings services) c c' →
        c'.world.status.dead = true ∧
          ∀ (j : ℕ) request log rest, c.calls.length ≤ j →
            c'.calls[j]? = some ⟨.run request, log, rest⟩ →
              Barred settings services request log rest) := by
  refine ⟨fun response hi hfailed => ?_, fun exn hi hcaught hbegun => ?_, fun hdead c' hr => ?_⟩
  · obtain ⟨other, heq, -, hdead⟩ := (call_safe h hi).of_ret request rfl
    exact hdead (Option.some.inj heq ▸ hfailed)
  · exact ((call_safe h hi).of_raise request rfl).2 hcaught hbegun
  · have hall : c'.world.status.dead = true ∧ c.calls.length ≤ c'.calls.length ∧
        ∀ (j : ℕ) request log rest, c.calls.length ≤ j →
          c'.calls[j]? = some ⟨.run request, log, rest⟩ →
            Barred settings services request log rest := by
      -- by induction on the run: the agent stays dead, and no later call gets past its first action
      refine hr.induction (motive := fun d => d.world.status.dead = true ∧
        c.calls.length ≤ d.calls.length ∧ ∀ (j : ℕ) request log rest, c.calls.length ≤ j →
          d.calls[j]? = some ⟨.run request, log, rest⟩ →
            Barred settings services request log rest)
        ⟨hdead, Nat.le_refl _, fun j request log rest hj hcall => ?_⟩ ?_
      · exact absurd (List.getElem?_eq_some_iff.mp hcall).1 (Nat.not_lt.mpr hj)
      · rintro d ev d' - ⟨hd, hn, hbarred⟩ he
        refine ⟨?_, barred_step hd hn hbarred he⟩
        rcases step_cases he with ⟨k, -, rfl⟩ | ⟨i, input, k, log, e, next, r, w, -, -, hact, rfl⟩
        · exact hd
        · exact (moved hact).dead hd
    exact ⟨hall.1, hall.2.2⟩

end Laws

namespace Scenario

def settings : Settings := { agentId := "a1", name := "Helper" }

def services : Services := { bus := true, llm := true, memory := true }

def request : AgentRequest :=
  { userInput := "hello", sessionId := "s1", knowledgeEnabled := false, toolsEnabled := false }

/-- A run whose provider fails. -/
def failing : List (Event Request Input) := [
  .arrive .initializeAgent, .act 0 .done, .arrive (.run request), .act 1 .done, .act 1 .done,
  .act 1 (.texts []), .act 1 (.fails (.other .unavailable true "provider unavailable")),
  .act 1 .done, .act 1 .done]

/-- A run that is cancelled while it awaits its provider. -/
def cancelling : List (Event Request Input) := [
  .arrive .initializeAgent, .act 0 .done, .arrive (.run request), .act 1 .done, .act 1 .done,
  .act 1 (.texts []), .act 1 (.fails .cancelled)]

/-- Another run, which asks whether it may begin. -/
def another : List (Event Request Input) := [.arrive (.run request), .act 2 .done]

def onward (c : Calls) (events : List (Event Request Input)) : Calls :=
  (Process.run (handler settings) (start settings services) c events).getD c

theorem reaches (c : Calls) (events : List (Event Request Input)) :
    Reaches (handler settings) (start settings services) c (onward c events) := by
  unfold onward
  cases h : Process.run (handler settings) (start settings services) c events with
  | none => exact .refl _
  | some c' => exact ⟨_, h⟩

def after (events : List (Event Request Input)) : Calls := onward (idle {}) events

theorem reachable (events : List (Event Request Input)) :
    Reachable settings services (after events) :=
  reaches (idle {}) events

/-- What a call has come to. -/
def ended (c : Calls) (i : ℕ) : Option (Request × Except Exn (Option AgentResponse)) :=
  match c.calls[i]? with
  | some ⟨k, _, .ret answer⟩ => some (k, .ok answer)
  | some ⟨k, _, .raise exn⟩ => some (k, .error exn)
  | _ => none

theorem exists_call {c : Calls} {i : ℕ} {k : Request}
    {outcome : Except Exn (Option AgentResponse)} (h : ended c i = some (k, outcome)) :
    ∃ log, c.calls[i]? = some ⟨k, log, outcome.casesOn .raise .ret⟩ := by
  unfold ended at h
  split at h
  · next _ log answer hcall =>
    obtain ⟨rfl, rfl⟩ := Prod.mk.inj (Option.some.inj h)
    exact ⟨log, hcall⟩
  · next _ log exn hcall =>
    obtain ⟨rfl, rfl⟩ := Prod.mk.inj (Option.some.inj h)
    exact ⟨log, hcall⟩
  · cases h

theorem failed_run : ∃ log response,
    (after failing).calls[1]? = some ⟨.run request, log, .ret (some response)⟩ ∧
      response.status = .failed := by
  have hstatus : (ended (after failing) 1).map
      (fun outcome => (outcome.1, outcome.2.toOption.join.map AgentResponse.status)) =
        some (.run request, some .failed) := by decide +kernel
  obtain ⟨⟨k, outcome⟩, hended, heq⟩ := Option.map_eq_some_iff.mp hstatus
  obtain ⟨rfl, heq⟩ := Prod.mk.inj heq
  cases outcome with
  | error exn => cases heq
  | ok answer =>
    obtain ⟨response, rfl, hfailed⟩ := Option.map_eq_some_iff.mp heq
    obtain ⟨log, hcall⟩ := exists_call hended
    exact ⟨log, response, hcall, hfailed⟩

theorem cancelled_run : ∃ log,
    (after cancelling).calls[1]? = some ⟨.run request, log, .raise .cancelled⟩ :=
  @exists_call _ _ _ (.error .cancelled) rfl

end Scenario

/-- One run fails with its provider, the other one is cancelled, and the agent seems to run on. -/
theorem agent_run_law_failing :
    (∃ log response,
      (Scenario.after Scenario.failing).calls[1]? =
        some ⟨.run Scenario.request, log, .ret (some response)⟩ ∧
      RunLaw Scenario.services Scenario.request response (story log)) ∧
    (Scenario.after Scenario.cancelling).world.status = .running ∧ ∃ log,
      (Scenario.after Scenario.cancelling).calls[1]? =
        some ⟨.run Scenario.request, log, .raise .cancelled⟩ ∧
      Raised Scenario.settings Scenario.services Scenario.request .cancelled log := by
  obtain ⟨log, response, hcall, -⟩ := Scenario.failed_run
  obtain ⟨log', hcall'⟩ := Scenario.cancelled_run
  exact ⟨⟨log, response, hcall, (agent_run_law (Scenario.reachable _)).1 response hcall⟩,
    by decide +kernel, log', hcall', (agent_run_law (Scenario.reachable _)).2 _ hcall'⟩

/-- The provider may be back, the agent is not: the next run is refused and does nothing else. -/
theorem agent_dead_law_failing :
    (Scenario.after Scenario.failing).world.status.dead = true ∧ ∃ log rest,
      (Scenario.onward (Scenario.after Scenario.failing) Scenario.another).calls[2]? =
        some ⟨.run Scenario.request, log, rest⟩ ∧
      log.length = 1 ∧ Barred Scenario.settings Scenario.services Scenario.request log rest := by
  obtain ⟨log, response, hcall, hfailed⟩ := Scenario.failed_run
  obtain ⟨hfails, -, hbarred⟩ :=
    @agent_dead_law _ _ _ 1 Scenario.request log (Scenario.reachable Scenario.failing)
  have hdead := hfails response hcall hfailed
  obtain ⟨-, hlater⟩ := hbarred hdead _ (Scenario.reaches _ Scenario.another)
  have hrequest :
      (Scenario.onward (Scenario.after Scenario.failing) Scenario.another).calls[2]?.map
        (fun call => (call.request, call.log.length)) = some (.run Scenario.request, 1) := by
    decide +kernel
  obtain ⟨⟨k, log', rest⟩, hcall', heq⟩ := Option.map_eq_some_iff.mp hrequest
  obtain ⟨rfl, hlength⟩ := Prod.mk.inj heq
  have harrived : (Scenario.after Scenario.failing).calls.length ≤ 2 := by decide +kernel
  exact ⟨hdead, log', rest, hcall', hlength, hlater 2 Scenario.request log' rest harrived hcall'⟩

end Agents

import AiLabOs.Base.Assoc
import AiLabOs.Base.Digest
import Mathlib.Data.Int.Order.Basic
import Mathlib.Data.List.Sort
import Mathlib.Order.Lattice

/-!
# Coordination: the orchestrator

`coordinate` delegates the tasks of a plan one after the other, waits for each, and gathers their
results by agent. It reports what it was given as completed, whatever became of the tasks.

## Main definitions

* `Delegator.delegate`, `getStatus`, `getResult`: the delegator
* `poll`: the loop that waits for a task
* `coordinate`: the plan carried out, and the outcome that is returned
* `Truthful`: what an outcome should say of the tasks

## Main results

* `carryOut_state`: the tasks, the errors and the results after any part of a plan
* `truthful_iff`: exactly when the outcome is truthful
-/

namespace Coordination

inductive DelegationStatus where
  | pending
  | accepted
  | running
  | completed
  | failed
  | timeout
  | rejected
deriving DecidableEq, Repr

inductive CoordinationStatus where
  | completed
  | failed
deriving DecidableEq, Repr

/-- `AgentTask`. The timeout is in seconds. -/
structure AgentTask where
  taskId : String
  assignedAgent : String
  title : String
  timeout : ℤ := 300
  status : DelegationStatus := .pending
  result : Payload := []
  error : String := ""
deriving DecidableEq

/-- What the Task Runtime makes of a task: a result with its status and its errors, no result in
time, or an exception. -/
inductive RunOutcome where
  | finished (completed : Bool) (result : Payload) (errors : List String)
  | timedOut
  | raised (message : String)
deriving DecidableEq

/-- A task of the plan, and what the Task Runtime makes of it. -/
structure Delegation where
  task : AgentTask
  outcome : RunOutcome
deriving DecidableEq

/-! ## The delegator -/

/-- `TaskDelegator`: whether it has a Task Runtime, the tasks and the results by identifier. -/
structure Delegator where
  taskRuntime : Bool := false
  tasks : List (String × AgentTask) := []
  results : List (String × Payload) := []

/-- The result without a Task Runtime. -/
def mockResult : Payload := [("status", .str "ok"), ("note", .str "no task runtime (mock mode)")]

/-- The task after its run. -/
def RunOutcome.settle (outcome : RunOutcome) (task : AgentTask) : AgentTask :=
  match outcome with
  | .finished true result _ => { task with status := .completed, result }
  | .finished false result errors =>
    { task with status := .failed, result, error := "; ".intercalate errors }
  | .timedOut =>
    { task with status := .timeout, error := "Timeout after " ++ toString task.timeout ++ "s" }
  | .raised message => { task with status := .failed, error := message }

/-- The result that is stored after a run. -/
def RunOutcome.stored : RunOutcome → Option Payload
  | .finished _ result _ => some result
  | _ => none

/-- The task after `delegate`, with or without a Task Runtime. -/
def Delegation.settled (taskRuntime : Bool) (step : Delegation) : AgentTask :=
  if taskRuntime = true then step.outcome.settle { step.task with status := .running }
  else { step.task with status := .completed, result := mockResult }

/-- The result `delegate` stores. -/
def Delegation.stored (taskRuntime : Bool) (step : Delegation) : Option Payload :=
  if taskRuntime = true then step.outcome.stored else some mockResult

namespace Delegator

variable (d : Delegator)

/-- `delegate`: the task as it is left, and the delegator. -/
def delegate (step : Delegation) : AgentTask × Delegator :=
  let task := step.settled d.taskRuntime
  (task, { d with
    tasks := Assoc.set d.tasks task.taskId task
    results := match step.stored d.taskRuntime with
      | some result => Assoc.set d.results task.taskId result
      | none => d.results })

/-- `get_status`. -/
def getStatus (taskId : String) : Except String DelegationStatus :=
  match Assoc.get d.tasks taskId with
  | none => .error ("Delegation failed for '" ++ taskId ++ "': not found")
  | some task => .ok task.status

/-- `get_result`. -/
def getResult (taskId : String) : Payload := (Assoc.get d.results taskId).getD []

end Delegator

/-! ## The orchestrator -/

/-- The states in which the orchestrator waits on. -/
def DelegationStatus.waiting : DelegationStatus → Bool
  | .pending | .accepted | .running => true
  | _ => false

/-- The loop that waits for a task, `waited` tenths of a second so far: whether the time ran out.
It ends with the fuel at the latest, since then the time has run out. -/
def poll (d : Delegator) (taskId : String) (timeout : ℤ) : ℕ → ℕ → Except String Bool
  | 0, _ => .ok true
  | fuel + 1, waited =>
    match d.getStatus taskId with
    | .error e => .error e
    | .ok status =>
      if 10 * timeout < waited + 1 then .ok true
      else if status.waiting then poll d taskId timeout fuel (waited + 1)
      else .ok false

/-- The tenths of a second after which the time of a task has run out. -/
def pollFuel (timeout : ℤ) : ℕ := (10 * timeout).toNat + 1

/-- What the orchestrator has gathered. -/
structure Gathered where
  delegator : Delegator
  tasks : List AgentTask := []
  errors : List String := []
  agentResults : List (String × Payload) := []

/-- The task whose time has run out. -/
def AgentTask.expire (task : AgentTask) : AgentTask :=
  { task with status := .timeout, error := "Timeout" }

/-- One turn of the loop of `coordinate`. -/
def carryOutTask (g : Gathered) (step : Delegation) : Except String Gathered :=
  let (task, d) := g.delegator.delegate step
  match poll d task.taskId task.timeout (pollFuel task.timeout) 0 with
  | .error e => .error e
  | .ok expired =>
    let task := if expired then task.expire else task
    -- the delegator holds the same task
    let d := { d with tasks := Assoc.set d.tasks task.taskId task }
    .ok {
      delegator := d
      tasks := g.tasks ++ [task]
      errors := if expired then g.errors ++ [task.title ++ ": timeout"] else g.errors
      agentResults := Assoc.set g.agentResults task.assignedAgent (d.getResult task.taskId) }

/-- The loop of `coordinate`, and the exception that ends it early. -/
def carryOut : Gathered → List Delegation → Gathered × Option String
  | g, [] => (g, none)
  | g, step :: steps =>
    match carryOutTask g step with
    | .error e => (g, some e)
    | .ok g' => carryOut g' steps

/-- The text of a result in the merged one: its answer, its output, or its `str`. -/
def answerText (str : Payload → String) (result : Payload) : String :=
  let text (key : String) : String :=
    match Assoc.get result key with
    | some (.str s) => s
    | _ => ""
  if text "answer" ≠ "" then text "answer"
  else if text "output" ≠ "" then text "output"
  else str result

/-- `RuleBasedMerger.merge`. -/
def merge (str : Payload → String) (results : List (String × Payload)) : String :=
  let sorted := results.insertionSort fun a b => a.1 ≤ b.1
  let parts := (sorted.map fun entry => (entry.1, answerText str entry.2)).filter fun part =>
    part.2 ≠ ""
  if parts = [] then "(no results)"
  else "\n\n".intercalate (parts.map fun part => "[" ++ part.1 ++ "]: " ++ part.2)

/-- `CoordinationResult`. -/
structure CoordinationResult where
  status : CoordinationStatus
  agentResults : List (String × Payload) := []
  mergedResult : String := ""
  intermediateSteps : List AgentTask := []
  agentCount : ℕ := 0
  errors : List String := []

/-- `coordinate`, of a team with `agentCount` agents and a plan, or the exception that comes before
there is a plan, when no publication raises. The tasks as they are left come with the result. -/
def coordinate (str : Payload → String) (d : Delegator) (agentCount : ℕ)
    (plan : Except String (List Delegation)) : CoordinationResult × List AgentTask :=
  match plan with
  | .error e => ({ status := .failed, errors := [e] }, [])
  | .ok steps =>
    match carryOut { delegator := d } steps with
    | (g, some e) => ({ status := .failed, errors := g.errors ++ [e] }, g.tasks)
    | (g, none) => ({
        status := .completed
        agentResults := g.agentResults
        mergedResult := merge str g.agentResults
        intermediateSteps := steps.map Delegation.task
        agentCount
        errors := g.errors }, g.tasks)

/-! ## What an outcome should say -/

/-- The text names the task. -/
def Names (text : String) (task : AgentTask) : Prop := task.title.toList <:+: text.toList

/-- **A truthful outcome** of tasks as they were left: it is completed only if they all are, its
errors name those that failed or timed out, and it has the result of each that completed. -/
structure Truthful (outcome : CoordinationResult) (tasks : List AgentTask) : Prop where
  completed : outcome.status = .completed → ∀ task ∈ tasks, task.status = .completed
  named : ∀ task ∈ tasks, task.status = .failed ∨ task.status = .timeout →
    ∃ text ∈ outcome.errors, Names text task
  results : ∀ task ∈ tasks, task.status = .completed →
    Assoc.get outcome.agentResults task.assignedAgent = some task.result

/-- The task is run to its end in time, and its timeout leaves the orchestrator time to see it. -/
def Delegation.Succeeds (taskRuntime : Bool) (step : Delegation) : Prop :=
  0 < step.task.timeout ∧
    (taskRuntime = true → ∃ result errors, step.outcome = .finished true result errors)

/-- The result of a task that succeeds. -/
def Delegation.result (taskRuntime : Bool) (step : Delegation) : Payload :=
  if taskRuntime = true then step.outcome.stored.getD [] else mockResult

/-- The task as the orchestrator leaves it. -/
def Delegation.ended (taskRuntime : Bool) (step : Delegation) : AgentTask :=
  if step.task.timeout ≤ 0 then (step.settled taskRuntime).expire else step.settled taskRuntime

/-! ## One task -/

section Tasks

variable {runtime : Bool} {step : Delegation}

theorem settle_over (outcome : RunOutcome) (task : AgentTask) :
    (outcome.settle task).status.waiting = false ∧ (outcome.settle task).timeout = task.timeout ∧
      (outcome.settle task).assignedAgent = task.assignedAgent := by
  cases outcome with
  | finished completed result errors => cases completed <;> exact ⟨rfl, rfl, rfl⟩
  | timedOut => exact ⟨rfl, rfl, rfl⟩
  | raised message => exact ⟨rfl, rfl, rfl⟩

/-- **A task that was delegated is over**: the orchestrator does not wait on. -/
theorem settled_over (runtime : Bool) (step : Delegation) :
    (step.settled runtime).status.waiting = false ∧
      (step.settled runtime).timeout = step.task.timeout ∧
      (step.settled runtime).assignedAgent = step.task.assignedAgent := by
  unfold Delegation.settled
  split
  · exact settle_over _ _
  · exact ⟨rfl, rfl, rfl⟩

/-- The one turn of the loop that waits: the time has run out only if there was none. -/
theorem poll_over {d : Delegator} {taskId : String} {status : DelegationStatus}
    (hstatus : d.getStatus taskId = .ok status) (hover : status.waiting = false) (timeout : ℤ)
    (fuel : ℕ) :
    poll d taskId timeout (fuel + 1) 0 = .ok (decide (timeout ≤ 0)) := by
  unfold poll
  rw [hstatus]
  dsimp only
  by_cases htime : timeout ≤ 0
  · rw [if_pos (by omega), decide_eq_true htime]
  · rw [if_neg (by omega), if_neg (by simp [hover]), decide_eq_false htime]

/-- **One turn of the loop of `coordinate`.** -/
theorem carryOutTask_eq (g : Gathered) (step : Delegation) :
    ∃ g', carryOutTask g step = .ok g' ∧ g'.delegator.taskRuntime = g.delegator.taskRuntime ∧
      g'.tasks = g.tasks ++ [step.ended g.delegator.taskRuntime] ∧
      g'.agentResults = Assoc.set g.agentResults step.task.assignedAgent
        ((g.delegator.delegate step).2.getResult
          (step.settled g.delegator.taskRuntime).taskId) := by
  obtain ⟨hover, htimeout, hagent⟩ := settled_over g.delegator.taskRuntime step
  have hstatus : (g.delegator.delegate step).2.getStatus
      (step.settled g.delegator.taskRuntime).taskId =
        .ok (step.settled g.delegator.taskRuntime).status := by
    simp [Delegator.getStatus, Delegator.delegate]
  have hpoll := poll_over hstatus hover (step.settled g.delegator.taskRuntime).timeout
    (10 * (step.settled g.delegator.taskRuntime).timeout).toNat
  unfold carryOutTask
  simp only [Delegator.delegate] at hpoll ⊢
  rw [pollFuel, hpoll]
  refine ⟨_, rfl, rfl, ?_, ?_⟩
  · by_cases htime : step.task.timeout ≤ 0 <;> simp [Delegation.ended, htimeout, htime]
  · by_cases htime : step.task.timeout ≤ 0 <;>
      simp [htimeout, hagent, htime, AgentTask.expire, Delegator.getResult]

theorem ended_agent (runtime : Bool) (step : Delegation) :
    (step.ended runtime).assignedAgent = step.task.assignedAgent := by
  have hagent := (settled_over runtime step).2.2
  unfold Delegation.ended
  split
  · exact hagent
  · exact hagent

/-- **A task ends completed** exactly when it succeeds. -/
theorem ended_status : (step.ended runtime).status = .completed ↔ step.Succeeds runtime := by
  unfold Delegation.ended Delegation.Succeeds Delegation.settled
  by_cases htime : step.task.timeout ≤ 0
  · simp [htime, AgentTask.expire]
  · rw [if_neg htime]
    have hpos : 0 < step.task.timeout := by omega
    by_cases hruntime : runtime = true
    · cases houtcome : step.outcome with
      | finished completed result errors =>
        cases completed <;> simp [hruntime, hpos, RunOutcome.settle]
      | timedOut => simp [hruntime, RunOutcome.settle]
      | raised message => simp [hruntime, RunOutcome.settle]
    · simp [hruntime, hpos]

/-- A task that succeeds ends with its result. -/
theorem ended_result (h : step.Succeeds runtime) :
    (step.ended runtime).result = step.result runtime := by
  obtain ⟨htime, hfinished⟩ := h
  unfold Delegation.ended Delegation.settled Delegation.result
  rw [if_neg (by omega)]
  by_cases hruntime : runtime = true
  · obtain ⟨result, errors, houtcome⟩ := hfinished hruntime
    simp [hruntime, houtcome, RunOutcome.settle, RunOutcome.stored]
  · simp [hruntime]

/-- The delegator has the result of a task that succeeds. -/
theorem getResult_delegate {d : Delegator} (h : step.Succeeds d.taskRuntime) :
    (d.delegate step).2.getResult (step.settled d.taskRuntime).taskId =
      step.result d.taskRuntime := by
  unfold Delegator.delegate Delegator.getResult Delegation.stored Delegation.result
  by_cases hruntime : d.taskRuntime = true
  · obtain ⟨result, errors, houtcome⟩ := h.2 hruntime
    simp [hruntime, houtcome, RunOutcome.stored]
  · simp [hruntime]

end Tasks

/-! ## A plan -/

section Plans

variable {g : Gathered} {runtime : Bool}

/-- **The loop of `coordinate`** goes through the whole plan, and leaves each task as it ended. -/
theorem carryOut_tasks (hruntime : g.delegator.taskRuntime = runtime) (steps : List Delegation) :
    (carryOut g steps).2 = none ∧
      (carryOut g steps).1.tasks = g.tasks ++ steps.map (Delegation.ended runtime) := by
  induction steps generalizing g with
  | nil => exact ⟨rfl, (List.append_nil _).symm⟩
  | cons step steps ih =>
    obtain ⟨g₁, hstep, hruntime₁, htasks₁, -⟩ := carryOutTask_eq g step
    obtain ⟨hnone, htasks⟩ := ih (hruntime₁.trans hruntime)
    unfold carryOut
    rw [hstep]
    refine ⟨hnone, ?_⟩
    rw [htasks, htasks₁, hruntime, List.append_assoc]
    rfl

/-- **The results by agent** after a plan whose tasks succeed: the result of an agent stays what it
is as long as its tasks give no other. -/
theorem carryOut_results (hruntime : g.delegator.taskRuntime = runtime) {agent : String}
    {result : Payload} (steps : List Delegation) (hsucceeds : ∀ step ∈ steps, step.Succeeds runtime)
    (hsame : ∀ step ∈ steps, step.task.assignedAgent = agent → step.result runtime = result)
    (hgiven : (∃ step ∈ steps, step.task.assignedAgent = agent) ∨
      Assoc.get g.agentResults agent = some result) :
    Assoc.get (carryOut g steps).1.agentResults agent = some result := by
  induction steps generalizing g with
  | nil => exact hgiven.resolve_left fun ⟨_, hstep, _⟩ => absurd hstep List.not_mem_nil
  | cons step steps ih =>
    obtain ⟨g₁, hstep, hruntime₁, -, hresults₁⟩ := carryOutTask_eq g step
    have hown := hsucceeds step (List.mem_cons_self ..)
    rw [← hruntime] at hown
    rw [getResult_delegate hown, hruntime] at hresults₁
    unfold carryOut
    rw [hstep]
    refine ih (hruntime₁.trans hruntime) (fun s hs => hsucceeds s (List.mem_cons_of_mem _ hs))
      (fun s hs => hsame s (List.mem_cons_of_mem _ hs)) ?_
    rw [hresults₁, Assoc.get_set]
    by_cases hagent : step.task.assignedAgent = agent
    · right
      rw [if_pos hagent, hsame step (List.mem_cons_self ..) hagent]
    · rw [if_neg hagent]
      rcases hgiven with ⟨other, hother, hotherAgent⟩ | hfound
      · rcases List.mem_cons.mp hother with rfl | hother
        · exact absurd hotherAgent hagent
        · exact .inl ⟨other, hother, hotherAgent⟩
      · exact .inr hfound

end Plans

/-- **An outcome is truthful** exactly when there was no plan, or every task of the plan succeeds
and no agent is given two tasks with different results. -/
theorem truthful_iff (str : Payload → String) (d : Delegator) (agentCount : ℕ)
    (plan : Except String (List Delegation)) :
    Truthful (coordinate str d agentCount plan).1 (coordinate str d agentCount plan).2 ↔
      ∀ steps, plan = .ok steps →
        (∀ step ∈ steps, step.Succeeds d.taskRuntime) ∧
        ∀ step ∈ steps, ∀ step' ∈ steps, step.task.assignedAgent = step'.task.assignedAgent →
          step.result d.taskRuntime = step'.result d.taskRuntime := by
  cases plan with
  | error e =>
    refine iff_of_true ⟨nofun, ?_, ?_⟩ nofun
    · exact fun task htask => absurd htask List.not_mem_nil
    · exact fun task htask => absurd htask List.not_mem_nil
  | ok steps =>
    obtain ⟨hnone, hall⟩ := carryOut_tasks (g := { delegator := d }) rfl steps
    obtain ⟨g', hrun⟩ : ∃ g', carryOut { delegator := d } steps = (g', none) :=
      ⟨_, Prod.ext rfl hnone⟩
    have htasks : g'.tasks = steps.map (Delegation.ended d.taskRuntime) := by
      rw [hrun] at hall
      exact hall
    simp only [coordinate, hrun]
    rw [htasks]
    constructor
    · rintro ⟨hcompleted, -, hresults⟩ steps' hsteps
      obtain rfl := Except.ok.inj hsteps
      have hsucceeds : ∀ step ∈ steps, step.Succeeds d.taskRuntime := fun step hstep =>
        ended_status.mp (hcompleted rfl _ (List.mem_map_of_mem hstep))
      refine ⟨hsucceeds, fun step hstep step' hstep' hagent => ?_⟩
      have hresult : ∀ step ∈ steps, Assoc.get g'.agentResults step.task.assignedAgent =
          some (step.result d.taskRuntime) := by
        intro step hstep
        have h := hresults _ (List.mem_map_of_mem hstep) (ended_status.mpr (hsucceeds step hstep))
        rwa [ended_agent, ended_result (hsucceeds step hstep)] at h
      exact Option.some.inj ((hresult step hstep).symm.trans (hagent ▸ hresult step' hstep'))
    · intro hmeets
      obtain ⟨hsucceeds, hsame⟩ := hmeets steps rfl
      have hcompleted : ∀ task ∈ steps.map (Delegation.ended d.taskRuntime),
          task.status = .completed := by
        intro task htask
        obtain ⟨step, hstep, rfl⟩ := List.mem_map.mp htask
        exact ended_status.mpr (hsucceeds step hstep)
      refine ⟨fun _ => hcompleted, fun task htask hstatus => ?_, fun task htask _ => ?_⟩
      · rw [hcompleted task htask] at hstatus
        rcases hstatus with h | h <;> cases h
      · obtain ⟨step, hstep, rfl⟩ := List.mem_map.mp htask
        rw [ended_agent, ended_result (hsucceeds step hstep)]
        have h : Assoc.get (carryOut { delegator := d } steps).1.agentResults
            step.task.assignedAgent = some (step.result d.taskRuntime) :=
          carryOut_results rfl steps hsucceeds
            (fun s hs hagent => hsame s hs step hstep hagent) (.inl ⟨step, hstep, rfl⟩)
        rwa [hrun] at h

/-! ## A task that failed -/

/-- A plan of two tasks for one agent: the first fails, the second completes. -/
def halfDone : List Delegation :=
  [{ task := { taskId := "t1", assignedAgent := "researcher", title := "Collect sources" }
     outcome := .raised "connection refused" },
    { task := { taskId := "t2", assignedAgent := "researcher", title := "Write summary" }
      outcome := .finished true [("answer", .str "done")] [] }]

/-- The plan is reported as completed and without errors. -/
theorem halfDone_untruthful :
    ¬ Truthful (coordinate (fun _ => "") { taskRuntime := true } 1 (.ok halfDone)).1
      (coordinate (fun _ => "") { taskRuntime := true } 1 (.ok halfDone)).2 := by
  intro h
  have hall := h.completed (by decide)
  exact absurd hall (by decide)

end Coordination

import AiLabOs.Workflow.Runtime
import Mathlib.Data.List.Forall2

/-!
# Workflows: the accounts of the executor

The executor writes the outcome of a step on the step, and in the counters, the outputs and the
errors of the plan. A failed step is tried once more at most, whatever its `max_retries`; its
`depends_on` is not read; and the error of a failed attempt stays on a step whose retry succeeds.

## Main definitions

* `StepObject`: a step, with what the executor reads and writes
* `executePlan`: the executor, on steps that succeed or raise a `StepExecutionError`
* `Accounted`: what the result, the attempts and the steps should be
* `Unretried`: the plans for which they are

## Main results

* `leads_execute`: the result is that of the runtime's executor
* `executeSteps_eq`: what the loop leaves, for steps with different identifiers
* `accounted_iff`: when everything is accounted for
-/

namespace Workflows

namespace Accounts

open Process

inductive StepStatus where
  | pending
  | running
  | completed
  | failed
  | skipped
deriving DecidableEq, Repr

/-- `WorkflowStep`, with the fields that the executor writes. -/
structure StepObject extends WorkflowStep where
  dependsOn : List String := []
  status : StepStatus := .pending
  result : Json := .null
  error : Option String := none
deriving DecidableEq

/-- What an attempt comes to: an output, or the message of a `StepExecutionError`. -/
abbrev Outcome := Except String Json

/-- The outcome, as the runtime's model has it. -/
def Outcome.toStepOutcome : Outcome → StepOutcome
  | .ok value => .output value
  | .error message => .stepError message

/-- What the executor has so far, with the attempts that it made. -/
structure Execution where
  progress : Progress := {}
  attempts : List (String × Outcome) := []

/-- The execution after an attempt. -/
def Execution.attempt (x : Execution) (step : StepObject) (outcome : Outcome)
    (progress : Progress) : Execution :=
  ⟨progress, x.attempts ++ [(step.id, outcome)]⟩

section Executor

variable (behaviour : String → ℕ → Outcome)

/-- The retry of a failed step. Its error stays. -/
def retryStep (x : Execution) (step : StepObject) : Execution × StepObject :=
  match behaviour step.id 1 with
  | .ok value =>
    (x.attempt step (.ok value) (x.progress.retried step.toWorkflowStep (.output value)),
      { step with status := .completed, result := value })
  | .error message => (x.attempt step (.error message) x.progress, step)

/-- The `except` block of a step. -/
def handleFailure (x : Execution) (step : StepObject) (message : String) :
    Execution × StepObject :=
  let x := x.attempt step (.error message) (x.progress.fail step.toWorkflowStep message)
  let step := { step with status := .failed, error := some message }
  if step.retryCount < step.maxRetries then
    retryStep behaviour x { step with retryCount := step.retryCount + 1 }
  else (x, step)

/-- One turn of the loop of `execute`. -/
def executeObject (x : Execution) (step : StepObject) : Execution × StepObject :=
  if (Assoc.get x.progress.outputs step.id).isSome then (x, step)
  else
    match behaviour step.id 0 with
    | .ok value =>
      (x.attempt step (.ok value) (x.progress.complete step.toWorkflowStep value),
        { step with status := .completed, result := value })
    | .error message => handleFailure behaviour x step message

/-- The loop of `execute`, with the steps as it leaves them. -/
def executeObjects : Execution → List StepObject → Execution × List StepObject
  | x, [] => (x, [])
  | x, step :: steps =>
    ((executeObjects (executeObject behaviour x step).1 steps).1,
      (executeObject behaviour x step).2 ::
        (executeObjects (executeObject behaviour x step).1 steps).2)

/-- `execute`, as a function of what the steps do, when no publication raises. -/
def executePlan (plan : List StepObject) : Execution × List StepObject :=
  executeObjects behaviour {} plan

/-- The first action of a program, with its reply. -/
theorem leads_perform {α : Type} {e : Action} {f : Action.Reply e → Prog α} {q : Prog α}
    (r : Action.Reply e) (h : ∃ log, Leads (f r) log q) :
    ∃ log, Leads (Program.perform e >>= f) log q := by
  obtain ⟨log, h⟩ := h
  exact ⟨_, .act h⟩

theorem leads_publish {α : Type} {event : WorkflowEvent} {f : Unit → Prog α} {q : Prog α}
    (h : ∃ log, Leads (f ()) log q) : ∃ log, Leads (publish event >>= f) log q := by
  obtain ⟨log, h⟩ := h
  have hreply : Leads (orRaise (.ok ())) [] (.ret () : Prog Unit) := .refl _
  have hpublished : Leads (.await (.publish event) orRaise) [⟨.publish event, .ok ()⟩]
    (.ret () : Prog Unit) := .act hreply
  exact ⟨_, hpublished.bind h⟩

/-- A turn of the runtime's loop makes the same progress. -/
theorem leads_executeStep (x : Execution) (step : StepObject) :
    ∃ log, Leads (executeStep x.progress step.toWorkflowStep) log
      (.ret (executeObject behaviour x step).1.progress) := by
  unfold executeStep executeObject
  by_cases hdone : (Assoc.get x.progress.outputs step.id).isSome
  · rw [if_pos hdone, if_pos hdone]
    exact ⟨[], .refl _⟩
  rw [if_neg hdone, if_neg hdone]
  apply leads_publish
  apply leads_perform (Outcome.toStepOutcome (behaviour step.id 0))
  cases behaviour step.id 0 with
  | ok value => exact leads_publish ⟨[], .refl _⟩
  | error message =>
    apply leads_publish
    unfold handleFailure
    by_cases hretry : step.retryCount < step.maxRetries
    · simp only [hretry, if_true]
      apply leads_publish
      apply leads_perform (Outcome.toStepOutcome (behaviour step.id 1))
      unfold retryStep
      cases behaviour step.id 1 with
      | ok value => exact ⟨[], .refl _⟩
      | error message' => exact ⟨[], .refl _⟩
    · simp only [hretry, if_false]
      exact ⟨[], .refl _⟩

theorem leads_executeSteps (x : Execution) (plan : List StepObject) :
    ∃ log, Leads (executeSteps x.progress (plan.map StepObject.toWorkflowStep)) log
      (.ret (executeObjects behaviour x plan).1.progress) := by
  induction plan generalizing x with
  | nil => exact ⟨[], .refl _⟩
  | cons step plan ih =>
    obtain ⟨log, hlog⟩ := leads_executeStep behaviour x step
    obtain ⟨log', hlog'⟩ := ih (executeObject behaviour x step).1
    exact ⟨_, hlog.bind hlog'⟩

/-- **The result is that of the runtime's executor**, when its steps have these outcomes. -/
theorem leads_execute (plan : List StepObject) (workflowId : String) :
    ∃ log, Leads (execute ⟨workflowId, plan.map StepObject.toWorkflowStep⟩) log
      (.ret ((executePlan behaviour plan).1.progress.result workflowId)) := by
  obtain ⟨log, hlog⟩ := leads_executeSteps behaviour {} plan
  exact ⟨_, hlog.bind (.refl _)⟩

end Executor

/-! ## What should be -/

section Spec

variable (behaviour : String → ℕ → Outcome)

/-- The attempts from the `n`-th on, until one succeeds or the budget is spent. -/
def attemptsFrom (id : String) : ℕ → ℕ → List (String × Outcome)
  | _, 0 => []
  | n, budget + 1 => (id, behaviour id n) ::
    match behaviour id n with
    | .ok _ => []
    | .error _ => attemptsFrom id (n + 1) budget

/-- The attempts that are due to a step: until it succeeds, or `1 + max_retries` have failed. -/
def due (step : StepObject) : List (String × Outcome) :=
  attemptsFrom behaviour step.id 0 (1 + step.maxRetries).toNat

end Spec

/-- A step has an attempt that succeeded. -/
def completes (attempts : List (String × Outcome)) (step : StepObject) : Bool :=
  attempts.any fun attempt => attempt.1 = step.id && attempt.2.isOk

/-- The line of the error list for a failure. -/
def errorLine (step : StepObject) (message : String) : String :=
  "Step " ++ step.name ++ ": " ++ message

/-- What is on a step **agrees with its outcome**. -/
def Agrees (attempts : List (String × Outcome)) (step done : StepObject) : Prop :=
  done.id = step.id ∧
    if completes attempts step then
      done.status = .completed ∧ (step.id, .ok done.result) ∈ attempts ∧ done.error = none
    else
      done.status = .failed ∧ done.result = .null ∧
        ∃ message, (step.id, .error message) ∈ attempts ∧ done.error = some message

/-- **Everything is accounted for**. -/
structure Accounted (behaviour : String → ℕ → Outcome) (plan : List StepObject)
    (attempts : List (String × Outcome)) (done : List StepObject) (result : WorkflowResult) :
    Prop where
  /-- Each step is attempted in the order of the plan, as often as is due. -/
  attempted : attempts = plan.flatMap (due behaviour)
  /-- No step is started before each step that it depends on has completed. -/
  ordered : ∀ earlier outcome later, ∀ step ∈ plan,
    attempts = earlier ++ (step.id, outcome) :: later →
      ∀ d ∈ step.dependsOn, ∃ value, (d, .ok value) ∈ earlier
  total : result.stepsCompleted + result.stepsFailed = plan.length
  failures : result.stepsFailed = plan.countP fun step => !completes attempts step
  outputs : result.outputs.map Prod.fst =
    (plan.filter fun step => completes attempts step).map fun step => step.id
  errors : List.Forall₂ (fun step line => ∃ message, (step.id, .error message) ∈ attempts ∧
    line = errorLine step message) (plan.filter fun step => !completes attempts step) result.errors
  status : result.status = .completed ↔ ∀ step ∈ plan, completes attempts step
  objects : List.Forall₂ (Agrees attempts) plan done

/-- A step succeeds at its first attempt, and nothing is left on it. -/
def FirstTry (behaviour : String → ℕ → Outcome) (step : StepObject) : Prop :=
  (behaviour step.id 0).isOk ∧ 0 ≤ step.maxRetries ∧ step.error = none

/-- A step that may be retried once, or not at all, fails each time. -/
def NoTry (behaviour : String → ℕ → Outcome) (step : StepObject) : Prop :=
  ¬(behaviour step.id 0).isOk ∧ step.result = .null ∧
    (step.maxRetries = 0 ∧ 0 ≤ step.retryCount ∨
      step.maxRetries = 1 ∧ step.retryCount ≤ 0 ∧ ¬(behaviour step.id 1).isOk)

/-- **No step needs what the executor does not do**: each step succeeds at once, or fails in all of
its attempts, of which there are two at most; and it depends on earlier steps that succeed. -/
structure Unretried (behaviour : String → ℕ → Outcome) (plan : List StepObject) : Prop where
  steps : ∀ step ∈ plan, FirstTry behaviour step ∨ NoTry behaviour step
  dependencies : ∀ earlier step later, plan = earlier ++ step :: later →
    ∀ d ∈ step.dependsOn, ∃ s ∈ earlier, s.id = d ∧ (behaviour d 0).isOk

/-! ## What the executor leaves -/

section Loop

variable (behaviour : String → ℕ → Outcome)

/-- The attempts that the executor makes at a step. -/
def made (step : StepObject) : List (String × Outcome) :=
  (step.id, behaviour step.id 0) ::
    match behaviour step.id 0 with
    | .ok _ => []
    | .error _ =>
      if step.retryCount < step.maxRetries then [(step.id, behaviour step.id 1)] else []

/-- What a step comes to. A failure has the message of the first attempt. -/
def settled (step : StepObject) : Outcome :=
  match behaviour step.id 0 with
  | .ok value => .ok value
  | .error message =>
    if step.retryCount < step.maxRetries then
      match behaviour step.id 1 with
      | .ok value => .ok value
      | .error _ => .error message
    else .error message

/-- The step as the executor leaves it. -/
def leaves (step : StepObject) : StepObject :=
  match behaviour step.id 0 with
  | .ok value => { step with status := .completed, result := value }
  | .error message =>
    if step.retryCount < step.maxRetries then
      match behaviour step.id 1 with
      | .ok value =>
        { step with
          status := .completed
          result := value
          error := some message
          retryCount := step.retryCount + 1 }
      | .error _ =>
        { step with
          status := .failed
          error := some message
          retryCount := step.retryCount + 1 }
    else { step with status := .failed, error := some message }

/-- The progress after a step. -/
def Progress.settle (p : Progress) (step : StepObject) : Outcome → Progress
  | .ok value => p.complete step.toWorkflowStep value
  | .error message => p.fail step.toWorkflowStep message

variable {x : Execution} {step : StepObject} {plan : List StepObject}

/-- A retry that succeeds takes the failure back. -/
theorem retried_fail (p : Progress) (step retry : WorkflowStep) (h : retry.id = step.id)
    (message : String) (value : Json) :
    (p.fail step message).retried retry (.output value) = p.complete step value := by
  simp [Progress.retried, Progress.fail, Progress.complete, h]

/-- **One turn of the loop**, for a step without an output. -/
theorem executeObject_eq (h : Assoc.get x.progress.outputs step.id = none) :
    executeObject behaviour x step =
      (⟨Progress.settle x.progress step (settled behaviour step),
        x.attempts ++ made behaviour step⟩, leaves behaviour step) := by
  unfold executeObject settled made leaves
  simp only [h, Option.isSome_none, Bool.false_eq_true, if_false]
  cases h0 : behaviour step.id 0 with
  | ok value => rfl
  | error message =>
    unfold handleFailure retryStep
    by_cases hr : step.retryCount < step.maxRetries
    · cases h1 : behaviour step.id 1 with
      | ok value =>
        have hback := retried_fail x.progress step.toWorkflowStep
          { step.toWorkflowStep with retryCount := step.retryCount + 1 } rfl message value
        simp only [hr, h1, if_true, Execution.attempt, Progress.settle, List.append_assoc,
          List.cons_append, List.nil_append]
        rw [hback]
      | error message' =>
        simp [hr, h1, Execution.attempt, Progress.settle]
    · simp [hr, Execution.attempt, Progress.settle]

/-- The progress after some steps. -/
def settleAll (behaviour : String → ℕ → Outcome) (p : Progress) (plan : List StepObject) :
    Progress :=
  plan.foldl (fun p step => Progress.settle p step (settled behaviour step)) p

theorem get_settle {p : Progress} {id : String} {outcome : Outcome}
    (h : Assoc.get p.outputs id = none) (hid : step.id ≠ id) :
    Assoc.get (Progress.settle p step outcome).outputs id = none := by
  cases outcome with
  | ok value => rwa [Progress.settle, Progress.complete, Assoc.get_set_of_ne hid]
  | error message => exact h

/-- The first of some steps with different identifiers, and the rest. -/
theorem ids_cons (h : ((step :: plan).map fun step => step.id).Nodup) :
    (∀ s ∈ plan, step.id ≠ s.id) ∧ (plan.map fun step => step.id).Nodup := by
  obtain ⟨hstep, hids⟩ := List.nodup_cons.mp h
  refine ⟨?_, hids⟩
  intro s hs heq
  exact hstep (List.mem_map.mpr ⟨s, hs, heq.symm⟩)

/-- **The loop**, for steps with different identifiers. -/
theorem executeObjects_eq (hids : (plan.map fun step => step.id).Nodup)
    (hnew : ∀ step ∈ plan, Assoc.get x.progress.outputs step.id = none) :
    executeObjects behaviour x plan =
      (⟨settleAll behaviour x.progress plan, x.attempts ++ plan.flatMap (made behaviour)⟩,
        plan.map (leaves behaviour)) := by
  induction plan generalizing x with
  | nil => simp [executeObjects, settleAll]
  | cons step plan ih =>
    obtain ⟨hne, hids⟩ := ids_cons hids
    have hturn := executeObject_eq behaviour (hnew step List.mem_cons_self)
    have hrest : ∀ s ∈ plan, Assoc.get (executeObject behaviour x step).1.progress.outputs s.id =
        none := by
      intro s hs
      rw [hturn]
      exact get_settle (hnew s (List.mem_cons_of_mem _ hs)) (hne s hs)
    rw [executeObjects, ih hids hrest, hturn]
    simp [settleAll]

/-- A plan has an output for each step that succeeds. -/
theorem settleAll_outputs (p : Progress) (hids : (plan.map fun step => step.id).Nodup)
    (hnew : ∀ step ∈ plan, Assoc.get p.outputs step.id = none) :
    (settleAll behaviour p plan).outputs.map Prod.fst = p.outputs.map Prod.fst ++
      (plan.filter fun step => (settled behaviour step).isOk).map fun step => step.id := by
  induction plan generalizing p with
  | nil => simp [settleAll]
  | cons step plan ih =>
    obtain ⟨hne, hids⟩ := ids_cons hids
    have hrest : ∀ s ∈ plan, Assoc.get
        (Progress.settle p step (settled behaviour step)).outputs s.id = none := by
      intro s hs
      exact get_settle (hnew s (List.mem_cons_of_mem _ hs)) (hne s hs)
    have hcons : settleAll behaviour p (step :: plan) =
        settleAll behaviour (Progress.settle p step (settled behaviour step)) plan := rfl
    rw [hcons, ih _ hids hrest]
    cases hs : settled behaviour step with
    | ok value =>
      have hset := Assoc.set_of_get_eq_none (v := value) (hnew step List.mem_cons_self)
      simp [Progress.settle, Progress.complete, hset, hs, Except.isOk, Except.toBool]
    | error message => simp [Progress.settle, Progress.fail, hs, Except.isOk, Except.toBool]

/-- The counters of a plan. -/
theorem settleAll_counts (plan : List StepObject) (p : Progress) :
    (settleAll behaviour p plan).completed =
        p.completed + plan.countP (fun step => (settled behaviour step).isOk) ∧
      (settleAll behaviour p plan).failed =
        p.failed + plan.countP (fun step => !(settled behaviour step).isOk) := by
  induction plan generalizing p with
  | nil => simp [settleAll]
  | cons step plan ih =>
    have hcons : settleAll behaviour p (step :: plan) =
        settleAll behaviour (Progress.settle p step (settled behaviour step)) plan := rfl
    rw [hcons, (ih _).1, (ih _).2]
    cases hs : settled behaviour step <;>
      simp [Progress.settle, Progress.fail, Progress.complete, hs, Except.isOk, Except.toBool] <;>
      omega

/-- The errors of a plan. -/
theorem settleAll_errors (plan : List StepObject) (p : Progress) :
    ∃ lines, (settleAll behaviour p plan).errors = p.errors ++ lines ∧
      List.Forall₂ (fun step line => ∃ message, settled behaviour step = .error message ∧
        line = errorLine step message)
        (plan.filter fun step => !(settled behaviour step).isOk) lines := by
  induction plan generalizing p with
  | nil => exact ⟨[], by simp [settleAll], .nil⟩
  | cons step plan ih =>
    obtain ⟨lines, hlines, hall⟩ := ih (Progress.settle p step (settled behaviour step))
    have hcons : settleAll behaviour p (step :: plan) =
        settleAll behaviour (Progress.settle p step (settled behaviour step)) plan := rfl
    rw [hcons]
    cases hs : settled behaviour step with
    | ok value =>
      rw [hs] at hlines
      refine ⟨lines, by simpa [Progress.settle, Progress.complete] using hlines, ?_⟩
      simpa [hs, Except.isOk, Except.toBool] using hall
    | error message =>
      rw [hs] at hlines
      refine ⟨errorLine step message :: lines, ?_, ?_⟩
      · simpa [Progress.settle, Progress.fail, errorLine] using hlines
      · have hfail : (!(settled behaviour step).isOk) = true := by
          rw [hs]
          rfl
        rw [List.filter_cons, if_pos hfail]
        exact .cons ⟨message, hs, rfl⟩ hall

variable {behaviour}

/-! ## One step -/

theorem made_id {attempt : String × Outcome} (h : attempt ∈ made behaviour step) :
    attempt.1 = step.id := by
  unfold made at h
  rcases List.mem_cons.mp h with rfl | h
  · rfl
  · split at h
    · exact absurd h List.not_mem_nil
    · split at h
      · rw [List.mem_singleton.mp h]
      · exact absurd h List.not_mem_nil

/-- A step succeeds if one of its attempts does. -/
theorem ok_mem_made {value : Json} :
    (step.id, .ok value) ∈ made behaviour step ↔ settled behaviour step = .ok value := by
  unfold made settled
  cases h0 : behaviour step.id 0 with
  | ok v => simp [eq_comm]
  | error message =>
    by_cases hr : step.retryCount < step.maxRetries
    · cases h1 : behaviour step.id 1 <;> simp [hr, eq_comm]
    · simp [hr]

theorem error_mem_made {message : String} (h : settled behaviour step = .error message) :
    (step.id, .error message) ∈ made behaviour step := by
  have hfirst : behaviour step.id 0 = .error message := by
    unfold settled at h
    cases h0 : behaviour step.id 0 with
    | ok v => simp [h0] at h
    | error m =>
      by_cases hr : step.retryCount < step.maxRetries
      · cases h1 : behaviour step.id 1 <;> simp_all
      · simp_all
  rw [← hfirst]
  exact List.mem_cons_self

/-- A step that may not be attempted. -/
theorem due_of_neg (h : step.maxRetries < 0) : due behaviour step = [] := by
  have hzero : (1 + step.maxRetries).toNat = 0 := by omega
  rw [due, hzero, attemptsFrom]

/-- The attempts that are due, one after the other. -/
theorem due_of_nat {n : ℕ} (h : step.maxRetries = n) :
    due behaviour step = attemptsFrom behaviour step.id 0 (n + 1) := by
  have hsucc : (1 + step.maxRetries).toNat = n + 1 := by omega
  rw [due, hsucc]

/-- The attempts are those that are due, and the step agrees with them, if the step succeeds at
once or fails in at most two attempts. -/
theorem step_iff : made behaviour step = due behaviour step ∧
    Agrees (made behaviour step) step (leaves behaviour step) ↔
      FirstTry behaviour step ∨ NoTry behaviour step := by
  rcases Int.lt_or_le step.maxRetries 0 with hneg | hpos
  · have hleft : made behaviour step ≠ due behaviour step := by
      rw [due_of_neg hneg]
      exact List.cons_ne_nil _ _
    have hright : ¬(FirstTry behaviour step ∨ NoTry behaviour step) := by
      rintro (⟨-, h, -⟩ | ⟨-, -, ⟨h, -⟩ | ⟨h, -⟩⟩) <;> omega
    exact iff_of_false (fun h => hleft h.1) hright
  obtain ⟨n, hn⟩ := Int.eq_ofNat_of_zero_le hpos
  rw [due_of_nat hn]
  unfold FirstTry NoTry Agrees made leaves completes
  cases h0 : behaviour step.id 0 with
  | ok value => simp [attemptsFrom, h0, Except.isOk, Except.toBool, hpos]
  | error message =>
    by_cases hr : step.retryCount < step.maxRetries
    · cases h1 : behaviour step.id 1 with
      | ok value =>
        simp [attemptsFrom, h0, hr, Except.isOk, Except.toBool]
        omega
      | error message' =>
        rcases n with _ | _ | n
        · simp [attemptsFrom, h0, hr, Except.isOk, Except.toBool]
          omega
        · simp [attemptsFrom, h0, h1, hr, Except.isOk, Except.toBool]
          omega
        · simp [attemptsFrom, h0, h1, hr, Except.isOk, Except.toBool]
          omega
    · rcases n with _ | n
      · simp [attemptsFrom, h0, hr, Except.isOk, Except.toBool]
        omega
      · simp [attemptsFrom, h0, hr, Except.isOk, Except.toBool]
        omega

/-! ## The whole plan -/

theorem completes_iff {attempts : List (String × Outcome)} :
    completes attempts step ↔ ∃ value, (step.id, .ok value) ∈ attempts := by
  unfold completes
  rw [List.any_eq_true]
  constructor
  · rintro ⟨⟨id, outcome⟩, hmem, h⟩
    cases outcome with
    | ok value =>
      obtain rfl : id = step.id := by simpa [Except.isOk, Except.toBool] using h
      exact ⟨value, hmem⟩
    | error message => simp [Except.isOk, Except.toBool] at h
  · rintro ⟨value, hmem⟩
    exact ⟨_, hmem, by simp [Except.isOk, Except.toBool]⟩

theorem completes_congr {a a' : List (String × Outcome)}
    (h : ∀ outcome, (step.id, outcome) ∈ a ↔ (step.id, outcome) ∈ a') :
    completes a step = completes a' step := by
  rw [Bool.eq_iff_iff, completes_iff, completes_iff]
  exact exists_congr fun value => h _

/-- Only the attempts of a step matter to it. -/
theorem agrees_congr {a a' : List (String × Outcome)} {done : StepObject}
    (h : ∀ outcome, (step.id, outcome) ∈ a ↔ (step.id, outcome) ∈ a') :
    Agrees a step done ↔ Agrees a' step done := by
  unfold Agrees
  rw [completes_congr h, h]
  simp only [h]

/-- The entries of a step, among those of a plan. -/
theorem filter_flatMap {f : StepObject → List (String × Outcome)}
    (hf : ∀ s, ∀ attempt ∈ f s, attempt.1 = s.id)
    (hids : (plan.map fun step => step.id).Nodup) (hstep : step ∈ plan) :
    (plan.flatMap f).filter (fun attempt => attempt.1 = step.id) = f step := by
  have hself : ∀ s, (f s).filter (fun attempt => attempt.1 = s.id) = f s := by
    intro s
    rw [List.filter_eq_self]
    intro attempt hattempt
    exact decide_eq_true (hf s attempt hattempt)
  have hother : ∀ {s t : StepObject}, s.id ≠ t.id →
      (f s).filter (fun attempt => attempt.1 = t.id) = [] := by
    intro s t hne
    rw [List.filter_eq_nil_iff]
    intro attempt hattempt h
    exact hne ((hf s attempt hattempt).symm.trans (of_decide_eq_true h))
  induction plan with
  | nil => exact absurd hstep List.not_mem_nil
  | cons s plan ih =>
    obtain ⟨hne, hids⟩ := ids_cons hids
    rw [List.flatMap_cons, List.filter_append]
    rcases List.mem_cons.mp hstep with rfl | hstep
    · have hrest : (plan.flatMap f).filter (fun attempt => attempt.1 = step.id) = [] := by
        rw [List.filter_eq_nil_iff]
        intro attempt hattempt h
        obtain ⟨t, ht, hattempt⟩ := List.mem_flatMap.mp hattempt
        exact hne t ht ((of_decide_eq_true h).symm.trans (hf t attempt hattempt))
      rw [hself, hrest, List.append_nil]
    · rw [hother (hne step hstep), ih hids hstep, List.nil_append]

theorem attemptsFrom_id {id : String} {n budget : ℕ} :
    ∀ attempt ∈ attemptsFrom behaviour id n budget, attempt.1 = id := by
  induction budget generalizing n with
  | zero => exact fun attempt h => absurd h List.not_mem_nil
  | succ budget ih =>
    intro attempt h
    rw [attemptsFrom] at h
    rcases List.mem_cons.mp h with rfl | h
    · rfl
    · split at h
      · exact absurd h List.not_mem_nil
      · exact ih attempt h

/-- **The attempts of a plan** are those that are due if those of each step are. -/
theorem attempted_iff (hids : (plan.map fun step => step.id).Nodup) :
    plan.flatMap (made behaviour) = plan.flatMap (due behaviour) ↔
      ∀ step ∈ plan, made behaviour step = due behaviour step := by
  constructor
  · intro h step hstep
    rw [← filter_flatMap (f := made behaviour) (fun s a ha => made_id ha) hids hstep, h,
      filter_flatMap (f := due behaviour) (fun s => attemptsFrom_id) hids hstep]
  · intro h
    induction plan with
    | nil => rfl
    | cons step plan ih =>
      rw [List.flatMap_cons, List.flatMap_cons, h step List.mem_cons_self,
        ih (ids_cons hids).2 fun s hs => h s (List.mem_cons_of_mem _ hs)]

/-- The attempts at a step, among those of a plan. -/
theorem mem_attempts (hids : (plan.map fun step => step.id).Nodup) (hstep : step ∈ plan)
    (outcome : Outcome) :
    (step.id, outcome) ∈ plan.flatMap (made behaviour) ↔
      (step.id, outcome) ∈ made behaviour step := by
  rw [← filter_flatMap (f := made behaviour) (fun s a ha => made_id ha) hids hstep,
    List.mem_filter]
  simp

theorem completes_attempts (hids : (plan.map fun step => step.id).Nodup) (hstep : step ∈ plan) :
    completes (plan.flatMap (made behaviour)) step = (settled behaviour step).isOk := by
  rw [Bool.eq_iff_iff, completes_iff]
  constructor
  · rintro ⟨value, h⟩
    rw [mem_attempts hids hstep, ok_mem_made] at h
    rw [h]
    rfl
  · intro h
    cases hs : settled behaviour step with
    | ok value => exact ⟨value, (mem_attempts hids hstep _).mpr (ok_mem_made.mpr hs)⟩
    | error message => simp [hs, Except.isOk, Except.toBool] at h

/-- A step that succeeds does so at its first attempt. -/
theorem firstTry_of_mem {value : Json} (hstep : FirstTry behaviour step ∨ NoTry behaviour step)
    (h : (step.id, .ok value) ∈ made behaviour step) : (behaviour step.id 0).isOk := by
  rcases hstep with hfirst | ⟨hfail, -, hbudget⟩
  · exact hfirst.1
  · rw [ok_mem_made] at h
    unfold settled at h
    cases h0 : behaviour step.id 0 with
    | ok v => rfl
    | error message =>
      by_cases hr : step.retryCount < step.maxRetries
      · rcases hbudget with ⟨hzero, hcount⟩ | ⟨-, -, h1⟩
        · omega
        · cases hb : behaviour step.id 1 with
          | ok v => simp [hb, Except.isOk, Except.toBool] at h1
          | error message' => simp [h0, hb, hr] at h
      · simp [h0, hr] at h

/-- The first attempt at a step comes after those of the steps before it. -/
theorem prefix_of_attempt {l r earlier later : List (String × Outcome)} {attempt : String × Outcome}
    (h : l ++ r = earlier ++ attempt :: later) (hl : attempt ∉ l) : l <+: earlier := by
  rcases List.append_eq_append_iff.mp h with ⟨middle, rfl, -⟩ | ⟨middle, rfl, hrest⟩
  · exact List.prefix_append _ _
  · cases middle with
    | nil =>
      exact ⟨[], by rw [List.append_nil, List.append_nil]⟩
    | cons a middle =>
      obtain ⟨rfl, -⟩ := List.cons.inj hrest
      exact absurd (List.mem_append_right _ List.mem_cons_self) hl

/-- **No step is started too early** if those that it depends on are earlier and succeed. -/
theorem ordered_iff (hids : (plan.map fun step => step.id).Nodup)
    (hsteps : ∀ step ∈ plan, FirstTry behaviour step ∨ NoTry behaviour step) :
    (∀ earlier outcome later, ∀ step ∈ plan,
      plan.flatMap (made behaviour) = earlier ++ (step.id, outcome) :: later →
        ∀ d ∈ step.dependsOn, ∃ value, (d, .ok value) ∈ earlier) ↔
      ∀ earlier step later, plan = earlier ++ step :: later →
        ∀ d ∈ step.dependsOn, ∃ s ∈ earlier, s.id = d ∧ (behaviour d 0).isOk := by
  constructor
  · intro h earlier step later hplan d hd
    have hstep : step ∈ plan := by
      rw [hplan]
      exact List.mem_append_right _ List.mem_cons_self
    -- what comes before the first attempt at the step
    have hsplit : plan.flatMap (made behaviour) = earlier.flatMap (made behaviour) ++
        (step.id, behaviour step.id 0) :: ((made behaviour step).tail ++
          later.flatMap (made behaviour)) := by
      rw [hplan, List.flatMap_append, List.flatMap_cons]
      rfl
    obtain ⟨value, hvalue⟩ := h _ _ _ step hstep hsplit d hd
    obtain ⟨s, hs, hmem⟩ := List.mem_flatMap.mp hvalue
    obtain rfl : d = s.id := made_id hmem
    have hsplan : s ∈ plan := by
      rw [hplan]
      exact List.mem_append_left _ hs
    exact ⟨s, hs, rfl, firstTry_of_mem (hsteps s hsplan) hmem⟩
  · intro h earlier outcome later step hstep hattempts d hd
    obtain ⟨before, after, hplan⟩ := List.append_of_mem hstep
    obtain ⟨s, hs, rfl, hok⟩ := h before step after hplan d hd
    -- no attempt of the steps before this one is an attempt at it
    have hnew : (step.id, outcome) ∉ before.flatMap (made behaviour) := by
      intro hmem
      obtain ⟨t, ht, hmem⟩ := List.mem_flatMap.mp hmem
      rw [hplan, List.map_append, List.nodup_append] at hids
      exact hids.2.2 t.id (List.mem_map_of_mem ht) step.id
        (List.mem_map_of_mem List.mem_cons_self) (made_id hmem).symm
    rw [hplan, List.flatMap_append] at hattempts
    obtain ⟨middle, rfl⟩ := prefix_of_attempt hattempts hnew
    cases h0 : behaviour s.id 0 with
    | error message => simp [h0, Except.isOk, Except.toBool] at hok
    | ok value =>
      refine ⟨value, List.mem_append_left _ (List.mem_flatMap.mpr ⟨s, hs, ?_⟩)⟩
      rw [← h0]
      exact List.mem_cons_self

/-- What `execute` leaves. -/
theorem executePlan_eq (hids : (plan.map fun step => step.id).Nodup) :
    executePlan behaviour plan = (⟨settleAll behaviour {} plan, plan.flatMap (made behaviour)⟩,
      plan.map (leaves behaviour)) := by
  unfold executePlan
  rw [executeObjects_eq behaviour hids fun _ _ => rfl]
  rfl

/-- A result is completed if nothing failed. -/
theorem result_completed_iff {p : Progress} {workflowId : String} :
    (p.result workflowId).status = .completed ↔ p.failed = 0 := by
  unfold Progress.result
  by_cases h : p.failed = 0 <;> simp [h]

/-- The counters, the outputs, the errors and the status are right in every case. -/
theorem result_accounts (hids : (plan.map fun step => step.id).Nodup) (workflowId : String) :
    let attempts := plan.flatMap (made behaviour)
    let result := (settleAll behaviour {} plan).result workflowId
    result.stepsCompleted + result.stepsFailed = plan.length ∧
      (result.stepsFailed = plan.countP fun step => !completes attempts step) ∧
      result.outputs.map Prod.fst =
        ((plan.filter fun step => completes attempts step).map fun step => step.id) ∧
      List.Forall₂ (fun step line => ∃ message, (step.id, .error message) ∈ attempts ∧
        line = errorLine step message)
        (plan.filter fun step => !completes attempts step) result.errors ∧
      (result.status = .completed ↔ ∀ step ∈ plan, completes attempts step) := by
  intro attempts result
  have hcompletes : ∀ step ∈ plan, completes attempts step = (settled behaviour step).isOk :=
    fun step hstep => completes_attempts hids hstep
  obtain ⟨hcompleted, hfailed⟩ := settleAll_counts behaviour plan {}
  have hcount : (settleAll behaviour {} plan).failed =
      plan.countP fun step => !completes attempts step := by
    rw [hfailed, Nat.zero_add]
    exact List.countP_congr fun step hstep => by rw [hcompletes step hstep]
  refine ⟨?_, hcount, ?_, ?_, ?_⟩
  · have hlength := List.length_eq_countP_add_countP (l := plan)
      fun step => (settled behaviour step).isOk
    show (settleAll behaviour {} plan).completed + (settleAll behaviour {} plan).failed = _
    rw [hcompleted, hfailed, hlength]
    simp
  · have houtputs := settleAll_outputs behaviour {} hids fun _ _ => rfl
    show (settleAll behaviour {} plan).outputs.map Prod.fst = _
    rw [houtputs, List.filter_congr hcompletes]
    rfl
  · obtain ⟨lines, hlines, hall⟩ := settleAll_errors behaviour plan {}
    have herrors : result.errors = lines := hlines
    rw [herrors, List.filter_congr fun step hstep => by rw [hcompletes step hstep]]
    have hmem : ∀ step ∈ plan.filter fun step => !(settled behaviour step).isOk, step ∈ plan :=
      fun step hstep => (List.mem_filter.mp hstep).1
    refine List.Forall₂.imp ?_ ((List.forall₂_and_left _ _).mpr ⟨hmem, hall⟩)
    rintro step line ⟨hstep, message, hs, rfl⟩
    exact ⟨message, (mem_attempts hids hstep _).mpr (error_mem_made hs), rfl⟩
  · rw [result_completed_iff, hcount, List.countP_eq_zero]
    simp

/-- **When everything is accounted for**: just when no step needs a second retry, or an error taken
back, or an order that the plan does not have. -/
theorem accounted_iff (behaviour : String → ℕ → Outcome) (plan : List StepObject)
    (workflowId : String) (hids : (plan.map fun step => step.id).Nodup) :
    Accounted behaviour plan (executePlan behaviour plan).1.attempts (executePlan behaviour plan).2
      ((executePlan behaviour plan).1.progress.result workflowId) ↔ Unretried behaviour plan := by
  have hagrees : List.Forall₂ (Agrees (plan.flatMap (made behaviour))) plan
      (plan.map (leaves behaviour)) ↔
        ∀ step ∈ plan, Agrees (made behaviour step) step (leaves behaviour step) := by
    rw [List.forall₂_map_right_iff, List.forall₂_same]
    exact forall₂_congr fun step hstep => agrees_congr (mem_attempts hids hstep)
  have hsteps : (plan.flatMap (made behaviour) = plan.flatMap (due behaviour) ∧
      List.Forall₂ (Agrees (plan.flatMap (made behaviour))) plan (plan.map (leaves behaviour))) ↔
        ∀ step ∈ plan, FirstTry behaviour step ∨ NoTry behaviour step := by
    rw [attempted_iff hids, hagrees]
    constructor
    · exact fun h step hstep => step_iff.mp ⟨h.1 step hstep, h.2 step hstep⟩
    · intro h
      exact ⟨fun step hstep => (step_iff.mpr (h step hstep)).1,
        fun step hstep => (step_iff.mpr (h step hstep)).2⟩
  rw [executePlan_eq hids]
  obtain ⟨htotal, hfailures, houtputs, herrors, hstatus⟩ :=
    result_accounts hids workflowId
  constructor
  · intro h
    have hall := hsteps.mp ⟨h.attempted, h.objects⟩
    exact ⟨hall, (ordered_iff hids hall).mp h.ordered⟩
  · intro h
    obtain ⟨hattempted, hobjects⟩ := hsteps.mpr h.steps
    exact ⟨hattempted, (ordered_iff hids h.steps).mpr h.dependencies, htotal, hfailures, houtputs,
      herrors, hstatus, hobjects⟩

end Loop

/-- A step that may be retried twice, and one that depends on it. -/
def retriedPlan : List StepObject :=
  [{ id := "fetch", name := "fetch", maxRetries := 2 },
    { id := "send", name := "send", dependsOn := ["fetch"] }]

/-- Every step succeeds at its third attempt. -/
def slowBehaviour : String → ℕ → Outcome
  | _, 2 => .ok (.text "done")
  | _, _ => .error "timeout"

/-- A step is given up after two attempts, and the step that depends on it is started. -/
theorem not_accounted : ¬∀ (behaviour : String → ℕ → Outcome) (plan : List StepObject)
    (workflowId : String), (plan.map fun step => step.id).Nodup →
    Accounted behaviour plan (executePlan behaviour plan).1.attempts (executePlan behaviour plan).2
      ((executePlan behaviour plan).1.progress.result workflowId) := by
  intro h
  have hattempted := (h slowBehaviour retriedPlan "w" (by decide)).attempted
  have hlengths := congrArg List.length hattempted
  have hfew : (executePlan slowBehaviour retriedPlan).1.attempts.length = 4 := by decide
  have hdue : (retriedPlan.flatMap (due slowBehaviour)).length = 5 := by decide
  omega

/-- The same plan, when every step succeeds at once. -/
theorem accounted_retriedPlan :
    (retriedPlan.map fun step => step.id).Nodup ∧
      (Accounted (fun _ _ => .ok .null) retriedPlan
        (executePlan (fun _ _ => .ok .null) retriedPlan).1.attempts
        (executePlan (fun _ _ => .ok .null) retriedPlan).2
        ((executePlan (fun _ _ => .ok .null) retriedPlan).1.progress.result "w") ↔
          Unretried (fun _ _ => .ok .null) retriedPlan) :=
  ⟨by decide, accounted_iff (fun _ _ => .ok .null) retriedPlan "w" (by decide)⟩

end Accounts

end Workflows

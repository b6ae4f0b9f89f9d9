import AiLabOs.Assistant.Intent
import AiLabOs.Assistant.ReminderIntent
import AiLabOs.Base.DateTime
import AiLabOs.Base.Failure
import AiLabOs.Base.Workspace
import AiLabOs.Process.Frames

/-!
# CEO Assistant: requests about tasks

The intent of a request declares an effect, and the handler of tasks looks for words of its own to
decide what to do. It asks for the list first, whatever the declared effect.

## Main definitions

* `Action`, `Action.writes`: the calls of services the handler makes
* `handleTask`: the handler
* `Returns`: a program returns after some calls
* `EffectPerformed`: what the handler does is what the intent declares

## Main results

* `effectPerformed_iff`: when the declared effect is performed
-/

namespace Assistants

open Process

/-! ## Calls of services -/

inductive UserTaskPriority where
  | low
  | medium
  | high
deriving DecidableEq, Repr

/-- What the handler reads of a task. -/
structure TaskView where
  id : String
  title : String
  priority : UserTaskPriority
  status : String
  dueAt : Option DateTime
deriving DecidableEq

/-- What the handler reads of a reminder that was arranged. -/
structure ReminderView where
  taskId : String
  reminderId : String
  scheduledFor : String
deriving DecidableEq

/-- `ApplicationRequest`, as far as the handler reads it. -/
structure ApplicationRequest where
  userInput : String
  workspaceKey : WorkspaceKey
  sessionId : String := ""
  /-- `metadata["idempotency_key"]`, or nothing. -/
  idempotencyKey : String := ""

/-- The calls the handler makes. -/
inductive Action where
  | listTasks (workspaceKey : WorkspaceKey) (limit : ℕ)
  | completeTask (workspaceKey : WorkspaceKey) (taskId : String)
  | cancelTask (workspaceKey : WorkspaceKey) (taskId : String)
  | createReminder (workspaceKey : WorkspaceKey) (parsed : ParsedTaskIntent)
      (priority : UserTaskPriority) (description sessionId idempotencyKey : String)
  | createTask (workspaceKey : WorkspaceKey) (parsed : ParsedTaskIntent)
      (priority : UserTaskPriority) (description sessionId : String)

/-- The reply to a call, or what it raises. -/
@[reducible] def Action.Reply : Action → Type
  | .listTasks _ _ => Except Raised (List TaskView)
  | .completeTask _ _ => Except Raised TaskView
  | .cancelTask _ _ => Except Raised TaskView
  | .createReminder _ _ _ _ _ _ => Except Raised ReminderView
  | .createTask _ _ _ _ _ => Except Raised TaskView

/-- The call writes to a store. -/
def Action.writes : Action → Bool
  | .listTasks _ _ => false
  | _ => true

/-- Programs over these calls. -/
abbrev Prog := Program Action Action.Reply Raised

/-- Raises what a call raised. -/
def lift {α : Type} : Except Raised α → Prog α
  | .ok a => .ret a
  | .error x => .raise x

/-! ## The handler -/

/-- What the assistant is configured with. -/
structure Assistant where
  uni : Unicode
  /-- The parser of tasks and reminders, at the reading its clock gives. -/
  parse : String → Except Raised ParsedTaskIntent
  /-- `uuid4().hex`. -/
  newHex : String

/-- The answers of the handler. -/
inductive Answer where
  | tasks (tasks : List TaskView)
  | completed (task : TaskView)
  | cancelled (task : TaskView)
  | reminder (parsed : ParsedTaskIntent) (view : ReminderView)
  | created (task : TaskView) (timeUnparsed : Bool)
deriving DecidableEq

/-- The priority the words of the text name. -/
def priorityOf (userInput : String) : UserTaskPriority :=
  if Text.containsAny userInput ["紧急", "马上", "立刻", "尽快"] then .high
  else if Text.containsAny userInput ["有空", "空闲", "不急"] then .low
  else .medium

/-- The key a reminder is created under. -/
def Assistant.idempotencyKey (assistant : Assistant) (request : ApplicationRequest) : String :=
  let key := Text.strip request.idempotencyKey
  let traceId := Text.strip request.workspaceKey.traceId
  if key ≠ "" then key else if traceId ≠ "" then traceId else assistant.newHex

/-- Asks for the active tasks. -/
def listTasks (request : ApplicationRequest) : Prog Answer :=
  .await (Action.listTasks request.workspaceKey 100) fun reply => do
    let tasks ← lift reply
    return .tasks tasks

/-- Completes or cancels the task the text names. -/
def finishTask (act : String → Action) (view : ∀ id, (act id).Reply → Except Raised Answer)
    (taskId : Option String) (missing : String) : Prog Answer :=
  match taskId with
  | none => .raise (.valueError missing)
  | some taskId => .await (act taskId) fun reply => lift (view taskId reply)

/-- Creates what the parser makes of the text. -/
def createParsed (assistant : Assistant) (request : ApplicationRequest) : Prog Answer :=
  let priority := priorityOf request.userInput
  match assistant.parse request.userInput with
  | .error x => .raise x
  | .ok parsed =>
    match parsed.kind with
    | .reminder =>
      .await (Action.createReminder request.workspaceKey parsed priority request.userInput
        request.sessionId (assistant.idempotencyKey request)) fun reply => do
          let view ← lift reply
          return .reminder parsed view
    | .task =>
      .await (Action.createTask request.workspaceKey parsed priority request.userInput
        request.sessionId) fun reply => do
          let task ← lift reply
          return .created task parsed.timeUnparsed

/-- `_handle_task`, with every service configured. -/
def handleTask (assistant : Assistant) (request : ApplicationRequest) : Prog Answer :=
  let userInput := request.userInput
  let taskId := (idPattern assistant.uni "ut_").search userInput
  if Text.containsAny userInput listMarkers then listTasks request
  else if Text.containsAny userInput ["完成任务", "标记完成", "已完成"] then
    finishTask (.completeTask request.workspaceKey) (fun _ reply => reply.map .completed) taskId
      "完成任务需要明确的 task ID"
  else if Text.contains userInput "取消任务" then
    finishTask (.cancelTask request.workspaceKey) (fun _ reply => reply.map .cancelled) taskId
      "取消任务需要明确的 task ID"
  else createParsed assistant request

/-! ## Declared and performed effects -/

/-- The program returns the value after these calls and replies. -/
inductive Returns {α : Type} : Prog α → Log Action Action.Reply → α → Prop
  | ret (a : α) : Returns (.ret a) [] a
  | await {e : Action} {next : e.Reply → Prog α} {r : e.Reply} {log : Log Action Action.Reply}
      {a : α} (h : Returns (next r) log a) : Returns (.await e next) (⟨e, r⟩ :: log) a

/-- The calls of a log that write. -/
def writesOf (log : Log Action Action.Reply) : List Action :=
  (log.map Sigma.fst).filter Action.writes

/-- **The declared effect is performed**: what is taken for a question about tasks writes nothing,
whether it returns or raises; what is taken for a request to change tasks has made exactly one call
that writes whenever it returns. -/
def EffectPerformed (assistant : Assistant) (request : ApplicationRequest) : Prop :=
  (decideIntent assistant.uni request.userInput).intent = .task →
    ((decideIntent assistant.uni request.userInput).effect = .read →
      (handleTask assistant request).All fun e => e.writes = false) ∧
    ((decideIntent assistant.uni request.userInput).effect = .write →
      ∀ log answer, Returns (handleTask assistant request) log answer →
        (writesOf log).length = 1)

/-- The text is taken for a request to change tasks, and it has a word that asks for the list. -/
def Misread (uni : Unicode) (userInput : String) : Prop :=
  (decideIntent uni userInput).intent = .task ∧ (decideIntent uni userInput).effect = .write ∧
    Text.containsAny userInput listMarkers = true

section Handler

variable {assistant : Assistant} {request : ApplicationRequest}
  {log : Log Action Action.Reply} {answer : Answer}

theorem listTasks_reads : (listTasks request).All fun e => e.writes = false := by
  refine ⟨rfl, fun reply => ?_⟩
  cases reply with
  | error x => exact .raise x
  | ok tasks => exact .ret _

/-- A call that is answered ends the handler. -/
theorem returns_lift {reply : Except Raised Answer} (h : Returns (lift reply) log answer) :
    log = [] := by
  cases reply with
  | error x => cases h
  | ok a =>
    cases h
    rfl

theorem returns_lift_bind {α : Type} {reply : Except Raised α} {f : α → Answer}
    (h : Returns (lift reply >>= fun a => pure (f a)) log answer) : log = [] := by
  cases reply with
  | error x => cases h
  | ok a =>
    cases h
    rfl

/-- Completing or cancelling is one call that writes. -/
theorem finishTask_writes {act : String → Action} (hact : ∀ id, (act id).writes = true)
    {view : ∀ id, (act id).Reply → Except Raised Answer} {taskId : Option String}
    {missing : String} (h : Returns (finishTask act view taskId missing) log answer) :
    (writesOf log).length = 1 := by
  unfold finishTask at h
  cases taskId with
  | none => cases h
  | some taskId =>
    cases h with
    | await h =>
      rw [returns_lift h]
      simp [writesOf, hact]

/-- So is creating a task or a reminder. -/
theorem createParsed_writes (h : Returns (createParsed assistant request) log answer) :
    (writesOf log).length = 1 := by
  unfold createParsed at h
  dsimp only at h
  split at h
  · cases h
  · split at h
    · cases h with
      | await h =>
        rw [returns_lift_bind h]
        rfl
    · cases h with
      | await h =>
        rw [returns_lift_bind h]
        rfl

/-- Without a word that asks for the list, the handler makes one call that writes. -/
theorem handleTask_writes (hmarkers : Text.containsAny request.userInput listMarkers = false)
    (h : Returns (handleTask assistant request) log answer) : (writesOf log).length = 1 := by
  unfold handleTask at h
  dsimp only at h
  rw [hmarkers, if_neg Bool.false_ne_true] at h
  split at h
  · exact finishTask_writes (fun _ => rfl) h
  · split at h
    · exact finishTask_writes (fun _ => rfl) h
    · exact createParsed_writes h

/-- A word that asks for the list is there in the text as it is. -/
theorem listMarkers_of_lower {uni : Unicode} {userInput : String}
    (h : Text.containsAny (Text.strip (uni.lower userInput)) listMarkers = true) :
    Text.containsAny userInput listMarkers = true := by
  unfold Text.containsAny at h ⊢
  rw [List.any_eq_true] at h ⊢
  obtain ⟨marker, hmem, hmarker⟩ := h
  have hideographs : ∀ marker ∈ listMarkers,
      marker ≠ "" ∧ marker.toList.all isIdeograph = true := by
    decide
  exact ⟨marker, hmem, Unicode.contains_of_lower (hideographs marker hmem).1
    (hideographs marker hmem).2 (Text.contains_of_strip hmarker)⟩

end Handler

/-- **The declared effect is performed** unless the text is misread: taken for a request to change
tasks while it has a word that asks for the list. -/
theorem effectPerformed_iff (assistant : Assistant) (request : ApplicationRequest) :
    EffectPerformed assistant request ↔ ¬Misread assistant.uni request.userInput := by
  constructor
  · rintro h ⟨hintent, heffect, hmarkers⟩
    have hreturns : Returns (handleTask assistant request)
        [⟨.listTasks request.workspaceKey 100, .ok []⟩] (.tasks []) := by
      unfold handleTask
      dsimp only
      rw [hmarkers, if_pos rfl]
      exact .await (.ret _)
    have hwrites : 0 = 1 := (h hintent).2 heffect _ _ hreturns
    exact absurd hwrites (by decide)
  · intro h hintent
    constructor
    · intro heffect
      have hmarkers := listMarkers_of_lower (decideIntent_task_read hintent heffect)
      unfold handleTask
      dsimp only
      rw [hmarkers, if_pos rfl]
      exact listTasks_reads
    · intro heffect log answer hreturns
      refine handleTask_writes (Bool.eq_false_iff.mpr fun hmarkers => ?_) hreturns
      exact h ⟨hintent, heffect, hmarkers⟩

/-- An assistant that takes every text for a task without a deadline. -/
def plainAssistant : Assistant where
  uni := .ascii
  parse := fun text => .ok ⟨.task, text, none, "UTC", false⟩
  newHex := "0"

/-- A reminder about a query is answered with the tasks. -/
theorem reminder_answered_with_tasks :
    ¬EffectPerformed plainAssistant ⟨"提醒我明天9点查询航班", {}, "", ""⟩ ∧
    Returns (handleTask plainAssistant ⟨"提醒我明天9点查询航班", {}, "", ""⟩)
      [⟨.listTasks {} 100, .ok []⟩] (.tasks []) := by
  have hmarkers : Text.containsAny "提醒我明天9点查询航班" listMarkers = true := by decide +kernel
  have hdecision : decideIntent .ascii "提醒我明天9点查询航班" = ⟨.task, 1, .write⟩ := by
    decide +kernel
  have hreturns : Returns (handleTask plainAssistant ⟨"提醒我明天9点查询航班", {}, "", ""⟩)
      [⟨.listTasks {} 100, .ok []⟩] (.tasks []) := by
    unfold handleTask
    dsimp only
    rw [hmarkers, if_pos rfl]
    exact .await (.ret _)
  refine ⟨fun h => ?_, hreturns⟩
  have hwrites := (h (congrArg IntentDecision.intent hdecision)).2
    (congrArg IntentDecision.effect hdecision) _ _ hreturns
  exact absurd hwrites (by decide)

end Assistants

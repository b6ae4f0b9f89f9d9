import AiLabOs.Base.Runs
import AiLabOs.Base.Table
import Mathlib.Data.List.Basic
import Mathlib.Data.List.Nodup
import Mathlib.Logic.Function.Basic

/-!
# Task queue of the message bus

Each worker of a queue has a consumer of its own, which takes the tasks of the queue one by one and
attempts each until an attempt succeeds or the retries are used up. The consumers of a queue share
it, and run between the awaits of each other.

## Main definitions

* `MemoryTaskQueue`: the queues, their consumers, and what has happened so far
* `step`: what an event does
* `Settled`, `QueueLaw`: the attempts at a task, and the law of the queue

## Main results

* `queue_law`: the law in every reachable state
* `stopped_law`: which consumers take a task after a shutdown, and how many
-/

namespace Bus

/-! ## The queue -/

/-- `Task`, as far as the queue reads it. -/
structure Task where
  taskId : String
  maxRetries : ℕ := 3
deriving DecidableEq, Repr

/-- How an attempt ends: the worker returns, runs out of time, raises an `Exception`, or the
consumer is cancelled with it. -/
inductive Outcome where
  | returned
  | timedOut
  | raised
  | cancelled
deriving DecidableEq, Repr

/-- The attempt is followed by another one, if a retry is left. -/
def Outcome.failed : Outcome → Bool
  | .timedOut | .raised => true
  | .returned | .cancelled => false

/-- Where the coroutine of a consumer is. A task is named by its number among all that were sent. -/
inductive Phase where
  /-- It is about to look whether the queue is running. -/
  | atHead
  /-- It awaits `q.get()`. -/
  | getting
  /-- It awaits an attempt at the task, after so many retries. -/
  | working (n retries : ℕ)
  /-- It was cancelled in an attempt at the task. -/
  | abandoned (n : ℕ)
  | stopped
deriving DecidableEq, Repr

structure Consumer where
  queue : String
  phase : Phase
deriving DecidableEq, Repr

/-- The consumer has this task, and has not reported it done. -/
def Consumer.holds (n : ℕ) (c : Consumer) : Bool :=
  match c.phase with
  | .working m _ => m = n
  | .abandoned m => m = n
  | _ => false

/-- The consumer has a task. One that was cancelled in an attempt keeps its task for good: it never
calls `task_done`. -/
def Consumer.busy (c : Consumer) : Bool :=
  match c.phase with
  | .working _ _ => true
  | .abandoned _ => true
  | _ => false

/-- A consumer took this task from its queue. -/
structure Taking where
  consumer : ℕ
  queue : String
  task : ℕ
deriving DecidableEq, Repr

/-- `MemoryTaskQueue`, with what has happened so far. -/
structure MemoryTaskQueue where
  /-- `asyncio.Queue`, as the numbers of its tasks. -/
  queues : String → List ℕ := fun _ => []
  /-- The tasks of a queue that are not reported done. -/
  unfinished : String → ℕ := fun _ => 0
  consumers : List Consumer := []
  running : Bool := true
  /-- Everything that was sent, with the name of its queue. -/
  sent : List (String × Task) := []
  /-- What was taken from the queues. -/
  taken : List Taking := []
  /-- The attempts that have ended. -/
  attempts : List (ℕ × Outcome) := []
  /-- The calls of `task_done`. -/
  done : List ℕ := []

namespace MemoryTaskQueue

variable (s : MemoryTaskQueue)

def setPhase (i : ℕ) (queue : String) (phase : Phase) : MemoryTaskQueue :=
  { s with consumers := s.consumers.set i ⟨queue, phase⟩ }

/-- The consumer takes a task. -/
def take (i : ℕ) (queue : String) (n : ℕ) (rest : List ℕ) : MemoryTaskQueue :=
  { s with
    queues := Function.update s.queues queue rest
    taken := s.taken ++ [⟨i, queue, n⟩]
    consumers := s.consumers.set i ⟨queue, .working n 0⟩ }

/-- `while self._running: task = await q.get()`, up to the next await. -/
def loopHead (i : ℕ) (queue : String) : MemoryTaskQueue :=
  if s.running then
    match s.queues queue with
    | [] => s.setPhase i queue .getting
    | n :: rest => s.take i queue n rest
  else s.setPhase i queue .stopped

/-- `q.task_done()`, after an attempt. -/
def settle (i : ℕ) (queue : String) (n : ℕ) (outcome : Outcome) : MemoryTaskQueue :=
  { s with
    unfinished := Function.update s.unfinished queue (s.unfinished queue - 1)
    attempts := s.attempts ++ [(n, outcome)]
    done := s.done ++ [n]
    consumers := s.consumers.set i ⟨queue, .atHead⟩ }

/-- An attempt is over, and the consumer goes on with the task or is cancelled. -/
def attempted (i : ℕ) (queue : String) (n : ℕ) (outcome : Outcome) (phase : Phase) :
    MemoryTaskQueue :=
  { s with
    attempts := s.attempts ++ [(n, outcome)]
    consumers := s.consumers.set i ⟨queue, phase⟩ }

/-- `task.max_retries` of a task that was sent. -/
def maxRetries (n : ℕ) : ℕ := (s.sent[n]?.map fun entry => entry.2.maxRetries).getD 0

/-- `send`. -/
def send (queue : String) (task : Task) : MemoryTaskQueue :=
  { s with
    queues := Function.update s.queues queue (s.queues queue ++ [s.sent.length])
    unfinished := Function.update s.unfinished queue (s.unfinished queue + 1)
    sent := s.sent ++ [(queue, task)] }

/-- `register_worker`. -/
def registerWorker (queue : String) : MemoryTaskQueue :=
  { s with consumers := s.consumers ++ [⟨queue, .atHead⟩] }

/-- `shutdown`. -/
def shutdown : MemoryTaskQueue := { s with running := false }

end MemoryTaskQueue

/-- What can happen. -/
inductive Event where
  | send (queue : String) (task : Task)
  | registerWorker (queue : String)
  /-- The consumer runs for the first time, or is woken in `q.get()`. -/
  | resume (i : ℕ)
  /-- The attempt the consumer awaits ends. -/
  | attempt (i : ℕ) (outcome : Outcome)
  /-- The consumer is cancelled while it has no task. -/
  | cancel (i : ℕ)
  | shutdown

open MemoryTaskQueue in
/-- `_consume` from one await to the next, and the calls of the other methods. A consumer that is
woken and finds its queue empty awaits on. -/
def step (s : MemoryTaskQueue) : Event → Option MemoryTaskQueue
  | .send queue task => some (s.send queue task)
  | .registerWorker queue => some (s.registerWorker queue)
  | .shutdown => some s.shutdown
  | .resume i =>
    match s.consumers[i]? with
    | some ⟨queue, .atHead⟩ => some (s.loopHead i queue)
    | some ⟨queue, .getting⟩ =>
      match s.queues queue with
      | [] => none
      | n :: rest => some (s.take i queue n rest)
    | _ => none
  | .attempt i outcome =>
    match s.consumers[i]? with
    | some ⟨queue, .working n retries⟩ =>
      match outcome with
      | .returned => some ((s.settle i queue n .returned).loopHead i queue)
      | .cancelled => some (s.attempted i queue n .cancelled (.abandoned n))
      | failure => some <|
        if retries + 1 ≤ s.maxRetries n then
          s.attempted i queue n failure (.working n (retries + 1))
        else (s.settle i queue n failure).loopHead i queue
    | _ => none
  | .cancel i =>
    match s.consumers[i]? with
    | some ⟨queue, .atHead⟩ | some ⟨queue, .getting⟩ => some (s.setPhase i queue .stopped)
    | _ => none

/-- Some run of the queue leads here. -/
def Reachable (s : MemoryTaskQueue) : Prop := Runs.Reaches step {} s

/-! ## The law -/

/-- The numbers of what was sent to a queue, in order. -/
def numbers (sent : List (String × Task)) (queue : String) : List ℕ :=
  (sent.zipIdx.filter fun entry => entry.1.1 = queue).map Prod.snd

namespace MemoryTaskQueue

variable (s : MemoryTaskQueue)

/-- What was taken from a queue, in order. -/
def takenFrom (queue : String) : List ℕ :=
  (s.taken.filter fun taking => taking.queue = queue).map Taking.task

/-- The attempts at a task that have ended, in order. -/
def attemptsAt (n : ℕ) : List Outcome := (s.attempts.filter fun entry => entry.1 = n).map Prod.snd

end MemoryTaskQueue

/-- The attempts failed, all of them. -/
def Failing (outcomes : List Outcome) : Prop := ∀ outcome ∈ outcomes, outcome.failed = true

/-- **The attempts at a task that is done**: failures within the retries and then a success, or one
failure more than there are retries. -/
inductive Settled (maxRetries : ℕ) : List Outcome → Prop
  | succeeded (failures : List Outcome) (h : Failing failures)
      (hlength : failures.length ≤ maxRetries) : Settled maxRetries (failures ++ [.returned])
  | exhausted (failures : List Outcome) (h : Failing failures)
      (hlength : failures.length = maxRetries + 1) : Settled maxRetries failures

/-- The attempts of a consumer at the task it has agree with its phase. -/
def Phase.Agrees (phase : Phase) (maxRetries : ℕ) (outcomes : List Outcome) : Prop :=
  match phase with
  | .working _ retries => Failing outcomes ∧ outcomes.length = retries ∧ retries ≤ maxRetries
  | .abandoned _ => ∃ failures, Failing failures ∧ failures.length ≤ maxRetries ∧
      outcomes = failures ++ [.cancelled]
  | _ => True

/-- **The law of the queue.** -/
structure QueueLaw (s : MemoryTaskQueue) : Prop where
  /-- The tasks of a queue are taken in the order they were sent. -/
  inOrder : ∀ queue, s.takenFrom queue ++ s.queues queue = numbers s.sent queue
  /-- A task waits in its queue, or one consumer of the queue has it, or it is done, once. -/
  conserved : ∀ n queue task, s.sent[n]? = some (queue, task) →
    (s.queues queue).count n + s.consumers.countP (Consumer.holds n) + s.done.count n = 1
  owned : ∀ c ∈ s.consumers, ∀ n, c.holds n = true → ∃ task, s.sent[n]? = some (c.queue, task)
  /-- Nothing is attempted that was not taken. -/
  takenFirst : ∀ entry ∈ s.attempts, ∃ taking ∈ s.taken, taking.task = entry.1
  tried : ∀ c ∈ s.consumers, ∀ n, c.holds n = true →
    c.phase.Agrees (s.maxRetries n) (s.attemptsAt n)
  settled : ∀ n ∈ s.done, n < s.sent.length ∧ Settled (s.maxRetries n) (s.attemptsAt n)
  /-- What `join` waits for: the tasks that wait and those that consumers have. -/
  counted : ∀ queue, s.unfinished queue = (s.queues queue).length +
    s.consumers.countP fun c => c.queue = queue && c.busy

/-! ### Lists -/

/-- What a replaced consumer adds to a count. -/
theorem countP_set_add {α : Type} (p : α → Bool) {l : List α} {i : ℕ} {a : α} (b : α)
    (h : l[i]? = some a) :
    (l.set i b).countP p + (if p a then 1 else 0) = l.countP p + if p b then 1 else 0 := by
  induction l generalizing i with
  | nil => simp at h
  | cons x l ih =>
    cases i with
    | zero =>
      obtain rfl : x = a := by simpa using h
      simp only [List.set_cons_zero, List.countP_cons]
      omega
    | succ i =>
      have hi : l[i]? = some a := by simpa using h
      simp only [List.set_cons_succ, List.countP_cons]
      have := ih hi
      omega

theorem numbers_append (sent : List (String × Task)) (queue : String) (task : Task)
    (other : String) : numbers (sent ++ [(queue, task)]) other =
      numbers sent other ++ if queue = other then [sent.length] else [] := by
  by_cases hq : queue = other <;> simp [numbers, List.zipIdx_append, List.filter_append, hq]

theorem mem_numbers {sent : List (String × Task)} {queue : String} {n : ℕ} :
    n ∈ numbers sent queue ↔ ∃ task, sent[n]? = some (queue, task) := by
  simp only [numbers, List.mem_map, List.mem_filter, decide_eq_true_eq]
  constructor
  · rintro ⟨⟨⟨queue', task⟩, m⟩, ⟨hmem, hqueue⟩, hn⟩
    obtain rfl : queue' = queue := hqueue
    obtain rfl : m = n := hn
    exact ⟨task, List.mem_zipIdx_iff_getElem?.mp hmem⟩
  · rintro ⟨task, h⟩
    exact ⟨((queue, task), n), ⟨List.mem_zipIdx_iff_getElem?.mpr h, rfl⟩, rfl⟩

theorem nodup_numbers (sent : List (String × Task)) (queue : String) :
    (numbers sent queue).Nodup := by
  have hsub : List.Sublist (numbers sent queue) (sent.zipIdx.map Prod.snd) :=
    List.filter_sublist.map Prod.snd
  have hrange : sent.zipIdx.map Prod.snd = List.range' 0 sent.length := List.zipIdx_map_snd ..
  exact (hrange ▸ List.nodup_range').sublist hsub

/-! ### What the law says of a task -/

section Law

variable {s : MemoryTaskQueue} {i n retries : ℕ} {queue : String} {c : Consumer} {phase : Phase}

theorem Consumer.not_holds (h : c.busy = false) (n : ℕ) : c.holds n = false := by
  obtain ⟨queue, phase⟩ := c
  cases phase with
  | working m retries => exact Bool.noConfusion h
  | abandoned m => exact Bool.noConfusion h
  | atHead => rfl
  | getting => rfl
  | stopped => rfl

/-- A consumer has one task at a time. -/
theorem Consumer.holds_iff (h : c.holds n = true) (m : ℕ) : c.holds m = true ↔ m = n := by
  obtain ⟨queue, phase⟩ := c
  cases phase with
  | working k retries =>
    obtain rfl : k = n := of_decide_eq_true h
    exact decide_eq_true_iff.trans eq_comm
  | abandoned k =>
    obtain rfl : k = n := of_decide_eq_true h
    exact decide_eq_true_iff.trans eq_comm
  | atHead => exact Bool.noConfusion h
  | getting => exact Bool.noConfusion h
  | stopped => exact Bool.noConfusion h

theorem Consumer.busy_of_holds (h : c.holds n = true) : c.busy = true := by
  by_contra hfree
  rw [Consumer.not_holds (Bool.eq_false_iff.mpr hfree) n] at h
  exact Bool.noConfusion h

theorem Phase.agrees_of_free (h : (⟨queue, phase⟩ : Consumer).busy = false) (maxRetries : ℕ)
    (outcomes : List Outcome) : phase.Agrees maxRetries outcomes := by
  cases phase with
  | working m retries => exact Bool.noConfusion h
  | abandoned m => exact Bool.noConfusion h
  | atHead => trivial
  | getting => trivial
  | stopped => trivial

theorem takenFrom_take (s : MemoryTaskQueue) (i : ℕ) (queue : String) (n : ℕ) (rest : List ℕ)
    (other : String) : (s.take i queue n rest).takenFrom other =
      s.takenFrom other ++ if queue = other then [n] else [] := by
  by_cases hq : queue = other <;>
    simp [MemoryTaskQueue.takenFrom, MemoryTaskQueue.take, List.filter_append, hq]

theorem attemptsAt_append (s : MemoryTaskQueue) (n m : ℕ) (outcome : Outcome) :
    ((s.attempts ++ [(n, outcome)]).filter fun entry => entry.1 = m).map Prod.snd =
      s.attemptsAt m ++ if n = m then [outcome] else [] := by
  by_cases hn : n = m <;> simp [MemoryTaskQueue.attemptsAt, List.filter_append, hn]

theorem mem_takenFrom :
    n ∈ s.takenFrom queue ↔ ∃ taking ∈ s.taken, taking.queue = queue ∧ taking.task = n := by
  simp [MemoryTaskQueue.takenFrom, and_assoc]

theorem attemptsAt_eq_nil (h : ∀ taking ∈ s.taken, taking.task ≠ n)
    (hfirst : ∀ entry ∈ s.attempts, ∃ taking ∈ s.taken, taking.task = entry.1) :
    s.attemptsAt n = [] := by
  rw [MemoryTaskQueue.attemptsAt, List.map_eq_nil_iff, List.filter_eq_nil_iff]
  intro entry hentry heq
  obtain ⟨taking, htaken, htask⟩ := hfirst entry hentry
  obtain rfl : entry.1 = n := by simpa using heq
  exact h taking htaken htask

/-- A number stands for one task, of one queue. -/
theorem queue_unique {queue' : String} {task task' : Task}
    (h : s.sent[n]? = some (queue, task)) (h' : s.sent[n]? = some (queue', task')) :
    queue = queue' :=
  congrArg Prod.fst (Option.some.inj (h.symm.trans h'))

theorem QueueLaw.sent_of_waiting (h : QueueLaw s) (hn : n ∈ s.queues queue) :
    ∃ task, s.sent[n]? = some (queue, task) :=
  mem_numbers.mp (h.inOrder queue ▸ List.mem_append_right _ hn)

theorem QueueLaw.sent_of_taken (h : QueueLaw s) (hn : n ∈ s.takenFrom queue) :
    ∃ task, s.sent[n]? = some (queue, task) :=
  mem_numbers.mp (h.inOrder queue ▸ List.mem_append_left _ hn)

/-- What waits was never taken. -/
theorem QueueLaw.not_taken (h : QueueLaw s) (hn : n ∈ s.queues queue) {taking : Taking}
    (htaken : taking ∈ s.taken) : taking.task ≠ n := by
  intro htask
  have hfrom : n ∈ s.takenFrom taking.queue := mem_takenFrom.mpr ⟨taking, htaken, rfl, htask⟩
  obtain ⟨task, hsent⟩ := h.sent_of_waiting hn
  obtain ⟨task', hsent'⟩ := h.sent_of_taken hfrom
  obtain rfl : taking.queue = queue := queue_unique hsent' hsent
  have hnodup : (s.takenFrom taking.queue ++ s.queues taking.queue).Nodup :=
    h.inOrder _ ▸ nodup_numbers ..
  exact (List.nodup_append.mp hnodup).2.2 n hfrom n hn rfl

theorem QueueLaw.untried (h : QueueLaw s) (hn : n ∈ s.queues queue) : s.attemptsAt n = [] :=
  attemptsAt_eq_nil (fun _ htaken => h.not_taken hn htaken) h.takenFirst

/-- What a consumer has is neither waiting nor done. -/
theorem QueueLaw.of_holds (h : QueueLaw s) (hc : c ∈ s.consumers) (hn : c.holds n = true) :
    n ∉ s.queues c.queue ∧ n ∉ s.done ∧ s.consumers.countP (Consumer.holds n) = 1 := by
  obtain ⟨task, hsent⟩ := h.owned c hc n hn
  have hlaw := h.conserved n c.queue task hsent
  have hpos : 0 < s.consumers.countP (Consumer.holds n) := List.countP_pos_iff.mpr ⟨c, hc, hn⟩
  refine ⟨?_, ?_, by omega⟩
  · exact List.count_eq_zero.mp (by omega)
  · exact List.count_eq_zero.mp (by omega)

theorem QueueLaw.taken_of_holds (h : QueueLaw s) (hc : c ∈ s.consumers) (hn : c.holds n = true) :
    ∃ taking ∈ s.taken, taking.task = n := by
  obtain ⟨task, hsent⟩ := h.owned c hc n hn
  have hnumber : n ∈ s.takenFrom c.queue ++ s.queues c.queue :=
    h.inOrder c.queue ▸ mem_numbers.mpr ⟨task, hsent⟩
  rcases List.mem_append.mp hnumber with htaken | hwaits
  · obtain ⟨taking, hmem, -, htask⟩ := mem_takenFrom.mp htaken
    exact ⟨taking, hmem, htask⟩
  · exact absurd hwaits (h.of_holds hc hn).1

/-! ### What the operations keep -/

theorem queueLaw_initial : QueueLaw {} where
  inOrder _ := rfl
  conserved n queue task h := by simp at h
  owned c h := by simp at h
  takenFirst entry h := by simp at h
  tried c h := by simp at h
  settled n h := by simp at h
  counted _ := rfl

theorem QueueLaw.shutdown (h : QueueLaw s) : QueueLaw s.shutdown := { h with }

theorem QueueLaw.registerWorker (h : QueueLaw s) (queue : String) :
    QueueLaw (s.registerWorker queue) where
  inOrder := h.inOrder
  conserved n other task hsent := by
    have hcount : (s.registerWorker queue).consumers.countP (Consumer.holds n) =
        s.consumers.countP (Consumer.holds n) := by
      simp [MemoryTaskQueue.registerWorker, Consumer.holds]
    rw [hcount]
    exact h.conserved n other task hsent
  owned c hc n hn := by
    rcases List.mem_append.mp hc with hc | hc
    · exact h.owned c hc n hn
    · obtain rfl := List.mem_singleton.mp hc
      exact Bool.noConfusion hn
  takenFirst := h.takenFirst
  tried c hc n hn := by
    rcases List.mem_append.mp hc with hc | hc
    · exact h.tried c hc n hn
    · obtain rfl := List.mem_singleton.mp hc
      exact Bool.noConfusion hn
  settled := h.settled
  counted other := by
    have hcount : ((s.registerWorker queue).consumers.countP fun c => c.queue = other && c.busy) =
        s.consumers.countP fun c => c.queue = other && c.busy := by
      simp [MemoryTaskQueue.registerWorker, Consumer.busy]
    rw [hcount]
    exact h.counted other

/-- What was sent before keeps its number. -/
theorem getElem?_send {task : Task} (hsent : s.sent[n]? = some (queue, task))
    (new : String × Task) : (s.sent ++ [new])[n]? = some (queue, task) := by
  obtain ⟨hlt, -⟩ := List.getElem?_eq_some_iff.mp hsent
  rw [List.getElem?_append_left hlt, hsent]

theorem maxRetries_send (s : MemoryTaskQueue) (queue : String) (task : Task)
    (hn : n < s.sent.length) : (s.send queue task).maxRetries n = s.maxRetries n := by
  unfold MemoryTaskQueue.maxRetries MemoryTaskQueue.send
  dsimp only
  rw [List.getElem?_append_left hn]

theorem QueueLaw.send (h : QueueLaw s) (queue : String) (task : Task) :
    QueueLaw (s.send queue task) where
  inOrder other := by
    change s.takenFrom other ++ Function.update s.queues queue _ other = _
    rw [MemoryTaskQueue.send, numbers_append, ← h.inOrder other]
    by_cases hq : queue = other
    · subst hq
      simp
    · simp [hq, Function.update_of_ne (Ne.symm hq)]
  conserved n other task' hsent := by
    change (Function.update s.queues queue (s.queues queue ++ [s.sent.length]) other).count n +
      s.consumers.countP (Consumer.holds n) + s.done.count n = 1
    have hheld : ∀ c ∈ s.consumers, ∀ m, c.holds m = true → m < s.sent.length := by
      intro c hc m hm
      obtain ⟨_, hsent'⟩ := h.owned c hc m hm
      exact (List.getElem?_eq_some_iff.mp hsent').1
    rcases Nat.lt_or_ge n s.sent.length with hlt | hge
    · have hold : s.sent[n]? = some (other, task') := by
        rw [← List.getElem?_append_left hlt]
        exact hsent
      have hlaw := h.conserved n other task' hold
      by_cases hq : queue = other
      · subst hq
        rw [Function.update_self, List.count_append]
        have hne : [s.sent.length].count n = 0 := by
          rw [List.count_eq_zero, List.mem_singleton]
          omega
        omega
      · rw [Function.update_of_ne (Ne.symm hq)]
        exact hlaw
    · -- the task sent just now, of which nothing is known yet
      obtain ⟨hlt, heq⟩ := List.getElem?_eq_some_iff.mp hsent
      have hlength : (s.sent ++ [(queue, task)]).length = s.sent.length + 1 := by simp
      obtain rfl : n = s.sent.length := by
        have : n < (s.sent ++ [(queue, task)]).length := hlt
        omega
      obtain rfl : queue = other := by
        have : (s.sent ++ [(queue, task)])[s.sent.length]? = some (other, task') := hsent
        rw [List.getElem?_concat_length] at this
        exact congrArg Prod.fst (Option.some.inj this)
      have hqueue : (s.queues queue).count s.sent.length = 0 := by
        rw [List.count_eq_zero]
        intro hmem
        obtain ⟨_, hsent'⟩ := h.sent_of_waiting hmem
        exact absurd (List.getElem?_eq_some_iff.mp hsent').1 (by omega)
      have hnone : s.consumers.countP (Consumer.holds s.sent.length) = 0 := by
        rw [List.countP_eq_zero]
        intro c hc hholds
        exact absurd (hheld c hc _ hholds) (by omega)
      have hdone : s.done.count s.sent.length = 0 := by
        rw [List.count_eq_zero]
        intro hmem
        exact absurd (h.settled _ hmem).1 (by omega)
      rw [Function.update_self, List.count_append, hqueue, hnone, hdone, List.count_singleton_self]
  owned c hc n hn := by
    obtain ⟨task', hsent⟩ := h.owned c hc n hn
    exact ⟨task', getElem?_send hsent _⟩
  takenFirst := h.takenFirst
  tried c hc n hn := by
    obtain ⟨_, hsent⟩ := h.owned c hc n hn
    rw [maxRetries_send s queue task (List.getElem?_eq_some_iff.mp hsent).1]
    exact h.tried c hc n hn
  settled n hn := by
    obtain ⟨hlt, hsettled⟩ := h.settled n hn
    rw [maxRetries_send s queue task hlt]
    refine ⟨?_, hsettled⟩
    change n < (s.sent ++ [(queue, task)]).length
    simp only [List.length_append]
    omega
  counted other := by
    change Function.update s.unfinished queue _ other =
      (Function.update s.queues queue _ other).length + _
    have hlaw := h.counted other
    by_cases hq : queue = other
    · subst hq
      simp only [Function.update_self, List.length_append, List.length_singleton]
      change s.unfinished queue + 1 = (s.queues queue).length + 1 +
        s.consumers.countP fun c => c.queue = queue && c.busy
      omega
    · simp only [Function.update_of_ne (Ne.symm hq)]
      exact hlaw

theorem QueueLaw.setPhase (h : QueueLaw s) (hc : s.consumers[i]? = some c) (hfree : c.busy = false)
    (hphase : (⟨c.queue, phase⟩ : Consumer).busy = false) :
    QueueLaw (s.setPhase i c.queue phase) where
  inOrder := h.inOrder
  conserved n other task hsent := by
    have hcount := countP_set_add (Consumer.holds n) ⟨c.queue, phase⟩ hc
    rw [Consumer.not_holds hfree n, Consumer.not_holds hphase n] at hcount
    have hlaw := h.conserved n other task hsent
    change (s.queues other).count n +
      (s.consumers.set i ⟨c.queue, phase⟩).countP (Consumer.holds n) + s.done.count n = 1
    omega
  owned c' hc' n hn := by
    rcases List.mem_or_eq_of_mem_set hc' with hc' | rfl
    · exact h.owned c' hc' n hn
    · rw [Consumer.not_holds hphase n] at hn
      exact Bool.noConfusion hn
  takenFirst := h.takenFirst
  tried c' hc' n hn := by
    rcases List.mem_or_eq_of_mem_set hc' with hc' | rfl
    · exact h.tried c' hc' n hn
    · exact Phase.agrees_of_free hphase _ _
  settled := h.settled
  counted other := by
    have hcount := countP_set_add (fun c => c.queue = other && c.busy) ⟨c.queue, phase⟩ hc
    simp only [hfree, hphase, Bool.and_false] at hcount
    have hlaw := h.counted other
    change s.unfinished other = (s.queues other).length +
      (s.consumers.set i ⟨c.queue, phase⟩).countP fun c => c.queue = other && c.busy
    omega

theorem QueueLaw.take {rest : List ℕ} (h : QueueLaw s) (hc : s.consumers[i]? = some c)
    (hfree : c.busy = false) (hqueue : s.queues c.queue = n :: rest) :
    QueueLaw (s.take i c.queue n rest) := by
  have hwaits : n ∈ s.queues c.queue := hqueue ▸ List.mem_cons_self
  obtain ⟨task, hsent⟩ := h.sent_of_waiting hwaits
  have hnotDone : s.done.count n = 0 := by
    have hlaw := h.conserved n c.queue task hsent
    rw [hqueue, List.count_cons_self] at hlaw
    omega
  exact
  { inOrder := by
      intro other
      change (s.take i c.queue n rest).takenFrom other ++
        Function.update s.queues c.queue rest other = numbers s.sent other
      rw [takenFrom_take, ← h.inOrder other]
      by_cases hq : c.queue = other
      · subst hq
        simp [hqueue]
      · simp [hq, Function.update_of_ne (Ne.symm hq)]
    conserved := by
      intro m other task' hsent'
      have hcount := countP_set_add (Consumer.holds m) ⟨c.queue, .working n 0⟩ hc
      rw [Consumer.not_holds hfree m] at hcount
      have hlaw := h.conserved m other task' hsent'
      change (Function.update s.queues c.queue rest other).count m +
        (s.consumers.set i ⟨c.queue, .working n 0⟩).countP (Consumer.holds m) + s.done.count m = 1
      by_cases hm : n = m
      · subst hm
        -- the task leaves its queue for the consumer
        obtain rfl : other = c.queue := queue_unique hsent' hsent
        have hholds : Consumer.holds n ⟨c.queue, .working n 0⟩ = true := decide_eq_true rfl
        rw [hholds] at hcount
        rw [hqueue, List.count_cons_self] at hlaw
        rw [Function.update_self]
        simp only [Bool.false_eq_true, if_false, if_true] at hcount
        omega
      · have hholds : Consumer.holds m ⟨c.queue, .working n 0⟩ = false := decide_eq_false hm
        rw [hholds] at hcount
        have hrest : (Function.update s.queues c.queue rest other).count m =
            (s.queues other).count m := by
          by_cases hq : c.queue = other
          · subst hq
            rw [Function.update_self, hqueue, List.count_cons_of_ne hm]
          · rw [Function.update_of_ne (Ne.symm hq)]
        omega
    owned := by
      intro c' hc' m hm
      rcases List.mem_or_eq_of_mem_set hc' with hc' | rfl
      · exact h.owned c' hc' m hm
      · obtain rfl : n = m := of_decide_eq_true hm
        exact ⟨task, hsent⟩
    takenFirst := by
      intro entry hentry
      obtain ⟨taking, hmem, htask⟩ := h.takenFirst entry hentry
      exact ⟨taking, List.mem_append_left _ hmem, htask⟩
    tried := by
      intro c' hc' m hm
      rcases List.mem_or_eq_of_mem_set hc' with hc' | rfl
      · exact h.tried c' hc' m hm
      · obtain rfl : n = m := of_decide_eq_true hm
        have hnone : (s.take i c.queue n rest).attemptsAt n = [] := h.untried hwaits
        rw [hnone]
        exact ⟨fun _ hmem => absurd hmem List.not_mem_nil, rfl, Nat.zero_le _⟩
    settled := h.settled
    counted := by
      intro other
      have hcount := countP_set_add (fun c => c.queue = other && c.busy)
        ⟨c.queue, .working n 0⟩ hc
      have hlaw := h.counted other
      change s.unfinished other = (Function.update s.queues c.queue rest other).length +
        (s.consumers.set i ⟨c.queue, .working n 0⟩).countP fun c => c.queue = other && c.busy
      by_cases hq : c.queue = other
      · subst hq
        rw [hqueue, List.length_cons] at hlaw
        rw [Function.update_self]
        have hbusy : Consumer.busy ⟨c.queue, .working n 0⟩ = true := rfl
        simp only [hfree, hbusy, decide_true, Bool.and_false, Bool.and_true, Bool.false_eq_true,
          if_false, if_true] at hcount
        omega
      · rw [Function.update_of_ne (Ne.symm hq)]
        simp only [hq, decide_false, Bool.false_and] at hcount
        omega }

/-- An attempt at a task is over, and the consumer still has it. -/
theorem QueueLaw.attempted {outcome : Outcome} (h : QueueLaw s) (hc : s.consumers[i]? = some c)
    (hholds : c.holds n = true) (hnext : (⟨c.queue, phase⟩ : Consumer).holds n = true)
    (hagrees : phase.Agrees (s.maxRetries n) (s.attemptsAt n ++ [outcome])) :
    QueueLaw (s.attempted i c.queue n outcome phase) := by
  have hmem : c ∈ s.consumers := List.mem_of_getElem? hc
  obtain ⟨task, hsent⟩ := h.owned c hmem n hholds
  obtain ⟨-, hnotDone, hone⟩ := h.of_holds hmem hholds
  have hattempts : ∀ m, (s.attempted i c.queue n outcome phase).attemptsAt m =
      s.attemptsAt m ++ if n = m then [outcome] else [] :=
    fun m => attemptsAt_append s n m outcome
  have honly : ∀ m, (⟨c.queue, phase⟩ : Consumer).holds m = c.holds m := fun m =>
    Bool.eq_iff_iff.mpr ((Consumer.holds_iff hnext m).trans (Consumer.holds_iff hholds m).symm)
  have hcount : ∀ m, (s.consumers.set i ⟨c.queue, phase⟩).countP (Consumer.holds m) =
      s.consumers.countP (Consumer.holds m) := by
    intro m
    have hset := countP_set_add (Consumer.holds m) ⟨c.queue, phase⟩ hc
    rw [honly m] at hset
    omega
  exact
  { inOrder := h.inOrder
    conserved := by
      intro m other task' hsent'
      change _ + (s.consumers.set i ⟨c.queue, phase⟩).countP (Consumer.holds m) + _ = 1
      rw [hcount m]
      exact h.conserved m other task' hsent'
    owned := by
      intro c' hc' m hm
      rcases List.mem_or_eq_of_mem_set hc' with hc' | rfl
      · exact h.owned c' hc' m hm
      · exact h.owned c hmem m (honly m ▸ hm)
    takenFirst := by
      intro entry hentry
      rcases List.mem_append.mp hentry with hentry | hentry
      · exact h.takenFirst entry hentry
      · obtain rfl := List.mem_singleton.mp hentry
        exact h.taken_of_holds hmem hholds
    tried := by
      intro c' hc' m hm
      rw [hattempts m]
      have hset : (⟨c.queue, phase⟩ : Consumer) ∈ s.consumers.set i ⟨c.queue, phase⟩ :=
        List.mem_set (List.getElem?_eq_some_iff.mp hc).1 _
      by_cases hn : n = m
      · -- the task of this attempt, which no other consumer has
        subst hn
        obtain rfl := Table.eq_of_countP_eq_one ((hcount n).trans hone) hc' hm hset hnext
        rw [if_pos rfl]
        exact hagrees
      · rw [if_neg hn, List.append_nil]
        rcases List.mem_or_eq_of_mem_set hc' with hc' | rfl
        · exact h.tried c' hc' m hm
        · exact absurd ((Consumer.holds_iff hnext m).mp hm).symm hn
    settled := by
      intro m hm
      have hne : n ≠ m := fun heq => hnotDone (heq ▸ hm)
      rw [hattempts m, if_neg hne, List.append_nil]
      exact h.settled m hm
    counted := by
      intro other
      have hset := countP_set_add (fun c => c.queue = other && c.busy) ⟨c.queue, phase⟩ hc
      simp only [Consumer.busy_of_holds hnext, Consumer.busy_of_holds hholds] at hset
      have hlaw := h.counted other
      change s.unfinished other = (s.queues other).length +
        (s.consumers.set i ⟨c.queue, phase⟩).countP fun c => c.queue = other && c.busy
      omega }

/-- The last attempt at a task is over. -/
theorem QueueLaw.settle {outcome : Outcome} (h : QueueLaw s) (hc : s.consumers[i]? = some c)
    (hholds : c.holds n = true)
    (hsettled : Settled (s.maxRetries n) (s.attemptsAt n ++ [outcome])) :
    QueueLaw (s.settle i c.queue n outcome) := by
  have hmem : c ∈ s.consumers := List.mem_of_getElem? hc
  obtain ⟨task, hsent⟩ := h.owned c hmem n hholds
  obtain ⟨-, hnotDone, hone⟩ := h.of_holds hmem hholds
  have hattempts : ∀ m, (s.settle i c.queue n outcome).attemptsAt m =
      s.attemptsAt m ++ if n = m then [outcome] else [] :=
    fun m => attemptsAt_append s n m outcome
  have hfree : (⟨c.queue, .atHead⟩ : Consumer).busy = false := rfl
  -- the consumer gives the task up, and no other one has had it
  have hcount : ∀ m, (s.consumers.set i ⟨c.queue, .atHead⟩).countP (Consumer.holds m) +
      (if n = m then 1 else 0) = s.consumers.countP (Consumer.holds m) := by
    intro m
    have hset := countP_set_add (Consumer.holds m) ⟨c.queue, .atHead⟩ hc
    simp only [Consumer.not_holds hfree m, Consumer.holds_iff hholds m, Bool.false_eq_true,
      if_false, eq_comm (a := m)] at hset
    omega
  exact
  { inOrder := h.inOrder
    conserved := by
      intro m other task' hsent'
      have hlaw := h.conserved m other task' hsent'
      have hset := hcount m
      change (s.queues other).count m +
        (s.consumers.set i ⟨c.queue, .atHead⟩).countP (Consumer.holds m) +
          (s.done ++ [n]).count m = 1
      rw [List.count_append, List.count_singleton]
      simp only [beq_iff_eq]
      omega
    owned := by
      intro c' hc' m hm
      rcases List.mem_or_eq_of_mem_set hc' with hc' | rfl
      · exact h.owned c' hc' m hm
      · rw [Consumer.not_holds hfree m] at hm
        exact Bool.noConfusion hm
    takenFirst := by
      intro entry hentry
      rcases List.mem_append.mp hentry with hentry | hentry
      · exact h.takenFirst entry hentry
      · obtain rfl := List.mem_singleton.mp hentry
        exact h.taken_of_holds hmem hholds
    tried := by
      intro c' hc' m hm
      rw [hattempts m]
      have hne : n ≠ m := by
        rintro rfl
        have hpos : 0 < (s.consumers.set i ⟨c.queue, .atHead⟩).countP (Consumer.holds n) :=
          List.countP_pos_iff.mpr ⟨c', hc', hm⟩
        have hset := hcount n
        rw [if_pos rfl] at hset
        omega
      rw [if_neg hne, List.append_nil]
      rcases List.mem_or_eq_of_mem_set hc' with hc' | rfl
      · exact h.tried c' hc' m hm
      · exact Phase.agrees_of_free hfree _ _
    settled := by
      intro m hm
      rw [hattempts m]
      by_cases hn : n = m
      · subst hn
        rw [if_pos rfl]
        exact ⟨(List.getElem?_eq_some_iff.mp hsent).1, hsettled⟩
      · rw [if_neg hn, List.append_nil]
        rcases List.mem_append.mp hm with hm | hm
        · exact h.settled m hm
        · exact absurd (List.mem_singleton.mp hm).symm hn
    counted := by
      intro other
      have hset := countP_set_add (fun c => c.queue = other && c.busy) ⟨c.queue, .atHead⟩ hc
      have hlaw := h.counted other
      change Function.update s.unfinished c.queue (s.unfinished c.queue - 1) other =
        (s.queues other).length +
          (s.consumers.set i ⟨c.queue, .atHead⟩).countP fun c => c.queue = other && c.busy
      simp only [hfree, Consumer.busy_of_holds hholds, Bool.and_false, Bool.and_true,
        Bool.false_eq_true, if_false, decide_eq_true_eq] at hset
      by_cases hq : c.queue = other
      · subst hq
        rw [if_pos rfl] at hset
        rw [Function.update_self]
        omega
      · rw [if_neg hq] at hset
        rw [Function.update_of_ne (Ne.symm hq)]
        omega }

theorem QueueLaw.loopHead (h : QueueLaw s) (hc : s.consumers[i]? = some c)
    (hfree : c.busy = false) : QueueLaw (s.loopHead i c.queue) := by
  unfold MemoryTaskQueue.loopHead
  split
  · split
    · exact h.setPhase hc hfree rfl
    · next n rest hqueue => exact h.take hc hfree hqueue
  · exact h.setPhase hc hfree rfl

theorem getElem?_settle {outcome : Outcome} (hc : s.consumers[i]? = some c) :
    (s.settle i c.queue n outcome).consumers[i]? = some ⟨c.queue, .atHead⟩ :=
  List.getElem?_set_self (List.getElem?_eq_some_iff.mp hc).1

/-- The last attempt is over, and the consumer looks for another task. -/
theorem QueueLaw.settle_loopHead {outcome : Outcome} (h : QueueLaw s)
    (hc : s.consumers[i]? = some c) (hholds : c.holds n = true)
    (hsettled : Settled (s.maxRetries n) (s.attemptsAt n ++ [outcome])) :
    QueueLaw ((s.settle i c.queue n outcome).loopHead i c.queue) :=
  (h.settle hc hholds hsettled).loopHead (c := ⟨c.queue, .atHead⟩) (getElem?_settle hc) rfl

theorem Failing.snoc {outcomes : List Outcome} {outcome : Outcome} (h : Failing outcomes)
    (houtcome : outcome.failed = true) : Failing (outcomes ++ [outcome]) := by
  intro other hmem
  rcases List.mem_append.mp hmem with hmem | hmem
  · exact h other hmem
  · rw [List.mem_singleton.mp hmem]
    exact houtcome

/-- An attempt that failed is followed by another one or is the last. -/
theorem QueueLaw.failed {outcome : Outcome} (h : QueueLaw s)
    (hc : s.consumers[i]? = some ⟨queue, .working n retries⟩) (houtcome : outcome.failed = true) :
    QueueLaw (if retries + 1 ≤ s.maxRetries n then
      s.attempted i queue n outcome (.working n (retries + 1))
    else (s.settle i queue n outcome).loopHead i queue) := by
  have hholds : Consumer.holds n ⟨queue, .working n retries⟩ = true := decide_eq_true rfl
  obtain ⟨hfailing, hlength, hle⟩ := h.tried _ (List.mem_of_getElem? hc) n hholds
  have hsnoc := hfailing.snoc houtcome
  split
  · next hretry =>
    refine h.attempted hc hholds (decide_eq_true rfl) ⟨hsnoc, ?_, hretry⟩
    rw [List.length_append, List.length_singleton, hlength]
  · next hretry =>
    refine h.settle_loopHead hc hholds (.exhausted _ hsnoc ?_)
    rw [List.length_append, List.length_singleton, hlength]
    omega

theorem QueueLaw.attempt {outcome : Outcome} {s' : MemoryTaskQueue} (h : QueueLaw s)
    (hstep : step s (.attempt i outcome) = some s') : QueueLaw s' := by
  simp only [step] at hstep
  split at hstep
  · next queue n retries hc =>
    have hholds : Consumer.holds n ⟨queue, .working n retries⟩ = true := decide_eq_true rfl
    obtain ⟨hfailing, hlength, hle⟩ := h.tried _ (List.mem_of_getElem? hc) n hholds
    cases outcome with
    | returned =>
      obtain rfl := Option.some.inj hstep
      exact h.settle_loopHead hc hholds (.succeeded _ hfailing (hlength ▸ hle))
    | cancelled =>
      obtain rfl := Option.some.inj hstep
      exact h.attempted hc hholds (decide_eq_true rfl) ⟨_, hfailing, hlength ▸ hle, rfl⟩
    | timedOut =>
      obtain rfl := Option.some.inj hstep
      exact h.failed hc rfl
    | raised =>
      obtain rfl := Option.some.inj hstep
      exact h.failed hc rfl
  · cases hstep

theorem QueueLaw.resume {s' : MemoryTaskQueue} (h : QueueLaw s)
    (hstep : step s (.resume i) = some s') : QueueLaw s' := by
  simp only [step] at hstep
  split at hstep
  · next queue hc =>
    obtain rfl := Option.some.inj hstep
    exact h.loopHead hc rfl
  · next queue hc =>
    split at hstep
    · cases hstep
    · next n rest hqueue =>
      obtain rfl := Option.some.inj hstep
      exact h.take (c := ⟨queue, .getting⟩) hc rfl hqueue
  · cases hstep

theorem QueueLaw.cancel {s' : MemoryTaskQueue} (h : QueueLaw s)
    (hstep : step s (.cancel i) = some s') : QueueLaw s' := by
  simp only [step] at hstep
  split at hstep
  · next queue hc =>
    obtain rfl := Option.some.inj hstep
    exact h.setPhase hc rfl rfl
  · next queue hc =>
    obtain rfl := Option.some.inj hstep
    exact h.setPhase hc rfl rfl
  · cases hstep

theorem QueueLaw.step {event : Event} {s' : MemoryTaskQueue} (h : QueueLaw s)
    (hstep : step s event = some s') : QueueLaw s' := by
  cases event with
  | send queue task => exact Option.some.inj hstep ▸ h.send queue task
  | registerWorker queue => exact Option.some.inj hstep ▸ h.registerWorker queue
  | resume i => exact h.resume hstep
  | attempt i outcome => exact h.attempt hstep
  | cancel i => exact h.cancel hstep
  | shutdown => exact Option.some.inj hstep ▸ h.shutdown

end Law

/-- **The law of the queue**, in every reachable state: each queue hands its tasks out in the order
they were sent, each to one consumer; a task that was sent waits, is with a consumer (which may have
been cancelled in an attempt at it) or is done, and never twice; one that is done was attempted
until an attempt succeeded, or `max_retries + 1` times. -/
theorem queue_law {s : MemoryTaskQueue} (h : Reachable s) : QueueLaw s :=
  h.induction queueLaw_initial fun _ _ _ _ hlaw hstep => hlaw.step hstep

/-- A task that times out once and then succeeds, and another one that is left waiting. -/
def retriedRun : List Event :=
  [.registerWorker "mail", .resume 0, .send "mail" ⟨"first", 1⟩, .resume 0, .attempt 0 .timedOut,
    .send "mail" ⟨"second", 0⟩, .attempt 0 .returned, .registerWorker "mail", .resume 1]

def afterRetry : MemoryTaskQueue := (retriedRun.foldlM step {}).getD {}

theorem reachable_afterRetry : Reachable afterRetry := ⟨retriedRun, rfl⟩

theorem queue_law_afterRetry :
    (afterRetry.done = [0] ∧ afterRetry.attemptsAt 0 = [.timedOut, .returned]) ∧
      QueueLaw afterRetry :=
  ⟨⟨rfl, rfl⟩, queue_law reachable_afterRetry⟩

/-! ## Shutdown -/

/-- From `s` on, the consumers took these tasks, and went on to `d`. -/
structure Stopped (s d : MemoryTaskQueue) (new : List Taking) : Prop where
  stays : d.running = false
  taken : d.taken = s.taken ++ new
  /-- Each consumer took one task at most. -/
  once : (new.map Taking.consumer).Nodup
  /-- It awaited `q.get()` in `s`, on the queue it took the task from. -/
  awaited : ∀ taking ∈ new, s.consumers[taking.consumer]? = some ⟨taking.queue, .getting⟩
  /-- Those that still await `q.get()` have done so since, and took nothing. -/
  awaits : ∀ i queue, d.consumers[i]? = some ⟨queue, .getting⟩ →
    s.consumers[i]? = some ⟨queue, .getting⟩ ∧ i ∉ new.map Taking.consumer

section Stopped

variable {s d d' : MemoryTaskQueue} {new : List Taking} {i n : ℕ} {queue : String} {phase : Phase}

theorem stopped_self (hstopped : s.running = false) : Stopped s s [] where
  stays := hstopped
  taken := (List.append_nil _).symm
  once := List.nodup_nil
  awaited _ h := absurd h List.not_mem_nil
  awaits _ _ h := ⟨h, List.not_mem_nil⟩

/-- A consumer that was given a phase in which it does not await `q.get()` is not among those that
do, the others are as before. -/
theorem Stopped.set (h : Stopped s d new) (hphase : phase ≠ .getting) (hstays : d'.running = false)
    (htaken : d'.taken = d.taken) (hset : d'.consumers = d.consumers.set i ⟨queue, phase⟩) :
    Stopped s d' new where
  stays := hstays
  taken := htaken.trans h.taken
  once := h.once
  awaited := h.awaited
  awaits j other hj := by
    rw [hset, List.getElem?_set] at hj
    split at hj
    · split at hj
      · exact absurd (congrArg Consumer.phase (Option.some.inj hj)) hphase
      · cases hj
    · exact h.awaits j other hj

theorem Stopped.setPhase (h : Stopped s d new) (i : ℕ) (queue : String)
    (hphase : phase ≠ .getting) :
    Stopped s (d.setPhase i queue phase) new :=
  h.set hphase h.stays rfl rfl

theorem Stopped.attempted (h : Stopped s d new) (i : ℕ) (queue : String) (n : ℕ)
    (outcome : Outcome) (hphase : phase ≠ .getting) :
    Stopped s (d.attempted i queue n outcome phase) new :=
  h.set hphase h.stays rfl rfl

/-- At the head of its loop a consumer sees the shutdown. -/
theorem Stopped.loopHead (h : Stopped s d new) (i : ℕ) (queue : String) :
    Stopped s (d.loopHead i queue) new := by
  rw [MemoryTaskQueue.loopHead, h.stays]
  exact h.setPhase i queue Phase.noConfusion

theorem Stopped.settle_loopHead (h : Stopped s d new) (i : ℕ) (queue : String) (n : ℕ)
    (outcome : Outcome) : Stopped s ((d.settle i queue n outcome).loopHead i queue) new := by
  have hsettle : Stopped s (d.settle i queue n outcome) new :=
    have hphase : Phase.atHead ≠ .getting := Phase.noConfusion
    h.set hphase h.stays rfl rfl
  exact hsettle.loopHead i queue

theorem Stopped.failed (h : Stopped s d new) (i : ℕ) (queue : String) (n retries : ℕ)
    (outcome : Outcome) : Stopped s (if retries + 1 ≤ d.maxRetries n then
      d.attempted i queue n outcome (.working n (retries + 1))
    else (d.settle i queue n outcome).loopHead i queue) new := by
  split
  · exact h.attempted i queue n outcome Phase.noConfusion
  · exact h.settle_loopHead i queue n outcome

/-- A consumer that awaits `q.get()` takes its task, and awaits no more. -/
theorem Stopped.take {rest : List ℕ} (h : Stopped s d new)
    (hc : d.consumers[i]? = some ⟨queue, .getting⟩) :
    Stopped s (d.take i queue n rest) (new ++ [⟨i, queue, n⟩]) := by
  obtain ⟨hawaited, hfresh⟩ := h.awaits i queue hc
  exact
  { stays := h.stays
    taken := by
      change d.taken ++ [_] = _
      rw [h.taken, List.append_assoc]
    once := by
      rw [List.map_append, List.map_singleton]
      exact List.nodup_append.mpr ⟨h.once, List.nodup_singleton _, fun j hj k hk => by
        rw [List.mem_singleton.mp hk]
        rintro rfl
        exact hfresh hj⟩
    awaited := by
      intro taking hmem
      rcases List.mem_append.mp hmem with hmem | hmem
      · exact h.awaited taking hmem
      · rw [List.mem_singleton.mp hmem]
        exact hawaited
    awaits := by
      intro j other hj
      change (d.consumers.set i ⟨queue, .working n 0⟩)[j]? = _ at hj
      rw [List.getElem?_set] at hj
      split at hj
      · split at hj <;> cases hj
      · next hne =>
        obtain ⟨hold, hnew⟩ := h.awaits j other hj
        refine ⟨hold, ?_⟩
        rw [List.map_append, List.map_singleton, List.mem_append, List.mem_singleton]
        rintro (hmem | heq)
        · exact hnew hmem
        · exact hne heq.symm }

theorem Stopped.registerWorker (h : Stopped s d new) (queue : String) :
    Stopped s (d.registerWorker queue) new :=
  { h with
    awaits := by
      intro j other hj
      change (d.consumers ++ [_])[j]? = _ at hj
      rw [List.getElem?_append] at hj
      split at hj
      · exact h.awaits j other hj
      · cases List.mem_singleton.mp (List.mem_of_getElem? hj) }

theorem Stopped.step {event : Event} (h : Stopped s d new) (hstep : step d event = some d') :
    ∃ new', Stopped s d' new' := by
  cases event with
  | send queue task => exact Option.some.inj hstep ▸ ⟨new, { h with }⟩
  | registerWorker queue => exact Option.some.inj hstep ▸ ⟨new, h.registerWorker queue⟩
  | shutdown => exact Option.some.inj hstep ▸ ⟨new, { h with stays := rfl }⟩
  | resume i =>
    simp only [Bus.step] at hstep
    split at hstep
    · next queue hc => exact Option.some.inj hstep ▸ ⟨new, h.loopHead i queue⟩
    · next queue hc =>
      split at hstep
      · cases hstep
      · exact Option.some.inj hstep ▸ ⟨_, h.take hc⟩
    · cases hstep
  | attempt i outcome =>
    simp only [Bus.step] at hstep
    split at hstep
    · next queue n retries hc =>
      cases outcome with
      | returned => exact Option.some.inj hstep ▸ ⟨new, h.settle_loopHead i queue n _⟩
      | cancelled =>
        exact Option.some.inj hstep ▸ ⟨new, h.attempted i queue n _ Phase.noConfusion⟩
      | timedOut => exact Option.some.inj hstep ▸ ⟨new, h.failed i queue n retries _⟩
      | raised => exact Option.some.inj hstep ▸ ⟨new, h.failed i queue n retries _⟩
    · cases hstep
  | cancel i =>
    simp only [Bus.step] at hstep
    split at hstep
    · next queue hc => exact Option.some.inj hstep ▸ ⟨new, h.setPhase i queue Phase.noConfusion⟩
    · next queue hc => exact Option.some.inj hstep ▸ ⟨new, h.setPhase i queue Phase.noConfusion⟩
    · cases hstep

end Stopped

/-- **The law of shutdown**: however long it runs on, a queue that was shut down stays so, and what
is taken from it since is taken by consumers that awaited `q.get()` then, each from its own queue
and each one task at most. No other consumer takes any, whether it had a task or was registered
later. -/
theorem stopped_law {s s' : MemoryTaskQueue} (hstopped : s.running = false)
    (hrun : Runs.Reaches step s s') :
    s'.running = false ∧ ∃ new, s'.taken = s.taken ++ new ∧ (new.map Taking.consumer).Nodup ∧
      ∀ taking ∈ new, s.consumers[taking.consumer]? = some ⟨taking.queue, .getting⟩ := by
  obtain ⟨new, h⟩ : ∃ new, Stopped s s' new := by
    refine hrun.induction (motive := fun d => ∃ new, Stopped s d new)
      ⟨[], stopped_self hstopped⟩ ?_
    rintro d event d' - ⟨new, hd⟩ hstep
    exact hd.step hstep
  exact ⟨h.stays, new, h.taken, h.once, h.awaited⟩

/-- After the shutdown the consumer that waits takes one task of the four, the one that works and
the one that is registered then none. -/
theorem stopped_law_afterRetry :
    ∃ s', Runs.Reaches step afterRetry.shutdown s' ∧
      afterRetry.consumers.map Consumer.phase = [.working 1 0, .getting] ∧
      s'.consumers.map Consumer.phase = [.stopped, .stopped, .stopped] ∧
      s'.queues "mail" = [3] ∧ s'.taken = afterRetry.taken ++ [⟨1, "mail", 2⟩] ∧
      ∃ new, s'.taken = afterRetry.taken ++ new ∧ (new.map Taking.consumer).Nodup ∧
        ∀ taking ∈ new,
          afterRetry.consumers[taking.consumer]? = some ⟨taking.queue, .getting⟩ := by
  have hrun : Runs.Reaches step afterRetry.shutdown _ :=
    ⟨[.send "mail" ⟨"third", 0⟩, .send "mail" ⟨"fourth", 0⟩, .registerWorker "mail",
      .attempt 0 .returned, .resume 2, .resume 1, .attempt 1 .raised], rfl⟩
  exact ⟨_, hrun, rfl, rfl, rfl, rfl, (stopped_law rfl hrun).2⟩

end Bus

import AiLabOs.Base.Assoc
import AiLabOs.Base.Json
import Mathlib.Algebra.Order.Ring.Rat
import Mathlib.Data.List.Basic

/-!
# Coordination: the message bus of the agents

Messages are queued by receiver, and a queue is handed out as a whole. A request sends its message
and only then, after the event of the message has been published, leaves a future for the response.
A response that comes in between finds no future, and a shutdown in between does not end the
request.

## Main definitions

* `MessageBus`: the bus, with the requests and the broadcasts under way
* `send`, `broadcast`, `respond`, `getMessages`, `shutdown`: the operations
* `step`, `runIf`: the events in any order, and the runs of events that meet a condition
* `Delivers`, `NotLeft`, `Answers`: what the bus should do
* `Event.meets`: when an event meets no request between its message and its future

## Main results

* `delivers_run`: in every run each message is handed out once or still queued, in order
* `bus_law`: the whole law, for the runs whose events meet no such request
-/

namespace Coordination

/-! ## Messages -/

inductive MessagePriority where
  | low
  | normal
  | high
  | urgent
deriving DecidableEq, Repr

structure AgentMessage where
  messageId : String
  sender : String := ""
  receiver : String := ""
  conversationId : String := ""
  messageType : String := "text"
  payload : List (String × Json) := []
  priority : MessagePriority := .normal
deriving DecidableEq

structure AgentMessageResponse where
  originalMessageId : String := ""
  responder : String := ""
  payload : List (String × Json) := []
  success : Bool := true
  error : String := ""
deriving DecidableEq

/-! ## The bus -/

/-- Where a request is: its message is being published; it waits for its future until a time; the
future has a response, was cancelled since the time ran out, or has the exception of a shutdown; the
request has removed the future; or it has ended with the exception of the publication. -/
inductive RequestPhase where
  | publishing
  | waiting (deadline : ℚ)
  | answered (response : AgentMessageResponse)
  | cancelled
  | timedOut
  | shutDown
  | raised
deriving DecidableEq

/-- A call of `request`, and whether there was a shutdown since. -/
structure AgentRequest where
  message : AgentMessage
  timeout : ℚ
  phase : RequestPhase := .publishing
  afterShutdown : Bool := false
deriving DecidableEq

/-- A call of `broadcast`: the message, and the receivers that it has not been sent to yet. -/
structure Broadcast where
  message : AgentMessage
  receivers : List String

/-- `AgentMessageBus`, the requests and the broadcasts so far, and the time. A future belongs to a
request, and is its number. What the calls of `get_messages` have returned is kept with the
agent. -/
structure MessageBus where
  messageHistory : List AgentMessage := []
  agentQueues : List (String × List AgentMessage) := []
  pendingResponses : List (String × ℕ) := []
  requests : List AgentRequest := []
  broadcasts : List Broadcast := []
  now : ℚ := 0
  handedOut : List (String × List AgentMessage) := []

namespace MessageBus

variable (b : MessageBus)

/-- `_agent_queues.get(agent_id, [])`. -/
def queue (agentId : String) : List AgentMessage := (Assoc.get b.agentQueues agentId).getD []

/-- `send`, up to the publication of its event. -/
def send (message : AgentMessage) : MessageBus :=
  { b with
    messageHistory := b.messageHistory ++ [message]
    agentQueues := if message.receiver = "" then b.agentQueues else
      Assoc.set b.agentQueues message.receiver (b.queue message.receiver ++ [message]) }

/-- A request in another phase. -/
def enter (i : ℕ) (phase : RequestPhase) : MessageBus :=
  { b with requests := b.requests.modify i fun r => { r with phase } }

/-- One turn of the loop of `broadcast`: the message is sent to the next receiver. -/
def sendNext (broadcast : Broadcast) (messageId : String) : MessageBus × Broadcast :=
  match broadcast.receivers with
  | [] => (b, broadcast)
  | receiver :: receivers =>
    (b.send { broadcast.message with messageId, receiver }, { broadcast with receivers })

/-- `broadcast`, up to the publication of its first message. -/
def broadcast (message : AgentMessage) (messageId : String) : MessageBus :=
  let receivers := (b.agentQueues.map Prod.fst).filter fun receiver => receiver ≠ message.sender
  let (b', rest) := b.sendNext ⟨message, receivers⟩ messageId
  { b' with broadcasts := b'.broadcasts ++ [rest] }

/-- The next turn of the loop of a broadcast. -/
def broadcastNext (k : ℕ) (messageId : String) : Option MessageBus :=
  (b.broadcasts[k]?).map fun entry =>
    let (b', rest) := b.sendNext entry messageId
    { b' with broadcasts := b'.broadcasts.set k rest }

/-- `request`, up to the publication of its message. -/
def request (message : AgentMessage) (timeout : ℚ) : MessageBus :=
  { b.send message with requests := b.requests ++ [{ message, timeout }] }

/-- The message of the request is published: its future is created, and it waits. -/
def register (i : ℕ) (r : AgentRequest) : MessageBus :=
  { b.enter i (if r.timeout ≤ 0 then .cancelled else .waiting (b.now + r.timeout)) with
    pendingResponses := Assoc.set b.pendingResponses r.message.messageId i }

/-- The future of a message that is not done yet. -/
def openFuture (messageId : String) : Option ℕ :=
  (Assoc.get b.pendingResponses messageId).filter fun i =>
    (b.requests[i]?).any fun r => match r.phase with
      | .waiting _ => true
      | _ => false

/-- The message that is sent for a response without a future. -/
def responseMessage (response : AgentMessageResponse) (messageId : String) : AgentMessage where
  messageId
  sender := response.responder
  messageType := "response"
  payload := [("response", .object response.payload), ("success", .bool response.success)]

/-- `respond`. -/
def respond (originalMessageId : String) (response : AgentMessageResponse) (messageId : String) :
    MessageBus :=
  let b' := { b with pendingResponses := Assoc.pop b.pendingResponses originalMessageId }
  match b.openFuture originalMessageId with
  | some i => b'.enter i (.answered response)
  | none => b'.send (responseMessage response messageId)

/-- `get_messages`: what is returned, and the bus. -/
def getMessages (agentId : String) : List AgentMessage × MessageBus :=
  (b.queue agentId, { b with
    agentQueues := Assoc.set b.agentQueues agentId []
    handedOut := b.handedOut ++ [(agentId, b.queue agentId)] })

/-- What `shutdown` does to the future `i`, if it is pending. -/
def endRequest (i : ℕ) (r : AgentRequest) : AgentRequest :=
  let phase := match r.phase with
    | .waiting deadline =>
      if i ∈ b.pendingResponses.map Prod.snd then .shutDown else .waiting deadline
    | phase => phase
  { r with phase, afterShutdown := true }

/-- `shutdown`. -/
def shutdown : MessageBus :=
  { b with requests := b.requests.mapIdx b.endRequest, pendingResponses := [] }

/-! ## Runs -/

/-- An event: a call begins, or goes on after the publication of an event; or the time goes on.
The identifiers of messages that the bus makes are given. -/
inductive Event where
  | send (message : AgentMessage)
  | broadcast (message : AgentMessage) (messageId : String)
  | broadcastNext (k : ℕ) (messageId : String)
  | request (message : AgentMessage) (timeout : ℚ)
  /-- The message of a request has been published. -/
  | register (i : ℕ)
  /-- The publication of the message of a request raises. -/
  | publishFails (i : ℕ)
  | respond (originalMessageId : String) (response : AgentMessageResponse) (messageId : String)
  | getMessages (agentId : String)
  | shutdown
  /-- The time of a request has run out. -/
  | timeOut (i : ℕ)
  /-- The request goes on after that. -/
  | resume (i : ℕ)
  /-- Time passes, as long as no request waits whose time has run out. -/
  | advance (d : ℚ)

/-- One event, if it can happen. -/
def step : Event → Option MessageBus
  | .send message => some (b.send message)
  | .broadcast message messageId => some (b.broadcast message messageId)
  | .broadcastNext k messageId => b.broadcastNext k messageId
  | .request message timeout => some (b.request message timeout)
  | .register i => (b.requests[i]?).bind fun r =>
    if r.phase = .publishing then some (b.register i r) else none
  | .publishFails i => (b.requests[i]?).bind fun r =>
    if r.phase = .publishing then some (b.enter i .raised) else none
  | .respond originalMessageId response messageId =>
    some (b.respond originalMessageId response messageId)
  | .getMessages agentId => some (b.getMessages agentId).2
  | .shutdown => some b.shutdown
  | .timeOut i => (b.requests[i]?).bind fun r => match r.phase with
    | .waiting deadline => if deadline ≤ b.now then some (b.enter i .cancelled) else none
    | _ => none
  | .resume i => (b.requests[i]?).bind fun r =>
    if r.phase = .cancelled then some { b.enter i .timedOut with
      pendingResponses := Assoc.pop b.pendingResponses r.message.messageId } else none
  | .advance d =>
    if 0 ≤ d ∧ (b.requests.all fun r => match r.phase with
      | .waiting deadline => b.now + d ≤ deadline
      | _ => true) = true then some { b with now := b.now + d } else none

/-- The bus after some events, if each of them can happen and meets the condition. -/
def runIf (ok : MessageBus → Event → Bool) : MessageBus → List Event → Option MessageBus
  | b, [] => some b
  | b, ev :: evs => if ok b ev then (b.step ev).bind fun b' => runIf ok b' evs else none

/-- The bus after some events. -/
abbrev run : MessageBus → List Event → Option MessageBus := runIf fun _ _ => true

/-! ## What the bus should do -/

/-- **Delivery**: what the calls of `get_messages` of an agent have returned, and its queue, are
the messages sent to it, in order. -/
def Delivers : Prop :=
  ∀ agentId, agentId ≠ "" →
    ((b.handedOut.filter fun entry => entry.1 = agentId).map Prod.snd).flatten ++ b.queue agentId =
      b.messageHistory.filter fun message => message.receiver = agentId

/-- **No request is left waiting** past its time, or past a shutdown. -/
def NotLeft : Prop :=
  ∀ r ∈ b.requests, ∀ deadline, r.phase = .waiting deadline →
    b.now ≤ deadline ∧ r.afterShutdown = false

end MessageBus

/-- The request is over: it was answered, or timed out, or was ended by a shutdown. -/
def RequestPhase.over : RequestPhase → Bool
  | .answered _ | .cancelled | .timedOut | .shutDown => true
  | _ => false

namespace MessageBus

/-- **A response is taken**: after `respond` the requests whose message it is for, and is in a
queue, have the response or were over. -/
def Answers (b : MessageBus) (ev : Event) (b' : MessageBus) : Prop :=
  ∀ originalMessageId response messageId, ev = .respond originalMessageId response messageId →
    ∀ (i : ℕ) (r : AgentRequest), b.requests[i]? = some r →
      r.message.messageId = originalMessageId → r.message.receiver ≠ "" →
      r.phase.over = true ∨ b'.requests[i]? = some { r with phase := .answered response }

/-! ## The condition -/

/-- The request has sent its message, and has no future. -/
def Unregistered (r : AgentRequest) : Bool := r.phase = .publishing || r.phase = .raised

/-- The future of the request may be among the pending ones. -/
def Registered (r : AgentRequest) : Bool :=
  match r.phase with
  | .waiting _ | .cancelled => true
  | _ => false

/-- **An event that meets no request between its message and its future**: no response comes for a
message in a queue whose request has none, and no request waits that there was a shutdown since it
began, or while there is a future for another request with its message. -/
def Event.meets (b : MessageBus) : Event → Bool
  | .respond originalMessageId _ _ => b.requests.all fun r =>
    !(r.message.messageId = originalMessageId && r.message.receiver ≠ "" && Unregistered r)
  | .register i => (b.requests[i]?).all fun r =>
    (r.timeout ≤ 0 || !r.afterShutdown) &&
      b.requests.all fun other =>
        !(other.message.messageId = r.message.messageId && Registered other)
  | _ => true

/-! ## What an event does -/

/-- **What an event does**, and when it can happen. -/
inductive Stepped (b : MessageBus) : Event → MessageBus → Prop
  | send (message : AgentMessage) : Stepped b (.send message) (b.send message)
  | broadcast (message : AgentMessage) (messageId : String) :
    Stepped b (.broadcast message messageId) (b.broadcast message messageId)
  | broadcastNext (k : ℕ) (messageId : String) (entry : Broadcast) :
    Stepped b (.broadcastNext k messageId)
      { (b.sendNext entry messageId).1 with
        broadcasts := (b.sendNext entry messageId).1.broadcasts.set k
          (b.sendNext entry messageId).2 }
  | request (message : AgentMessage) (timeout : ℚ) :
    Stepped b (.request message timeout) (b.request message timeout)
  | register (i : ℕ) (r : AgentRequest) (hr : b.requests[i]? = some r)
    (hphase : r.phase = .publishing) : Stepped b (.register i) (b.register i r)
  | publishFails (i : ℕ) (r : AgentRequest) (hr : b.requests[i]? = some r)
    (hphase : r.phase = .publishing) : Stepped b (.publishFails i) (b.enter i .raised)
  | respond (originalMessageId : String) (response : AgentMessageResponse) (messageId : String) :
    Stepped b (.respond originalMessageId response messageId)
      (b.respond originalMessageId response messageId)
  | getMessages (agentId : String) : Stepped b (.getMessages agentId) (b.getMessages agentId).2
  | shutdown : Stepped b .shutdown b.shutdown
  | timeOut (i : ℕ) (r : AgentRequest) (deadline : ℚ) (hr : b.requests[i]? = some r)
    (hphase : r.phase = .waiting deadline) : Stepped b (.timeOut i) (b.enter i .cancelled)
  | resume (i : ℕ) (r : AgentRequest) (hr : b.requests[i]? = some r)
    (hphase : r.phase = .cancelled) : Stepped b (.resume i)
      { b.enter i .timedOut with
        pendingResponses := Assoc.pop b.pendingResponses r.message.messageId }
  | advance (d : ℚ) (htime : ∀ r ∈ b.requests, ∀ deadline, r.phase = .waiting deadline →
      b.now + d ≤ deadline) : Stepped b (.advance d) { b with now := b.now + d }

theorem stepped {b b' : MessageBus} {ev : Event} (h : b.step ev = some b') : Stepped b ev b' := by
  cases ev with
  | send message => exact Option.some.inj h ▸ .send message
  | broadcast message messageId => exact Option.some.inj h ▸ .broadcast message messageId
  | broadcastNext k messageId =>
    obtain ⟨entry, -, rfl⟩ := Option.map_eq_some_iff.mp h
    exact .broadcastNext k messageId entry
  | request message timeout => exact Option.some.inj h ▸ .request message timeout
  | register i =>
    obtain ⟨r, hr, h⟩ := Option.bind_eq_some_iff.mp h
    split at h
    · exact Option.some.inj h ▸ .register i r hr ‹_›
    · cases h
  | publishFails i =>
    obtain ⟨r, hr, h⟩ := Option.bind_eq_some_iff.mp h
    split at h
    · exact Option.some.inj h ▸ .publishFails i r hr ‹_›
    · cases h
  | respond originalMessageId response messageId =>
    exact Option.some.inj h ▸ .respond originalMessageId response messageId
  | getMessages agentId => exact Option.some.inj h ▸ .getMessages agentId
  | shutdown => exact Option.some.inj h ▸ .shutdown
  | timeOut i =>
    obtain ⟨r, hr, h⟩ := Option.bind_eq_some_iff.mp h
    split at h
    · rename_i deadline hphase
      split at h
      · exact Option.some.inj h ▸ .timeOut i r deadline hr hphase
      · cases h
    · cases h
  | resume i =>
    obtain ⟨r, hr, h⟩ := Option.bind_eq_some_iff.mp h
    split at h
    · exact Option.some.inj h ▸ .resume i r hr ‹_›
    · cases h
  | advance d =>
    obtain ⟨⟨-, hall⟩, h⟩ := Option.ite_none_right_eq_some.mp h
    obtain rfl := Option.some.inj h
    refine .advance d fun r hr deadline hphase => ?_
    simpa [hphase] using List.all_eq_true.mp hall r hr

/-! ## Delivery -/

section Delivery

variable {b b' : MessageBus} {message : AgentMessage}

theorem queue_send (message : AgentMessage) {agentId : String} (hagent : agentId ≠ "") :
    (b.send message).queue agentId =
      b.queue agentId ++ if message.receiver = agentId then [message] else [] := by
  by_cases hreceiver : message.receiver = ""
  · rw [if_neg (fun h => hagent (h.symm.trans hreceiver)), List.append_nil]
    simp [send, queue, hreceiver]
  · by_cases heq : message.receiver = agentId
    · simp [send, queue, heq, hagent]
    · simp [send, queue, heq, hreceiver, Assoc.get_set_of_ne heq]

/-- A message that is sent is queued, or is for no agent. -/
theorem Delivers.send (h : b.Delivers) (message : AgentMessage) : (b.send message).Delivers := by
  intro agentId hagent
  have hb := h agentId hagent
  rw [queue_send message hagent, ← List.append_assoc]
  show _ = (b.messageHistory ++ [message]).filter _
  rw [List.filter_append, ← hb]
  by_cases heq : message.receiver = agentId <;> simp [heq, MessageBus.send]

theorem Delivers.sendNext (h : b.Delivers) (broadcast : Broadcast) (messageId : String) :
    (b.sendNext broadcast messageId).1.Delivers := by
  unfold MessageBus.sendNext
  split
  · exact h
  · exact h.send _

/-- **A queue is handed out** as a whole. -/
theorem Delivers.getMessages (h : b.Delivers) (agentId : String) :
    (b.getMessages agentId).2.Delivers := by
  intro other hother
  have hb := h other hother
  unfold MessageBus.getMessages
  by_cases heq : agentId = other
  · subst heq
    rw [← hb]
    simp [queue]
  · rw [← hb]
    simp [queue, heq, Assoc.get_set_of_ne heq]

/-- **The step lemma of delivery.** -/
theorem Delivers.step (h : b.Delivers) {ev : Event} (he : Stepped b ev b') : b'.Delivers := by
  cases he with
  | send message => exact h.send message
  | broadcast message messageId => exact h.sendNext _ messageId
  | broadcastNext k messageId entry => exact h.sendNext entry messageId
  | request message timeout => exact h.send message
  | respond originalMessageId response messageId =>
    unfold MessageBus.respond
    split
    · exact h
    · exact Delivers.send h _
  | getMessages agentId => exact h.getMessages agentId
  | register i r hr hphase => exact h
  | publishFails i r hr hphase => exact h
  | shutdown => exact h
  | timeOut i r deadline hr hphase => exact h
  | resume i r hr hphase => exact h
  | advance d htime => exact h

end Delivery

/-! ## Requests and their futures -/

/-- **The invariant of the requests**: the future of each that waits is pending under the identifier
of its message, no two futures are for one message, and none is left waiting. -/
structure Inv (b : MessageBus) : Prop where
  filed : ∀ (i : ℕ) (r : AgentRequest) deadline, b.requests[i]? = some r →
    r.phase = .waiting deadline → Assoc.get b.pendingResponses r.message.messageId = some i
  single : ∀ (i j : ℕ) (r s : AgentRequest), b.requests[i]? = some r → b.requests[j]? = some s →
    r.message.messageId = s.message.messageId → Registered r = true → Registered s = true → i = j
  timely : b.NotLeft

section Requests

variable {b b' : MessageBus} {i j : ℕ} {r s : AgentRequest} {phase : RequestPhase}

/-- Only requests, futures and the time matter. -/
theorem Inv.of_eq (h : b.Inv) (hrequests : b'.requests = b.requests)
    (hpending : b'.pendingResponses = b.pendingResponses) (hnow : b'.now = b.now) : b'.Inv where
  filed := by
    rw [hrequests, hpending]
    exact h.filed
  single := by
    rw [hrequests]
    exact h.single
  timely := by
    unfold NotLeft
    rw [hrequests, hnow]
    exact h.timely

theorem requests_enter (b : MessageBus) (i j : ℕ) (phase : RequestPhase) :
    (b.enter i phase).requests[j]? =
      (b.requests[j]?).map fun r => if i = j then { r with phase } else r := by
  rw [enter, List.getElem?_modify]
  rfl

/-- What a request is after another phase was entered: another one, as it was, or this one. -/
theorem enter_cases (h : (b.enter i phase).requests[j]? = some s) :
    ∃ r, b.requests[j]? = some r ∧ (i ≠ j ∧ s = r ∨ i = j ∧ s = { r with phase }) := by
  rw [requests_enter] at h
  obtain ⟨r, hr, rfl⟩ := Option.map_eq_some_iff.mp h
  refine ⟨r, hr, ?_⟩
  by_cases hij : i = j
  · exact .inr ⟨hij, if_pos hij⟩
  · exact .inl ⟨hij, if_neg hij⟩

theorem registered_of_waiting {deadline : ℚ} (h : r.phase = .waiting deadline) :
    Registered r = true := by
  unfold Registered
  rw [h]

/-- **A phase in which the request waits for nothing**: it keeps the invariant if the futures of the
others stay. -/
theorem Inv.enter (h : b.Inv) (hr : b.requests[i]? = some r)
    (hphase : ∀ deadline, phase ≠ .waiting deadline)
    (hregistered : Registered { r with phase } = true → Registered r = true)
    {pending : List (String × ℕ)}
    (hpending : ∀ (j : ℕ) (s : AgentRequest) deadline, i ≠ j → b.requests[j]? = some s →
      s.phase = .waiting deadline → Assoc.get b.pendingResponses s.message.messageId = some j →
      Assoc.get pending s.message.messageId = some j) :
    Inv { b.enter i phase with pendingResponses := pending } where
  filed j s deadline hs hwaiting := by
    obtain ⟨t, ht, ⟨hij, rfl⟩ | ⟨-, rfl⟩⟩ := enter_cases hs
    · exact hpending j s deadline hij ht hwaiting (h.filed j s deadline ht hwaiting)
    · exact absurd hwaiting (hphase deadline)
  single j k s t hs ht hid hsr htr := by
    obtain ⟨s₀, hs₀, hs'⟩ := enter_cases hs
    obtain ⟨t₀, ht₀, ht'⟩ := enter_cases ht
    have hsame : ∀ {j s s₀}, b.requests[j]? = some s₀ →
        (i ≠ j ∧ s = s₀ ∨ i = j ∧ s = { s₀ with phase }) → Registered s = true →
        s.message = s₀.message ∧ Registered s₀ = true := by
      rintro j s s₀ hs₀ (⟨-, rfl⟩ | ⟨rfl, rfl⟩) hreg
      · exact ⟨rfl, hreg⟩
      · obtain rfl := Option.some.inj (hr.symm.trans hs₀)
        exact ⟨rfl, hregistered hreg⟩
    obtain ⟨hsm, hsr₀⟩ := hsame hs₀ hs' hsr
    obtain ⟨htm, htr₀⟩ := hsame ht₀ ht' htr
    exact h.single j k s₀ t₀ hs₀ ht₀ (by rw [← hsm, ← htm, hid]) hsr₀ htr₀
  timely s hs deadline hwaiting := by
    obtain ⟨j, hj⟩ := List.mem_iff_getElem?.mp hs
    obtain ⟨t, ht, ⟨-, rfl⟩ | ⟨-, rfl⟩⟩ := enter_cases hj
    · exact h.timely s (List.mem_of_getElem? ht) deadline hwaiting
    · exact absurd hwaiting (hphase deadline)

theorem Inv.send (h : b.Inv) (message : AgentMessage) : (b.send message).Inv :=
  h.of_eq rfl rfl rfl

theorem Inv.sendNext (h : b.Inv) (broadcast : Broadcast) (messageId : String) :
    (b.sendNext broadcast messageId).1.Inv := by
  unfold MessageBus.sendNext
  split
  · exact h
  · exact h.send _

/-- A request that begins has no future yet. -/
theorem Inv.request (h : b.Inv) (message : AgentMessage) (timeout : ℚ) :
    (b.request message timeout).Inv := by
  have hcases : ∀ {j : ℕ} {s : AgentRequest}, (b.request message timeout).requests[j]? = some s →
      b.requests[j]? = some s ∨ s.phase = .publishing := by
    intro j s hs
    rw [MessageBus.request, List.getElem?_append] at hs
    split at hs
    · exact .inl hs
    · obtain rfl := List.mem_singleton.mp (List.mem_of_getElem? hs)
      exact .inr rfl
  have hregistered : ∀ {j : ℕ} {s : AgentRequest},
      (b.request message timeout).requests[j]? = some s → Registered s = true →
      b.requests[j]? = some s := by
    intro j s hs hreg
    refine (hcases hs).resolve_right fun hphase => ?_
    rw [Registered, hphase] at hreg
    cases hreg
  refine ⟨fun j s deadline hs hwaiting => ?_, fun j k s t hs ht hid hsr htr => ?_,
    fun s hs deadline hwaiting => ?_⟩
  · exact h.filed j s deadline (hregistered hs (registered_of_waiting hwaiting)) hwaiting
  · exact h.single j k s t (hregistered hs hsr) (hregistered ht htr) hid hsr htr
  · obtain ⟨j, hj⟩ := List.mem_iff_getElem?.mp hs
    have hold := hregistered hj (registered_of_waiting hwaiting)
    exact h.timely s (List.mem_of_getElem? hold) deadline hwaiting

/-- **A request whose future is created** waits for it, since no other future is for its message and
there was no shutdown. -/
theorem Inv.register (h : b.Inv) (hr : b.requests[i]? = some r)
    (hmeets : (Event.register i).meets b = true) : (b.register i r).Inv := by
  simp only [Event.meets, hr, Option.all_some, Bool.and_eq_true, List.all_eq_true] at hmeets
  obtain ⟨hshutdown, hothers⟩ := hmeets
  have hother : ∀ {j : ℕ} {s : AgentRequest}, b.requests[j]? = some s →
      s.message.messageId = r.message.messageId → Registered s = true → False := by
    intro j s hs hid hreg
    have := hothers s (List.mem_of_getElem? hs)
    simp [hid, hreg] at this
  refine ⟨fun j s deadline hs hwaiting => ?_, fun j k s t hs ht hid hsr htr => ?_,
    fun s hs deadline hwaiting => ?_⟩
  · obtain ⟨t, ht, ⟨hij, rfl⟩ | ⟨rfl, rfl⟩⟩ := enter_cases hs
    · show Assoc.get (Assoc.set _ _ _) _ = _
      rw [Assoc.get_set_of_ne fun hid => hother ht hid.symm (registered_of_waiting hwaiting)]
      exact h.filed j s deadline ht hwaiting
    · obtain rfl := Option.some.inj (hr.symm.trans ht)
      exact Assoc.get_set_self ..
  · obtain ⟨s₀, hs₀, ⟨hij, rfl⟩ | ⟨rfl, rfl⟩⟩ := enter_cases hs
    · obtain ⟨t₀, ht₀, ⟨hik, rfl⟩ | ⟨rfl, rfl⟩⟩ := enter_cases ht
      · exact h.single j k s t hs₀ ht₀ hid hsr htr
      · obtain rfl := Option.some.inj (hr.symm.trans ht₀)
        exact (hother hs₀ hid hsr).elim
    · obtain rfl := Option.some.inj (hr.symm.trans hs₀)
      obtain ⟨t₀, ht₀, ⟨hik, rfl⟩ | ⟨rfl, rfl⟩⟩ := enter_cases ht
      · exact (hother ht₀ hid.symm htr).elim
      · rfl
  · obtain ⟨j, hj⟩ := List.mem_iff_getElem?.mp hs
    obtain ⟨t, ht, ⟨-, rfl⟩ | ⟨rfl, rfl⟩⟩ := enter_cases hj
    · exact h.timely s (List.mem_of_getElem? ht) deadline hwaiting
    · obtain rfl := Option.some.inj (hr.symm.trans ht)
      dsimp only at hwaiting
      split at hwaiting
      · cases hwaiting
      · rename_i htimeout
        obtain rfl := RequestPhase.waiting.inj hwaiting
        have hnow : b.now ≤ b.now + r.timeout := le_add_of_nonneg_right (not_le.mp htimeout).le
        refine ⟨hnow, ?_⟩
        simpa [htimeout] using hshutdown

/-- The future of a message that is not done is the one of a request that waits. -/
theorem openFuture_eq_some {messageId : String} (h : b.openFuture messageId = some i) :
    Assoc.get b.pendingResponses messageId = some i ∧
      ∃ r deadline, b.requests[i]? = some r ∧ r.phase = .waiting deadline := by
  obtain ⟨hget, hopen⟩ := Option.filter_eq_some_iff.mp h
  obtain ⟨r, hr, hphase⟩ := (Option.any_eq_true _ _).mp hopen
  split at hphase
  · exact ⟨hget, r, _, hr, ‹_›⟩
  · cases hphase

/-- The future of a request that waits is not done. -/
theorem openFuture_waiting (h : b.Inv) {deadline : ℚ} (hr : b.requests[i]? = some r)
    (hphase : r.phase = .waiting deadline) : b.openFuture r.message.messageId = some i := by
  unfold openFuture
  rw [h.filed i r deadline hr hphase]
  refine Option.filter_eq_some_iff.mpr ⟨rfl, ?_⟩
  rw [hr, Option.any_some, hphase]

/-- **A response** ends the request that waits for it. -/
theorem Inv.respond (h : b.Inv) (originalMessageId : String) (response : AgentMessageResponse)
    (messageId : String) : (b.respond originalMessageId response messageId).Inv := by
  unfold MessageBus.respond
  cases hopen : b.openFuture originalMessageId with
  | some i =>
    obtain ⟨hget, r, deadline, hr, hphase⟩ := openFuture_eq_some hopen
    refine h.enter hr (fun _ => RequestPhase.noConfusion) (fun _ => registered_of_waiting hphase) ?_
    intro j s deadline' hij hs hwaiting hfiled
    rw [Assoc.get_pop, if_neg, hfiled]
    rintro rfl
    exact hij (Option.some.inj (hget.symm.trans hfiled))
  | none =>
    have hpopped : Inv { b with
        pendingResponses := Assoc.pop b.pendingResponses originalMessageId } := by
      refine ⟨fun j s deadline hs hwaiting => ?_, h.single, h.timely⟩
      show Assoc.get (Assoc.pop _ _) _ = _
      rw [Assoc.get_pop, if_neg, h.filed j s deadline hs hwaiting]
      rintro rfl
      have hsome := openFuture_waiting h hs hwaiting
      rw [hopen] at hsome
      cases hsome
    exact hpopped.send _

/-- A shutdown makes no future. -/
theorem registered_endRequest (h : Registered (b.endRequest i r) = true) : Registered r = true := by
  obtain ⟨message, timeout, phase, afterShutdown⟩ := r
  cases phase with
  | waiting deadline => rfl
  | cancelled => rfl
  | _ => exact h

/-- **A shutdown** leaves no request that waits. -/
theorem Inv.shutdown (h : b.Inv) : b.shutdown.Inv := by
  have hcases : ∀ {j : ℕ} {s : AgentRequest}, b.shutdown.requests[j]? = some s →
      ∃ r, b.requests[j]? = some r ∧ s = b.endRequest j r := by
    intro j s hs
    rw [MessageBus.shutdown, List.getElem?_mapIdx] at hs
    obtain ⟨r, hr, rfl⟩ := Option.map_eq_some_iff.mp hs
    exact ⟨r, hr, rfl⟩
  have hnone : ∀ {j : ℕ} {s : AgentRequest} {deadline : ℚ},
      b.shutdown.requests[j]? = some s → s.phase ≠ .waiting deadline := by
    intro j s deadline hs hwaiting
    obtain ⟨r, hr, rfl⟩ := hcases hs
    unfold endRequest at hwaiting
    dsimp only at hwaiting
    split at hwaiting
    · rename_i deadline' hphase
      have hmem : j ∈ b.pendingResponses.map Prod.snd :=
        List.mem_map_of_mem (f := Prod.snd) (Assoc.mem_of_get (h.filed j r deadline' hr hphase))
      rw [if_pos hmem] at hwaiting
      cases hwaiting
    · rename_i hno
      exact hno deadline hwaiting
  refine ⟨fun j s deadline hs hwaiting => absurd hwaiting (hnone hs),
    fun j k s t hs ht hid hsr htr => ?_, fun s hs deadline hwaiting => ?_⟩
  · obtain ⟨s₀, hs₀, rfl⟩ := hcases hs
    obtain ⟨t₀, ht₀, rfl⟩ := hcases ht
    exact h.single j k s₀ t₀ hs₀ ht₀ hid (registered_endRequest hsr) (registered_endRequest htr)
  · obtain ⟨j, hj⟩ := List.mem_iff_getElem?.mp hs
    exact absurd hwaiting (hnone hj)

/-- **The step lemma of the requests.** -/
theorem Inv.step (h : b.Inv) {ev : Event} (hmeets : ev.meets b = true) (he : Stepped b ev b') :
    b'.Inv := by
  cases he with
  | send message => exact h.send message
  | broadcast message messageId => exact (h.sendNext _ messageId).of_eq rfl rfl rfl
  | broadcastNext k messageId entry => exact (h.sendNext entry messageId).of_eq rfl rfl rfl
  | request message timeout => exact h.request message timeout
  | register i r hr hphase => exact h.register hr hmeets
  | publishFails i r hr hphase =>
    exact h.enter hr (fun _ => RequestPhase.noConfusion) (fun hreg => by cases hreg)
      fun _ _ _ _ _ _ hfiled => hfiled
  | respond originalMessageId response messageId => exact h.respond _ response messageId
  | getMessages agentId => exact h.of_eq rfl rfl rfl
  | shutdown => exact h.shutdown
  | timeOut i r deadline hr hphase =>
    exact h.enter hr (fun _ => RequestPhase.noConfusion) (fun _ => registered_of_waiting hphase)
      fun _ _ _ _ _ _ hfiled => hfiled
  | resume i r hr hphase =>
    have hreg : Registered r = true := by
      unfold Registered
      rw [hphase]
    refine h.enter hr (fun _ => RequestPhase.noConfusion) (fun _ => hreg)
      fun j s deadline hij hs hwaiting hfiled => ?_
    -- the future that is removed is the one of this request
    rw [Assoc.get_pop, if_neg, hfiled]
    exact fun hid => hij (h.single i j r s hr hs hid hreg (registered_of_waiting hwaiting))
  | advance d htime =>
    refine ⟨h.filed, h.single, fun r hr deadline hwaiting => ?_⟩
    exact ⟨htime r hr deadline hwaiting, (h.timely r hr deadline hwaiting).2⟩

/-- **A response is taken** by the request that waits for it. -/
theorem Inv.answers (h : b.Inv) {ev : Event} (hmeets : ev.meets b = true)
    (he : b.step ev = some b') : Answers b ev b' := by
  rintro originalMessageId response messageId rfl i r hr hid hqueued
  obtain rfl := Option.some.inj he
  have hregistered : Unregistered r = false := by
    have := List.all_eq_true.mp hmeets r (List.mem_of_getElem? hr)
    simpa [hid, hqueued] using this
  cases hphase : r.phase with
  | publishing => simp [Unregistered, hphase] at hregistered
  | raised => simp [Unregistered, hphase] at hregistered
  | answered response' => exact .inl rfl
  | cancelled => exact .inl rfl
  | timedOut => exact .inl rfl
  | shutDown => exact .inl rfl
  | waiting deadline =>
    right
    have hopen := openFuture_waiting h hr hphase
    rw [hid] at hopen
    simp only [MessageBus.respond, hopen]
    rw [requests_enter]
    simp [hr]

end Requests

/-! ## Runs -/

/-- **In every run** each message that was sent to an agent was handed out once, or is queued. -/
theorem delivers_run {ok : MessageBus → Event → Bool} {b b' : MessageBus} {evs : List Event}
    (h : b.Delivers) (hrun : runIf ok b evs = some b') : b'.Delivers := by
  induction evs generalizing b with
  | nil => exact Option.some.inj hrun ▸ h
  | cons ev evs ih =>
    obtain ⟨-, hrun⟩ := Option.ite_none_right_eq_some.mp hrun
    obtain ⟨b₁, hstep, hrest⟩ := Option.bind_eq_some_iff.mp hrun
    exact ih (h.step (stepped hstep)) hrest

theorem inv_empty : ({} : MessageBus).Inv where
  filed _ _ _ hr := absurd hr (by simp)
  single _ _ _ _ hr := absurd hr (by simp)
  timely _ hr := absurd hr List.not_mem_nil

theorem inv_run {b b' : MessageBus} {evs : List Event} (h : b.Inv)
    (hrun : runIf (fun b ev => ev.meets b) b evs = some b') : b'.Inv := by
  induction evs generalizing b with
  | nil => exact Option.some.inj hrun ▸ h
  | cons ev evs ih =>
    obtain ⟨hmeets, hrun⟩ := Option.ite_none_right_eq_some.mp hrun
    obtain ⟨b₁, hstep, hrest⟩ := Option.bind_eq_some_iff.mp hrun
    exact ih (h.step hmeets (stepped hstep)) hrest

/-- **The law of the bus**, for the runs whose events meet no request between its message and its
future: every message is handed out once or queued, in order; no request is left waiting; and a
response is taken by the request it is for, unless that is over. -/
theorem bus_law {evs : List Event} {b : MessageBus}
    (h : runIf (fun b ev => ev.meets b) {} evs = some b) :
    b.Delivers ∧ b.NotLeft ∧
      ∀ ev b', ev.meets b = true → b.step ev = some b' → Answers b ev b' := by
  have hdelivers : ({} : MessageBus).Delivers := fun _ _ => rfl
  have hb := inv_run inv_empty h
  exact ⟨delivers_run hdelivers h, hb.timely, fun ev b' hmeets hstep => hb.answers hmeets hstep⟩

/-! ## A response that is lost -/

/-- A question of one agent to another. -/
def question : AgentMessage :=
  { messageId := "m1", sender := "planner", receiver := "researcher", messageType := "request" }

/-- The answer to it. -/
def answer : AgentMessageResponse := { originalMessageId := "m1", responder := "researcher" }

theorem runIf_getD {ok : MessageBus → Event → Bool} {b : MessageBus} (evs : List Event)
    (h : (runIf ok b evs).isSome = true) : runIf ok b evs = some ((runIf ok b evs).getD b) := by
  obtain ⟨b', hb'⟩ := Option.isSome_iff_exists.mp h
  rw [hb', Option.getD_some]

/-- The question is asked, published and read. -/
def asked : List Event :=
  [.request question 30, .register 0, .getMessages "researcher"]

/-- The bus where the researcher has read the question. -/
def afterAsked : MessageBus := (runIf (fun b ev => ev.meets b) {} asked).getD {}

/-- The question has its answer after the response. -/
theorem bus_law_asked : afterAsked.Delivers ∧ afterAsked.NotLeft ∧
    ∃ b', afterAsked.step (.respond "m1" answer "m2") = some b' ∧
      Answers afterAsked (.respond "m1" answer "m2") b' ∧
      b'.requests.map AgentRequest.phase = [.answered answer] := by
  obtain ⟨hdelivers, hnotLeft, hanswers⟩ := bus_law (runIf_getD asked (by decide +kernel))
  have hsome : (afterAsked.step (.respond "m1" answer "m2")).isSome = true := by decide +kernel
  have hphases : (afterAsked.step (.respond "m1" answer "m2")).map
      (fun b' => b'.requests.map AgentRequest.phase) = some [.answered answer] := by
    decide +kernel
  obtain ⟨b', hstep⟩ := Option.isSome_iff_exists.mp hsome
  rw [hstep] at hphases
  exact ⟨hdelivers, hnotLeft, b', hstep, hanswers _ b' (by decide +kernel) hstep,
    Option.some.inj hphases⟩

/-- The question is read before its event is published, and the answer finds no future. -/
theorem answer_lost : ¬ ∀ evs b ev b', run {} evs = some b → b.step ev = some b' →
    b'.Delivers ∧ b'.NotLeft ∧ Answers b ev b' := by
  intro h
  have hrun : run {} [.request question 30, .getMessages "researcher"] =
      some ((run {} [.request question 30, .getMessages "researcher"]).getD {}) :=
    runIf_getD _ (by decide +kernel)
  have hanswers := (h _ _ (.respond "m1" answer "m2") _ hrun rfl).2.2
  rcases hanswers "m1" answer "m2" rfl 0 { message := question, timeout := 30 } rfl rfl
    (by decide) with hover | htaken
  · exact absurd hover (by decide)
  · exact absurd htaken (by decide +kernel)

end MessageBus

end Coordination

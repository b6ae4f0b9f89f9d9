import AiLabOs.Reminder.Trigger

/-!
# Reminders: a finished task

Completing or cancelling a task ends the reminders it lists. A reminder that is inserted later
escapes it: `create_pending` finds the task active and inserts the reminder in another transaction.
While no creation stands between the two when the reminders are listed, and the task stays finished
from then on, the task is silent once the call has returned.

## Main definitions

* `SilentLaw`: every reminder of a task is over, and none becomes triggered
* `creating`, `listed`: a reminder of the task was checked and not inserted; the reminders were
  listed
* `orderly`: the event does not come between

## Main results

* `finished_silent`: the law, from the return of the call on
* `finished_task_rings`: a reminder that escapes
-/

namespace Reminders

open Process UserTasks

/-- **The task is silent**: its reminders are over, and those that are triggered were so before. -/
def SilentLaw (taskId : String) (c c' : Calls) : Prop :=
  ∀ row ∈ c'.world.reminders.reminders, row.userTaskId = taskId →
    row.status.terminal = true ∧ (row.status = .triggered →
      ∃ old ∈ c.world.reminders.reminders, old.id = row.id ∧ old.status = .triggered)

instance (taskId : String) (c c' : Calls) : Decidable (SilentLaw taskId c c') := by
  unfold SilentLaw
  infer_instance

/-- The request completes or cancels the task. -/
def Request.finishes (taskId : String) : Request → Bool
  | .completeTask _ _ id _ _ => id = taskId
  | .cancelTask _ _ id _ _ => id = taskId
  | _ => false

/-- The call `i` has completed or cancelled the task, and returned. -/
def finished (taskId : String) (i : ℕ) (c : Calls) : Bool :=
  c.calls[i]?.any fun call => call.request.finishes taskId &&
    match call.rest with
    | .ret _ => true
    | _ => false

theorem finished_iff {taskId : String} {i : ℕ} {c : Calls} : finished taskId i c = true ↔
    ∃ k log, c.calls[i]? = some ⟨k, log, .ret ()⟩ ∧ k.finishes taskId = true := by
  rw [finished, Option.any_eq_true]
  constructor
  · rintro ⟨⟨k, log, rest⟩, hi, hcall⟩
    cases rest with
    | ret a => exact ⟨k, log, hi, by simpa using hcall⟩
    | raise exn => simp at hcall
    | await e next => simp at hcall
  · rintro ⟨k, log, hi, hk⟩
    exact ⟨_, hi, by simp [hk]⟩

/-- The action inserts a reminder of the task. -/
def Action.creates (taskId : String) : Action → Bool
  | .create reminder => reminder.userTaskId = taskId
  | _ => false

/-- A call has found the task active and not yet inserted the reminder. -/
def creating (taskId : String) (c : Calls) : Bool :=
  c.calls.any fun call =>
    match call.rest with
    | .await e _ => e.creates taskId
    | _ => false

/-- The entry is a list of the reminders of the task. -/
def lists (taskId : String) : (Σ e : Action, e.Reply) → Bool
  | ⟨.listForTask id, .ok _⟩ => id = taskId
  | _ => false

/-- The call has listed the reminders of the task. -/
def listed (taskId : String) (i : ℕ) (c : Calls) : Bool :=
  c.calls[i]?.any fun call => call.log.any (lists taskId)

/-- The task is active. -/
def World.isActive (taskId : String) (w : World) : Bool :=
  w.tasks.tasks.any fun task => task.id = taskId && task.status = .active

/-- When the call lists the reminders of the task, none is being created, and from then on the task
is not active. -/
def orderly (taskId : String) (i : ℕ) (c : Calls) : Event Request Input → Bool
  | .act j _ =>
    match awaited c j with
    | some (.listForTask id) => !(j = i && id = taskId && creating taskId c) &&
        !(listed taskId i c && c.world.isActive taskId)
    | _ => !(listed taskId i c && c.world.isActive taskId)
  | .arrive _ => true

/-! ## What a creation comes from -/

theorem creating_iff {taskId : String} {c : Calls} : creating taskId c = true ↔
    ∃ (i : ℕ) (k : Request) (log : Log Action Action.Reply) (e : Action)
      (next : e.Reply → Prog Unit),
      c.calls[i]? = some ⟨k, log, .await e next⟩ ∧ e.creates taskId = true := by
  simp only [creating, List.any_eq_true]
  constructor
  · rintro ⟨⟨k, log, rest⟩, hcall, hcreates⟩
    obtain ⟨i, hi⟩ := List.mem_iff_getElem?.mp hcall
    cases rest with
    | ret a => cases hcreates
    | raise exn => cases hcreates
    | await e next => exact ⟨i, k, log, e, next, hi, hcreates⟩
  · rintro ⟨i, k, log, e, next, hi, hcreates⟩
    exact ⟨_, List.mem_of_getElem? hi, hcreates⟩

theorem Action.creates_eq {taskId : String} {e : Action} (h : e.creates taskId = true) :
    ∃ reminder, e = .create reminder ∧ reminder.userTaskId = taskId := by
  cases e <;> simp_all [Action.creates]

/-- A creation of one step has been there before, or the step has found the task active. -/
theorem creating_cases {env : Environment} {g : Granularity} {c c' : Calls} {taskId : String}
    (hall' : AllSafe protocol handler (pre g) c') {ev : Event Request Input}
    (he : step handler (start env g) c ev = some c') (h : creating taskId c' = true) :
    creating taskId c = true ∨ c.world.isActive taskId = true ∧
      ∃ i input workspaceKey, ev = .act i input ∧
        awaited c i = some (.checkTask workspaceKey taskId) := by
  obtain ⟨i, k, log, e, next, hi, hcreates⟩ := creating_iff.mp h
  obtain ⟨reminder, rfl, rfl⟩ := Action.creates_eq hcreates
  have hchecked : Checked log reminder.userTaskId := (hall'.meets_pre hi).2
  rcases call_cases he hi with hsame | ⟨k', -, hcall⟩ |
    ⟨input, k', log', e, next', r, hev, hj, hr, hcall⟩
  · exact .inl (creating_iff.mpr ⟨i, k, log, _, next, hsame, hcreates⟩)
  · obtain ⟨before, workspaceKey, task, draft, hlog, -⟩ := hchecked
    rw [(Call.mk.inj hcall).2.1] at hlog
    simp at hlog
  · obtain ⟨before, workspaceKey, task, draft, hlog, hactive⟩ := hchecked
    rw [(Call.mk.inj hcall).2.1] at hlog
    obtain ⟨rfl, hreply⟩ := Sigma.mk.inj (List.singleton_inj.mp (List.append_inj_right' hlog rfl))
    obtain rfl := eq_of_heq hreply
    refine .inr ⟨?_, i, input, workspaceKey, hev, awaited_eq hj⟩
    cases input with
    | scheduler input => cases hr
    | supply supply =>
      obtain ⟨hreply, -⟩ := Prod.mk.inj (Option.some.inj hr)
      obtain ⟨hmem, hid⟩ := getTask_id (Prod.mk.inj hreply).1
      exact List.any_eq_true.mpr ⟨task, hmem, by simp [hid, hactive]⟩

/-- The reminders after an effect: one that was there, or a new one. -/
theorem Effect.rows {e : Action} {db db' : Database} (h : Effect e db db') {row : Reminder}
    (hrow : row ∈ db'.reminders) :
    (∃ old ∈ db.reminders, old.id = row.id ∧ old.userTaskId = row.userTaskId) ∨
      ∃ reminder, e = .create reminder ∧ row = reminder.stored := by
  have hput : ∀ old new : Reminder, old ∈ db.reminders → new.id = old.id →
      new.userTaskId = old.userTaskId → db'.reminders = Table.put Reminder.id new db.reminders →
      ∃ old ∈ db.reminders, old.id = row.id ∧ old.userTaskId = row.userTaskId := by
    intro old new hold hid htask hrows
    rw [hrows] at hrow
    rcases Table.mem_put.mp hrow with ⟨rfl, -⟩ | ⟨hrow, -⟩
    · exact ⟨old, hold, hid.symm, htask.symm⟩
    · exact ⟨row, hrow, rfl, rfl⟩
  cases h with
  | read => exact .inl ⟨row, hrow, rfl, rfl⟩
  | insert reminder he hstatus hfree =>
    rcases List.mem_append.mp hrow with hrow | hrow
    · exact .inl ⟨row, hrow, rfl, rfl⟩
    · exact .inr ⟨reminder, he, List.mem_singleton.mp hrow⟩
  | move old candidate revision now he hold hlegal =>
    exact .inl (hput old _ hold hlegal.id hlegal.task rfl)
  | trigger reminderId traceId scheduledAt db' he row' hrow' hid hat hstatus h =>
    obtain ⟨old, hold, now, traceId, -, -, -, hrows⟩ := h.reminder
    exact .inl (hput old (Database.triggeredReminder now traceId old) hold rfl rfl hrows)
  | write reminder traceId scheduledAt db' he h =>
    obtain ⟨old, hold, now, traceId, -, -, -, hrows⟩ := h.reminder
    exact .inl (hput old (Database.triggeredReminder now traceId old) hold rfl rfl hrows)
  | fail reminderId db' h =>
    rcases h.reminder with heq | ⟨old, hold, failure, traceId, now, -, -, -, -, hrows⟩
    · rw [heq] at hrow
      exact .inl ⟨row, hrow, rfl, rfl⟩
    · exact .inl (hput old (Database.failedReminder failure traceId now old) hold rfl rfl hrows)

/-! ## The list is complete -/

/-- What the call `i` has listed are all the reminders of the task, and no more come. -/
def Complete (taskId : String) (i : ℕ) (c : Calls) : Prop :=
  ∀ call reminders, c.calls[i]? = some call →
    (⟨.listForTask taskId, .ok reminders⟩ : Σ e : Action, e.Reply) ∈ call.log →
    creating taskId c = false ∧ ∀ row ∈ c.world.reminders.reminders, row.userTaskId = taskId →
      ∃ reminder ∈ reminders, reminder.id = row.id

theorem Complete.step {env : Environment} {g : Granularity} {taskId : String} {i : ℕ} {c c' : Calls}
    (hall : AllSafe protocol handler (pre g) c) (hall' : AllSafe protocol handler (pre g) c')
    (h : Complete taskId i c) {ev : Event Request Input} (hok : orderly taskId i c ev = true)
    (he : Process.step handler (start env g) c ev = some c') : Complete taskId i c' := by
  intro call' reminders hi' hmem
  -- once it has listed them
  have hlater : ∀ call, c.calls[i]? = some call →
      (⟨.listForTask taskId, .ok reminders⟩ : Σ e : Action, e.Reply) ∈ call.log →
      creating taskId c' = false ∧ ∀ row ∈ c'.world.reminders.reminders, row.userTaskId = taskId →
        ∃ reminder ∈ reminders, reminder.id = row.id := by
    intro call hi hmem
    obtain ⟨hnone, hrows⟩ := h call reminders hi hmem
    have hlisted : listed taskId i c = true := by
      rw [listed, hi]
      exact List.any_eq_true.mpr ⟨_, hmem, by simp [lists]⟩
    constructor
    · by_contra hcreating
      rw [Bool.not_eq_false] at hcreating
      rcases creating_cases hall' he hcreating with hold | ⟨hactive, j, input, ws, rfl, hj⟩
      · rw [hnone] at hold
        cases hold
      · simp [orderly, hj, hlisted, hactive] at hok
    · intro row hrow htask
      rcases step_effect hall he with hworld | ⟨j, input, k, log, e, next, rfl, hj, -, heffect⟩
      · exact hrows row (hworld ▸ hrow) htask
      · rcases heffect.rows hrow with ⟨old, hold, hid, htask'⟩ | ⟨reminder, rfl, rfl⟩
        · rw [← hid]
          exact hrows old hold (htask'.trans htask)
        · have hcreating : creating taskId c = true :=
            creating_iff.mpr ⟨j, k, log, _, next, hj, decide_eq_true htask⟩
          rw [hnone] at hcreating
          cases hcreating
  rcases call_cases he hi' with hsame | ⟨k, -, rfl⟩ | ⟨input, k, log, e, next, r, rfl, hi, hr, rfl⟩
  · exact hlater call' hsame hmem
  · cases hmem
  · rcases List.mem_append.mp hmem with hmem | hmem
    · exact hlater _ hi hmem
    · -- it lists them now
      obtain ⟨rfl, hreply⟩ := Sigma.mk.inj (List.mem_singleton.mp hmem)
      obtain rfl := eq_of_heq hreply
      obtain ⟨hworld, hrows⟩ := listForTask_reply hr
      constructor
      · by_contra hcreating
        rw [Bool.not_eq_false] at hcreating
        rcases creating_cases hall' he hcreating with hold | ⟨-, j, input', ws, hev, hj⟩
        · simp [orderly, awaited_eq hi, hold] at hok
        · obtain ⟨rfl, rfl⟩ := Event.act.inj hev
          rw [awaited_eq hi] at hj
          cases hj
      · intro row hrow htask
        rw [hworld] at hrow
        exact ⟨row, (hrows row).mpr ⟨hrow, htask⟩, rfl⟩

/-! ## The law -/

theorem Cancelled.of_evolves {taskId : String} {log : Log Action Action.Reply} {w w' : World}
    (h : Cancelled taskId log w) (he : Evolves w.reminders w'.reminders) :
    Cancelled taskId log w' := by
  obtain ⟨reminders, hmem, hover⟩ := h
  exact ⟨reminders, hmem, fun reminder hr => (hover reminder hr).of_evolves he⟩

/-- The call that finishes a task has its listed reminders over when it returns. -/
theorem finished_cancelled {env : Environment} {g : Granularity} {c : Calls} (h : Reachable env g c)
    {taskId : String} {i : ℕ} {k : Request} {log : Log Action Action.Reply}
    (hk : k.finishes taskId = true) (hi : c.calls[i]? = some ⟨k, log, .ret ()⟩) :
    Cancelled taskId log c.world := by
  have hsafe : Safe protocol handler (pre g) i (fun _ log w => Cancelled taskId log w)
      (fun _ _ _ => True) (.ret () : Prog Unit) log c.world := by
    have hinit : protocol.Inv World.initial := Database.WellFormed.empty
    refine Reaches.every (fun k => k.finishes taskId = true) (sound g) (startsSafe env g) hinit ?_
      (fun _ _ _ _ _ hrely _ hc => hc.of_evolves hrely)
      (fun _ _ _ _ _ _ _ _ => trivial) h hk hi
    intro i k w hk hw
    have hdone : ∀ (node : Node) (workspaceKey : WorkspaceKey) (target : UserTaskStatus)
        (revision : Option ℕ) (traceId : String), Keeps g i (fun _ log w => Cancelled taskId log w)
          (transitionTask node workspaceKey taskId target revision traceId >>= fun _ => .ret ())
          [] w := by
      intro node workspaceKey target revision traceId
      exact (keeps_transitionTask node workspaceKey taskId target revision traceId).bind steady_true
        trivial fun _ _ _ hcancelled _ => Safe.ret hcancelled
    cases k <;> simp only [Request.finishes, decide_eq_true_eq, reduceCtorEq] at hk
    · subst hk
      exact hdone _ _ _ _ _
    · subst hk
      exact hdone _ _ _ _ _
  exact hsafe.of_ret

/-- **A finished task is silent** from the return of the call on. -/
theorem finished_silent {env : Environment} {g : Granularity} {c c' : Calls} {taskId : String}
    {i : ℕ} (h : ReachesIf handler (start env g) (orderly taskId i) (idle World.initial) c)
    (hfinished : finished taskId i c = true)
    (hr : ReachesIf handler (start env g) (orderly taskId i) c c') : SilentLaw taskId c c' := by
  obtain ⟨k, log, hi, hk⟩ := finished_iff.mp hfinished
  have hreach : Reachable env g c := h.reaches
  have hcomplete : ∀ d, ReachesIf handler (start env g) (orderly taskId i) (idle World.initial) d →
      Complete taskId i d := by
    intro d hd
    refine hd.induction (motive := Complete taskId i) ?_ fun d ev d' hd hcomplete hok he => ?_
    · intro call reminders hi
      cases hi
    · have hall := allSafe hd.reaches
      exact hcomplete.step hall (hall.step (sound g) (startsSafe env g) he) hok he
  obtain ⟨reminders, hmem, hover⟩ := finished_cancelled hreach hk hi
  obtain ⟨-, hlisted⟩ := hcomplete c' (h.trans hr) _ reminders (hr.reaches.returned hi) hmem
  intro row hrow htask
  -- the row was over when the call returned, and has been since
  obtain ⟨reminder, hreminder, hid⟩ := hlisted row hrow htask
  obtain ⟨old, hold, hoid, hterminal⟩ := hover reminder hreminder
  obtain ⟨row', hrow', hev⟩ := evolves_run hreach hr.reaches old hold
  have hids := (allSafe (hreach.trans hr.reaches)).1.ids
  obtain rfl : row' = row := hids.eq hrow' hrow (hev.id.trans (hoid.trans hid))
  have hstatus := (hev.settled hterminal).1
  exact ⟨hstatus ▸ hterminal, fun htriggered => ⟨old, hold, hev.id.symm, hstatus ▸ htriggered⟩⟩

namespace Scenario

/-- A reminder of a task is being created: the task is found active. -/
def checked : List (Event Request Input) := [
  .arrive (.createTask key { id := "ut_1", title := "Call" }),
  .act 0 (supply (hour 6)), .act 0 (supply (hour 6)),
  .arrive (.create node key
    { userTaskId := "ut_1", remindAt := .utc (hour 9), timezone := "UTC" }),
  .act 1 (supply (hour 6) "1")]

/-- The task is completed. It has no reminders. -/
def completed : List (Event Request Input) := checked ++ ([
  .arrive (.completeTask node key "ut_1" none ""), .act 2 (supply (hour 7)),
  .act 2 (supply (hour 7)), .act 2 (supply (hour 7)),
    .act 2 (supply (hour 7))] : List (Event Request Input))

/-- The reminder is inserted and scheduled, and delivered at nine. -/
def rings : List (Event Request Input) := [
  .act 1 (supply (hour 7)), .act 1 (supply (hour 7) "job1"), .act 1 (supply (hour 7)),
  .arrive (.execute delivery), .act 3 (supply (hour 9) "a")]

/-- A task with a reminder is cancelled. -/
def ended : List (Event Request Input) := setup ++
  .arrive (.cancelTask node key "ut_1" none "") :: List.replicate 12 (.act 2 (supply (hour 7)))

/-- The reminder is delivered in vain. -/
def unheard : List (Event Request Input) := [
  .arrive (.execute delivery), .act 3 (supply (hour 9) "a"), .act 3 (supply (hour 9))]

end Scenario

/-- **A finished task rings**: the reminder that was being created escapes, and is triggered. -/
theorem finished_task_rings :
    Reachable Scenario.env .call (Scenario.after .call Scenario.completed) ∧
    finished "ut_1" 2 (Scenario.after .call Scenario.completed) = true ∧
    Reaches handler (start Scenario.env .call) (Scenario.after .call Scenario.completed)
      (Scenario.after .call (Scenario.completed ++ Scenario.rings)) ∧
    ((Scenario.after .call (Scenario.completed ++ Scenario.rings)).world.reminders.reminders.map
      fun row => row.status) = [.triggered] ∧
    (Scenario.after .call (Scenario.completed ++ Scenario.rings)).world.isActive "ut_1" = false ∧
    ¬ SilentLaw "ut_1" (Scenario.after .call Scenario.completed)
      (Scenario.after .call (Scenario.completed ++ Scenario.rings)) :=
  ⟨Scenario.reachable (by decide +kernel), by decide +kernel,
    Scenario.continues (by decide +kernel),
    by decide +kernel, by decide +kernel, by decide +kernel⟩

/-- A task whose reminder was created before stays silent. -/
theorem finished_silent_scenario :
    ((Scenario.after .call (Scenario.ended ++ Scenario.unheard)).world.reminders.reminders.map
      fun row => row.status) = [.cancelled] ∧
    SilentLaw "ut_1" (Scenario.after .call Scenario.ended)
      (Scenario.after .call (Scenario.ended ++ Scenario.unheard)) :=
  ⟨by decide +kernel, finished_silent (i := 2) (Scenario.reachableIf (by decide +kernel))
    (by decide +kernel) (Scenario.continuesIf (by decide +kernel) (by decide +kernel))⟩

end Reminders

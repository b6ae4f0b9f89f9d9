import AiLabOs.Reminder.BridgeSteps

/-!
# Reminders: every call keeps the protocol

The calls that reach the services are safe from the moment they arrive. So in every run the tables
stay well formed and every update follows the row it replaces.

## Main results

* `keeps_transitionTask`: a task that ends has its listed reminders ended
* `keeps_execute`, `keeps_createForTask`: the handler and the orchestrator
* `startsSafe`, `allSafe`: every call of every run meets its preconditions
-/

namespace Reminders

open Process UserTasks

variable {g : Granularity} {i : ℕ} {log : Log Action Action.Reply} {w : World} {α : Type}

/-! ## Tasks that end -/

theorem getTask_id {w : World} {workspaceKey : WorkspaceKey} {taskId : String} {supply : Supply}
    {task : UserTask} (h : w.getTask workspaceKey taskId supply = .ok task) :
    task ∈ w.tasks.tasks ∧ task.id = taskId := by
  unfold World.getTask reading at h
  split at h
  · cases h
  · cases hget : w.tasks.get workspaceKey taskId with
    | error e =>
      rw [hget] at h
      cases h
    | ok found =>
      rw [hget] at h
      cases h
      obtain ⟨_, -, hvisible⟩ := Except.of_bind_ok hget
      split at hvisible
      · cases hvisible
      · rename_i row hfind
        cases hvisible
        have hid := List.find?_some hfind
        simp only [Bool.and_eq_true, decide_eq_true_eq] at hid
        exact ⟨List.mem_of_find?_eq_some hfind, hid.1⟩

theorem keeps_getTask (workspaceKey : WorkspaceKey) (taskId traceId : String) :
    Keeps g i (fun task _ _ => task.id = taskId) (getTask workspaceKey taskId traceId) log w := by
  refine Safe.perform fun w' hw' hinv => ⟨trivial, fun input r w'' hr => ?_⟩
  cases input with
  | scheduler input => cases hr
  | supply supply =>
    obtain ⟨hreply, -⟩ := Prod.mk.inj (Option.some.inj hr)
    cases r with
    | error exn => exact Safe.raise trivial
    | ok task => exact Safe.ret (getTask_id hreply).2

theorem keeps_repositoryUpdateTask (workspaceKey : WorkspaceKey) (task : UserTask) (revision : ℕ) :
    Keeps g i (fun updated _ _ => updated.id = task.id)
      (repositoryUpdateTask workspaceKey task revision) log w := by
  refine Safe.perform fun w' hw' hinv => ⟨trivial, fun input r w'' hr => ?_⟩
  refine keeps_orRaise fun updated hok => ?_
  subst hok
  cases input with
  | scheduler input => cases hr
  | supply supply =>
    have hpair : w'.updateTask workspaceKey task revision supply = (.ok updated, w'') :=
      Option.some.inj hr
    unfold World.updateTask at hpair
    split at hpair
    · cases hpair
    · split at hpair
      · cases hpair
      · rename_i result tasks hok
        cases hpair
        obtain ⟨_, -, hok⟩ := Except.of_bind_ok hok
        split at hok
        · cases hok
        · split at hok
          · cases hok
            rfl
          · cases hok

/-- **A task that ends** has its listed reminders ended when the call returns. -/
theorem keeps_transitionTask (node : Node) (workspaceKey : WorkspaceKey) (taskId : String)
    (target : UserTaskStatus) (revision : Option ℕ) (traceId : String) :
    Keeps g i (fun _ log w => Cancelled taskId log w)
      (transitionTask node workspaceKey taskId target revision traceId) log w := by
  refine (keeps_getTask workspaceKey taskId traceId).bind steady_true trivial
    fun current log w hid _ => ?_
  have hcancel : ∀ (task : UserTask) (log : Log Action Action.Reply) (w : World),
      task.id = taskId → Keeps g i (fun _ log w => Cancelled taskId log w)
        (cancelForTask node task.id traceId >>= fun _ => .ret task) log w := by
    rintro task log w rfl
    exact (keeps_cancelForTask node task.id traceId).bind steady_true trivial
      fun _ log w hcancelled _ => Safe.ret hcancelled
  split
  · exact Safe.raise trivial
  · split
    · exact hcancel current log w hid
    · split
      · exact Safe.raise trivial
      · refine .quiet_bind quiet_clockNow steady_true trivial fun now log w _ => ?_
        refine (keeps_rethrow (keeps_repositoryUpdateTask workspaceKey _ _)).bind steady_true
          trivial
          fun result log w hupdated _ => ?_
        exact hcancel result log w (hupdated.trans hid)

theorem quiet_reopenTask (workspaceKey : WorkspaceKey) (taskId traceId : String) :
    (reopenTask workspaceKey taskId traceId).All Quiet := by
  refine .bind (quiet_getTask _ _ _) fun current => ?_
  split
  · trivial
  · exact .bind quiet_clockNow fun now => quiet_rethrow (quiet_repositoryUpdateTask _ _ _)

/-! ## The handler -/

/-- A trigger is awaited as its granularity has it. -/
theorem keeps_triggerReminder (reminderId : String) (scheduledAt : DateTime) (traceId : String) :
    Keeps g i (fun _ _ _ => True) (triggerReminder g reminderId scheduledAt traceId) log w := by
  cases g with
  | call =>
    exact Safe.perform fun w' hw' hinv =>
      ⟨rfl, fun input r w'' hr => keeps_orRaise fun _ _ => trivial⟩
  | statement =>
    refine Safe.perform fun w' hw' hinv => ⟨trivial, fun input r w'' hr => ?_⟩
    cases r with
    | error exn => exact Safe.raise trivial
    | ok selected =>
      cases selected with
      | done reminder occurrence => exact Safe.ret trivial
      | proceed reminder =>
        cases input with
        | scheduler input => cases hr
        | supply supply =>
          obtain ⟨hreply, -⟩ := Prod.mk.inj (Option.some.inj hr)
          unfold reading at hreply
          split at hreply
          · cases hreply
          · obtain ⟨-, rfl, -⟩ := Database.triggerRead_proceed hreply
            exact Safe.perform fun w₁ hw₁ hinv₁ =>
              ⟨⟨rfl, log, rfl⟩, fun input r w₂ hr => keeps_orRaise fun _ _ => trivial⟩

theorem quiet_triggerFailed (delivery : Delivery) (scheduledAt : DateTime) (exn : Exn) :
    (triggerFailed delivery scheduledAt exn).All Quiet := by
  have hrecord : ∀ exn : Exn, (Program.perform (Action.recordTriggerFailure delivery.reminderId
      scheduledAt delivery.traceId (handlerFailure exn delivery)) >>= fun reply =>
        orRaise reply >>= fun _ =>
          logged (repositoryGet delivery.reminderId >>= fun _ => .ret ()) >>= fun _ =>
            (.raise exn : Prog Unit)).All Quiet := by
    intro exn
    refine .bind (.perform trivial) fun reply => .bind (quiet_orRaise reply) fun _ => ?_
    exact .bind (quiet_logged (.bind (quiet_repositoryGet _) fun _ => trivial)) fun _ => trivial
  cases exn with
  | conflict message =>
    refine .bind (quiet_repositoryGet _) fun reminder => ?_
    split <;> trivial
  | failure info => exact hrecord _
  | notFound message => exact hrecord _
  | persistence message => exact hrecord _
  | unavailable message => exact hrecord _
  | invalid message => exact hrecord _
  | scheduler message => exact hrecord _
  | other message => exact hrecord _

/-- **The handler** keeps the protocol. -/
theorem keeps_execute (delivery : Delivery) :
    Keeps g i (fun _ _ _ => True) (execute g delivery) log w := by
  unfold execute
  split
  · split
    · exact Safe.raise trivial
    · refine Keeps.tryCatch ?_ steady_true trivial fun exn log w _ =>
        keeps_of_quiet (quiet_triggerFailed delivery _ exn)
      exact (keeps_triggerReminder _ _ _).bind steady_true trivial fun _ _ _ _ _ => Safe.ret trivial
  · exact Safe.raise trivial
  · exact Safe.raise trivial

/-! ## The orchestrator -/

theorem quiet_claimTask (env : Environment) (intent : ReminderIntent) :
    (claimTask env intent).All Quiet := by
  refine .tryCatch (quiet_createTask env _ _) fun exn => ?_
  split
  · split
    · trivial
    · refine .bind (quiet_getTask _ _ _) fun task => ?_
      split <;> trivial
  · trivial

theorem quiet_listReminders (workspaceKey : WorkspaceKey) (taskId traceId : String) :
    (listReminders workspaceKey taskId traceId).All Quiet := by
  apply quiet_rethrow
  exact .bind (quiet_getTask _ _ _) fun _ => .bind (.perform trivial) quiet_orRaise

theorem keeps_createReminder (env : Environment) (node : Node) (intent : ReminderIntent)
    (task : UserTask) :
    Keeps g i (fun _ _ _ => True) (createReminder env node intent task) log w := by
  refine (keeps_bridgeCreate env node _ _).tryCatch steady_true trivial fun exn log w _ => ?_
  split
  · exact .quiet_bind (quiet_updateTask _ _ _ _ _ _) steady_true trivial
      fun _ _ _ _ => Safe.raise trivial
  · exact Safe.raise trivial

theorem keeps_retryFailed (env : Environment) (node : Node) (intent : ReminderIntent)
    (reminder : Reminder) :
    Keeps g i (fun _ _ _ => True) (retryFailed env node intent reminder) log w := by
  refine (keeps_reconcile env node).bind steady_true trivial fun _ log w _ _ => ?_
  refine .quiet_bind (quiet_rethrow (quiet_repositoryGet _)) steady_true trivial
    fun reminder log w _ => ?_
  split
  · split <;> exact Safe.raise trivial
  · exact Safe.ret trivial

theorem keeps_createForTaskLocked (env : Environment) (node : Node) (intent : ReminderIntent) :
    Keeps g i (fun _ _ _ => True) (createForTaskLocked env node intent) log w := by
  refine .quiet_bind (quiet_claimTask env intent) steady_true trivial fun task log w _ => ?_
  have hclaim : Keeps g i (fun _ _ _ => True) (claimReminder env node intent task) log w := by
    refine .quiet_bind (quiet_listReminders _ _ _) steady_true trivial fun reminders log w _ => ?_
    split
    · exact keeps_createReminder env node intent task
    · split
      · exact keeps_retryFailed env node intent _
      · exact Safe.ret trivial
  refine hclaim.bind steady_true trivial fun reminder log w _ _ => ?_
  split
  · exact Safe.raise trivial
  · exact .quiet_bind (quiet_updateTask _ _ _ _ _ _) steady_true trivial
      fun _ _ _ _ => Safe.ret trivial

theorem keeps_withLock {body : Prog α} (node : Node) (name : String)
    (h : ∀ log w, Keeps g i (fun _ _ _ => True) body log w) :
    Keeps g i (fun _ _ _ => True) (withLock node name body) log w := by
  refine .quiet_bind (.perform trivial) steady_true trivial fun _ log w _ => ?_
  have hbody : Keeps g i (fun _ _ _ => True) (body.tryCatch fun exn =>
      Program.perform (Action.release node.process name) >>= fun _ => .raise exn) log w :=
    (h log w).tryCatch steady_true trivial fun exn log w _ =>
      .quiet_bind (.perform trivial) steady_true trivial fun _ _ _ _ => Safe.raise trivial
  refine hbody.bind steady_true trivial fun _ log w _ _ => ?_
  exact .quiet_bind (.perform trivial) steady_true trivial fun _ _ _ _ => Safe.ret trivial

/-- **The orchestrator** keeps the protocol. -/
theorem keeps_createForTask (env : Environment) (node : Node) (intent : ReminderIntent) :
    Keeps g i (fun _ _ _ => True) (createForTask env node intent) log w :=
  keeps_withLock node _ fun _ _ => keeps_createForTaskLocked env node intent

/-! ## Runs -/

/-- A call whose result is not used. -/
theorem Keeps.done {p : Prog α} (h : Keeps g i (fun _ _ _ => True) p log w) :
    Keeps g i (fun _ _ _ => True) (p >>= fun _ => .ret ()) log w :=
  h.bind steady_true trivial fun _ _ _ _ _ => Safe.ret trivial

theorem quiet_ofScheduler (p : Scheduler.Prog α) : (ofScheduler p).All Quiet :=
  .embed p fun _ => trivial

/-- **Every call** is safe from the moment it arrives. -/
theorem startsSafe (env : Environment) (g : Granularity) :
    StartsSafe protocol handler (pre g) (start env g) := by
  intro i k w hw
  cases k with
  | createTask workspaceKey task => exact (keeps_of_quiet (quiet_createTask env _ _)).done
  | completeTask node workspaceKey taskId revision traceId =>
    exact (keeps_transitionTask node workspaceKey taskId _ revision traceId).weaken.done
  | cancelTask node workspaceKey taskId revision traceId =>
    exact (keeps_transitionTask node workspaceKey taskId _ revision traceId).weaken.done
  | reopenTask workspaceKey taskId traceId => exact (keeps_of_quiet (quiet_reopenTask _ _ _)).done
  | create node workspaceKey args => exact (keeps_bridgeCreate env node workspaceKey args).done
  | reschedule node reminderId plan => exact (keeps_bridgeReschedule env node reminderId plan).done
  | cancel node reminderId traceId => exact (keeps_bridgeCancel node reminderId traceId).weaken.done
  | reconcile node => exact (keeps_reconcile env node).done
  | execute delivery => exact keeps_execute delivery
  | createForTask node intent => exact (keeps_createForTask env node intent).done
  | resolveToReminder node inboxItemId intent => exact (keeps_createForTask env node _).done
  | recoverJobs node => exact keeps_of_quiet (.bind (.perform trivial) quiet_orRaise)
  | scheduler request => exact keeps_of_quiet (quiet_ofScheduler _)

/-- **Every call of every run** meets its preconditions, and the tables are well formed. -/
theorem allSafe {env : Environment} {g : Granularity} {c : Calls} (h : Reachable env g c) :
    AllSafe protocol handler (pre g) c :=
  (AllSafe.idle Database.WellFormed.empty).reaches (sound g) (startsSafe env g) h

/-- The reminders evolve along every run. -/
theorem evolves_run {env : Environment} {g : Granularity} {c c' : Calls} (h : Reachable env g c)
    (hr : Reaches handler (start env g) c c') : Evolves c.world.reminders c'.world.reminders :=
  (allSafe h).relation (sound g) (startsSafe env g) hr
    (T := fun w w' => Evolves w.reminders w'.reminders) (fun w => .refl w.reminders)
    (fun _ _ _ => .trans) fun _ _ _ _ _ _ _ hw _ hpre hr => (pre.effect hw hpre hr).evolves hw

/-- **What one event does to the reminders**: it has an effect of the action the call awaits, which
meets its precondition, or the world stays. -/
theorem step_effect {env : Environment} {g : Granularity} {c c' : Calls}
    (h : AllSafe protocol handler (pre g) c) {ev : Event Request Input}
    (he : step handler (start env g) c ev = some c') :
    c'.world = c.world ∨ ∃ i input k log e next, ev = .act i input ∧
      c.calls[i]? = some ⟨k, log, .await e next⟩ ∧ pre g i log e c.world ∧
      Effect e c.world.reminders c'.world.reminders := by
  rcases step_cases he with ⟨k, -, rfl⟩ | ⟨i, input, k, log, e, next, r, w, rfl, hi, hr, rfl⟩
  · exact .inl rfl
  · have hpre := h.meets_pre hi
    exact .inr ⟨i, input, k, log, e, next, rfl, hi, hpre, pre.effect h.1 hpre hr⟩

end Reminders

import AiLabOs.Reminder.System
import AiLabOs.Reminder.Tables

/-!
# Reminders: effects

What a call must have established before it writes, and what an action that meets this does to the
reminders. A call that updates a reminder has seen the row it bases the update on; the row it
replaces is then the one it has seen, so the update makes a move the services allow.

## Main definitions

* `Seen`: a row a call has read, which may have moved on since
* `ReminderStatus.advances`, `Follows`, `Legal`: the moves of the services
* `Evolves`: how the reminders change while others act
* `protocol`, `pre`, `Effect`: the protocol of the calls and what an action does

## Main results

* `pre.effect`: an action that meets its precondition has one of the effects
* `sound`: the effects keep the protocol
-/

namespace Reminders

open Process UserTasks

/-! ## Moves -/

/-- A reminder apart from its failure, of which a row keeps only a part. -/
def Reminder.core (reminder : Reminder) : Reminder := { reminder with lastFailure := none }

@[simp] theorem Reminder.core_stored (reminder : Reminder) : reminder.stored.core = reminder.core :=
  rfl

/-- The changes of status that `transition` makes. -/
def ReminderStatus.advances : ReminderStatus → ReminderStatus → Bool
  | .pendingSchedule, .scheduled => true
  | .pendingSchedule, .failed => true
  | .pendingReschedule, .scheduled => true
  | .pendingReschedule, .pendingReschedule => true
  | .failed, .scheduled => true
  | .scheduled, .scheduled => true
  | .triggered, .triggered => true
  | .pendingCancel, .cancelled => true
  | status, .pendingCancel => !status.terminal
  | _, _ => false

/-- **The moves of the services**: a change of status, or a new plan for a reminder that has not
ended. -/
structure Follows (old new : Reminder) : Prop where
  id : new.id = old.id
  task : new.userTaskId = old.userTaskId
  intent : new.metadata.intentHash = old.metadata.intentHash
  move : old.status.advances new.status = true ∧ new.remindAt = old.remindAt ∨
    old.status.terminal = false ∧ new.status = .pendingReschedule

/-- A move of a row, to its next revision. -/
structure Legal (old new : Reminder) : Prop extends Follows old new where
  revision : new.revision = old.revision + 1

/-- What a move keeps does not depend on the failure of a row. -/
theorem Follows.of_core {seen old new : Reminder} (h : Follows seen new)
    (hcore : old.core = seen.core) :
    Follows old new := by
  have hid : old.core.id = seen.core.id := congrArg Reminder.id hcore
  have htask : old.core.userTaskId = seen.core.userTaskId := congrArg Reminder.userTaskId hcore
  have hmeta : old.core.metadata = seen.core.metadata := congrArg Reminder.metadata hcore
  have hstatus : old.core.status = seen.core.status := congrArg Reminder.status hcore
  have hat : old.core.remindAt = seen.core.remindAt := congrArg Reminder.remindAt hcore
  constructor
  · exact h.id.trans hid.symm
  · exact h.task.trans htask.symm
  · rw [h.intent]
    exact congrArg ReminderMetadata.intentHash hmeta.symm
  · rw [show old.status = seen.status from hstatus, show old.remindAt = seen.remindAt from hat]
    exact h.move

/-- A transition follows the reminder it is made of. -/
theorem Follows.changed {reminder : Reminder} {status : ReminderStatus} (changes : Changes)
    (traceId : String) (cancelledAt : Option DateTime)
    (h : reminder.status.advances status = true) :
    Follows reminder (changed reminder status changes traceId cancelledAt) :=
  ⟨rfl, rfl, rfl, .inl ⟨h, rfl⟩⟩

/-- So does a new plan. -/
theorem Follows.replanned {env : Environment} {reminder candidate : Reminder} {plan : Plan}
    (h : reminder.status.terminal = false) (hplan : replanned env reminder plan = .ok candidate) :
    Follows reminder candidate ∧ candidate.status = .pendingReschedule := by
  obtain ⟨remindAt, -, hplan⟩ := Except.of_bind_ok hplan
  cases hplan
  exact ⟨⟨rfl, rfl, rfl, .inr ⟨h, rfl⟩⟩, rfl⟩

/-! ## The protocol -/

/-- What can become of a row while others act: it keeps its task, and once it has ended its status
and its instant. -/
structure Evolved (row row' : Reminder) : Prop where
  id : row'.id = row.id
  task : row'.userTaskId = row.userTaskId
  revision : row' = row ∨ row.revision < row'.revision
  settled : row.status.terminal = true → row'.status = row.status ∧ row'.remindAt = row.remindAt

theorem Evolved.refl (row : Reminder) : Evolved row row :=
  ⟨rfl, rfl, .inl rfl, fun _ => ⟨rfl, rfl⟩⟩

theorem Evolved.trans {a b c : Reminder} (h : Evolved a b) (h' : Evolved b c) : Evolved a c := by
  constructor
  · rw [h'.id, h.id]
  · rw [h'.task, h.task]
  · rcases h.revision with rfl | hlt
    · exact h'.revision
    · rcases h'.revision with rfl | hlt'
      · exact .inr hlt
      · exact .inr (hlt.trans hlt')
  · intro hterminal
    obtain ⟨hstatus, hat⟩ := h.settled hterminal
    obtain ⟨hstatus', hat'⟩ := h'.settled (hstatus ▸ hterminal)
    exact ⟨hstatus'.trans hstatus, hat'.trans hat⟩

/-- How the reminders change while others act: rows stay, and evolve. -/
def Evolves (db db' : Database) : Prop :=
  ∀ row ∈ db.reminders, ∃ row' ∈ db'.reminders, Evolved row row'

theorem Evolves.refl (db : Database) : Evolves db db := fun row hrow => ⟨row, hrow, .refl row⟩

theorem Evolves.trans {a b c : Database} (h : Evolves a b) (h' : Evolves b c) : Evolves a c := by
  intro row hrow
  obtain ⟨row', hrow', he⟩ := h row hrow
  obtain ⟨row'', hrow'', he'⟩ := h' row' hrow'
  exact ⟨row'', hrow'', he.trans he'⟩

/-- Tables stay well formed, and rows evolve, whatever the call. -/
def protocol : Protocol World where
  Inv w := w.reminders.WellFormed
  Rely _ w w' := Evolves w.reminders w'.reminders
  refl _ w := .refl w.reminders
  trans := .trans

/-- A row that was read: it is there, and if it has not moved on it is as it was read. -/
def Seen (w : World) (reminder : Reminder) : Prop :=
  ∃ row ∈ w.reminders.reminders, row.id = reminder.id ∧ reminder.revision ≤ row.revision ∧
    (row.revision = reminder.revision → row.core = reminder.core)

theorem Seen.of_mem {w : World} {reminder : Reminder} (h : reminder ∈ w.reminders.reminders) :
    Seen w reminder :=
  ⟨reminder, h, rfl, Nat.le_refl _, fun _ => rfl⟩

theorem Seen.of_evolves {w w' : World} {reminder : Reminder} (h : Seen w reminder)
    (he : Evolves w.reminders w'.reminders) : Seen w' reminder := by
  obtain ⟨row, hrow, hid, hle, hcore⟩ := h
  obtain ⟨row', hrow', hev⟩ := he row hrow
  refine ⟨row', hrow', hev.id.trans hid, ?_⟩
  rcases hev.revision with rfl | hlt
  · exact ⟨hle, hcore⟩
  · exact ⟨by omega, fun heq => by omega⟩

/-- A reminder that has ended. -/
def Over (w : World) (reminderId : String) : Prop :=
  ∃ row ∈ w.reminders.reminders, row.id = reminderId ∧ row.status.terminal = true

theorem Over.of_evolves {w w' : World} {reminderId : String} (h : Over w reminderId)
    (he : Evolves w.reminders w'.reminders) : Over w' reminderId := by
  obtain ⟨row, hrow, hid, hterminal⟩ := h
  obtain ⟨row', hrow', hev⟩ := he row hrow
  exact ⟨row', hrow', hev.id.trans hid, (hev.settled hterminal).1 ▸ hterminal⟩

/-! ## Preconditions -/

/-- The last thing the call did was to find the task of a new reminder active. -/
def Checked (log : Log Action Action.Reply) (taskId : String) : Prop :=
  ∃ before workspaceKey task draft, log = before ++
    [⟨.checkTask workspaceKey taskId, (.ok task, draft)⟩] ∧ task.status = .active

/-- The last thing the call did was to select a reminder for its trigger. -/
def Selects (log : Log Action Action.Reply) (reminder : Reminder) (scheduledAt : DateTime) : Prop :=
  ∃ before, log = before ++ [⟨.triggerRead reminder.id scheduledAt, .ok (.proceed reminder)⟩]

/-- What a call has established before an action. -/
def pre (g : Granularity) (_ : ℕ) (log : Log Action Action.Reply) : Action → World → Prop
  | .create reminder, _ => reminder.status = .pendingSchedule ∧ Checked log reminder.userTaskId
  | .update candidate revision, w =>
    ∃ seen, Seen w seen ∧ revision = seen.revision ∧ Follows seen candidate
  | .trigger _ _ _, _ => g = .call
  | .triggerWrite reminder scheduledAt _, _ => g = .statement ∧ Selects log reminder scheduledAt
  | _, _ => True

/-! ## Effects -/

/-- The tables with a row in the place of the one that has its identifier. -/
def Database.put (db : Database) (row : Reminder) : Database :=
  { db with reminders := Table.put Reminder.id row db.reminders }

/-- **What an action may do to the reminders.** -/
inductive Effect (e : Action) (db : Database) : Database → Prop
  | read : Effect e db db
  | insert (reminder : Reminder) (he : e = .create reminder)
      (hstatus : reminder.status = .pendingSchedule)
      (hfree : ∀ row ∈ db.reminders, row.id ≠ reminder.id) :
      Effect e db { db with reminders := db.reminders ++ [reminder.stored] }
  | move (old candidate : Reminder) (revision : ℕ) (now : DateTime)
      (he : e = .update candidate revision) (hold : old ∈ db.reminders)
      (hlegal : Legal old (updatedRow candidate revision now).stored) :
      Effect e db (db.put (updatedRow candidate revision now).stored)
  | trigger (reminderId traceId : String) (scheduledAt : DateTime) (db' : Database)
      (he : e = .trigger reminderId scheduledAt traceId) (row : Reminder)
      (hrow : row ∈ db.reminders) (hid : row.id = reminderId) (hat : row.remindAt = scheduledAt)
      (hstatus : row.status = .scheduled ∨ row.status = .failed)
      (h : Triggers reminderId scheduledAt db db') : Effect e db db'
  | write (reminder : Reminder) (traceId : String) (scheduledAt : DateTime) (db' : Database)
      (he : e = .triggerWrite reminder scheduledAt traceId)
      (h : Triggers reminder.id scheduledAt db db') : Effect e db db'
  | fail (reminderId : String) (db' : Database) (h : RecordsFailure reminderId db db') :
      Effect e db db'

section Reads

variable {w : World} {supply : Supply}

@[simp] theorem World.createTask_reminders (task : UserTask) :
    (w.createTask task supply).2.reminders = w.reminders := by
  unfold World.createTask
  split
  · rfl
  · split <;> rfl

@[simp] theorem World.updateTask_reminders (workspaceKey : WorkspaceKey) (task : UserTask)
    (revision : ℕ) :
    (w.updateTask workspaceKey task revision supply).2.reminders = w.reminders := by
  unfold World.updateTask
  split
  · rfl
  · split <;> rfl

@[simp] theorem World.onJobs_reminders (message : String) (result : Bool × Scheduler.Database) :
    (w.onJobs supply message result).2.reminders = w.reminders := by
  unfold World.onJobs
  split <;> rfl

@[simp] theorem World.schedule_reminders (process : ℕ) (request : Scheduler.ScheduleRequest) :
    (w.schedule process request supply).2.reminders = w.reminders := by
  unfold World.schedule
  split
  · rfl
  · split
    · rfl
    · split
      · rfl
      · dsimp only
        split
        · rfl
        · split
          · rfl
          · split <;> rfl

@[simp] theorem World.sync_reminders (process : ℕ) :
    (w.sync process supply).2.reminders = w.reminders := by
  unfold World.sync
  split
  · rfl
  · split <;> rfl

@[simp] theorem World.recover_reminders (process : ℕ) :
    (w.recover process supply).2.reminders = w.reminders := by
  unfold World.recover
  split <;> rfl

end Reads

/-- A transaction over the reminders that succeeds leaves its tables. -/
theorem World.onReminders_cases {α : Type} (w : World) (result : Except Exn (α × Database)) :
    (w.onReminders result).2.reminders = w.reminders ∨
      ∃ a db, result = .ok (a, db) ∧ (w.onReminders result).2.reminders = db := by
  cases result with
  | error e => exact .inl rfl
  | ok r => exact .inr ⟨r.1, r.2, rfl, rfl⟩

theorem World.triggered_ok {result : Except Exn (Reminder × ReminderOccurrence × Bool × Database)}
    {a : Reminder × ReminderOccurrence × Bool} {db : Database}
    (h : World.triggered result = .ok (a, db)) : result = .ok (a.1, a.2.1, a.2.2, db) := by
  cases result with
  | error e => cases h
  | ok r =>
    cases h
    rfl

/-- An update that succeeds is based on the row it was made from. -/
theorem update_effect {w : World} (hw : w.reminders.WellFormed) {candidate updated seen : Reminder}
    {now : DateTime} {db : Database} (hseen : Seen w seen) (hfollows : Follows seen candidate)
    (h : w.reminders.update candidate seen.revision now = .ok (updated, db)) :
    Effect (.update candidate seen.revision) w.reminders db := by
  obtain ⟨rfl, old, hold, hid, hrev, rfl⟩ := Database.update_ok hw h
  obtain ⟨row, hrow, hrid, -, hcore⟩ := hseen
  -- the row that was replaced is the one that was seen
  obtain rfl : row = old := hw.ids.eq hrow hold (by rw [hrid, hid, hfollows.id])
  have hfrom := hfollows.of_core (hcore hrev)
  refine .move row candidate seen.revision now rfl hold ?_
  exact ⟨⟨hfrom.id, hfrom.task, hfrom.intent, hfrom.move⟩, by rw [hrev]; rfl⟩

/-- **Every action that meets its precondition has one of the effects.** -/
theorem pre.effect {g : Granularity} {i : ℕ} {log : Log Action Action.Reply} {e : Action}
    {input : Input} {r : e.Reply} {w w' : World} (hw : w.reminders.WellFormed)
    (hpre : pre g i log e w) (hr : handler i e input w = some (r, w')) :
    Effect e w.reminders w'.reminders := by
  cases input with
  | scheduler input =>
    cases e
    case scheduler action =>
      obtain ⟨⟨reply, scheduler⟩, -, heq⟩ := Option.map_eq_some_iff.mp hr
      cases heq
      exact .read
    all_goals cases hr
  | supply supply =>
    have hact : act supply w e = some (r, w') := by
      cases e <;> exact hr
    have hread : ∀ {x : e.Reply × World}, act supply w e = some x →
        x.2.reminders = w.reminders → Effect e w.reminders w'.reminders := by
      intro x hx hsame
      have hxw : x = (r, w') := Option.some.inj (hx.symm.trans hact)
      rw [hxw] at hsame
      exact (show w'.reminders = w.reminders from hsame) ▸ .read
    cases e with
    | now => exact hread rfl rfl
    | acquire process name =>
      simp only [act] at hact
      split at hact
      · cases hact
      · cases hact
        exact .read
    | release process name => exact hread rfl rfl
    | getTask workspaceKey taskId => exact hread rfl rfl
    | createTask task => exact hread rfl (World.createTask_reminders task)
    | updateTask workspaceKey task revision =>
      exact hread rfl (World.updateTask_reminders workspaceKey task revision)
    | checkTask workspaceKey taskId => exact hread rfl rfl
    | get reminderId => exact hread rfl rfl
    | listForTask taskId => exact hread rfl rfl
    | listAll => exact hread rfl rfl
    | listOccurrences reminderId => exact hread rfl rfl
    | triggerRead reminderId scheduledAt => exact hread rfl rfl
    | getJob jobId => exact hread rfl rfl
    | schedule process request => exact hread rfl (World.schedule_reminders process request)
    | cancelJob jobId => exact hread rfl (World.onJobs_reminders _ _)
    | rescheduleJob jobId revision runAt timezone payload =>
      exact hread rfl (World.onJobs_reminders _ _)
    | sync process => exact hread rfl (World.sync_reminders process)
    | recover process => exact hread rfl (World.recover_reminders process)
    | scheduler action => cases hact
    | create reminder =>
      have hw' : (w.create reminder supply).2 = w' := congrArg Prod.snd (Option.some.inj hact)
      subst hw'
      unfold World.create
      split
      · exact .read
      · rcases w.onReminders_cases (w.reminders.create reminder) with hsame | ⟨a, db, hok, heq⟩
        · rw [hsame]
          exact .read
        · rw [heq]
          obtain ⟨-, hfree, rfl⟩ := Database.create_ok hok
          exact .insert reminder rfl hpre.1 hfree
    | update candidate revision =>
      have hw' : (w.update candidate revision supply).2 = w' :=
        congrArg Prod.snd (Option.some.inj hact)
      subst hw'
      unfold World.update
      split
      · exact .read
      · rcases w.onReminders_cases (w.reminders.update candidate revision supply.now) with
          hsame | ⟨a, db, hok, heq⟩
        · rw [hsame]
          exact .read
        · rw [heq]
          obtain ⟨seen, hseen, rfl, hfollows⟩ := hpre
          exact update_effect hw hseen hfollows hok
    | trigger reminderId scheduledAt traceId =>
      have hw' : (w.trigger reminderId scheduledAt traceId supply).2 = w' :=
        congrArg Prod.snd (Option.some.inj hact)
      subst hw'
      unfold World.trigger
      split
      · exact .read
      · rcases w.onReminders_cases (World.triggered (w.reminders.trigger reminderId scheduledAt
          traceId supply.now ("occ_" ++ supply.hex))) with hsame | ⟨a, db, hok, heq⟩
        · rw [hsame]
          exact .read
        · rw [heq]
          rcases Database.trigger_ok hw (World.triggered_ok hok) with
            rfl | ⟨htriggers, row, hrow, hid, hat, hstatus⟩
          · exact .read
          · exact .trigger reminderId traceId scheduledAt db rfl row hrow hid hat hstatus htriggers
    | triggerWrite reminder scheduledAt traceId =>
      have hw' : (w.triggerWrite reminder scheduledAt traceId supply).2 = w' :=
        congrArg Prod.snd (Option.some.inj hact)
      subst hw'
      unfold World.triggerWrite
      split
      · exact .read
      · rcases w.onReminders_cases (World.triggered (w.reminders.triggerWrite reminder scheduledAt
          traceId supply.now ("occ_" ++ supply.hex))) with hsame | ⟨a, db, hok, heq⟩
        · rw [hsame]
          exact .read
        · rw [heq]
          exact .write reminder traceId scheduledAt db rfl
            (Database.triggerWrite_ok hw (World.triggered_ok hok))
    | recordTriggerFailure reminderId scheduledAt traceId failure =>
      have hw' : (w.recordTriggerFailure reminderId scheduledAt traceId failure supply).2 = w' :=
        congrArg Prod.snd (Option.some.inj hact)
      subst hw'
      unfold World.recordTriggerFailure
      split
      · exact .read
      · split
        · exact .read
        · rename_i db hok
          exact .fail reminderId db (Database.recordTriggerFailure_ok hw hok)

/-! ## Soundness -/

/-- A row that is replaced by one it evolves to. -/
theorem evolves_put {rows : List Reminder} (hids : Table.Unique Reminder.id rows)
    {old new : Reminder} (hold : old ∈ rows) (h : Evolved old new) :
    ∀ row ∈ rows, ∃ row' ∈ Table.put Reminder.id new rows, Evolved row row' := by
  intro row hrow
  by_cases hid : row.id = new.id
  · obtain rfl : row = old := hids.eq hrow hold (hid.trans h.id)
    exact ⟨new, Table.mem_put_self hold h.id.symm, h⟩
  · exact ⟨row, Table.mem_put_of_ne hrow hid, .refl row⟩

/-- A status that has ended advances to itself only. -/
theorem ReminderStatus.advances_terminal {status status' : ReminderStatus}
    (h : status.advances status' = true) (hterminal : status.terminal = true) :
    status' = status := by
  cases status <;> cases status' <;>
    simp_all [ReminderStatus.advances, ReminderStatus.terminal]

theorem Legal.evolved {old new : Reminder} (h : Legal old new) : Evolved old new := by
  refine ⟨h.id, h.task, .inr (by rw [h.revision]; omega), fun hterminal => ?_⟩
  rcases h.move with ⟨hadvances, hat⟩ | ⟨hrunning, -⟩
  · exact ⟨ReminderStatus.advances_terminal hadvances hterminal, hat⟩
  · rw [hterminal] at hrunning
    cases hrunning

theorem Triggers.evolves {reminderId : String} {scheduledAt : DateTime} {db db' : Database}
    (hdb : db.WellFormed) (h : Triggers reminderId scheduledAt db db') : Evolves db db' := by
  obtain ⟨old, hold, now, traceId, -, hcancelled, -, hput⟩ := h.reminder
  unfold Evolves
  rw [hput]
  refine evolves_put hdb.ids hold ⟨rfl, rfl, .inr (Nat.lt_succ_self _), fun hterminal => ⟨?_, rfl⟩⟩
  -- a reminder that has ended and is not cancelled is triggered
  have hstatus : old.status = .triggered := by
    simpa [ReminderStatus.terminal, hcancelled] using hterminal
  exact hstatus.symm

theorem RecordsFailure.evolves {reminderId : String} {db db' : Database} (hdb : db.WellFormed)
    (h : RecordsFailure reminderId db db') : Evolves db db' := by
  unfold Evolves
  rcases h.reminder with heq |
    ⟨old, hold, failure, traceId, now, -, htriggered, hcancelled, -, hput⟩
  · rw [heq]
    exact Evolves.refl db
  · rw [hput]
    refine evolves_put hdb.ids hold ⟨rfl, rfl, .inr (Nat.lt_succ_self _), fun hterminal => ?_⟩
    simp [ReminderStatus.terminal, htriggered, hcancelled] at hterminal

theorem Effect.wellFormed {e : Action} {db db' : Database} (hdb : db.WellFormed)
    (h : Effect e db db') : db'.WellFormed := by
  cases h with
  | read => exact hdb
  | insert reminder he hstatus hfree => exact hdb.setReminders (hdb.ids.insert hfree)
  | move old candidate revision now he hold hlegal => exact hdb.setReminders hdb.ids.put
  | trigger reminderId traceId scheduledAt db' he row hrow hid hat hstatus h => exact h.wellFormed
  | write reminder traceId scheduledAt db' he h => exact h.wellFormed
  | fail reminderId db' h => exact h.wellFormed

theorem Effect.evolves {e : Action} {db db' : Database} (hdb : db.WellFormed)
    (h : Effect e db db') : Evolves db db' := by
  cases h with
  | read => exact .refl db
  | insert reminder he hstatus hfree =>
    exact fun row hrow => ⟨row, List.mem_append_left _ hrow, .refl row⟩
  | move old candidate revision now he hold hlegal => exact evolves_put hdb.ids hold hlegal.evolved
  | trigger reminderId traceId scheduledAt db' he row hrow hid hat hstatus h => exact h.evolves hdb
  | write reminder traceId scheduledAt db' he h => exact h.evolves hdb
  | fail reminderId db' h => exact h.evolves hdb

/-- **The effects keep the protocol.** -/
theorem sound (g : Granularity) : Sound protocol handler (pre g) := by
  intro i log e input r w w' hw hpre hr
  have heffect := pre.effect hw hpre hr
  exact ⟨heffect.wellFormed hw, fun _ _ => heffect.evolves hw⟩

end Reminders

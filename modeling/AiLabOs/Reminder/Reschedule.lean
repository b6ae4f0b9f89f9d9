import AiLabOs.Process.Solo
import AiLabOs.Reminder.Management
import AiLabOs.Reminder.Trigger

/-!
# Reminders: repeated requests to reschedule

A request that comes again with its key is answered with what is stored, as long as the reminder
remembers the key. It remembers the key of the last plan that was accepted and no other one, so
that a duplicate that comes after another request is carried out once more.

## Main definitions

* `Settles`, `Refused`: why a request comes to change nothing
* `Sequence`, `Repeats`, `Same`: requests served one after the other, and what a repetition keeps

## Main results

* `settled_reschedule`: a request that is settled or refused leaves the world as it is
* `reschedule_settles`: a request that succeeds settles its repetition
* `reschedule_idempotent`, `reschedule_delayed`: repetitions in a sequence
-/

namespace Reminders

open Process UserTasks

/-! ## Programs that only read -/

/-- What an action does while the clock stands at `now`. -/
def handlerAt (now : DateTime) : Handler Action Action.Reply Input World
  | _, .now, _, w => some (now, w)
  | i, e, input, w => handler i e input w

/-- Run alone, a program leaves the world as it is, and what it returns meets `post`. -/
def Leaves {α : Type} (now : DateTime) (w : World) (post : α → Prop) (p : Prog α) : Prop :=
  ∀ i log, Solo (handlerAt now) i (fun a _ w' => w' = w ∧ post a) (fun _ _ w' => w' = w) p log w

section Leaves

variable {α β : Type} {now : DateTime} {w : World} {post post' : α → Prop} {postβ : β → Prop}

theorem Leaves.ret {a : α} (h : post a) : Leaves now w post (.ret a) :=
  fun _ _ => Solo.ret ⟨rfl, h⟩

theorem Leaves.raise {exn : Exn} : Leaves now w post (.raise exn : Prog α) :=
  fun _ _ => Solo.raise rfl

theorem Leaves.mono {p : Prog α} (h : Leaves now w post p) (hpost : ∀ a, post a → post' a) :
    Leaves now w post' p :=
  fun i log => (h i log).mono (fun a _ _ ha => ⟨ha.1, hpost a ha.2⟩) fun _ _ _ hx => hx

theorem Leaves.bind {p : Prog α} {f : α → Prog β} (h : Leaves now w post p)
    (hf : ∀ a, post a → Leaves now w postβ (f a)) : Leaves now w postβ (p >>= f) := by
  intro i log
  refine Solo.bind ((h i log).mono ?_ fun _ _ _ hx => hx)
  rintro a log' w' ⟨rfl, ha⟩
  exact hf a ha i log'

theorem Leaves.rethrow {p : Prog α} {f : Exn → Exn} (h : Leaves now w post p) :
    Leaves now w post (rethrow f p) :=
  fun i log => Solo.tryCatch ((h i log).mono (fun _ _ _ ha => ha) fun _ _ _ hx => Solo.raise hx)

theorem Leaves.orRaise {reply : Except Exn α} (h : ∀ a, reply = .ok a → post a) :
    Leaves now w post (orRaise reply) := by
  cases reply with
  | ok a => exact .ret (h a rfl)
  | error exn => exact .raise

theorem Leaves.orInvalid {result : Except Invalid α} (h : ∀ a, result = .ok a → post a) :
    Leaves now w post (orInvalid result) := by
  cases result with
  | ok a => exact .ret (h a rfl)
  | error invalid => exact .raise

/-- One action that reads, and what follows it. -/
theorem Leaves.reply {e : Action} {f : e.Reply → Prog β} (answer : Supply → e.Reply)
    (hsupply : ∀ i supply, handlerAt now i e (.supply supply) w = some (answer supply, w))
    (hscheduler : ∀ i input, handlerAt now i e (.scheduler input) w = none)
    (hf : ∀ supply, Leaves now w postβ (f (answer supply))) :
    Leaves now w postβ (Program.perform e >>= f) := by
  intro i log
  refine Solo.perform ⟨.supply { now }, _, _, hsupply i _⟩ fun input r w' hr => ?_
  cases input with
  | supply supply =>
    rw [hsupply] at hr
    obtain ⟨rfl, rfl⟩ := Prod.mk.inj (Option.some.inj hr)
    exact hf supply i _
  | scheduler input =>
    rw [hscheduler] at hr
    cases hr

end Leaves

/-! ## Reads -/

section Reads

variable {env : Environment} {now : DateTime} {w : World}

theorem reading_ok {α : Type} {supply : Supply} {message : String} {result : Except Exn α} {a : α}
    (h : reading supply message result = .ok a) : result = .ok a := by
  unfold reading at h
  split at h
  · cases h
  · exact h

theorem leaves_getReminder (reminderId traceId : String) :
    Leaves now w (fun row => w.reminders.find reminderId = some row)
      (getReminder reminderId traceId) := by
  refine .rethrow (.reply (fun supply => reading supply _ (w.reminders.get reminderId))
    (fun _ _ => rfl) (fun _ _ => rfl) fun supply => .orRaise fun row hrow => ?_)
  have hget := reading_ok hrow
  unfold Database.get at hget
  split at hget
  · cases hget
  · rename_i found hfound
    rwa [← Except.ok.inj hget]

theorem leaves_getTask (workspaceKey : WorkspaceKey) (taskId traceId : String) :
    Leaves now w (fun task => w.tasks.get workspaceKey taskId = .ok task)
      (getTask workspaceKey taskId traceId) := by
  refine .reply (fun supply => w.getTask workspaceKey taskId supply) (fun _ _ => rfl)
    (fun _ _ => rfl) fun supply => ?_
  cases hreply : w.getTask workspaceKey taskId supply with
  | error exn => exact .raise
  | ok task =>
    refine .ret ?_
    have hget := reading_ok hreply
    cases h : w.tasks.get workspaceKey taskId with
    | error e =>
      rw [h] at hget
      cases hget
    | ok found =>
      rw [h] at hget
      rw [Except.ok.inj hget]

theorem leaves_getJob (jobId : String) :
    Leaves now w (fun job => job = w.scheduler.db.getJob jobId) (getJob jobId) := by
  refine .reply (fun supply => w.getJob jobId supply) (fun _ _ => rfl) (fun _ _ => rfl)
    fun supply => .orRaise fun job hjob => ?_
  unfold World.getJob at hjob
  split at hjob
  · cases hjob
  · exact (Except.ok.inj hjob).symm

/-- The clock is read, at `now`. -/
theorem Leaves.clockNow_bind {α : Type} {post : α → Prop} {f : DateTime → Prog α}
    (hf : Leaves now w post (f now)) : Leaves now w post (clockNow >>= f) := by
  intro i log
  refine Solo.perform ⟨.supply { now }, now, w, rfl⟩ fun input r w' hr => ?_
  obtain ⟨rfl, rfl⟩ := Prod.mk.inj (Option.some.inj hr)
  exact hf i _

theorem leaves_listOccurrences (reminderId traceId : String) :
    Leaves now w (fun _ => True) (listOccurrences reminderId traceId) := by
  refine (leaves_getReminder reminderId traceId).bind fun _ _ => .rethrow ?_
  exact .reply (fun supply => reading supply _ (.ok (w.reminders.listOccurrences reminderId)))
    (fun _ _ => rfl) (fun _ _ => rfl) fun supply => .orRaise fun _ _ => trivial

theorem leaves_statusView (reminder : Reminder) (task : UserTask) (traceId : String) :
    Leaves now w (fun _ => True) (statusView env reminder task traceId) := by
  have hjob : Leaves now w (fun _ => True) (shownJob reminder) := by
    unfold shownJob
    split
    · exact .ret trivial
    · exact (leaves_getJob _).mono fun _ _ => trivial
  refine hjob.bind fun _ _ => (leaves_listOccurrences _ _).bind fun _ _ => ?_
  exact .orRaise fun _ _ => trivial

/-- **What a resolution found.** -/
theorem leaves_byId (workspaceKey : WorkspaceKey) (reminderId traceId : String) :
    Leaves now w (fun resolution => w.reminders.find reminderId = some resolution.reminder ∧
        ∃ task, w.tasks.get workspaceKey resolution.reminder.userTaskId = .ok task)
      (byId env workspaceKey reminderId traceId) := by
  have hread : Leaves now w (fun read => w.reminders.find reminderId = some read.1 ∧
        ∃ task, w.tasks.get workspaceKey read.1.userTaskId = .ok task)
      (readReminder workspaceKey reminderId traceId) := by
    refine (leaves_getReminder reminderId traceId).bind fun reminder hreminder => ?_
    refine (leaves_getTask workspaceKey _ traceId).bind fun task htask => ?_
    exact .ret ⟨hreminder, task, htask⟩
  refine hread.rethrow.bind fun read hfound => ?_
  exact (leaves_statusView _ _ _).bind fun _ _ => .ret hfound

/-- A reminder whose job runs gets no further. -/
theorem leaves_refuseRunning (reminder : Reminder) :
    Leaves now w (fun _ => ∀ jobId ∈ reminder.jobId, ∀ job ∈ w.scheduler.db.getJob jobId,
      job.status ≠ .running) (refuseRunning reminder) := by
  unfold refuseRunning
  split
  · rename_i hnone
    exact .ret fun jobId hjobId => by rw [hnone] at hjobId; cases hjobId
  · rename_i jobId hjobId
    refine (leaves_getJob jobId).bind fun job hjob => ?_
    split
    · exact .raise
    · rename_i hnotRunning
      refine .ret fun jobId' hjobId' found hfound hrunning => hnotRunning ?_
      obtain rfl : jobId = jobId' := Option.some.inj (hjobId.symm.trans hjobId')
      rw [hjob, Option.mem_def.mp hfound]
      simpa using hrunning

end Reads

/-! ## Requests that change nothing -/

/-- What the check of the key settles: the reminder is over, or it remembers the key of the request,
with another target or with the plan in force. -/
def Settles (env : Environment) (a : RescheduleArgs) (row : Reminder) : Prop :=
  row.status.terminal = true ∨ ∃ instant ∈ a.instant, ∃ previous ∈ a.remembered env row,
    previous.lookup "target" ≠ some instant.isoformat ∨
      row.status = .scheduled ∧ row.remindAt.isoformat = instant.isoformat

instance (env : Environment) (a : RescheduleArgs) (row : Reminder) :
    Decidable (Settles env a row) := by
  unfold Settles
  infer_instance

/-- Why a request is refused apart from its key: its instant overflows, its task is of another
workspace, there is no scheduler, the job runs, it is based on another revision, or the plan is not
acceptable or not in the future. -/
inductive Refused (env : Environment) (node : Node) (a : RescheduleArgs) (now : DateTime)
    (w : World) (row : Reminder) : Prop
  | overflow (h : a.instant = none)
  | hidden (h : ∀ task, w.tasks.get a.workspaceKey row.userTaskId ≠ .ok task)
  | noScheduler (h : node.hasScheduler = false)
  | running (jobId : String) (job : Scheduler.Job) (hjobId : row.jobId = some jobId)
      (hjob : w.scheduler.db.getJob jobId = some job) (h : job.status = .running)
  | revision (revision : ℕ) (hrevision : a.expectedRevision = some revision)
      (h : revision ≠ row.revision)
  | plan (h : ∀ instant ∈ a.instant, ∀ candidate,
      replanned env row (a.plan env instant.isoformat row) = .ok candidate →
        candidate.remindAt ≤ now)

section Refusals

variable {env : Environment} {node : Node} {a : RescheduleArgs} {now : DateTime} {w : World}
variable {row : Reminder}

/-- A plan that is refused gets no further than its preparation. -/
theorem leaves_prepareReschedule {instant : DateTime} (hrow : w.reminders.find row.id = some row)
    (hinstant : a.instant = some instant)
    (h : (∃ revision, a.expectedRevision = some revision ∧ revision ≠ row.revision) ∨
      ∀ instant ∈ a.instant, ∀ candidate,
        replanned env row (a.plan env instant.isoformat row) = .ok candidate →
          candidate.remindAt ≤ now) :
    Leaves now w (fun _ => False)
      (prepareReschedule env row.id (a.plan env instant.isoformat row)) := by
  refine (leaves_getReminder row.id _).bind fun found hfound => ?_
  obtain rfl : row = found := Option.some.inj (hrow.symm.trans hfound)
  split
  · exact .raise
  · split
    · exact .raise
    · rename_i hrevision
      refine .rethrow ?_
      rcases h with ⟨revision, hexpected, hne⟩ | hplan
      · refine absurd ?_ hrevision
        simp [RescheduleArgs.plan, hexpected, hne]
      · refine Leaves.bind (.orInvalid fun candidate hcandidate => hplan instant hinstant candidate
          hcandidate) fun candidate hpast => .clockNow_bind ?_
        rw [if_pos hpast]
        exact .raise

/-- **A request that is refused** is refused before anything is written. -/
theorem leaves_carryOut {instant : DateTime} {resolution : Resolution}
    (hrow : w.reminders.find resolution.reminder.id = some resolution.reminder)
    (htask : ∃ task, w.tasks.get a.workspaceKey resolution.reminder.userTaskId = .ok task)
    (hinstant : a.instant = some instant) (h : Refused env node a now w resolution.reminder) :
    Leaves now w (fun _ => True) (carryOut env node a instant.isoformat resolution) := by
  have hbridge : Leaves now w (fun _ => False) (bridgeReschedule env node resolution.reminder.id
      (a.plan env instant.isoformat resolution.reminder)) := by
    unfold bridgeReschedule
    by_cases hscheduler : node.hasScheduler = true
    · have hrequire : Leaves now w (fun _ => True) (requireScheduler node) := by
        unfold requireScheduler
        rw [if_pos hscheduler]
        exact .ret trivial
      refine hrequire.bind fun _ _ => (leaves_getReminder _ _).bind fun found hfound => ?_
      obtain rfl := Option.some.inj (hrow.symm.trans hfound)
      refine (leaves_refuseRunning resolution.reminder).bind fun _ hnotRunning => ?_
      refine @Leaves.bind _ _ _ _ (fun _ => False) _ _ _ ?_ fun _ hfalse => hfalse.elim
      cases h with
      | overflow h =>
        rw [hinstant] at h
        cases h
      | hidden h =>
        obtain ⟨task, htask⟩ := htask
        exact absurd htask (h task)
      | noScheduler h =>
        rw [hscheduler] at h
        cases h
      | running jobId job hjobId hjob h => exact absurd h (hnotRunning jobId hjobId job hjob)
      | revision revision hrevision h =>
        exact leaves_prepareReschedule hrow hinstant (.inl ⟨revision, hrevision, h⟩)
      | plan h => exact leaves_prepareReschedule hrow hinstant (.inr h)
    · have hrequire : Leaves now w (fun _ => False) (requireScheduler node) := by
        unfold requireScheduler
        rw [if_neg hscheduler]
        exact .raise
      exact hrequire.bind fun _ hfalse => hfalse.elim
  exact hbridge.rethrow.bind fun _ hfalse => hfalse.elim

/-- **A request that is settled or refused** leaves the world as it is. -/
theorem settled_reschedule
    (h : ∀ row, w.reminders.find a.reminderId = some row →
      Settles env a row ∨ Refused env node a now w row) :
    Leaves now w (fun _ => True) (reschedule env node a) := by
  refine (leaves_byId _ _ _).bind fun resolution hfound => ?_
  obtain ⟨hrow, htask⟩ := hfound
  have hid : resolution.reminder.id = a.reminderId := by simpa using List.find?_some hrow
  have hmeets := h resolution.reminder hrow
  rw [← hid] at hrow
  split
  · exact .raise
  · rename_i hterminal
    cases hinstant : a.instant with
    | none => exact .raise
    | some instant =>
      rcases hmeets with hsettles | hrefused
      · obtain hover | ⟨instant', hinstant', previous, hprevious, hsettled⟩ := hsettles
        · exact absurd hover hterminal
        · obtain rfl : instant = instant' := Option.some.inj (hinstant.symm.trans hinstant')
          simp only [answerOrCarryOut]
          rw [Option.mem_def.mp hprevious]
          dsimp only
          split
          · exact .raise
          · rename_i htarget
            rw [if_pos (hsettled.resolve_left htarget)]
            exact .ret trivial
      · have hcarry := leaves_carryOut hrow htask hinstant hrefused
        simp only [answerOrCarryOut]
        split
        · exact hcarry
        · split
          · exact .raise
          · split
            · exact .ret trivial
            · exact hcarry

end Refusals

/-! ## What a success leaves -/

/-- Run alone, a program leaves the reminders as they are, and what it returns meets `post`. -/
def KeepsRows {α : Type} (now : DateTime) (post : α → Prop) (p : Prog α) : Prop :=
  ∀ i log w, Solo (handlerAt now) i (fun a _ w' => w'.reminders = w.reminders ∧ post a)
    (fun _ _ _ => True) p log w

section KeepsRows

variable {α β : Type} {now : DateTime} {post : α → Prop} {postβ : β → Prop}

theorem KeepsRows.ret {a : α} (h : post a) : KeepsRows now post (.ret a) :=
  fun _ _ _ => Solo.ret ⟨rfl, h⟩

theorem KeepsRows.raise {exn : Exn} : KeepsRows now post (.raise exn : Prog α) :=
  fun _ _ _ => Solo.raise trivial

theorem KeepsRows.bind {p : Prog α} {f : α → Prog β} (h : KeepsRows now post p)
    (hf : ∀ a, post a → KeepsRows now postβ (f a)) : KeepsRows now postβ (p >>= f) := by
  intro i log w
  refine Solo.bind ((h i log w).mono ?_ fun _ _ _ hx => hx)
  rintro a log' w' ⟨hrows, ha⟩
  exact (hf a ha i log' w').mono (fun b _ _ hb => ⟨hb.1.trans hrows, hb.2⟩) fun _ _ _ hx => hx

theorem KeepsRows.orRaise {reply : Except Exn α} :
    KeepsRows now (fun _ => True) (orRaise reply) := by
  cases reply with
  | ok a => exact .ret trivial
  | error exn => exact .raise

/-- A transaction over the jobs, and what follows it. -/
theorem KeepsRows.reply {e : Action} {f : e.Reply → Prog β}
    (transaction : Supply → World → e.Reply × World)
    (hsupply : ∀ i supply w, handlerAt now i e (.supply supply) w = some (transaction supply w))
    (hscheduler : ∀ i input w, handlerAt now i e (.scheduler input) w = none)
    (hrows : ∀ supply w, (transaction supply w).2.reminders = w.reminders)
    (hf : ∀ r, KeepsRows now postβ (f r)) : KeepsRows now postβ (Program.perform e >>= f) := by
  intro i log w
  refine Solo.perform ⟨.supply { now }, _, _, hsupply i _ w⟩ fun input r w' hr => ?_
  cases input with
  | supply supply =>
    rw [hsupply] at hr
    have hkept := hrows supply w
    rw [Option.some.inj hr] at hkept
    exact (hf r i _ w').mono (fun b _ _ hb => ⟨hb.1.trans hkept, hb.2⟩) fun _ _ _ hx => hx
  | scheduler input =>
    rw [hscheduler] at hr
    cases hr

theorem keepsRows_getJob (jobId : String) : KeepsRows now (fun _ => True) (getJob jobId) :=
  .reply (fun supply w => (w.getJob jobId supply, w)) (fun _ _ _ => rfl) (fun _ _ _ => rfl)
    (fun _ _ => rfl) fun _ => .orRaise

theorem keepsRows_syncRegistry (node : Node) : KeepsRows now (fun _ => True) (syncRegistry node) :=
  .reply (fun supply w => w.sync node.process supply) (fun _ _ _ => rfl) (fun _ _ _ => rfl)
    (fun _ _ => World.sync_reminders _) fun _ => .orRaise

theorem keepsRows_createJob (node : Node) (reminder : Reminder) :
    KeepsRows now (fun _ => True) (createJob node reminder) := by
  have hrequire : KeepsRows now (fun _ => True) (requireScheduler node) := by
    unfold requireScheduler
    split
    · exact .ret trivial
    · exact .raise
  exact hrequire.bind fun _ _ => .reply (fun supply w => w.schedule node.process _ supply)
    (fun _ _ _ => rfl) (fun _ _ _ => rfl) (fun _ _ => World.schedule_reminders _ _)
    fun _ => .orRaise

theorem keepsRows_moveJob (node : Node) (reminder : Reminder) (jobId : String) :
    KeepsRows now (fun _ => True) (moveJob node reminder jobId) := by
  refine (keepsRows_getJob jobId).bind fun job _ => ?_
  split
  · exact .ret trivial
  · split
    · exact .ret trivial
    · refine .reply (fun supply w => w.onJobs supply _ _) (fun _ _ _ => rfl) (fun _ _ _ => rfl)
        (fun _ _ => World.onJobs_reminders _ _) fun _ => .bind .orRaise fun _ _ => ?_
      exact (keepsRows_syncRegistry node).bind fun _ _ => .ret trivial

/-- The job follows the plan: of the reminder nothing but its job changes. -/
theorem keepsRows_followPlan (node : Node) (reminder : Reminder) :
    KeepsRows now (fun followed => ∃ job, followed = { reminder with schedulerJobId := job })
      (followPlan node reminder) := by
  have hmove : KeepsRows now (fun _ => True) (moveKnownJob node reminder) := by
    unfold moveKnownJob
    split
    · exact .ret trivial
    · refine (keepsRows_moveJob node reminder _).bind fun _ _ => ?_
      split
      · exact .ret trivial
      · refine (keepsRows_getJob _).bind fun _ _ => ?_
        split
        · exact .raise
        · exact .ret trivial
  refine hmove.bind fun _ _ => ?_
  split
  · exact .ret ⟨_, rfl⟩
  · exact (keepsRows_createJob node reminder).bind fun job _ => .ret ⟨some job.id, rfl⟩

end KeepsRows

section Updates

variable {env : Environment} {node : Node} {now : DateTime} {i : ℕ} {w : World}
variable {log : Log Action Action.Reply}

/-- The row of an identifier, in well-formed tables. -/
theorem Database.WellFormed.find_eq {db : Database} (h : db.WellFormed) {row : Reminder}
    (hrow : row ∈ db.reminders) : db.find row.id = some row := by
  unfold Database.find
  cases hfind : db.reminders.find? fun other => other.id = row.id with
  | none => exact absurd (decide_eq_true rfl) (List.find?_eq_none.mp hfind row hrow)
  | some found =>
    have hid : found.id = row.id := by simpa using List.find?_some hfind
    rw [h.ids.eq (List.mem_of_find?_eq_some hfind) hrow hid]

/-- What was written is found. -/
def Found (reminder : Reminder) (w : World) : Prop :=
  w.reminders.WellFormed ∧ w.reminders.find reminder.id = some reminder.stored

/-- **An update** leaves the row that it returns. -/
theorem solo_repositoryUpdate (hw : w.reminders.WellFormed) (candidate : Reminder) (revision : ℕ) :
    Solo (handlerAt now) i
      (fun updated _ w' => Found updated w' ∧ ∃ at', updated = updatedRow candidate revision at')
      (fun _ _ _ => True) (repositoryUpdate candidate revision) log w := by
  refine Solo.perform ⟨.supply { now }, _, _, rfl⟩ fun input r w' hr => ?_
  cases r with
  | error exn => exact Solo.raise trivial
  | ok updated =>
    refine Solo.ret ?_
    obtain ⟨hwritten, hupdated⟩ := update_reply (i := i) hw hr
    have hw' : w'.reminders.WellFormed := by
      cases input with
      | scheduler input => cases hr
      | supply supply =>
        have hpair : w.update candidate revision supply = (.ok updated, w') := Option.some.inj hr
        unfold World.update at hpair
        split at hpair
        · cases hpair
        · cases hok : w.reminders.update candidate revision supply.now with
          | error e =>
            rw [hok] at hpair
            cases hpair
          | ok result =>
            rw [hok] at hpair
            cases hpair
            obtain ⟨-, -, -, -, -, hdb⟩ := Database.update_ok hw hok
            show result.2.WellFormed
            rw [hdb]
            exact hw.setReminders hw.ids.put
    exact ⟨⟨hw', hw'.find_eq hwritten⟩, hupdated⟩

/-- A plan as it was accepted: its instant, and the record of its request. -/
def Accepted (a : RescheduleArgs) (record : Dict) (reminder : Reminder) : Prop :=
  a.remindAt = .utc reminder.remindAt ∧ reminder.metadata.managementReschedule = some record

theorem replanned_accepted {a : RescheduleArgs} {target : String} {seen row candidate : Reminder}
    (h : replanned env row (a.plan env target seen) = .ok candidate) :
    Accepted a (a.operationMetadata env target seen) candidate := by
  obtain ⟨remindAt, hvalid, h⟩ := Except.of_bind_ok h
  obtain rfl := Except.ok.inj h
  obtain ⟨instant, hinstant, hrest⟩ := Except.of_bind_ok hvalid
  simp only [Except.unit_bind_ok_iff] at hrest
  obtain ⟨-, -, hsame⟩ := hrest
  obtain rfl : instant = remindAt := Except.ok.inj hsame
  exact ⟨normalizeDatetime_ok hinstant, rfl⟩

/-- A transition that cancels nothing is one update. -/
theorem solo_transition (hw : w.reminders.WellFormed) (reminder : Reminder)
    (status : ReminderStatus) (hstatus : status ≠ .cancelled) (changes : Changes)
    (traceId : String) :
    Solo (handlerAt now) i
      (fun updated _ w' => Found updated w' ∧ ∃ at', updated =
        updatedRow (changed reminder status changes traceId reminder.cancelledAt) reminder.revision
          at')
      (fun _ _ _ => True) (transition reminder status changes traceId) log w := by
  unfold transition cancelledNow
  rw [if_neg hstatus]
  refine Solo.bind (Solo.ret (Solo.tryCatch ?_))
  exact (solo_repositoryUpdate hw _ _).mono (fun _ _ _ h => h) fun _ _ _ _ => Solo.raise trivial

/-- The exception branch of a reschedule never returns. -/
theorem solo_failReschedule {post : Reminder → Log Action Action.Reply → World → Prop}
    (reminder : Reminder) (traceId : String) (exn : Exn) :
    Solo (handlerAt now) i post (fun _ _ _ => True) (failReschedule reminder traceId exn) log
      w := by
  have hraise : ∀ log w, Solo (handlerAt now) i post (fun _ _ _ => True)
      (Program.raise (Exn.failure (bridgeFailure exn "reschedule" reminder))) log w :=
    fun _ _ => Solo.raise trivial
  refine Solo.bind (Solo.tryCatch (Solo.bind (Solo.bind (Solo.ret (Solo.tryCatch ?_)))))
  refine Solo.perform ⟨.supply { now }, _, _, rfl⟩ fun input r w' hr => ?_
  cases r with
  | error exn => exact Solo.raise (Solo.raise (Solo.ret (hraise _ _)))
  | ok updated => exact Solo.ret (Solo.ret (hraise _ _))

/-- **A plan that is prepared** is written. -/
theorem solo_prepareReschedule (hw : w.reminders.WellFormed) {a : RescheduleArgs}
    {target reminderId : String} {seen : Reminder} :
    Solo (handlerAt now) i
      (fun reminder _ w' => Found reminder w' ∧ reminder.id = reminderId ∧
        Accepted a (a.operationMetadata env target seen) reminder)
      (fun _ _ _ => True) (prepareReschedule env reminderId (a.plan env target seen)) log w := by
  refine Solo.bind ((leaves_getReminder reminderId _ i log).mono ?_ fun _ _ _ _ => trivial)
  rintro row log' w' ⟨rfl, hrow⟩
  have hid : row.id = reminderId := by simpa using List.find?_some hrow
  split
  · exact Solo.raise trivial
  · rename_i hterminal
    split
    · exact Solo.raise trivial
    · refine Solo.tryCatch (Solo.bind ?_)
      cases hcandidate : replanned env row (a.plan env target seen) with
      | error invalid => exact Solo.raise (Solo.raise trivial)
      | ok candidate =>
        have haccepted := replanned_accepted hcandidate
        have hfollows := (Follows.replanned (by simpa using hterminal) hcandidate).1
        have hcid : candidate.id = reminderId := hfollows.id.trans hid
        refine Solo.ret (Solo.bind (Solo.perform ⟨.supply { now }, now, w', rfl⟩ ?_))
        intro input instant w'' hr
        obtain ⟨rfl, rfl⟩ := Prod.mk.inj (Option.some.inj hr)
        refine Solo.ret ?_
        split
        · exact Solo.raise (Solo.raise trivial)
        · refine (solo_repositoryUpdate hw candidate row.revision).mono ?_
            fun _ _ _ _ => Solo.raise trivial
          rintro updated log'' w'' ⟨hfound, at', rfl⟩
          exact ⟨hfound, hcid, haccepted⟩

/-- **A reschedule that succeeds** leaves the reminder scheduled by the plan. -/
theorem solo_bridgeReschedule (hw : w.reminders.WellFormed) {a : RescheduleArgs}
    {target reminderId : String} {seen : Reminder} :
    Solo (handlerAt now) i
      (fun reminder _ w' => Found reminder w' ∧ reminder.id = reminderId ∧
        reminder.status = .scheduled ∧ Accepted a (a.operationMetadata env target seen) reminder)
      (fun _ _ _ => True) (bridgeReschedule env node reminderId (a.plan env target seen)) log
      w := by
  have hrequire : Leaves now w (fun _ => True) (requireScheduler node) := by
    unfold requireScheduler
    split
    · exact .ret trivial
    · exact .raise
  refine Solo.bind ((hrequire i log).mono ?_ fun _ _ _ _ => trivial)
  rintro - log₁ w₁ ⟨rfl, -⟩
  refine Solo.bind ((leaves_getReminder reminderId _ i log₁).mono ?_ fun _ _ _ _ => trivial)
  rintro current log₂ w₂ ⟨rfl, -⟩
  refine Solo.bind ((leaves_refuseRunning current i log₂).mono ?_ fun _ _ _ _ => trivial)
  rintro - log₃ w₃ ⟨rfl, -⟩
  refine Solo.bind ((solo_prepareReschedule hw).mono ?_ fun _ _ _ h => h)
  rintro reminder log₄ w₄ ⟨hfound, hid, haccepted⟩
  -- from here on an exception is recorded and raised
  refine Solo.bind (Solo.tryCatch ((keepsRows_followPlan node reminder i log₄ w₄).mono ?_ ?_))
  · rintro followed log₅ w₅ ⟨hrows, job, rfl⟩
    have hw₅ : w₅.reminders.WellFormed := hrows ▸ hfound.1
    refine Solo.tryCatch ((solo_transition hw₅ _ .scheduled (by decide) _ _).mono ?_ ?_)
    · rintro updated log₆ w₆ ⟨hupdated, at', rfl⟩
      exact ⟨hupdated, hid, rfl, haccepted⟩
    · exact fun exn log₆ w₆ _ => solo_failReschedule _ _ exn
  · exact fun exn log₅ w₅ _ => solo_failReschedule reminder _ exn

/-- A plan in force settles the request it was accepted for. -/
theorem Accepted.settles {a : RescheduleArgs} {target : String} {seen reminder : Reminder}
    (hkey : a.key ≠ "") (hstatus : reminder.status = .scheduled)
    (h : Accepted a (a.operationMetadata env target seen) reminder) :
    Settles env a reminder.stored := by
  have hinstant : a.instant = some reminder.remindAt := by
    unfold RescheduleArgs.instant
    rw [h.1]
  have hlookup : (a.operationMetadata env target seen).lookup "key_hash" =
      some (env.sha256 a.key) := by
    simp [RescheduleArgs.operationMetadata, hkey, List.lookup_cons]
  refine .inr ⟨reminder.remindAt, hinstant, a.operationMetadata env target seen, ?_,
    .inr ⟨hstatus, rfl⟩⟩
  unfold RescheduleArgs.remembered
  rw [if_neg hkey, show reminder.stored.metadata.managementReschedule = some _ from h.2]
  simp [hlookup]

/-- The answer of the bridge settles the request. -/
theorem solo_carryOut (hw : w.reminders.WellFormed) {a : RescheduleArgs} (hkey : a.key ≠ "")
    (target : String) (resolution : Resolution) :
    Solo (handlerAt now) i
      (fun _ _ w' => ∃ row, w'.reminders.find resolution.reminder.id = some row ∧
        Settles env a row)
      (fun _ _ _ => True) (carryOut env node a target resolution) log w := by
  refine Solo.bind (Solo.tryCatch ((solo_bridgeReschedule hw).mono ?_
    fun _ _ _ _ => Solo.raise trivial))
  rintro reminder log₁ w₁ ⟨⟨-, hfind⟩, hid, hstatus, haccepted⟩
  have hsettles := haccepted.settles hkey hstatus
  refine Solo.bind ((leaves_byId _ reminder.id _ i log₁).mono ?_ fun _ _ _ _ => trivial)
  rintro current log₂ w₂ ⟨rfl, -⟩
  exact Solo.ret ⟨reminder.stored, hid ▸ hfind, hsettles⟩

/-- **A request that succeeds settles its repetition**: until another plan is accepted, the reminder
remembers its key. -/
theorem reschedule_settles (hw : w.reminders.WellFormed) {a : RescheduleArgs} (hkey : a.key ≠ "") :
    Solo (handlerAt now) i
      (fun _ _ w' => ∃ row, w'.reminders.find a.reminderId = some row ∧ Settles env a row)
      (fun _ _ _ => True) (reschedule env node a) log w := by
  refine Solo.bind ((leaves_byId _ a.reminderId _ i log).mono ?_ fun _ _ _ _ => trivial)
  rintro resolution log₁ w₁ ⟨rfl, hrow, -⟩
  have hid : resolution.reminder.id = a.reminderId := by simpa using List.find?_some hrow
  split
  · exact Solo.raise trivial
  · cases hinstant : a.instant with
    | none => exact Solo.raise trivial
    | some instant =>
      have hcarry := @solo_carryOut env node now i _ log₁ hw a hkey instant.isoformat resolution
      rw [hid] at hcarry
      simp only [answerOrCarryOut]
      split
      · exact hcarry
      · rename_i previous hprevious
        split
        · exact Solo.raise trivial
        · split
          · rename_i hforce
            exact Solo.ret ⟨resolution.reminder, hrow,
              .inr ⟨instant, hinstant, previous, hprevious, .inr hforce⟩⟩
          · exact hcarry

end Updates

/-! ## Sequences of requests -/

/-- A request that was served alone, from one world to another. -/
structure Served where
  node : Node
  args : RescheduleArgs
  now : DateTime
  before : World
  outcome : Outcome Exn ManagementResult
  after : World

/-- **Requests one after the other**, from a world on. -/
inductive Sequence (env : Environment) (w : World) : List Served → World → Prop
  | nil : Sequence env w [] w
  | serve {past : List Served} (request : Served) (h : Sequence env w past request.before)
      (log : Log Action Action.Reply)
      (hrun : Alone (handlerAt request.now) past.length
        (reschedule env request.node request.args) [] request.before request.outcome log
        request.after) :
      Sequence env w (past ++ [request]) request.after

/-- The request carries the key of an earlier one for its reminder that succeeded. -/
def Repeats (past : List Served) (request : Served) : Prop :=
  request.args.key ≠ "" ∧ ∃ earlier ∈ past, earlier.args.reminderId = request.args.reminderId ∧
    earlier.args.key = request.args.key ∧ ∃ result, earlier.outcome = .returned result

/-- **Nothing of a reminder changes**: its instant, its status, and its job. -/
def Same (reminderId : String) (w w' : World) : Prop :=
  (w'.reminders.find reminderId).map (fun row => (row.remindAt, row.status, row.schedulerJobId)) =
    (w.reminders.find reminderId).map (fun row => (row.remindAt, row.status, row.schedulerJobId)) ∧
  w'.scheduler.db.jobs = w.scheduler.db.jobs

/-- **When a request changes nothing**: it is settled by its key, or refused. -/
def Served.Meets (env : Environment) (request : Served) : Prop :=
  ∀ row, request.before.reminders.find request.args.reminderId = some row →
    Settles env request.args row ∨
      Refused env request.node request.args request.now request.before row

/-- One request of a sequence was served alone, from its world to the next. -/
theorem Sequence.served {env : Environment} {w w' : World} {steps : List Served}
    (h : Sequence env w steps w') {request : Served} (hrequest : request ∈ steps) :
    ∃ i log, Alone (handlerAt request.now) i (reschedule env request.node request.args) []
      request.before request.outcome log request.after := by
  induction h with
  | nil => cases hrequest
  | serve last hpast log hrun ih =>
    rcases List.mem_append.mp hrequest with hin | hlast
    · exact ih hin
    · obtain rfl := List.mem_singleton.mp hlast
      exact ⟨_, log, hrun⟩

/-- **Rescheduling is idempotent** in every sequence of requests in which each repetition is settled
by the key that the reminder remembers, or refused. -/
theorem reschedule_idempotent {env : Environment} {w w' : World} {steps : List Served}
    (h : Sequence env w steps w')
    (hmeets : ∀ past request rest, steps = past ++ request :: rest → Repeats past request →
      request.Meets env) :
    ∀ past request rest, steps = past ++ request :: rest → Repeats past request →
      Same request.args.reminderId request.before request.after := by
  intro past request rest hsteps hrepeats
  have hmem : request ∈ steps := by simp [hsteps]
  obtain ⟨i, log, hrun⟩ := h.served hmem
  have hleaves := settled_reschedule (hmeets past request rest hsteps hrepeats) i []
  have hsame : request.after = request.before := by
    have hends := hleaves.alone hrun
    cases houtcome : request.outcome with
    | returned result =>
      rw [houtcome] at hends
      exact hends.1
    | raised exn =>
      rw [houtcome] at hends
      exact hends
  rw [hsame]
  exact ⟨rfl, rfl⟩

namespace Scenario

/-- The tables with a reminder for nine. -/
def made : World := (after .call setup).world

/-- A request with a key, for an hour. -/
def keyed (text : String) (n : Fin 24) : RescheduleArgs where
  workspaceKey := key
  remindAt := .utc (hour n)
  timezone := "UTC"
  reminderId := "rem_1"
  idempotencyKey := text

/-- The request served from `w` at seven, as one of a sequence, with the given number of awaits. -/
def servedFrom (i awaits : ℕ) (a : RescheduleArgs) (w : World) : Served :=
  let run := (runAlone (handlerAt (hour 7)) i (List.replicate awaits (supply (hour 7)))
    (reschedule env node a) [] w).getD (.raised (.other ""), [], w)
  ⟨node, a, hour 7, w, run.1, run.2.2⟩

theorem servedFrom_run (i awaits : ℕ) (a : RescheduleArgs) (w : World)
    (h : (runAlone (handlerAt (hour 7)) i (List.replicate awaits (supply (hour 7)))
      (reschedule env node a) [] w).isSome = true) :
    ∃ log, Alone (handlerAt (hour 7)) i (reschedule env node a) [] w
      (servedFrom i awaits a w).outcome log (servedFrom i awaits a w).after := by
  obtain ⟨⟨outcome, log, w'⟩, hrun⟩ := Option.isSome_iff_exists.mp h
  refine ⟨log, ?_⟩
  unfold servedFrom
  rw [hrun]
  exact alone_of_run hrun

/-- The reminder is moved to ten, with the key `a`. -/
def firstMove : Served := servedFrom 0 19 (keyed "a" 10) made

example : (firstMove.after.reminders.find "rem_1").map Reminder.remindAt = some (hour 10) := by
  decide +kernel

/-- The request comes once more. -/
def promptDuplicate : Served := servedFrom 1 5 (keyed "a" 10) firstMove.after

/-- In between, the reminder is moved to eleven, with the key `b`. -/
def secondMove : Served := servedFrom 1 19 (keyed "b" 11) firstMove.after

/-- The first request comes once more, after the second one. -/
def lateDuplicate : Served := servedFrom 2 19 (keyed "a" 10) secondMove.after

theorem sequence_firstMove : Sequence env made [firstMove] firstMove.after := by
  obtain ⟨log, hrun⟩ := servedFrom_run 0 19 (keyed "a" 10) made (by decide +kernel)
  exact Sequence.nil.serve firstMove log hrun

theorem sequence_promptDuplicate :
    Sequence env made [firstMove, promptDuplicate] promptDuplicate.after := by
  obtain ⟨log, hrun⟩ := servedFrom_run 1 5 (keyed "a" 10) firstMove.after (by decide +kernel)
  exact sequence_firstMove.serve promptDuplicate log hrun

theorem sequence_lateDuplicate :
    Sequence env made [firstMove, secondMove, lateDuplicate] lateDuplicate.after := by
  obtain ⟨log, hrun⟩ := servedFrom_run 1 19 (keyed "b" 11) firstMove.after (by decide +kernel)
  obtain ⟨log', hrun'⟩ := servedFrom_run 2 19 (keyed "a" 10) secondMove.after (by decide +kernel)
  exact (sequence_firstMove.serve secondMove log hrun).serve lateDuplicate log' hrun'

theorem firstMove_returned : ∃ result, firstMove.outcome = .returned result := by
  have hreturned : (match firstMove.outcome with
    | .returned _ => true
    | .raised _ => false) = true := by decide +kernel
  cases houtcome : firstMove.outcome with
  | returned result => exact ⟨result, rfl⟩
  | raised exn =>
    rw [houtcome] at hreturned
    cases hreturned

example : (lateDuplicate.after.reminders.find "rem_1").map Reminder.remindAt = some (hour 10) := by
  decide +kernel

end Scenario

/-- Right after it succeeded, a request is answered with what is stored. -/
theorem reschedule_repeated :
    Same "rem_1" Scenario.firstMove.after Scenario.promptDuplicate.after := by
  refine reschedule_idempotent Scenario.sequence_promptDuplicate ?_ [Scenario.firstMove]
    Scenario.promptDuplicate [] rfl ?_
  · intro past request rest hsteps hrepeats
    match past, hsteps with
    | [], _ =>
      obtain ⟨-, earlier, hearlier, -⟩ := hrepeats
      cases hearlier
    | [_], hsteps =>
      obtain ⟨-, rfl, -⟩ : _ ∧ Scenario.promptDuplicate = request ∧ _ := by
        simpa only [List.cons_append, List.nil_append, List.cons.injEq] using hsteps
      have hsettles : ∀ row ∈ Scenario.promptDuplicate.before.reminders.find "rem_1",
          Settles Scenario.env (Scenario.keyed "a" 10) row := by decide +kernel
      exact fun row hrow => .inl (hsettles row hrow)
    | _ :: _ :: _, hsteps => simp at hsteps
  · exact ⟨by decide +kernel, Scenario.firstMove, List.mem_singleton.mpr rfl, rfl, rfl,
      Scenario.firstMove_returned⟩

/-- **A late duplicate moves the reminder back**: the key of the first request is forgotten with
the second one, and the reminder is at ten again. -/
theorem reschedule_delayed : ¬ ∀ (env : Environment) (w w' : World) (steps : List Served),
    Sequence env w steps w' → ∀ past request rest, steps = past ++ request :: rest →
      Repeats past request → Same request.args.reminderId request.before request.after := by
  intro hall
  have hrepeats : Repeats [Scenario.firstMove, Scenario.secondMove] Scenario.lateDuplicate :=
    ⟨by decide +kernel, Scenario.firstMove, List.mem_cons_self .., rfl, rfl,
      Scenario.firstMove_returned⟩
  have hsame := hall _ _ _ _ Scenario.sequence_lateDuplicate
    [Scenario.firstMove, Scenario.secondMove] Scenario.lateDuplicate [] rfl hrepeats
  have hrow := congrArg (Option.map fun row => row.1) hsame.1
  revert hrow
  decide +kernel

end Reminders

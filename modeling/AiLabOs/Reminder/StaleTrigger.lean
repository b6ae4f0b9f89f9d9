import AiLabOs.Reminder.Trigger

/-!
# Reminders: triggers statement by statement

With the statements of a trigger apart, its first one selects the reminder before its write
transaction begins, and a new plan may be committed in between. The guard of the transaction asks
only that the reminder is not cancelled and not being cancelled, so it then commits the occurrence
of an instant the reminder has left. While no new plan comes in between, it commits only what is
due.

## Main definitions

* `DueLaw`: what becomes triggered is due
* `overtaken c sel`: a new plan was committed for a reminder since it was selected
* `undisturbed`: the event is not the write of such a trigger

## Main results

* `no_stale_trigger`: the law, at every step of a run whose triggers are undisturbed
* `stale_trigger`: a trigger that a new plan has overtaken
-/

namespace Reminders

open Process

/-- **What becomes triggered is due**: its reminder is scheduled or has failed, at that instant,
when the occurrence is committed. -/
def DueLaw (c c' : Calls) : Prop :=
  ∀ occ ∈ c'.world.reminders.occurrences, occ.status = .triggered →
    occ ∈ c.world.reminders.occurrences ∨ ∃ row ∈ c.world.reminders.reminders,
      row.id = occ.reminderId ∧ (row.status = .scheduled ∨ row.status = .failed) ∧
      row.remindAt = occ.scheduledAt

instance (c c' : Calls) : Decidable (DueLaw c c') := by
  unfold DueLaw
  infer_instance

/-- A new plan that was committed for a reminder, at the revision it was selected at or a later
one. -/
def newPlan (sel : Reminder) : (Σ e : Action, e.Reply) → Bool
  | ⟨.update candidate revision, .ok _⟩ => candidate.id = sel.id &&
      candidate.status = .pendingReschedule && sel.revision ≤ revision
  | _ => false

/-- A new plan was committed for a reminder since it was selected. -/
def overtaken (c : Calls) (sel : Reminder) : Bool := performed (newPlan sel) c

/-- The event is not the write of a trigger whose reminder was given a new plan since. -/
def undisturbed (c : Calls) : Event Request Input → Bool
  | .act i _ =>
    match awaited c i with
    | some (.triggerWrite sel _ _) => !overtaken c sel
    | _ => true
  | _ => true

/-! ## What a selection lasts for -/

/-- A status no new plan or first schedule is pending in. -/
def ReminderStatus.planned (status : ReminderStatus) : Prop :=
  status ≠ .pendingSchedule ∧ status ≠ .pendingReschedule

theorem ReminderStatus.advances_planned {status status' : ReminderStatus}
    (h : status.advances status' = true) (hplanned : status.planned) : status'.planned := by
  obtain ⟨hschedule, hreschedule⟩ := hplanned
  constructor <;> rintro rfl <;> cases status <;>
    simp_all [ReminderStatus.advances]

/-- The reminder that was selected is still the reminder of that instant. -/
def Holds (db : Database) (sel : Reminder) (scheduledAt : DateTime) : Prop :=
  ∃ row ∈ db.reminders, row.id = sel.id ∧ sel.revision ≤ row.revision ∧
    row.remindAt = scheduledAt ∧ row.status.planned

/-- **Only a new plan ends it.** -/
theorem Effect.holds {e : Action} {db db' : Database} (hdb : db.WellFormed) (h : Effect e db db')
    {sel : Reminder} {scheduledAt : DateTime} (hholds : Holds db sel scheduledAt)
    (hplan : ∀ candidate revision, e = .update candidate revision → candidate.id = sel.id →
      candidate.status = .pendingReschedule → revision < sel.revision) :
    Holds db' sel scheduledAt := by
  obtain ⟨row, hrow, hid, hle, hat, hplanned⟩ := hholds
  -- a row that is replaced by one of a later revision, at the same instant
  have hput : ∀ old new : Reminder, old ∈ db.reminders → new.id = old.id →
      old.revision ≤ new.revision → new.remindAt = old.remindAt →
      (old.id = sel.id → old.status.planned → new.status.planned) →
      db'.reminders = Table.put Reminder.id new db.reminders → Holds db' sel scheduledAt := by
    intro old new hold hnid hrevision hnat hnplanned hrows
    unfold Holds
    rw [hrows]
    by_cases hkey : row.id = new.id
    · obtain rfl : row = old := hdb.ids.eq hrow hold (hkey.trans hnid)
      exact ⟨new, Table.mem_put_self hrow hkey, hkey ▸ hid, hle.trans hrevision, hnat.trans hat,
        hnplanned hid hplanned⟩
    · exact ⟨row, Table.mem_put_of_ne hrow hkey, hid, hle, hat, hplanned⟩
  cases h with
  | read => exact ⟨row, hrow, hid, hle, hat, hplanned⟩
  | insert reminder he hstatus hfree =>
    exact ⟨row, List.mem_append_left _ hrow, hid, hle, hat, hplanned⟩
  | move old candidate revision now he hold hlegal =>
    by_cases hkey : row.id = old.id
    · obtain rfl : row = old := hdb.ids.eq hrow hold hkey
      rcases hlegal.move with ⟨hadvances, hnat⟩ | ⟨hrunning, hstatus⟩
      · exact hput row _ hrow hlegal.id (hlegal.revision ▸ Nat.le_succ _) hnat
          (fun _ => ReminderStatus.advances_planned hadvances) rfl
      · have hrevision : revision = row.revision := Nat.succ.inj hlegal.revision
        have hlt := hplan candidate revision he (hlegal.id.trans hid) hstatus
        omega
    · have hne : row.id ≠ (updatedRow candidate revision now).stored.id := hlegal.id ▸ hkey
      exact ⟨row, Table.mem_put_of_ne hrow hne, hid, hle, hat, hplanned⟩
  | trigger reminderId traceId scheduledAt' db' he row' hrow' hid' hat' hstatus h =>
    obtain ⟨old, hold, now, traceId, -, -, -, hrows⟩ := h.reminder
    exact hput old (Database.triggeredReminder now traceId old) hold rfl (Nat.le_succ _) rfl
      (fun _ _ => ⟨nofun, nofun⟩) hrows
  | write reminder traceId scheduledAt' db' he h =>
    obtain ⟨old, hold, now, traceId, -, -, -, hrows⟩ := h.reminder
    exact hput old (Database.triggeredReminder now traceId old) hold rfl (Nat.le_succ _) rfl
      (fun _ _ => ⟨nofun, nofun⟩) hrows
  | fail reminderId db' h =>
    rcases h.reminder with heq | ⟨old, hold, failure, traceId, now, -, -, -, -, hrows⟩
    · unfold Holds
      rw [heq]
      exact ⟨row, hrow, hid, hle, hat, hplanned⟩
    · exact hput old (Database.failedReminder failure traceId now old) hold rfl (Nat.le_succ _) rfl
        (fun _ _ => ⟨nofun, nofun⟩) hrows

/-- An update that fails changes nothing. -/
theorem update_failed {i : ℕ} {w w' : World} {candidate : Reminder} {revision : ℕ} {exn : Exn}
    {input : Input}
    (hr : handler i (.update candidate revision) input w = some (.error exn, w')) : w' = w := by
  cases input with
  | scheduler input => cases hr
  | supply supply =>
    have hpair : w.update candidate revision supply = (.error exn, w') := Option.some.inj hr
    unfold World.update at hpair
    split at hpair
    · cases hpair
      rfl
    · cases hok : w.reminders.update candidate revision supply.now with
      | error e =>
        rw [hok] at hpair
        cases hpair
        rfl
      | ok result =>
        rw [hok] at hpair
        cases hpair

/-- What a call has selected before the write of its trigger lasts, or a new plan has come. -/
def Windows (c : Calls) : Prop :=
  ∀ (i : ℕ) k log sel scheduledAt traceId next,
    c.calls[i]? = some ⟨k, log, .await (.triggerWrite sel scheduledAt traceId) next⟩ →
      overtaken c sel = true ∨ Holds c.world.reminders sel scheduledAt

theorem Windows.step {env : Environment} {g : Granularity} {c c' : Calls}
    (hall : AllSafe protocol handler (pre g) c) (hall' : AllSafe protocol handler (pre g) c')
    (h : Windows c) {ev : Event Request Input}
    (he : Process.step handler (start env g) c ev = some c') : Windows c' := by
  intro j k log sel scheduledAt traceId next hj
  have hselects : Selects log sel scheduledAt := (hall'.meets_pre hj).2
  rcases call_cases he hj with hsame | ⟨k', -, hcall⟩ |
    ⟨input, k', log', e, next', r, -, -, hr, hcall⟩
  · rcases h j k log sel scheduledAt traceId next hsame with hnew | hholds
    · exact .inl (performed_step he hnew)
    · rcases step_cases he with
        ⟨k', -, rfl⟩ | ⟨i, input, k', log', e, next', r, w, -, hi, hr, rfl⟩
      · exact .inr hholds
      · have heffect := pre.effect hall.1 (hall.meets_pre hi) hr
        by_cases hplan : newPlan sel ⟨e, r⟩ = true
        · refine .inl (performed_iff.mpr ⟨i, _, List.getElem?_set_self ?_, ⟨e, r⟩, ?_, hplan⟩)
          · exact (List.getElem?_eq_some_iff.mp hi).1
          · exact List.mem_append_right _ (List.mem_singleton_self _)
        · refine .inr ?_
          by_cases hworld : w = c.world
          · rw [hworld]
            exact hholds
          · refine heffect.holds hall.1 hholds fun candidate revision hupdate hid hstatus => ?_
            subst hupdate
            cases r with
            | error exn => exact absurd (update_failed hr) hworld
            | ok updated => simpa [newPlan, hid, hstatus] using hplan
  · -- a call that arrives has selected nothing
    obtain ⟨before, hlog⟩ := hselects
    rw [(Call.mk.inj hcall).2.1] at hlog
    simp at hlog
  · -- the call has just selected the reminder
    obtain ⟨before, hlog⟩ := hselects
    rw [(Call.mk.inj hcall).2.1] at hlog
    have hlast := List.append_inj_right' hlog rfl
    obtain ⟨rfl, hreply⟩ := Sigma.mk.inj (List.singleton_inj.mp hlast)
    obtain rfl := eq_of_heq hreply
    cases input with
    | scheduler input => cases hr
    | supply supply =>
      obtain ⟨hread, hworld⟩ := Prod.mk.inj (Option.some.inj hr)
      unfold reading at hread
      split at hread
      · cases hread
      · obtain ⟨hrow, -, hat, hstatus⟩ := Database.triggerRead_proceed hread
        refine .inr ⟨sel, hworld ▸ hrow, rfl, Nat.le_refl _, hat, ?_⟩
        rcases hstatus with hstatus | hstatus <;> rw [hstatus] <;> exact ⟨nofun, nofun⟩

/-! ## The law -/

/-- What one step makes triggered, when the write of a trigger finds the reminder it selected. -/
theorem Effect.due {e : Action} {db db' : Database} (hdb : db.WellFormed) (hs : db.Settled)
    (h : Effect e db db') (hwrite : ∀ sel scheduledAt traceId,
      e = .triggerWrite sel scheduledAt traceId → Holds db sel scheduledAt) :
    ∀ occ ∈ db'.occurrences, occ.status = .triggered → occ ∈ db.occurrences ∨
      ∃ row ∈ db.reminders, row.id = occ.reminderId ∧
        (row.status = .scheduled ∨ row.status = .failed) ∧ row.remindAt = occ.scheduledAt := by
  intro occ hocc htriggered
  cases h with
  | read => exact .inl hocc
  | insert reminder he hstatus hfree => exact .inl hocc
  | move old candidate revision now he hold hlegal => exact .inl hocc
  | trigger reminderId traceId scheduledAt db' he row hrow hid hat hstatus h =>
    rcases h.only occ hocc htriggered with hold | ⟨horid, hoat⟩
    · exact .inl hold
    · exact .inr ⟨row, hrow, hid.trans horid.symm, hstatus, hat.trans hoat.symm⟩
  | write sel traceId scheduledAt db' he h =>
    rcases h.only occ hocc htriggered with hold | ⟨horid, hoat⟩
    · exact .inl hold
    · obtain ⟨row, hrow, hid, -, hat, hschedule, hreschedule⟩ := hwrite sel scheduledAt traceId he
      obtain ⟨old, hold, now, trace, hoid, hcancelled, hpending, -⟩ := h.reminder
      obtain rfl : row = old := hdb.ids.eq hrow hold (hid.trans hoid.symm)
      by_cases hdone : row.status = .triggered
      · -- the reminder is triggered, so its occurrence is the one of that instant
        obtain ⟨occ', hocc', hrid', hat', htriggered'⟩ := hs.occurrence row hrow hdone
        have hkept := h.kept occ' hocc' htriggered'
        have hsame : occ = occ' := h.wellFormed.occurrence_eq hocc hkept
          (horid.trans (hid.symm.trans hrid'.symm)) (hoat.trans (hat.symm.trans hat'.symm))
        exact .inl (hsame ▸ hocc')
      · refine .inr ⟨row, hrow, hid.trans horid.symm, ?_, hat.trans hoat.symm⟩
        cases hstatus : row.status <;> simp_all
  | fail reminderId db' h => exact .inl ((h.triggered occ htriggered).mp hocc)

/-- What a run whose triggers are undisturbed keeps, and each of its steps. -/
theorem due_step {env : Environment} {g : Granularity} {c c' : Calls} (h : Reachable env g c)
    (hs : c.world.reminders.Settled) (hw : Windows c) {ev : Event Request Input}
    (hok : undisturbed c ev = true) (he : step handler (start env g) c ev = some c') :
    c'.world.reminders.Settled ∧ Windows c' ∧ DueLaw c c' := by
  have hall := allSafe h
  have hall' := hall.step (sound g) (startsSafe env g) he
  -- the write of a trigger finds the reminder it selected
  have hholds : ∀ i input, ev = .act i input → ∀ e {k log next},
      c.calls[i]? = some ⟨k, log, .await e next⟩ → ∀ sel scheduledAt traceId,
        e = .triggerWrite sel scheduledAt traceId → Holds c.world.reminders sel scheduledAt := by
    rintro i input rfl e k log next hi sel scheduledAt traceId rfl
    rcases hw i k log sel scheduledAt traceId next hi with hnew | hholds
    · simp [undisturbed, awaited_eq hi, hnew] at hok
    · exact hholds
  refine ⟨?_, hw.step hall hall' he, ?_⟩
  all_goals rcases step_effect hall he with
    hworld | ⟨i, input, k, log, e, next, rfl, hi, -, heffect⟩
  · exact hworld ▸ hs
  · refine heffect.settled hall.1 hs fun sel scheduledAt traceId hwrite => ?_
    obtain ⟨row, hrow, hid, -, hat, -⟩ := hholds i input rfl e hi sel scheduledAt traceId hwrite
    exact ⟨row, hrow, hid, hat⟩
  · exact fun occ hocc _ => .inl (hworld ▸ hocc)
  · exact heffect.due hall.1 hs (hholds i input rfl e hi)

/-- **No stale trigger**: in a run whose triggers are undisturbed, what becomes triggered is due. -/
theorem no_stale_trigger {env : Environment} {g : Granularity} {c c' : Calls}
    (h : ReachesIf handler (start env g) undisturbed (idle World.initial) c)
    {ev : Event Request Input} (hok : undisturbed c ev = true)
    (he : step handler (start env g) c ev = some c') : DueLaw c c' := by
  have hboth : c.world.reminders.Settled ∧ Windows c := by
    refine h.induction (motive := fun d => d.world.reminders.Settled ∧ Windows d) ⟨.empty, ?_⟩ ?_
    · intro i k log sel scheduledAt traceId next hi
      cases hi
    · intro d ev d' hd hmotive hok he
      obtain ⟨hs, hw, -⟩ := due_step hd.reaches hmotive.1 hmotive.2 hok he
      exact ⟨hs, hw⟩
  exact (due_step h.reaches hboth.1 hboth.2 hok he).2.2

namespace Scenario

/-- Shortly before nine the reminder is about to be given a new plan, for ten; at nine its job is
claimed, and its delivery selects the reminder. -/
def selected : List (Event Request Input) := setup ++ ([
  .arrive (.reschedule node "rem_1" { remindAt := .utc (hour 10), timezone := "UTC" }),
  .act 2 (supply (hour 8)), .act 2 (supply (hour 8)), .act 2 (supply (hour 8)),
  .act 2 (supply (hour 8)),
  .arrive (.scheduler (.dispatch {} "job1" (hour 9))),
  .act 3 (.scheduler (.claim ⟨"token", "run"⟩)),
  .arrive (.execute delivery), .act 4 (supply (hour 9) "a")] : List (Event Request Input))

/-- Then the new plan is committed. -/
def moved : List (Event Request Input) :=
  selected ++ ([.act 2 (supply (hour 9))] : List (Event Request Input))

/-- The write of the trigger. -/
def write : Event Request Input := .act 4 (supply (hour 9) "a")

end Scenario

/-- **A stale trigger**: the new plan is committed, and then the trigger of the old instant. -/
theorem stale_trigger :
    Reachable Scenario.env .statement (Scenario.after .statement Scenario.moved) ∧
    step handler (start Scenario.env .statement) (Scenario.after .statement Scenario.moved)
      Scenario.write = some (Scenario.after .statement (Scenario.moved ++ [Scenario.write])) ∧
    ¬ DueLaw (Scenario.after .statement Scenario.moved)
      (Scenario.after .statement (Scenario.moved ++ [Scenario.write])) :=
  ⟨Scenario.reachable (by decide +kernel), Scenario.stepped (by decide +kernel), by decide +kernel⟩

/-- Without the new plan the trigger is that of a reminder that is due. -/
theorem no_stale_trigger_scenario :
    ((Scenario.after .statement (Scenario.selected ++
      [Scenario.write])).world.reminders.occurrences.map
      fun occ => occ.status) = [.triggered] ∧
    DueLaw (Scenario.after .statement Scenario.selected)
      (Scenario.after .statement (Scenario.selected ++ [Scenario.write])) :=
  ⟨by decide +kernel,
    no_stale_trigger (Scenario.reachableIf (by decide +kernel)) (by decide +kernel)
    (Scenario.stepped (by decide +kernel))⟩

end Reminders

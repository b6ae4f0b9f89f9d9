import AiLabOs.Reminder.Trigger

/-!
# Reminders: a cancellation that is under way

A reminder that is being cancelled should only ever become cancelled. A trigger and the record of a
failed one leave it alone, and so does every transition. A new plan does not: `prepare_reschedule`
refuses a reminder that is triggered or cancelled, but not one that is pending cancellation. As
long as no new plan is written over a pending cancellation, the cancellation stands.

## Main definitions

* `CancelLaw`: what is being cancelled stays so, or is cancelled
* `replansPending`: the event writes a new plan over a pending cancellation

## Main results

* `cancel_law`: the law, in every run without such an event
* `cancel_law_broken`: a cancellation that a crash cut short is overtaken by a new plan
-/

namespace Reminders

open Process

/-- **What is being cancelled** stays so, or is cancelled, at its own instant. -/
def CancelLaw (c c' : Calls) : Prop :=
  ∀ row ∈ c.world.reminders.reminders, row.status = .pendingCancel →
    ∃ row' ∈ c'.world.reminders.reminders, row'.id = row.id ∧
      (row'.status = .pendingCancel ∨ row'.status = .cancelled) ∧ row'.remindAt = row.remindAt

instance (c c' : Calls) : Decidable (CancelLaw c c') := by
  unfold CancelLaw
  infer_instance

/-- The event writes a new plan over a pending cancellation. -/
def replansPending (c : Calls) : Event Request Input → Bool
  | .act i _ =>
    match awaited c i with
    | some (.update candidate revision) => candidate.status = .pendingReschedule &&
        c.world.reminders.reminders.any fun row => row.id = candidate.id &&
          row.revision = revision && row.status = .pendingCancel
    | _ => false
  | _ => false

/-- A status that is or was a pending cancellation. -/
def ReminderStatus.leaving (status : ReminderStatus) : Prop :=
  status = .pendingCancel ∨ status = .cancelled

theorem ReminderStatus.advances_leaving {status status' : ReminderStatus}
    (h : status.advances status' = true) (hleaving : status.leaving) : status'.leaving := by
  unfold ReminderStatus.leaving at *
  rcases hleaving with rfl | rfl <;> cases status' <;>
    simp_all [ReminderStatus.advances, ReminderStatus.terminal]

/-- A row whose cancellation is under way, after an effect that writes no new plan over it. -/
theorem Effect.leaving {e : Action} {db db' : Database} (hdb : db.WellFormed) (h : Effect e db db')
    {row : Reminder} (hrow : row ∈ db.reminders) (hleaving : row.status.leaving)
    (hplan : ∀ candidate, e = .update candidate row.revision → candidate.id = row.id →
      candidate.status = .pendingReschedule → row.status ≠ .pendingCancel) :
    ∃ row' ∈ db'.reminders, row'.id = row.id ∧ row'.status.leaving ∧
      row'.remindAt = row.remindAt := by
  -- a row that is not the one replaced stays
  have hstays : ∀ old new : Reminder, old ∈ db.reminders → new.id = old.id → ¬ old.status.leaving →
      db'.reminders = Table.put Reminder.id new db.reminders →
      ∃ row' ∈ db'.reminders, row'.id = row.id ∧ row'.status.leaving ∧
        row'.remindAt = row.remindAt := by
    intro old new hold hid hother hput
    have hne : row.id ≠ new.id := fun heq =>
      hother (hdb.ids.eq hrow hold (heq.trans hid) ▸ hleaving)
    rw [hput]
    exact ⟨row, Table.mem_put_of_ne hrow hne, rfl, hleaving, rfl⟩
  cases h with
  | read => exact ⟨row, hrow, rfl, hleaving, rfl⟩
  | insert reminder he hstatus hfree =>
    exact ⟨row, List.mem_append_left _ hrow, rfl, hleaving, rfl⟩
  | move old candidate revision now he hold hlegal =>
    by_cases hkey : row.id = (updatedRow candidate revision now).stored.id
    · obtain rfl : row = old := hdb.ids.eq hrow hold (hkey.trans hlegal.id)
      refine ⟨_, Table.mem_put_self hrow hkey, hlegal.id, ?_⟩
      rcases hlegal.move with ⟨hadvances, hat⟩ | ⟨hrunning, hstatus⟩
      · exact ⟨ReminderStatus.advances_leaving hadvances hleaving, hat⟩
      · have hrevision : revision = row.revision := Nat.succ.inj hlegal.revision
        have hpending := hplan candidate (hrevision ▸ he) hlegal.id hstatus
        rcases hleaving with hleaving | hleaving
        · exact absurd hleaving hpending
        · rw [hleaving] at hrunning
          cases hrunning
    · exact ⟨row, Table.mem_put_of_ne hrow hkey, rfl, hleaving, rfl⟩
  | trigger reminderId traceId scheduledAt db' he row' hrow' hid hat hstatus h =>
    obtain ⟨old, hold, now, trace, hoid, hcancelled, hpending, hput⟩ := h.reminder
    refine hstays old (Database.triggeredReminder now trace old) hold rfl ?_ hput
    exact fun hleaving => hleaving.elim hpending hcancelled
  | write reminder traceId scheduledAt db' he h =>
    obtain ⟨old, hold, now, trace, hoid, hcancelled, hpending, hput⟩ := h.reminder
    refine hstays old (Database.triggeredReminder now trace old) hold rfl ?_ hput
    exact fun hleaving => hleaving.elim hpending hcancelled
  | fail reminderId db' h =>
    rcases h.reminder with heq |
      ⟨old, hold, failure, trace, now, hoid, -, hcancelled, hpending, hput⟩
    · rw [heq]
      exact ⟨row, hrow, rfl, hleaving, rfl⟩
    · refine hstays old (Database.failedReminder failure trace now old) hold rfl ?_ hput
      exact fun hleaving => hleaving.elim hpending hcancelled

/-- **A cancellation stands**, in every run that writes no new plan over a pending cancellation. -/
theorem cancel_law {env : Environment} {g : Granularity} {c c' : Calls} (h : Reachable env g c)
    (hr : ReachesIf handler (start env g) (fun d ev => !replansPending d ev) c c') :
    CancelLaw c c' := by
  intro row hrow hstatus
  refine hr.induction (motive := fun d => ∃ row' ∈ d.world.reminders.reminders, row'.id = row.id ∧
    row'.status.leaving ∧ row'.remindAt = row.remindAt) ⟨row, hrow, rfl, .inl hstatus, rfl⟩ ?_
  rintro d ev d' hd ⟨row', hrow', hid, hleaving, hat⟩ hok he
  have hall := allSafe (h.trans hd.reaches)
  rcases step_effect hall he with hworld | ⟨i, input, k, log, e, next, rfl, hi, -, heffect⟩
  · rw [hworld]
    exact ⟨row', hrow', hid, hleaving, hat⟩
  · have hplan : ∀ candidate, e = .update candidate row'.revision → candidate.id = row'.id →
        candidate.status = .pendingReschedule → row'.status ≠ .pendingCancel := by
      intro candidate he hcid hplan hpending
      -- the event would write a new plan over it
      have hreplans : replansPending d (.act i input) = true := by
        simp only [replansPending, awaited_eq hi, he, Bool.and_eq_true, decide_eq_true_eq,
          List.any_eq_true]
        exact ⟨hplan, row', hrow', ⟨hcid.symm, rfl⟩, hpending⟩
      rw [hreplans] at hok
      cases hok
    obtain ⟨row'', hrow'', hid', hleaving', hat'⟩ := heffect.leaving hall.1 hrow' hleaving hplan
    exact ⟨row'', hrow'', hid'.trans hid, hleaving', hat'.trans hat⟩

namespace Scenario

/-- A cancellation that goes no further than its first update. -/
def cancelling : List (Event Request Input) :=
  setup ++ ([.arrive (.cancel node "rem_1" ""), .act 2 (supply (hour 7)),
    .act 2 (supply (hour 7))] : List (Event Request Input))

/-- The reminder is then rescheduled for ten. -/
def rescheduled : List (Event Request Input) := [
  .arrive (.reschedule node "rem_1" { remindAt := .utc (hour 10), timezone := "UTC" }),
  .act 3 (supply (hour 7)), .act 3 (supply (hour 7)), .act 3 (supply (hour 7)),
  .act 3 (supply (hour 7)), .act 3 (supply (hour 7)), .act 3 (supply (hour 7)),
  .act 3 (supply (hour 7)), .act 3 (supply (hour 7)), .act 3 (supply (hour 7))]

/-- Or it is delivered, in vain, and the cancellation is tried again. -/
def retried : List (Event Request Input) := [
  .arrive (.execute delivery), .act 3 (supply (hour 9) "a"), .act 3 (supply (hour 9)),
  .arrive (.cancel node "rem_1" ""), .act 4 (supply (hour 9)), .act 4 (supply (hour 9)),
  .act 4 (supply (hour 9)), .act 4 (supply (hour 9)), .act 4 (supply (hour 9)),
  .act 4 (supply (hour 9)), .act 4 (supply (hour 9)), .act 4 (supply (hour 9))]

end Scenario

/-- **A cancellation is overtaken**: one that stopped after its first update is followed by a
reschedule, and the reminder is scheduled again, for another instant. -/
theorem cancel_law_broken :
    Reachable Scenario.env .call (Scenario.after .call Scenario.cancelling) ∧
    Reaches handler (start Scenario.env .call) (Scenario.after .call Scenario.cancelling)
      (Scenario.after .call (Scenario.cancelling ++ Scenario.rescheduled)) ∧
    ((Scenario.after .call (Scenario.cancelling ++
      Scenario.rescheduled)).world.reminders.reminders.map
      fun row => (row.status, row.remindAt)) = [(.scheduled, Scenario.hour 10)] ∧
    ¬ CancelLaw (Scenario.after .call Scenario.cancelling)
      (Scenario.after .call (Scenario.cancelling ++ Scenario.rescheduled)) :=
  ⟨Scenario.reachable (by decide +kernel), Scenario.continues (by decide +kernel),
    by decide +kernel, by decide +kernel⟩

/-- A delivery does not disturb the cancellation, and the next attempt ends it. -/
theorem cancel_law_scenario :
    ((Scenario.after .call (Scenario.cancelling ++ Scenario.retried)).world.reminders.reminders.map
      fun row => row.status) = [.cancelled] ∧
    CancelLaw (Scenario.after .call Scenario.cancelling)
      (Scenario.after .call (Scenario.cancelling ++ Scenario.retried)) :=
  ⟨by decide +kernel, cancel_law (Scenario.reachable (by decide +kernel))
    (Scenario.continuesIf (by decide +kernel) (by decide +kernel))⟩

end Reminders

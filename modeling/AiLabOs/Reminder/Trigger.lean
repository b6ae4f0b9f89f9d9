import AiLabOs.Process.Conditioned
import AiLabOs.Reminder.SystemSteps

/-!
# Reminders: a reminder is triggered once

A reminder that is triggered and the triggered occurrence of its instant are two sides of one
event. While triggers are transactions, no operation parts them, and no operation moves a
reminder that has ended.

## Main definitions

* `Database.Settled`: the triggered reminders and the triggered occurrences agree
* `TriggerLaw`: what holds of the tables, and along runs

## Main results

* `Effect.settled`: every effect of an atomic trigger keeps the agreement
* `triggered_once`: the law, in every run
-/

namespace Reminders

open Process UserTasks

/-- The triggered reminders and the triggered occurrences agree. -/
structure Database.Settled (db : Database) : Prop where
  row : ∀ occ ∈ db.occurrences, occ.status = .triggered → ∃ row ∈ db.reminders,
    row.id = occ.reminderId ∧ row.status = .triggered ∧ row.remindAt = occ.scheduledAt
  occurrence : ∀ row ∈ db.reminders, row.status = .triggered → ∃ occ ∈ db.occurrences,
    occ.reminderId = row.id ∧ occ.scheduledAt = row.remindAt ∧ occ.status = .triggered

theorem Database.Settled.empty : Database.empty.Settled :=
  ⟨fun _ h => absurd h List.not_mem_nil, fun _ h => absurd h List.not_mem_nil⟩

variable {db db' : Database}

/-- A change that neither triggers a reminder nor moves one that is triggered. -/
theorem Database.Settled.put (hdb : db.WellFormed) (hs : db.Settled) {old new : Reminder}
    (hold : old ∈ db.reminders) (hid : new.id = old.id)
    (hstatus : new.status = .triggered ↔ old.status = .triggered)
    (hat : old.status = .triggered → new.remindAt = old.remindAt)
    (hrows : db'.reminders = Table.put Reminder.id new db.reminders)
    (hoccs : ∀ occ : ReminderOccurrence, occ.status = .triggered →
      (occ ∈ db'.occurrences ↔ occ ∈ db.occurrences)) : db'.Settled := by
  constructor
  · intro occ hocc htriggered
    obtain ⟨row, hrow, hrid, hrstatus, hrat⟩ :=
      hs.row occ ((hoccs occ htriggered).mp hocc) htriggered
    rw [hrows]
    by_cases hkey : row.id = new.id
    · obtain rfl : row = old := hdb.ids.eq hrow hold (hkey.trans hid)
      exact ⟨new, Table.mem_put_self hrow hkey, hkey ▸ hrid, hstatus.mpr hrstatus,
        (hat hrstatus).trans hrat⟩
    · exact ⟨row, Table.mem_put_of_ne hrow hkey, hrid, hrstatus, hrat⟩
  · intro row hrow htriggered
    rw [hrows] at hrow
    rcases Table.mem_put.mp hrow with ⟨rfl, -⟩ | ⟨hrow, -⟩
    · have htold := hstatus.mp htriggered
      obtain ⟨occ, hocc, horid, hoat, hostatus⟩ := hs.occurrence old hold htold
      exact ⟨occ, (hoccs occ hostatus).mpr hocc, horid.trans hid.symm, hoat.trans (hat htold).symm,
        hostatus⟩
    · obtain ⟨occ, hocc, horid, hoat, hostatus⟩ := hs.occurrence row hrow htriggered
      exact ⟨occ, (hoccs occ hostatus).mpr hocc, horid, hoat, hostatus⟩

/-- A trigger of a reminder at its own instant. -/
theorem Triggers.settled (hdb : db.WellFormed) (hs : db.Settled) {reminderId : String}
    {scheduledAt : DateTime} (h : Triggers reminderId scheduledAt db db')
    (hdue : ∃ row ∈ db.reminders, row.id = reminderId ∧ row.remindAt = scheduledAt) :
    db'.Settled := by
  obtain ⟨row, hrow, hrid, hrat⟩ := hdue
  obtain ⟨old, hold, now, traceId, hid, -, -, hrows⟩ := h.reminder
  obtain rfl : old = row := hdb.ids.eq hold hrow (hid.trans hrid.symm)
  have hnew : Database.triggeredReminder now traceId old ∈ db'.reminders := by
    rw [hrows]
    exact Table.mem_put_self hold rfl
  constructor
  · intro occ hocc htriggered
    rcases h.only occ hocc htriggered with hocc | ⟨horid, hoat⟩
    · obtain ⟨row', hrow', hrid', hrstatus', hrat'⟩ := hs.row occ hocc htriggered
      by_cases hkey : row'.id = old.id
      · obtain rfl : row' = old := hdb.ids.eq hrow' hold hkey
        exact ⟨_, hnew, hrid', rfl, hrat'⟩
      · rw [hrows]
        exact ⟨row', Table.mem_put_of_ne hrow' hkey, hrid', hrstatus', hrat'⟩
    · exact ⟨_, hnew, hid.trans horid.symm, rfl, hrat.trans hoat.symm⟩
  · intro row' hrow' htriggered
    rw [hrows] at hrow'
    rcases Table.mem_put.mp hrow' with ⟨rfl, -⟩ | ⟨hrow', -⟩
    · obtain ⟨occ, hocc, horid, hoat, hostatus⟩ := h.occurrence
      exact ⟨occ, hocc, horid.trans hid.symm, hoat.trans hrat.symm, hostatus⟩
    · obtain ⟨occ, hocc, horid, hoat, hostatus⟩ := hs.occurrence row' hrow' htriggered
      exact ⟨occ, h.kept occ hocc hostatus, horid, hoat, hostatus⟩

/-- A reminder is triggered by a move only if it is triggered already. -/
theorem Legal.triggered_iff {old new : Reminder} (h : Legal old new) :
    new.status = .triggered ↔ old.status = .triggered := by
  rcases h.move with ⟨hadvances, -⟩ | ⟨hrunning, hstatus⟩
  · revert hadvances
    cases old.status <;> cases new.status <;>
      simp [ReminderStatus.advances, ReminderStatus.terminal]
  · rw [hstatus]
    revert hrunning
    cases old.status <;> simp [ReminderStatus.terminal]

/-- **Every effect keeps the agreement**, as far as a trigger writes to a reminder at its own
instant. -/
theorem Effect.settled {e : Action} (hdb : db.WellFormed) (hs : db.Settled) (h : Effect e db db')
    (hwrite : ∀ reminder scheduledAt traceId, e = .triggerWrite reminder scheduledAt traceId →
      ∃ row ∈ db.reminders, row.id = reminder.id ∧ row.remindAt = scheduledAt) : db'.Settled := by
  cases h with
  | read => exact hs
  | insert reminder he hstatus hfree =>
    constructor
    · intro occ hocc htriggered
      obtain ⟨row, hrow, hrest⟩ := hs.row occ hocc htriggered
      exact ⟨row, List.mem_append_left _ hrow, hrest⟩
    · intro row hrow htriggered
      rcases List.mem_append.mp hrow with hrow | hnew
      · exact hs.occurrence row hrow htriggered
      · rw [List.mem_singleton.mp hnew] at htriggered
        exact absurd (hstatus.symm.trans htriggered) (by decide)
  | move old candidate revision now he hold hlegal =>
    refine hs.put hdb hold hlegal.id hlegal.triggered_iff (fun htriggered => ?_) rfl
      fun _ _ => Iff.rfl
    exact (hlegal.evolved.settled (by rw [htriggered]; rfl)).2
  | trigger reminderId traceId scheduledAt db' he row hrow hid hat hstatus h =>
    exact h.settled hdb hs ⟨row, hrow, hid, hat⟩
  | write reminder traceId scheduledAt db' he h =>
    exact h.settled hdb hs (hwrite reminder scheduledAt traceId he)
  | fail reminderId db' h =>
    rcases h.reminder with heq | ⟨old, hold, failure, traceId, now, hid, htriggered, -, -, hrows⟩
    · refine ⟨?_, ?_⟩
      · intro occ hocc hostatus
        rw [heq]
        exact hs.row occ ((h.triggered occ hostatus).mp hocc) hostatus
      · intro row hrow hrstatus
        rw [heq] at hrow
        obtain ⟨occ, hocc, horid, hoat, hostatus⟩ := hs.occurrence row hrow hrstatus
        exact ⟨occ, (h.triggered occ hostatus).mpr hocc, horid, hoat, hostatus⟩
    · have hid' : (Database.failedReminder failure traceId now old).id = old.id := rfl
      refine hs.put hdb hold hid' ?_ (fun h => absurd h htriggered) hrows h.triggered
      constructor
      · intro hfailed
        cases hfailed
      · intro h
        exact absurd h htriggered

/-- Triggered occurrences stay as they are. -/
theorem Effect.frozen {e : Action} (h : Effect e db db') {occ : ReminderOccurrence}
    (hocc : occ ∈ db.occurrences) (htriggered : occ.status = .triggered) :
    occ ∈ db'.occurrences := by
  cases h with
  | read => exact hocc
  | insert reminder he hstatus hfree => exact hocc
  | move old candidate revision now he hold hlegal => exact hocc
  | trigger reminderId traceId scheduledAt db' he row hrow hid hat hstatus h =>
    exact h.kept occ hocc htriggered
  | write reminder traceId scheduledAt db' he h => exact h.kept occ hocc htriggered
  | fail reminderId db' h => exact (h.triggered occ htriggered).mpr hocc

/-! ## Runs -/

/-- While triggers are transactions, the agreement holds in every reachable configuration. -/
theorem settled {env : Environment} {c : Calls} (h : Reachable env .call c) :
    c.world.reminders.Settled := by
  have hidle : Reachable env .call (idle World.initial) := Reaches.refl _
  refine (allSafe hidle).invariant (sound .call) (startsSafe env .call) h
    (J := fun w => w.reminders.Settled)
    Database.Settled.empty ?_
  intro i log e input r w w' hw hw' hs hpre hr
  refine (pre.effect hw hpre hr).settled hw hs ?_
  rintro reminder scheduledAt traceId rfl
  -- no call awaits the statements of a trigger
  cases hpre.1

/-- **The law of triggers**, between a configuration and a later one. -/
structure TriggerLaw (c c' : Calls) : Prop where
  once : ∀ occ ∈ c'.world.reminders.occurrences, ∀ occ' ∈ c'.world.reminders.occurrences,
    occ.status = .triggered → occ'.status = .triggered → occ.reminderId = occ'.reminderId →
    occ = occ'
  exactly : ∀ row ∈ c'.world.reminders.reminders, row.status = .triggered →
    ∃ occ ∈ c'.world.reminders.occurrences, occ.reminderId = row.id ∧ occ.status = .triggered ∧
      occ.scheduledAt = row.remindAt
  frozen : ∀ occ ∈ c.world.reminders.occurrences, occ.status = .triggered →
    occ ∈ c'.world.reminders.occurrences
  absorbing : ∀ row ∈ c.world.reminders.reminders,
    row.status = .triggered ∨ row.status = .cancelled →
    ∃ row' ∈ c'.world.reminders.reminders, row'.id = row.id ∧ row'.status = row.status

/-- **A reminder is triggered once**: at most one occurrence of it is triggered, a triggered
reminder has one, at its own instant, a triggered occurrence is never changed, and a reminder that
is triggered or cancelled stays so. -/
theorem triggered_once {env : Environment} {c c' : Calls} (h : Reachable env .call c)
    (hr : Reaches handler (start env .call) c c') : TriggerLaw c c' := by
  have hreach : Reachable env .call c' := h.trans hr
  have hdb := (allSafe hreach).1
  have hs := settled hreach
  have hfrozen : ∀ occ ∈ c.world.reminders.occurrences, occ.status = .triggered →
      occ ∈ c'.world.reminders.occurrences := by
    refine (allSafe h).relation (sound .call) (startsSafe env .call) hr
      (T := fun w w' => ∀ occ ∈ w.reminders.occurrences, occ.status = .triggered →
        occ ∈ w'.reminders.occurrences) (fun w _ hocc _ => hocc) ?_ ?_
    · intro u v w huv hvw occ hocc ht
      exact hvw occ (huv occ hocc ht) ht
    · intro i log e input r w w' hw hw' hpre hr occ hocc ht
      exact (pre.effect hw hpre hr).frozen hocc ht
  constructor
  · intro occ hocc occ' hocc' ht ht' hsame
    obtain ⟨row, hrow, hid, -, hat⟩ := hs.row occ hocc ht
    obtain ⟨row', hrow', hid', -, hat'⟩ := hs.row occ' hocc' ht'
    obtain rfl : row = row' := hdb.ids.eq hrow hrow' (by rw [hid, hid', hsame])
    exact hdb.occurrence_eq hocc hocc' hsame (hat.symm.trans hat')
  · intro row hrow hstatus
    obtain ⟨occ, hocc, hid, hat, ht⟩ := hs.occurrence row hrow hstatus
    exact ⟨occ, hocc, hid, ht, hat⟩
  · exact hfrozen
  · intro row hrow hstatus
    obtain ⟨row', hrow', hev⟩ := evolves_run h hr row hrow
    refine ⟨row', hrow', hev.id, (hev.settled ?_).1⟩
    rcases hstatus with hstatus | hstatus <;> rw [hstatus] <;> rfl

namespace Scenario

/-- Libraries that accept everything, with all clocks at UTC. -/
def env : Environment := ⟨fun _ => some (.fixed 0), fun _ => true, fun _ => true, fun text => text⟩

/-- An hour of one day. -/
def hour (n : Fin 24) : DateTime :=
  ⟨2026, 7, 26, n, 0, 0, 0, DateTime.valid_hour n⟩

/-- A transaction at an hour, with an identifier for what it makes. -/
def supply (now : DateTime) (hex : String := "") : Input := .supply { now, hex }

/-- A workspace and a process. -/
def key : WorkspaceKey := { tenantId := "t", workspaceId := "w" }

def node : Node := ⟨0, true⟩

/-- At six a task is made, and a reminder of it for nine. -/
def setup : List (Event Request Input) := [
  .arrive (.createTask key { id := "ut_1", title := "Call" }),
  .act 0 (supply (hour 6)), .act 0 (supply (hour 6)),
  .arrive (.create node key
    { userTaskId := "ut_1", remindAt := .utc (hour 9), timezone := "UTC" }),
  .act 1 (supply (hour 6) "1"), .act 1 (supply (hour 6)), .act 1 (supply (hour 6) "job1"),
  .act 1 (supply (hour 6))]

/-- The delivery of that reminder. -/
def delivery : Delivery := ⟨"rem_1", some (.utc (hour 9)), "trace", 1⟩

/-- The configuration after some events. -/
def after (g : Granularity) (events : List (Event Request Input)) : Calls :=
  (run handler (start env g) (idle World.initial) events).getD (idle World.initial)

theorem reachable {g : Granularity} {events : List (Event Request Input)}
    (h : (run handler (start env g) (idle World.initial) events).isSome = true) :
    Reachable env g (after g events) := by
  obtain ⟨c, hc⟩ := Option.isSome_iff_exists.mp h
  refine ⟨events, ?_⟩
  rw [after, hc]
  rfl

/-- The events that follow lead on from there. -/
theorem continues {g : Granularity} {events more : List (Event Request Input)}
    (h : (run handler (start env g) (idle World.initial) (events ++ more)).isSome = true) :
    Reaches handler (start env g) (after g events) (after g (events ++ more)) := by
  obtain ⟨c, hc⟩ := Option.isSome_iff_exists.mp h
  have hsplit := hc
  rw [run_append] at hsplit
  obtain ⟨d, hd, hmore⟩ := Option.bind_eq_some_iff.mp hsplit
  refine ⟨more, ?_⟩
  rw [after, after, hc, hd]
  exact hmore

/-- One more event leads on from there. -/
theorem stepped {g : Granularity} {events : List (Event Request Input)} {ev : Event Request Input}
    (h : (run handler (start env g) (idle World.initial) (events ++ [ev])).isSome = true) :
    step handler (start env g) (after g events) ev = some (after g (events ++ [ev])) := by
  obtain ⟨c, hc⟩ := Option.isSome_iff_exists.mp h
  have hsplit := hc
  rw [run_append] at hsplit
  obtain ⟨d, hd, hstep⟩ := Option.bind_eq_some_iff.mp hsplit
  rw [after, after, hc, hd]
  simpa [run] using hstep

/-- A run whose events meet a condition leads there. -/
theorem reachableIf {g : Granularity} {ok : Calls → Event Request Input → Bool}
    {events : List (Event Request Input)}
    (h : (runIf handler (start env g) ok (idle World.initial) events).isSome = true) :
    ReachesIf handler (start env g) ok (idle World.initial) (after g events) := by
  obtain ⟨c, hc⟩ := Option.isSome_iff_exists.mp h
  refine ⟨events, ?_⟩
  rw [after, run_of_runIf hc]
  exact hc

/-- The events that follow lead on from there, each meeting the condition. -/
theorem continuesIf {g : Granularity} {ok : Calls → Event Request Input → Bool}
    {events more : List (Event Request Input)}
    (h : (run handler (start env g) (idle World.initial) events).isSome = true)
    (hmore : (runIf handler (start env g) ok (after g events) more).isSome = true) :
    ReachesIf handler (start env g) ok (after g events) (after g (events ++ more)) := by
  obtain ⟨c, hc⟩ := Option.isSome_iff_exists.mp h
  obtain ⟨d, hd⟩ := Option.isSome_iff_exists.mp hmore
  have hafter : after g events = c := by rw [after, hc, Option.getD_some]
  have hboth : run handler (start env g) (idle World.initial) (events ++ more) = some d := by
    rw [run_append, hc, Option.bind_some, ← hafter]
    exact run_of_runIf hd
  have hthen : after g (events ++ more) = d := by rw [after, hboth, Option.getD_some]
  exact ⟨more, hd.trans (congrArg some hthen.symm)⟩

/-- The reminder is delivered at nine. -/
def delivered : List (Event Request Input) :=
  setup ++
    ([.arrive (.execute delivery), .act 2 (supply (hour 9) "a")] : List (Event Request Input))

/-- It is delivered again, and then its cancellation is refused. -/
def repeated : List (Event Request Input) := [
  .arrive (.execute delivery), .act 3 (supply (hour 10) "b"),
  .arrive (.cancel node "rem_1" ""), .act 4 (supply (hour 10))]

end Scenario

/-- In that run the reminder stays triggered, with one occurrence. -/
theorem triggered_once_scenario :
    ((Scenario.after .call (Scenario.delivered ++
      Scenario.repeated)).world.reminders.occurrences.map
      fun occ => (occ.id, occ.status)) = [("occ_a", .triggered)] ∧
    TriggerLaw (Scenario.after .call Scenario.delivered)
      (Scenario.after .call (Scenario.delivered ++ Scenario.repeated)) :=
  ⟨by decide +kernel, triggered_once (Scenario.reachable (by decide +kernel))
    (Scenario.continues (by decide +kernel))⟩

end Reminders

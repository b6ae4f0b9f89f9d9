import AiLabOs.Reminder.Repository

/-!
# Reminders: what the repository does

For each operation of the repository, the rows it leaves when it succeeds. Identifiers of reminders
and keys of occurrences are unique, and a key tells its reminder and its instant: the text of an
instant has one of two lengths, and where a longer one ends in a shorter one, no colon comes before
it.

## Main definitions

* `Database.WellFormed`: unique identifiers and keys
* `Triggers`, `RecordsFailure`: what a trigger and the record of a failed one do to the tables

## Main results

* `occurrenceKey_injective`: a key tells its reminder and its instant
* `Database.create_ok`, `update_ok`, `triggerWrite_ok`, `trigger_ok`, `recordTriggerFailure_ok`
-/

namespace Reminders

open TextOrder

/-! ## Keys -/

theorem isoformat_toList (d : DateTime) : d.isoformat.toList =
    d.clockText (DateTime.fractionText d.microsecond ['+', '0', '0', ':', '0', '0']) := by
  rw [DateTime.isoformat, String.toList_ofList]

theorem length_isoformat (d : DateTime) :
    d.isoformat.toList.length = 25 ∨ d.isoformat.toList.length = 32 := by
  rw [isoformat_toList]
  unfold DateTime.clockText DateTime.fractionText
  split
  · left
    simp
  · right
    simp

theorem digitChar_ne_colon {n : ℕ} (h : n < 10) : digitChar n ≠ ':' := by
  revert n
  decide

/-- The seventh character of an instant's text is a digit of its month. -/
theorem isoformat_month (d : DateTime) : d.isoformat.toList[6]? ≠ some ':' := by
  have hdate : d.isoformat.toList[6]? = some (digitChar (d.month % 10)) := by
    rw [isoformat_toList]
    simp [DateTime.clockText, padded]
  rw [hdate]
  intro h
  exact digitChar_ne_colon (Nat.mod_lt _ (by omega)) (Option.some.inj h)

theorem isoformat_injective : Function.Injective DateTime.isoformat := by
  intro a b h
  exact le_antisymm (DateTime.isoformat_le.mp h.le) (DateTime.isoformat_le.mp h.ge)

/-- The identifier and the text of a key, when the second text is no longer than the first. -/
theorem key_split {a b s t : List Char} (hlen : t.length ≤ s.length)
    (h : a ++ ':' :: s = b ++ ':' :: t) :
    a = b ∧ s = t ∨ ∃ n, s.length = t.length + n + 1 ∧ s[n]? = some ':' := by
  have hlen' := congrArg List.length h
  simp only [List.length_append, List.length_cons] at hlen'
  by_cases heq : s.length = t.length
  · left
    obtain ⟨ha, hs⟩ := List.append_inj h (by omega)
    exact ⟨ha, (List.cons.inj hs).2⟩
  · right
    refine ⟨s.length - t.length - 1, by omega, ?_⟩
    have hget := congrArg (fun l => l[b.length]?) h
    simp only [List.getElem?_append_right (Nat.le_refl b.length), Nat.sub_self] at hget
    rw [List.getElem?_append_right (by omega)] at hget
    have hidx : b.length - a.length = s.length - t.length - 1 + 1 := by omega
    rw [hidx] at hget
    simpa using hget

/-- **A key tells its reminder and its instant.** -/
theorem occurrenceKey_injective {a b : String} {s t : DateTime}
    (h : occurrenceKey a s = occurrenceKey b t) : a = b ∧ s = t := by
  have hlist : ∀ (a : String) (s : DateTime),
      (occurrenceKey a s).toList = a.toList ++ ':' :: s.isoformat.toList := by
    intro a s
    simp [occurrenceKey]
  have hkey : a.toList ++ ':' :: s.isoformat.toList = b.toList ++ ':' :: t.isoformat.toList := by
    rw [← hlist, ← hlist, h]
  have hwlog : ∀ {a b : String} {s t : DateTime},
      t.isoformat.toList.length ≤ s.isoformat.toList.length →
      a.toList ++ ':' :: s.isoformat.toList = b.toList ++ ':' :: t.isoformat.toList →
      a = b ∧ s = t := by
    intro a b s t hlen hkey
    rcases key_split hlen hkey with ⟨ha, hs⟩ | ⟨n, hn, hcolon⟩
    · exact ⟨String.toList_inj.mp ha, isoformat_injective (String.toList_inj.mp hs)⟩
    · -- one text has a fraction and the other has none
      rcases length_isoformat s with hs | hs <;> rcases length_isoformat t with ht | ht
      · omega
      · omega
      · obtain rfl : n = 6 := by omega
        exact absurd hcolon (isoformat_month s)
      · omega
  rcases Nat.le_total t.isoformat.toList.length s.isoformat.toList.length with hlen | hlen
  · exact hwlog hlen hkey
  · obtain ⟨hab, hst⟩ := hwlog hlen hkey.symm
    exact ⟨hab.symm, hst.symm⟩
/-! ## Tables -/

/-- Identifiers and keys are unique, and a key is that of its reminder and its instant. -/
structure Database.WellFormed (db : Database) : Prop where
  ids : Table.Unique Reminder.id db.reminders
  keys : Table.Unique ReminderOccurrence.idempotencyKey db.occurrences
  key : ∀ occ ∈ db.occurrences, occ.idempotencyKey = occurrenceKey occ.reminderId occ.scheduledAt

theorem Database.WellFormed.empty : Database.empty.WellFormed :=
  ⟨List.nodup_nil, List.nodup_nil, fun _ h => absurd h List.not_mem_nil⟩

/-- Occurrences of one reminder and one instant are the same. -/
theorem Database.WellFormed.occurrence_eq {db : Database} (h : db.WellFormed)
    {occ occ' : ReminderOccurrence} (hocc : occ ∈ db.occurrences) (hocc' : occ' ∈ db.occurrences)
    (hid : occ.reminderId = occ'.reminderId) (hat : occ.scheduledAt = occ'.scheduledAt) :
    occ = occ' := by
  apply h.keys.eq hocc hocc'
  rw [h.key occ hocc, h.key occ' hocc', hid, hat]

theorem Database.WellFormed.setReminders {db : Database} (h : db.WellFormed)
    {reminders : List Reminder} (hids : Table.Unique Reminder.id reminders) :
    Database.WellFormed { db with reminders } :=
  ⟨hids, h.keys, h.key⟩

variable {db db' : Database}

/-- A reminder that is created is new. -/
theorem Database.create_ok {reminder created : Reminder}
    (h : db.create reminder = .ok (created, db')) :
    created = reminder ∧ (∀ row ∈ db.reminders, row.id ≠ reminder.id) ∧
      db' = { db with reminders := db.reminders ++ [reminder.stored] } := by
  unfold create at h
  split at h
  · cases h
  · rename_i hfree
    cases h
    refine ⟨rfl, fun row hrow hid => hfree ?_, rfl⟩
    exact List.any_eq_true.mpr ⟨row, hrow, decide_eq_true hid⟩

/-- The row an update leaves. -/
def updatedRow (reminder : Reminder) (expectedRevision : ℕ) (now : DateTime) : Reminder :=
  { reminder with revision := expectedRevision + 1, updatedAt := now }

/-- An update replaces a row that has the expected revision. -/
theorem Database.update_ok (hdb : db.WellFormed) {reminder updated : Reminder} {revision : ℕ}
    {now : DateTime} (h : db.update reminder revision now = .ok (updated, db')) :
    updated = updatedRow reminder revision now ∧ ∃ old ∈ db.reminders,
      old.id = reminder.id ∧ old.revision = revision ∧
      db' = { db with reminders := Table.put Reminder.id updated.stored db.reminders } := by
  unfold update at h
  dsimp only at h
  split at h
  · split at h <;> cases h
  · rename_i hcount
    cases h
    refine ⟨rfl, ?_⟩
    obtain ⟨old, hold, hp⟩ := Table.exists_of_countP_eq_one (Decidable.not_not.mp hcount)
    have hp' : old.id = reminder.id ∧ old.revision = revision := by simpa using hp
    refine ⟨old, hold, hp'.1, hp'.2, ?_⟩
    congr 1
    refine Table.update_eq_put hdb.ids hold hp ?_ hp'.1.symm
    intro row hrow
    have hrow' : row.id = reminder.id ∧ row.revision = revision := by simpa using hrow
    rw [hrow'.1, hp'.1]

/-- An occurrence that is inserted is new; one that is there already is left. -/
theorem Database.insertOccurrence_cases (row : ReminderOccurrence) :
    db.insertOccurrence row = (false, db) ∨
      (∀ other ∈ db.occurrences, other.idempotencyKey ≠ row.idempotencyKey) ∧
        db.insertOccurrence row = (true, { db with occurrences := db.occurrences ++ [row] }) := by
  unfold insertOccurrence
  split
  · exact .inl rfl
  · rename_i hfree
    refine .inr ⟨fun other hother hkey => hfree ?_, rfl⟩
    refine List.any_eq_true.mpr ⟨other, hother, ?_⟩
    simp [hkey]

theorem Database.WellFormed.insertOccurrence (h : db.WellFormed) {row : ReminderOccurrence}
    (hkey : row.idempotencyKey = occurrenceKey row.reminderId row.scheduledAt) :
    (db.insertOccurrence row).2.WellFormed := by
  rcases db.insertOccurrence_cases row with heq | ⟨hfree, heq⟩
  · rw [heq]
    exact h
  · rw [heq]
    refine ⟨h.ids, h.keys.insert hfree, ?_⟩
    intro occ hocc
    rcases List.mem_append.mp hocc with hold | hnew
    · exact h.key occ hold
    · rw [List.mem_singleton.mp hnew]
      exact hkey

theorem Database.insertOccurrence_reminders (row : ReminderOccurrence) :
    (db.insertOccurrence row).2.reminders = db.reminders := by
  unfold Database.insertOccurrence
  split <;> rfl

theorem Database.mem_insertOccurrence {row occ : ReminderOccurrence} (hocc : occ ∈ db.occurrences) :
    occ ∈ (db.insertOccurrence row).2.occurrences := by
  rcases db.insertOccurrence_cases row with heq | ⟨-, heq⟩
  · rw [heq]
    exact hocc
  · rw [heq]
    exact List.mem_append_left _ hocc

theorem Database.of_mem_insertOccurrence {row occ : ReminderOccurrence}
    (hocc : occ ∈ (db.insertOccurrence row).2.occurrences) : occ ∈ db.occurrences ∨ occ = row := by
  rcases db.insertOccurrence_cases row with heq | ⟨-, heq⟩
  · rw [heq] at hocc
    exact .inl hocc
  · rw [heq] at hocc
    rcases List.mem_append.mp hocc with hold | hnew
    · exact .inl hold
    · exact .inr (List.mem_singleton.mp hnew)

/-! ## Triggers -/

/-- **What a trigger does**: the reminder is marked, and the occurrence of the instant. -/
structure Triggers (reminderId : String) (scheduledAt : DateTime) (db db' : Database) : Prop where
  wellFormed : db'.WellFormed
  reminder : ∃ old ∈ db.reminders, ∃ now traceId, old.id = reminderId ∧ old.status ≠ .cancelled ∧
    old.status ≠ .pendingCancel ∧ db'.reminders =
      Table.put Reminder.id (Database.triggeredReminder now traceId old) db.reminders
  occurrence : ∃ occ ∈ db'.occurrences, occ.reminderId = reminderId ∧
    occ.scheduledAt = scheduledAt ∧ occ.status = .triggered
  kept : ∀ occ ∈ db.occurrences, occ.status = .triggered → occ ∈ db'.occurrences
  only : ∀ occ ∈ db'.occurrences, occ.status = .triggered →
    occ ∈ db.occurrences ∨ occ.reminderId = reminderId ∧ occ.scheduledAt = scheduledAt

/-- The occurrences with that of a key marked, unless it is: it is the only one that differs. -/
theorem marked {occs : List ReminderOccurrence} {row : ReminderOccurrence} {key : String}
    (hkeys : Table.Unique ReminderOccurrence.idempotencyKey occs) (hrow : row ∈ occs)
    (hkey : row.idempotencyKey = key) (now : DateTime) (traceId : String) :
    ∃ occ occs', (if row.status = .triggered then occs
        else Table.update (fun other => other.idempotencyKey = key)
          (Database.triggeredRow now traceId) occs) = occs' ∧
      occ ∈ occs' ∧ occ.status = .triggered ∧ occ.idempotencyKey = key ∧
      occ.reminderId = row.reminderId ∧ occ.scheduledAt = row.scheduledAt ∧
      Table.Unique ReminderOccurrence.idempotencyKey occs' ∧
      (∀ other ∈ occs', other = occ ∨ other ∈ occs) ∧
      ∀ other ∈ occs, other.status = .triggered → other ∈ occs' := by
  by_cases hstatus : row.status = .triggered
  · exact ⟨row, occs, if_pos hstatus, hrow, hstatus, hkey, rfl, rfl, hkeys,
      fun other hother => .inr hother, fun other hother _ => hother⟩
  · have hput : Table.update (fun other => other.idempotencyKey = key)
        (Database.triggeredRow now traceId) occs =
        Table.put ReminderOccurrence.idempotencyKey (Database.triggeredRow now traceId row)
          occs := by
      refine Table.update_eq_put hkeys hrow (decide_eq_true hkey) ?_ rfl
      intro other hother
      rw [of_decide_eq_true hother, hkey]
    refine ⟨Database.triggeredRow now traceId row, _, if_neg hstatus, ?_, rfl, hkey, rfl, rfl, ?_⟩
    · rw [hput]
      exact Table.mem_put_self hrow rfl
    · rw [hput]
      refine ⟨hkeys.put, ?_, ?_⟩
      · intro other hother
        rcases Table.mem_put.mp hother with ⟨rfl, -⟩ | ⟨hold, -⟩
        · exact .inl rfl
        · exact .inr hold
      · intro other hother htriggered
        apply Table.mem_put_of_ne hother
        intro hsame
        -- it would be the row that is not triggered
        exact hstatus (hkeys.eq hother hrow hsame ▸ htriggered)

/-- An update of a reminder that names it and asks for a status. -/
theorem put_of_countP (hdb : db.WellFormed) {reminderId : String} {p : Reminder → Bool}
    {f : Reminder → Reminder} (hf : ∀ row, (f row).id = row.id)
    (hp : ∀ row, p row = true → row.id = reminderId) (hcount : db.reminders.countP p = 1) :
    ∃ old ∈ db.reminders, p old = true ∧ old.id = reminderId ∧
      Table.update p f db.reminders = Table.put Reminder.id (f old) db.reminders := by
  obtain ⟨old, hold, hhit⟩ := Table.exists_of_countP_eq_one hcount
  refine ⟨old, hold, hhit, hp old hhit, ?_⟩
  refine Table.update_eq_put hdb.ids hold hhit ?_ (hf old)
  intro row hrow
  rw [hp row hrow, hp old hhit]

theorem Database.triggerWrite_ok (hdb : db.WellFormed) {reminder final : Reminder}
    {scheduledAt now : DateTime} {traceId occurrenceId : String} {occurrence : ReminderOccurrence}
    {existing : Bool} (h : db.triggerWrite reminder scheduledAt traceId now occurrenceId =
      .ok (final, occurrence, existing, db')) : Triggers reminder.id scheduledAt db db' := by
  have hreminders := db.insertOccurrence_reminders
    (newOccurrence occurrenceId reminder scheduledAt traceId)
  have hinserted : (db.insertOccurrence
      (newOccurrence occurrenceId reminder scheduledAt traceId)).2.WellFormed :=
    hdb.insertOccurrence rfl
  unfold triggerWrite at h
  dsimp only at h
  split at h
  · cases h
  · rename_i row hfind
    have hrow := List.mem_of_find?_eq_some hfind
    have hkey : row.idempotencyKey = occurrenceKey reminder.id scheduledAt := by
      simpa using List.find?_some hfind
    obtain ⟨hid, hat⟩ := occurrenceKey_injective ((hinserted.key row hrow).symm.trans hkey)
    obtain ⟨occ, occs', hmark, hocc, hstatus, hokey, hoid, hoat, hunique, honly, hkept⟩ :=
      marked hinserted.keys hrow hkey now traceId
    split at h
    · cases h
    · rename_i hcount
      obtain ⟨old, hold, hhit, hoid', hput⟩ := put_of_countP hinserted
        (f := triggeredReminder now traceId) (fun _ => rfl)
        (fun row hrow => by simp only [Bool.and_eq_true, decide_eq_true_eq] at hrow; exact hrow.1.1)
        (Decidable.not_not.mp hcount)
      split at h
      · cases h
        simp only [decide_eq_true_eq, hmark]
        simp only [Bool.and_eq_true, decide_eq_true_eq] at hhit
        rw [hreminders] at hold
        refine ⟨⟨?_, hunique, ?_⟩, ?_, ?_, ?_, ?_⟩
        · rw [hput]
          exact hinserted.ids.put
        · intro other hother
          rcases honly other hother with rfl | hother
          · rw [hokey, hoid, hoat, hid, hat]
          · exact hinserted.key other hother
        · refine ⟨old, hold, now, traceId, hoid', hhit.1.2, hhit.2, ?_⟩
          rw [hput, hreminders]
        · exact ⟨occ, hocc, hoid.trans hid, hoat.trans hat, hstatus⟩
        · intro other hother htriggered
          exact hkept other (db.mem_insertOccurrence hother) htriggered
        · intro other hother htriggered
          rcases honly other hother with rfl | hother
          · exact .inr ⟨hoid.trans hid, hoat.trans hat⟩
          · rcases db.of_mem_insertOccurrence hother with hold | rfl
            · exact .inl hold
            · exact .inr ⟨rfl, rfl⟩
      · cases h

/-- What the first statements of a trigger find in a reminder that is to be triggered. -/
theorem Database.triggerRead_proceed {reminderId : String} {scheduledAt : DateTime}
    {reminder : Reminder} (h : db.triggerRead reminderId scheduledAt = .ok (.proceed reminder)) :
    reminder ∈ db.reminders ∧ reminder.id = reminderId ∧ reminder.remindAt = scheduledAt ∧
      (reminder.status = .scheduled ∨ reminder.status = .failed) := by
  unfold triggerRead at h
  split at h
  · cases h
  · rename_i row hfind
    have hrow := List.mem_of_find?_eq_some hfind
    have hid : row.id = reminderId := by simpa using List.find?_some hfind
    have hdue : (if row.remindAt ≠ scheduledAt then
        Except.error (.conflict "Reminder schedule changed before trigger")
        else Except.ok (Selected.proceed row) : Except Exn Selected) = .ok (.proceed reminder) →
        row = reminder ∧ row.remindAt = scheduledAt := by
      intro hif
      split at hif
      · cases hif
      · rename_i hat
        cases hif
        exact ⟨rfl, Decidable.not_not.mp hat⟩
    split at h
    · cases h
    · cases h
    · split at h
      · cases h
      · split at h <;> cases h
    · cases h
    · cases h
    · rename_i hstatus
      obtain ⟨rfl, hat⟩ := hdue h
      exact ⟨hrow, hid, hat, .inl hstatus⟩
    · rename_i hstatus
      obtain ⟨rfl, hat⟩ := hdue h
      exact ⟨hrow, hid, hat, .inr hstatus⟩

/-- A trigger that is one transaction finds its reminder due, or changes nothing. -/
theorem Database.trigger_ok (hdb : db.WellFormed) {reminderId traceId occurrenceId : String}
    {scheduledAt now : DateTime} {final : Reminder} {occurrence : ReminderOccurrence}
    {existing : Bool} (h : db.trigger reminderId scheduledAt traceId now occurrenceId =
      .ok (final, occurrence, existing, db')) :
    db' = db ∨ Triggers reminderId scheduledAt db db' ∧
      ∃ row ∈ db.reminders, row.id = reminderId ∧ row.remindAt = scheduledAt ∧
        (row.status = .scheduled ∨ row.status = .failed) := by
  unfold trigger at h
  split at h
  · cases h
  · cases h
    exact .inl rfl
  · rename_i row hread
    obtain ⟨hrow, rfl, hat, hstatus⟩ := triggerRead_proceed hread
    exact .inr ⟨triggerWrite_ok hdb h, row, hrow, rfl, hat, hstatus⟩

/-! ## Failures -/

/-- **What the record of a failed trigger does**: the reminder fails, unless it has ended or is
being cancelled, and no triggered occurrence changes. -/
structure RecordsFailure (reminderId : String) (db db' : Database) : Prop where
  wellFormed : db'.WellFormed
  reminder : db'.reminders = db.reminders ∨ ∃ old ∈ db.reminders, ∃ failure traceId now,
    old.id = reminderId ∧ old.status ≠ .triggered ∧ old.status ≠ .cancelled ∧
    old.status ≠ .pendingCancel ∧ db'.reminders =
      Table.put Reminder.id (Database.failedReminder failure traceId now old) db.reminders
  triggered : ∀ occ : ReminderOccurrence, occ.status = .triggered →
    (occ ∈ db'.occurrences ↔ occ ∈ db.occurrences)

/-- An update of rows that are not triggered to rows that are not. -/
theorem mem_update_of_triggered {occs : List ReminderOccurrence} {p : ReminderOccurrence → Bool}
    {f : ReminderOccurrence → ReminderOccurrence}
    (hp : ∀ occ, p occ = true → occ.status ≠ .triggered)
    (hf : ∀ occ, (f occ).status ≠ .triggered) {occ : ReminderOccurrence}
    (hocc : occ.status = .triggered) : occ ∈ Table.update p f occs ↔ occ ∈ occs := by
  rw [Table.mem_update]
  constructor
  · rintro ⟨old, hold, heq⟩
    split at heq
    · exact absurd (heq ▸ hocc) (hf old)
    · exact heq ▸ hold
  · intro hmem
    exact ⟨occ, hmem, if_neg fun hpo => hp occ hpo hocc⟩

/-- The reminder of a failed trigger, marked where it may be. -/
theorem failReminder (hdb : db.WellFormed) (failure : FailureInfo) (reminderId traceId : String)
    (now : DateTime) :
    let reminders := Table.update (fun row : Reminder => row.id = reminderId &&
      row.status ≠ .triggered && row.status ≠ .cancelled && row.status ≠ .pendingCancel)
      (Database.failedReminder failure traceId now) db.reminders
    Table.Unique Reminder.id reminders ∧ (reminders = db.reminders ∨ ∃ old ∈ db.reminders,
      ∃ failure traceId now, old.id = reminderId ∧ old.status ≠ .triggered ∧
      old.status ≠ .cancelled ∧ old.status ≠ .pendingCancel ∧ reminders =
        Table.put Reminder.id (Database.failedReminder failure traceId now old) db.reminders) := by
  refine ⟨hdb.ids.update fun _ => rfl, ?_⟩
  rcases Table.update_cases hdb.ids (f := Database.failedReminder failure traceId now) reminderId
    (p := fun row => row.id = reminderId && row.status ≠ .triggered && row.status ≠ .cancelled &&
      row.status ≠ .pendingCancel) (fun row hp => by simp_all) (fun _ => rfl) with
    ⟨-, heq⟩ | ⟨old, hold, hp, hid, -, heq⟩
  · exact .inl heq
  · simp only [Bool.and_eq_true, decide_eq_true_eq] at hp
    exact .inr ⟨old, hold, failure, traceId, now, hid, hp.1.1.2, hp.1.2, hp.2, heq⟩

theorem Database.recordTriggerFailure_ok (hdb : db.WellFormed)
    {reminderId traceId occurrenceId : String} {scheduledAt now : DateTime} {failure : FailureInfo}
    (h : db.recordTriggerFailure reminderId scheduledAt traceId failure now occurrenceId =
      .ok db') : RecordsFailure reminderId db db' := by
  unfold recordTriggerFailure at h
  split at h
  · cases h
  · rename_i reminder hfind
    have hid : reminder.id = reminderId := by simpa using List.find?_some hfind
    dsimp only at h
    generalize hrow : { newOccurrence occurrenceId reminder scheduledAt traceId with
      status := .failed
      failure := some (storedFailure failure) : ReminderOccurrence } = row at h
    have hstatus : row.status = .failed := by rw [← hrow]
    have hkey : row.idempotencyKey = occurrenceKey row.reminderId row.scheduledAt := by
      rw [← hrow]
      rfl
    have hinserted := hdb.insertOccurrence hkey
    obtain ⟨hids, hreminder⟩ := failReminder hinserted failure reminderId traceId now
    have htriggered : ∀ occ : ReminderOccurrence, occ.status = .triggered →
        (occ ∈ (db.insertOccurrence row).2.occurrences ↔ occ ∈ db.occurrences) := by
      intro occ hocc
      refine ⟨fun hmem => ?_, db.mem_insertOccurrence⟩
      rcases db.of_mem_insertOccurrence hmem with hold | rfl
      · exact hold
      · rw [hstatus] at hocc
        cases hocc
    cases h
    rw [db.insertOccurrence_reminders] at hids hreminder ⊢
    by_cases hnew : (db.insertOccurrence row).1 = true
    · rw [if_pos hnew]
      exact ⟨⟨hids, hinserted.keys, hinserted.key⟩, hreminder, htriggered⟩
    · rw [if_neg hnew]
      refine ⟨⟨hids, hinserted.keys.update fun _ => rfl, ?_⟩, hreminder, ?_⟩
      · intro occ hocc
        obtain ⟨old, hold, rfl⟩ := Table.mem_update.mp hocc
        split
        · exact hinserted.key old hold
        · exact hinserted.key old hold
      · intro occ hocc
        rw [mem_update_of_triggered (fun occ hp => by simp_all)
          (fun occ => by simp [failedRow]) hocc]
        exact htriggered occ hocc
end Reminders

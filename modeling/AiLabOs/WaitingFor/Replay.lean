import AiLabOs.WaitingFor.Service
import Mathlib.Data.List.Pairwise

/-!
# Waiting-For: the event log replays to the snapshot

Every committed transaction adds one event, and the status of an item is what its events, read
from the first to the last, lead to. A mutation is derived from a snapshot the call has read; the
compare-and-set on the revision makes this snapshot the one it replaces.

## Main definitions

* `WaitingForStatus.after`, `replay`: the status events lead to
* `Replays`: the log of one item and its snapshot agree
* `Moves`: how an event takes a snapshot to the next one
* `Effect`: what an action does to the world
* `ReplayLaw`: the law of the log, in one configuration

## Main results

* `event_log_replays`: the law holds in every reachable configuration
-/

namespace WaitingFors

open Process

/-! ## Replaying a log -/

/-- The status after an event that may happen in a status. -/
def WaitingForStatus.after : WaitingForStatus → WaitingForEventType → Option WaitingForStatus
  | .opened, .followedUp => some .opened
  | .opened, .snoozed => some .opened
  | .opened, .resolved => some .resolved
  | .opened, .cancelled => some .cancelled
  | .resolved, .reopened => some .opened
  | .cancelled, .reopened => some .opened
  | _, _ => none

/-- The status a log leads to: it starts with the creation, which opens the item, and every later
event may happen where it stands. -/
def replay : List WaitingForEventType → Option WaitingForStatus
  | .created :: rest => rest.foldlM WaitingForStatus.after .opened
  | _ => none

theorem replay_append {types : List WaitingForEventType} {status : WaitingForStatus}
    (h : replay types = some status) (t : WaitingForEventType) :
    replay (types ++ [t]) = status.after t := by
  cases types with
  | nil => cases h
  | cons first rest =>
    cases first with
    | created =>
      have hrest : rest.foldlM WaitingForStatus.after .opened = some status := h
      show (rest ++ [t]).foldlM WaitingForStatus.after .opened = status.after t
      simp [List.foldlM_append, hrest]
    | _ => cases h

/-- **The log of an item and its snapshot agree**: the sequence numbers are 1 up to the revision,
the events lead to the status, and the terminal fields are those of the status. -/
structure Replays (db : Database) (item : WaitingFor) : Prop where
  sequences : (db.eventsOf item.id).map WaitingForEvent.sequence = List.range' 1 item.revision
  status : replay ((db.eventsOf item.id).map WaitingForEvent.eventType) = some item.status
  opened : item.status = .opened →
    item.resolvedAt = none ∧ item.cancelledAt = none ∧ item.resolutionNote = ""
  resolved : item.status = .resolved →
    item.resolvedAt.isSome ∧ item.cancelledAt = none ∧ item.resolutionNote ≠ ""
  cancelled : item.status = .cancelled →
    item.cancelledAt.isSome ∧ item.resolvedAt = none ∧ item.resolutionNote = ""

/-- A snooze event carries the next review before and after it. -/
def RecordsReview (event : WaitingForEvent) (before after : WaitingFor) : Prop :=
  event.eventType = .snoozed → ∃ move, event.metadata = some move ∧
    move.previousNextReviewAt = before.nextReviewAt ∧
    move.nextReviewAt.denotes = after.nextReviewAt

/-- **How an event takes a snapshot to the next one.** -/
structure Moves (current updated : WaitingFor) (event : WaitingForEvent) : Prop where
  id : updated.id = current.id
  status : current.status.after event.eventType = some updated.status
  note : updated.status = .resolved → updated.resolutionNote ≠ ""
  review : RecordsReview event current updated

/-! ## What an action does -/

/-- **What an action of the call `i` does to the world**: nothing, create an item, or replace a
snapshot by the next one. -/
inductive Effect (i : ℕ) (w w' : World) : Prop
  | idle (h : w' = w)
  | created (item : WaitingFor) (event : WaitingForEvent)
      (hfree : ∀ row ∈ w.db.items, row.id ≠ item.id) (hopen : item.status = .opened)
      (hid : event.waitingForId = item.id) (hrev : item.revision = 1) (hseq : event.sequence = 1)
      (htype : event.eventType = .created)
      (hw : w' = ⟨⟨w.db.items ++ [item], w.db.events ++ [event]⟩, ⟨i, item.id, 0⟩ :: w.commits⟩)
  | moved (current updated : WaitingFor) (event : WaitingForEvent) (hcur : current ∈ w.db.items)
      (hmoves : Moves current updated event) (hid : event.waitingForId = updated.id)
      (hrev : updated.revision = current.revision + 1) (hseq : event.sequence = updated.revision)
      (hw : w' = ⟨{ w.db.updateItem updated with events := w.db.events ++ [event] },
        ⟨i, updated.id, current.revision⟩ :: w.commits⟩)

/-- **The invariant**: identifiers are unique, every event has its item, every log replays, and the
commits on an item are based on different revisions below the current one. -/
structure Inv (w : World) : Prop where
  unique : w.db.items.Pairwise fun a b => a.id ≠ b.id
  owned : ∀ event ∈ w.db.events, ∃ item ∈ w.db.items, item.id = event.waitingForId
  replays : ∀ item ∈ w.db.items, Replays w.db item
  based : ∀ cm ∈ w.commits, ∃ item ∈ w.db.items, item.id = cm.itemId ∧ cm.basedOn < item.revision
  once : w.commits.Pairwise fun a b => ¬(a.itemId = b.itemId ∧ a.basedOn = b.basedOn)

/-- A stored snapshot stays until its item has a later revision. -/
def Rely (w w' : World) : Prop :=
  ∀ item ∈ w.db.items, ∃ item' ∈ w'.db.items, item'.id = item.id ∧
    item.revision ≤ item'.revision ∧ (item'.revision = item.revision → item' = item)

theorem Rely.refl (w : World) : Rely w w := fun item h => ⟨item, h, rfl, le_rfl, fun _ => rfl⟩

theorem Rely.trans {u v w : World} (h : Rely u v) (h' : Rely v w) : Rely u w := by
  intro item hitem
  obtain ⟨item', hitem', hid, hle, heq⟩ := h item hitem
  obtain ⟨item'', hitem'', hid', hle', heq'⟩ := h' item' hitem'
  refine ⟨item'', hitem'', hid'.trans hid, hle.trans hle', fun h => ?_⟩
  have hsame : item'.revision = item.revision := le_antisymm (hle'.trans h.le) hle
  rw [heq' (h.trans hsame.symm), heq hsame]

/-- What every call may assume of the others. -/
def protocol : Protocol World where
  Inv := Inv
  Rely _ := Rely
  refl _ := Rely.refl
  trans := Rely.trans

theorem inv_initial : Inv World.initial where
  unique := List.Pairwise.nil
  owned _ h := by cases h
  replays _ h := by cases h
  based _ h := by cases h
  once := List.Pairwise.nil

section Effects

variable {i : ℕ} {w w' : World}

theorem Inv.item_unique (h : Inv w) {a b : WaitingFor} (ha : a ∈ w.db.items) (hb : b ∈ w.db.items)
    (hid : a.id = b.id) : a = b := by
  by_contra hne
  have hsymm : Std.Symm fun a b : WaitingFor => a.id ≠ b.id := ⟨fun _ _ hab => hab.symm⟩
  exact h.unique.forall ha hb hne hid

/-- The rows an update leaves. -/
theorem mem_updateItem {db : Database} {updated row : WaitingFor} :
    row ∈ (db.updateItem updated).items ↔
      ∃ old ∈ db.items, (if old.id = updated.id then updated else old) = row := by
  simp [Database.updateItem]

theorem eventsOf_append {db : Database} {items : List WaitingFor} {event : WaitingForEvent}
    {id : String} : Database.eventsOf ⟨items, db.events ++ [event]⟩ id =
      if event.waitingForId = id then db.eventsOf id ++ [event] else db.eventsOf id := by
  unfold Database.eventsOf
  rw [List.filter_append]
  split
  · rename_i h
    simp [h]
  · rename_i h
    simp [h]

/-- The log of an item that gets no event is as it was. -/
theorem Replays.frame {db : Database} {items : List WaitingFor} {event : WaitingForEvent}
    {item : WaitingFor} (h : Replays db item) (hne : event.waitingForId ≠ item.id) :
    Replays ⟨items, db.events ++ [event]⟩ item := by
  have hlog : Database.eventsOf ⟨items, db.events ++ [event]⟩ item.id = db.eventsOf item.id := by
    rw [eventsOf_append, if_neg hne]
  exact ⟨hlog ▸ h.sequences, hlog ▸ h.status, h.opened, h.resolved, h.cancelled⟩

/-- Every log of the invariant survives an event of another item. -/
theorem Inv.frame (h : Inv w) {items : List WaitingFor} {event : WaitingForEvent}
    {item : WaitingFor} (hitem : item ∈ w.db.items) (hne : event.waitingForId ≠ item.id) :
    Replays ⟨items, w.db.events ++ [event]⟩ item :=
  (h.replays item hitem).frame hne

/-- An item that does not exist has no events. -/
theorem Inv.eventsOf_nil (h : Inv w) {id : String} (hfree : ∀ row ∈ w.db.items, row.id ≠ id) :
    w.db.eventsOf id = [] := by
  rw [Database.eventsOf, List.filter_eq_nil_iff]
  intro event hevent
  obtain ⟨item, hitem, hid⟩ := h.owned event hevent
  rw [decide_eq_true_eq, ← hid]
  exact hfree item hitem

/-- A created item replays its first event. -/
theorem Inv.replays_created (h : Inv w) {item : WaitingFor} {event : WaitingForEvent}
    {items : List WaitingFor} (hfree : ∀ row ∈ w.db.items, row.id ≠ item.id)
    (hopen : item.status = .opened) (hid : event.waitingForId = item.id) (hrev : item.revision = 1)
    (hseq : event.sequence = 1) (htype : event.eventType = .created) :
    Replays ⟨items, w.db.events ++ [event]⟩ item := by
  have hlog : Database.eventsOf ⟨items, w.db.events ++ [event]⟩ item.id = [event] := by
    rw [eventsOf_append, if_pos hid, h.eventsOf_nil hfree, List.nil_append]
  have hfields := item.validState.opened hopen
  constructor
  · rw [hlog, hrev, List.map_singleton, hseq]
    rfl
  · rw [hlog, List.map_singleton, htype, hopen]
    rfl
  · exact fun _ => hfields
  · intro hr
    rw [hopen] at hr
    cases hr
  · intro hc
    rw [hopen] at hc
    cases hc

/-- The next snapshot replays the log with its event. -/
theorem Inv.replays_moved (h : Inv w) {current updated : WaitingFor} {event : WaitingForEvent}
    {items : List WaitingFor} (hcur : current ∈ w.db.items) (hmoves : Moves current updated event)
    (hid : event.waitingForId = updated.id) (hrev : updated.revision = current.revision + 1)
    (hseq : event.sequence = updated.revision) :
    Replays ⟨items, w.db.events ++ [event]⟩ updated := by
  have hold := h.replays current hcur
  have hlog : Database.eventsOf ⟨items, w.db.events ++ [event]⟩ updated.id =
      w.db.eventsOf updated.id ++ [event] := by
    rw [eventsOf_append, if_pos hid]
  have hsequences := hold.sequences
  have hstatus := hold.status
  rw [← hmoves.id] at hsequences hstatus
  constructor
  · rw [hlog, List.map_append, hsequences, List.map_singleton, hseq, hrev, List.range'_1_concat,
      Nat.add_comm]
  · rw [hlog, List.map_append, List.map_singleton, replay_append hstatus, hmoves.status]
  · exact updated.validState.opened
  · intro hr
    obtain ⟨hat, hno⟩ := updated.validState.resolved hr
    exact ⟨hat, hno, hmoves.note hr⟩
  · exact updated.validState.cancelled

/-- **Every effect keeps the invariant.** -/
theorem Effect.inv (h : Effect i w w') (hinv : Inv w) : Inv w' := by
  cases h with
  | idle hw => exact hw ▸ hinv
  | created item event hfree hopen hid hrev hseq htype hw =>
    subst hw
    have hother : ∀ row ∈ w.db.items, event.waitingForId ≠ row.id := by
      intro row hrow heq
      exact hfree row hrow (heq.symm.trans hid)
    constructor
    · refine List.pairwise_append.mpr ⟨hinv.unique, List.pairwise_singleton _ _, ?_⟩
      intro row hrow new hnew
      rw [List.mem_singleton.mp hnew]
      exact hfree row hrow
    · intro old hold
      rcases List.mem_append.mp hold with hold | hold
      · obtain ⟨row, hrow, heq⟩ := hinv.owned old hold
        exact ⟨row, List.mem_append_left _ hrow, heq⟩
      · rw [List.mem_singleton.mp hold]
        exact ⟨item, List.mem_append_right _ (List.mem_singleton_self _), hid.symm⟩
    · intro row hrow
      rcases List.mem_append.mp hrow with hrow | hrow
      · exact hinv.frame hrow (hother row hrow)
      · rw [List.mem_singleton.mp hrow]
        exact hinv.replays_created hfree hopen hid hrev hseq htype
    · intro cm hcm
      rcases List.mem_cons.mp hcm with rfl | hcm
      · exact ⟨item, List.mem_append_right _ (List.mem_singleton_self _), rfl, by simp [hrev]⟩
      · obtain ⟨row, hrow, heq, hlt⟩ := hinv.based cm hcm
        exact ⟨row, List.mem_append_left _ hrow, heq, hlt⟩
    · refine List.pairwise_cons.mpr ⟨fun cm hcm hsame => ?_, hinv.once⟩
      obtain ⟨row, hrow, heq, -⟩ := hinv.based cm hcm
      exact hfree row hrow (heq.trans hsame.1.symm)
  | moved current updated event hcur hmoves hid hrev hseq hw =>
    subst hw
    -- every row is the new snapshot, or an old one of another item
    have hrows : ∀ row ∈ (w.db.updateItem updated).items,
        row = updated ∨ row ∈ w.db.items ∧ row.id ≠ updated.id := by
      intro row hrow
      obtain ⟨old, hold, heq⟩ := mem_updateItem.mp hrow
      split at heq
      · exact .inl heq.symm
      · rename_i hne
        exact .inr ⟨heq ▸ hold, heq ▸ hne⟩
    have hnew : updated ∈ (w.db.updateItem updated).items :=
      mem_updateItem.mpr ⟨current, hcur, if_pos hmoves.id.symm⟩
    have hkept : ∀ row ∈ w.db.items, row.id ≠ updated.id →
        row ∈ (w.db.updateItem updated).items := fun row hrow hne =>
      mem_updateItem.mpr ⟨row, hrow, if_neg hne⟩
    have hids : ∀ row ∈ w.db.items, ∃ row' ∈ (w.db.updateItem updated).items, row'.id = row.id ∧
        row.revision ≤ row'.revision := by
      intro row hrow
      by_cases heq : row.id = updated.id
      · have hsame := hinv.item_unique hrow hcur (heq.trans hmoves.id)
        exact ⟨updated, hnew, heq.symm, by rw [hsame, hrev]; omega⟩
      · exact ⟨row, hkept row hrow heq, rfl, le_rfl⟩
    constructor
    · show ((w.db.items.map _)).Pairwise _
      rw [List.pairwise_map]
      refine hinv.unique.imp fun {a b} hab => ?_
      have hid' : ∀ row : WaitingFor, (if row.id = updated.id then updated else row).id = row.id :=
        fun row => by
          split
          · exact Eq.symm ‹_›
          · rfl
      rw [hid', hid']
      exact hab
    · intro old hold
      rcases List.mem_append.mp hold with hold | hold
      · obtain ⟨row, hrow, heq⟩ := hinv.owned old hold
        obtain ⟨row', hrow', hid', -⟩ := hids row hrow
        exact ⟨row', hrow', hid'.trans heq⟩
      · rw [List.mem_singleton.mp hold]
        exact ⟨updated, hnew, hid.symm⟩
    · intro row hrow
      rcases hrows row hrow with rfl | ⟨hold, hne⟩
      · exact hinv.replays_moved hcur hmoves hid hrev hseq
      · exact hinv.frame hold (fun heq => hne (heq.symm.trans hid))
    · intro cm hcm
      rcases List.mem_cons.mp hcm with rfl | hcm
      · exact ⟨updated, hnew, rfl, by simp [hrev]⟩
      · obtain ⟨row, hrow, heq, hlt⟩ := hinv.based cm hcm
        obtain ⟨row', hrow', hid', hle⟩ := hids row hrow
        exact ⟨row', hrow', hid'.trans heq, by omega⟩
    · refine List.pairwise_cons.mpr ⟨fun cm hcm hsame => ?_, hinv.once⟩
      -- an earlier commit on the item is based on an earlier revision
      obtain ⟨row, hrow, heq, hlt⟩ := hinv.based cm hcm
      obtain rfl := hinv.item_unique hrow hcur (heq.trans (hsame.1.symm.trans hmoves.id))
      exact absurd hsame.2.symm hlt.ne

/-- **Every effect gives the other calls what they rely on.** -/
theorem Effect.rely (h : Effect i w w') (hinv : Inv w) : Rely w w' := by
  cases h with
  | idle hw => exact hw ▸ Rely.refl w
  | created item event hfree hopen hid hrev hseq htype hw =>
    subst hw
    exact fun row hrow => ⟨row, List.mem_append_left _ hrow, rfl, le_rfl, fun _ => rfl⟩
  | moved current updated event hcur hmoves hid hrev hseq hw =>
    subst hw
    intro row hrow
    by_cases heq : row.id = updated.id
    · obtain rfl := hinv.item_unique hrow hcur (heq.trans hmoves.id)
      exact ⟨updated, mem_updateItem.mpr ⟨row, hrow, if_pos heq⟩, heq.symm, by omega,
        fun hsame => by omega⟩
    · exact ⟨row, mem_updateItem.mpr ⟨row, hrow, if_neg heq⟩, rfl, le_rfl, fun _ => rfl⟩

end Effects

/-! ## What a call must ensure -/

/-- The reply says that a transaction committed. -/
def Action.committed : (e : Action) → e.Reply → Bool
  | .create _ _, .ok () => true
  | .mutate _ _ _ _, .ok () => true
  | _, _ => false

/-- The call has committed. -/
def Committed (log : Log Action Action.Reply) : Prop :=
  ∃ entry ∈ log, entry.1.committed entry.2 = true

/-- The snapshot was stored, and is until its item has a later revision. -/
def Seen (w : World) (current : WaitingFor) : Prop :=
  ∃ item ∈ w.db.items, item.id = current.id ∧ current.revision ≤ item.revision ∧
    (item.revision = current.revision → item = current)

/-- **What an action must meet**: the call has not committed yet, a created item is open, and a
mutation follows from a snapshot of the revision it expects. -/
def pre (_ : ℕ) (log : Log Action Action.Reply) (e : Action) (w : World) : Prop :=
  ¬Committed log ∧
  match e with
  | .create item _ => item.status = .opened
  | .mutate _ updated event expected =>
    ∃ current, Seen w current ∧ expected = current.revision ∧ Moves current updated event
  | _ => True

section Sound

variable {i : ℕ} {log : Log Action Action.Reply} {w w' : World}

theorem Seen.of_mem {current : WaitingFor} (h : current ∈ w.db.items) : Seen w current :=
  ⟨current, h, rfl, le_rfl, fun _ => rfl⟩

theorem Seen.rely {current : WaitingFor} (h : Seen w current) (hr : Rely w w') :
    Seen w' current := by
  obtain ⟨item, hitem, hid, hle, heq⟩ := h
  obtain ⟨item', hitem', hid', hle', heq'⟩ := hr item hitem
  refine ⟨item', hitem', hid'.trans hid, hle.trans hle', fun h => ?_⟩
  have hsame : item.revision = current.revision := le_antisymm (hle'.trans h.le) hle
  rw [heq' (h.trans hsame.symm), heq hsame]

/-- **What an action does**, and that the tables change only in a transaction that commits. -/
theorem effect {e : Action} {input : Input} {r : e.Reply} (hinv : Inv w) (hpre : pre i log e w)
    (h : handler i e input w = some (r, w')) :
    Effect i w w' ∧ (w'.db ≠ w.db → e.committed r = true) := by
  have hidle : w = w' → Effect i w w' ∧ (w'.db ≠ w.db → e.committed r = true) := by
    rintro rfl
    exact ⟨.idle rfl, fun hne => absurd rfl hne⟩
  cases e with
  | now =>
    cases input <;> simp only [handler, Option.some.injEq, Prod.mk.injEq, reduceCtorEq] at h
    exact hidle h.2
  | newId =>
    cases input <;> simp only [handler, Option.some.injEq, Prod.mk.injEq, reduceCtorEq] at h
    exact hidle h.2
  | get workspaceKey id =>
    cases input <;> simp only [handler, Option.some.injEq, Prod.mk.injEq, reduceCtorEq] at h
    · exact hidle h.2
    · exact hidle h.2
  | create item event =>
    cases input <;> simp only [handler, Option.some.injEq, reduceCtorEq] at h
    · cases hdb : w.db.create item event with
      | error e =>
        rw [hdb] at h
        exact hidle (Prod.mk.inj h).2
      | ok db =>
        rw [hdb] at h
        obtain ⟨rfl, rfl⟩ := Prod.mk.inj h
        obtain ⟨hfree, hid, hrev, hseq, htype, rfl⟩ := Database.create_ok hdb
        exact ⟨.created item event hfree hpre.2 hid hrev hseq htype rfl, fun _ => rfl⟩
    · exact hidle (Prod.mk.inj h).2
  | mutate workspaceKey updated event expected =>
    cases input <;> simp only [handler, Option.some.injEq, reduceCtorEq] at h
    · cases hdb : w.db.mutate workspaceKey updated event expected with
      | error e =>
        rw [hdb] at h
        exact hidle (Prod.mk.inj h).2
      | ok db =>
        rw [hdb] at h
        obtain ⟨rfl, rfl⟩ := Prod.mk.inj h
        obtain ⟨stored, hstored, hsid, hsrev, hrev, hid, hseq, -, rfl⟩ := Database.mutate_ok hdb
        obtain ⟨-, current, ⟨item, hitem, hiid, -, heq⟩, rfl, hmoves⟩ := hpre
        -- the stored snapshot has the revision of the one the call read, so it is that one
        obtain rfl := hinv.item_unique hstored hitem
          (hsid.trans (hmoves.id.trans hiid.symm))
        obtain rfl := heq (by exact_mod_cast hsrev)
        exact ⟨.moved stored updated event hstored hmoves hid (by exact_mod_cast hrev) hseq rfl,
          fun _ => rfl⟩
    · exact hidle (Prod.mk.inj h).2

theorem sound : Sound protocol handler pre := by
  intro i log e input r w w' hinv hpre h
  obtain ⟨heffect, -⟩ := effect hinv hpre h
  exact ⟨heffect.inv hinv, fun _ _ => heffect.rely hinv⟩

end Sound

end WaitingFors

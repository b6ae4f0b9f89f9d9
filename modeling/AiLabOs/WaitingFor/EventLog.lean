import AiLabOs.WaitingFor.Replay

/-!
# Waiting-For: the law of the event log

Every operation meets the preconditions of its actions: what it commits follows from the snapshot
it read. So the invariant holds in every reachable configuration, and every step does one of the
three effects.

## Main definitions

* `Keeps`: a call that meets its preconditions and raises only before it commits
* `ReplayLaw`: the law of the event log, in one configuration

## Main results

* `mutate_keeps`: the rule of all mutations
* `event_log_replays`: the law holds in every reachable configuration
-/

namespace WaitingFors

open Process

/-- The call `i` running `p` meets the preconditions, and if it raises it has not committed. -/
abbrev Keeps {α : Type} (i : ℕ) (post : α → Log Action Action.Reply → World → Prop) (p : Prog α)
    (log : Log Action Action.Reply) (w : World) : Prop :=
  Safe protocol handler pre i post (fun _ log _ => ¬Committed log) p log w

/-- The actions that are transactions. -/
def Action.writes : Action → Bool
  | .create _ _ | .mutate _ _ _ _ => true
  | _ => false

section Steps

variable {α β : Type} {i : ℕ} {post : β → Log Action Action.Reply → World → Prop}
variable {log : Log Action Action.Reply} {w : World}

theorem not_committed_append {e : Action} {r : e.Reply} (h : ¬Committed log)
    (hr : e.committed r = false) : ¬Committed (log ++ [⟨e, r⟩]) := by
  rintro ⟨entry, hentry, hc⟩
  rcases List.mem_append.mp hentry with hentry | hentry
  · exact h ⟨entry, hentry, hc⟩
  · rw [List.mem_singleton.mp hentry] at hc
    exact absurd (hr.symm.trans hc) (by simp)

/-- Every failure is raised. -/
theorem keeps_invalid {operation trace : String} {e : Invalid} (h : ¬Committed log) :
    Keeps i post (raiseInvalid operation trace e) log w := by
  cases e <;> exact Safe.raise h

theorem keeps_repository {operation trace : String} {e : RepositoryError} (h : ¬Committed log) :
    Keeps i post (raiseRepository operation trace e) log w := by
  cases e <;> exact Safe.raise h

/-- **A reading action** leaves the world and what the call knows of it. -/
theorem keeps_read {e : Action} {f : e.Reply → Prog β} (hlog : ¬Committed log)
    (he : e.writes = false)
    (h : ∀ r log' w', ¬Committed log' → Rely w w' → Inv w' →
      (∃ input, handler i e input w' = some (r, w')) → Keeps i post (f r) log' w') :
    Keeps i post (Program.perform e >>= f) log w := by
  refine Safe.perform fun w' hw hinv => ?_
  have hpre : pre i log e w' := by
    refine ⟨hlog, ?_⟩
    cases e <;> first | exact trivial | cases he
  refine ⟨hpre, fun input r w'' hr => ?_⟩
  have hreads : w'' = w' ∧ e.committed r = false := by
    cases e <;> cases input <;>
      simp only [handler, Option.some.injEq, Prod.mk.injEq, reduceCtorEq, Action.writes] at hr he
    all_goals exact ⟨hr.2.symm, rfl⟩
  obtain ⟨rfl, hc⟩ := hreads
  exact h r _ _ (not_committed_append hlog hc) hw hinv ⟨input, hr⟩

theorem keeps_now {f : DateTimeArg → Prog β} (hlog : ¬Committed log)
    (h : ∀ t log' w', ¬Committed log' → Rely w w' → Keeps i post (f t) log' w') :
    Keeps i post (clockNow >>= f) log w :=
  keeps_read hlog rfl fun t log' w' hlog' hw _ _ => h t log' w' hlog' hw

theorem keeps_hex {f : String → Prog β} (hlog : ¬Committed log)
    (h : ∀ s log' w', ¬Committed log' → Rely w w' → Keeps i post (f s) log' w') :
    Keeps i post (newHex >>= f) log w :=
  keeps_read hlog rfl fun s log' w' hlog' hw _ _ => h s log' w' hlog' hw

/-- **Reading an item**: what is found has been seen. -/
theorem keeps_get {workspaceKey : WorkspaceKey} {id : String} {f : WaitingFor → Prog β}
    (hlog : ¬Committed log)
    (h : ∀ current log' w', ¬Committed log' → Seen w' current → Keeps i post (f current) log' w') :
    Keeps i post (get workspaceKey id >>= f) log w := by
  refine Safe.bind (keeps_read hlog rfl fun r log' w' hlog' _ _ hr => ?_)
  obtain ⟨input, hr⟩ := hr
  cases r with
  | error e => cases e <;> exact Safe.raise hlog'
  | ok current =>
    refine Safe.ret (h current log' w' hlog' ?_)
    cases input <;> simp only [handler, Option.some.injEq, Prod.mk.injEq, reduceCtorEq] at hr
    · exact .of_mem (Database.scopedRow_ok hr.1).1
    · cases hr.1

theorem keeps_requireOpen {item : WaitingFor} {operation trace : String} {f : Unit → Prog β}
    (hlog : ¬Committed log) (h : item.status = .opened → Keeps i post (f ()) log w) :
    Keeps i post (requireOpen item operation trace >>= f) log w := by
  unfold requireOpen
  split
  · exact h ‹_›
  · exact Safe.raise hlog

theorem keeps_requiredNote {note operation trace : String} {f : String → Prog β}
    (hlog : ¬Committed log) (h : Text.strip note ≠ "" → Keeps i post (f (Text.strip note)) log w) :
    Keeps i post (requiredNote note operation trace >>= f) log w := by
  unfold requiredNote
  split
  · exact Safe.raise hlog
  · split
    · exact Safe.raise hlog
    · exact h ‹_›

end Steps

/-! ## Operations -/

section Operations

variable {i : ℕ} {log : Log Action Action.Reply} {w : World} {zones : String → Bool}

/-- A change that follows from every snapshot it is applied to. -/
def Change.Sound (ch : Change) (current : WaitingFor) : Prop :=
  ∀ (now : DateTimeArg) (updated : WaitingFor) (event : WaitingForEvent),
    WaitingFor.Accepts (ch.values current now) updated → event.eventType = ch.eventType →
      event.metadata = ch.metadata → Moves current updated event

/-- **The rule of all mutations**: a sound change of a snapshot that was seen. -/
theorem mutate_keeps {a : MutationArgs} {current : WaitingFor} {ch : Change} (hlog : ¬Committed log)
    (hseen : Seen w current) (hch : ch.Sound current) :
    Keeps i (fun _ _ _ => True) (mutate zones a current ch) log w := by
  unfold mutate
  split
  · exact Safe.raise hlog
  · rename_i hrev
    have hexpected : a.expectedRevision = current.revision := not_not.mp hrev
    refine keeps_now hlog fun now log₁ w₁ hlog₁ hw₁ => ?_
    split
    · exact keeps_invalid hlog₁
    · rename_i updated hupdated
      refine keeps_hex hlog₁ fun hex log₂ w₂ hlog₂ hw₂ => ?_
      split
      · exact keeps_invalid hlog₂
      · rename_i event hevent
        have haccepts := WaitingForEvent.validate_ok hevent
        have hmoves := hch now updated event (WaitingFor.validate_ok hupdated) haccepts.eventType
          haccepts.metadata
        refine Safe.perform fun w₃ hw₃ _ => ⟨⟨hlog₂, current, ?_, hexpected, hmoves⟩, ?_⟩
        · exact hseen.rely (hw₁.trans (hw₂.trans hw₃))
        · intro input r w₄ hr
          cases r with
          | ok _ => exact Safe.ret trivial
          | error e => exact keeps_repository (not_committed_append hlog₂ rfl)

theorem recordFollowUp_keeps (a : MutationArgs) (hlog : ¬Committed log) :
    Keeps i (fun _ _ _ => True) (recordFollowUp zones a) log w := by
  refine keeps_requiredNote hlog fun _ => keeps_get hlog fun current log₁ w₁ hlog₁ hseen => ?_
  refine keeps_requireOpen hlog₁ fun hopen => mutate_keeps hlog₁ hseen ?_
  intro now updated event haccepts htype _
  have hstatus : updated.status = .opened := haccepts.status.trans hopen
  refine ⟨haccepts.id, ?_, fun hr => ?_, fun hs => ?_⟩
  · rw [hopen, htype, hstatus]
    rfl
  · rw [hstatus] at hr
    cases hr
  · rw [htype] at hs
    cases hs

theorem snooze_keeps (a : MutationArgs) (nextReviewAt : DateTimeArg) (hlog : ¬Committed log) :
    Keeps i (fun _ _ _ => True) (snooze zones a nextReviewAt) log w := by
  refine keeps_get hlog fun current log₁ w₁ hlog₁ hseen => ?_
  refine keeps_requireOpen hlog₁ fun hopen => mutate_keeps hlog₁ hseen ?_
  intro now updated event haccepts htype hmeta
  have hstatus : updated.status = .opened := haccepts.status.trans hopen
  refine ⟨haccepts.id, ?_, fun hr => ?_, fun _ => ⟨_, hmeta, rfl, ?_⟩⟩
  · rw [hopen, htype, hstatus]
    rfl
  · rw [hstatus] at hr
    cases hr
  · -- the argument was normalised to the stored instant
    have hnext : some nextReviewAt = updated.nextReviewAt.map .utc := haccepts.nextReviewAt
    obtain ⟨d, hd, rfl⟩ := Option.map_eq_some_iff.mp hnext.symm
    exact hd.symm

theorem resolve_keeps (a : MutationArgs) (hlog : ¬Committed log) :
    Keeps i (fun _ _ _ => True) (resolve zones a) log w := by
  refine keeps_requiredNote hlog fun hnote => keeps_get hlog fun current log₁ w₁ hlog₁ hseen => ?_
  refine keeps_requireOpen hlog₁ fun hopen => keeps_now hlog₁ fun at_ log₂ w₂ hlog₂ hw₂ => ?_
  refine mutate_keeps hlog₂ (hseen.rely hw₂) ?_
  intro now updated event haccepts htype _
  have hstatus : updated.status = .resolved := haccepts.status
  refine ⟨haccepts.id, ?_, fun _ => ?_, fun hs => ?_⟩
  · rw [hopen, htype, hstatus]
    rfl
  · rw [haccepts.resolutionNote]
    show Text.strip (Text.strip a.note) ≠ ""
    rw [Text.strip_strip]
    exact hnote
  · rw [htype] at hs
    cases hs

theorem cancel_keeps (a : MutationArgs) (hlog : ¬Committed log) :
    Keeps i (fun _ _ _ => True) (cancel zones a) log w := by
  refine keeps_requiredNote hlog fun _ => keeps_get hlog fun current log₁ w₁ hlog₁ hseen => ?_
  refine keeps_requireOpen hlog₁ fun hopen => keeps_now hlog₁ fun at_ log₂ w₂ hlog₂ hw₂ => ?_
  refine mutate_keeps hlog₂ (hseen.rely hw₂) ?_
  intro now updated event haccepts htype _
  have hstatus : updated.status = .cancelled := haccepts.status
  refine ⟨haccepts.id, ?_, fun hr => ?_, fun hs => ?_⟩
  · rw [hopen, htype, hstatus]
    rfl
  · rw [hstatus] at hr
    cases hr
  · rw [htype] at hs
    cases hs

theorem reopen_keeps (a : MutationArgs) (hlog : ¬Committed log) :
    Keeps i (fun _ _ _ => True) (reopen zones a) log w := by
  refine keeps_requiredNote hlog fun _ => keeps_get hlog fun current log₁ w₁ hlog₁ hseen => ?_
  split
  · exact Safe.raise hlog₁
  · rename_i hclosed
    refine mutate_keeps hlog₁ hseen ?_
    intro now updated event haccepts htype _
    have hstatus : updated.status = .opened := haccepts.status
    refine ⟨haccepts.id, ?_, fun hr => ?_, fun hs => ?_⟩
    · rw [htype, hstatus]
      cases hcur : current.status with
      | opened => exact absurd hcur hclosed
      | resolved => rfl
      | cancelled => rfl
    · rw [hstatus] at hr
      cases hr
    · rw [htype] at hs
      cases hs

theorem create_keeps (a : CreateArgs) (hlog : ¬Committed log) :
    Keeps i (fun _ _ _ => True) (create zones a) log w := by
  refine keeps_now hlog fun now log₁ w₁ hlog₁ _ => ?_
  have hid : ∀ f : String → Prog MutationResult,
      (∀ id log' w', ¬Committed log' → Keeps i (fun _ _ _ => True) (f id) log' w') →
        Keeps i (fun _ _ _ => True) (itemId a.waitingForId >>= f) log₁ w₁ := by
    intro f hf
    unfold itemId
    split
    · exact hf _ log₁ w₁ hlog₁
    · exact Safe.bind (keeps_hex hlog₁ fun hex log' w' hlog' _ => Safe.ret (hf _ log' w' hlog'))
  refine hid _ fun id log₂ w₂ hlog₂ => ?_
  split
  · exact keeps_invalid hlog₂
  · rename_i item hitem
    have hopen : item.status = .opened := (WaitingFor.validate_ok hitem).status
    refine keeps_hex hlog₂ fun hex log₃ w₃ hlog₃ _ => ?_
    split
    · exact keeps_invalid hlog₃
    · refine Safe.perform fun w₄ _ _ => ⟨⟨hlog₃, hopen⟩, fun input r w₅ _ => ?_⟩
      cases r with
      | ok _ => exact Safe.ret trivial
      | error e => cases e <;> exact Safe.raise (not_committed_append hlog₃ rfl)

/-- Every call keeps its preconditions. -/
theorem start_keeps (zones : String → Bool) (i : ℕ) (k : Request) (w : World) :
    Keeps i (fun _ _ _ => True) (start zones k) [] w := by
  have hlog : ¬Committed [] := by
    rintro ⟨entry, hentry, -⟩
    cases hentry
  cases k with
  | create a => exact create_keeps a hlog
  | recordFollowUp a => exact recordFollowUp_keeps a hlog
  | snooze a nextReviewAt => exact snooze_keeps a nextReviewAt hlog
  | resolve a => exact resolve_keeps a hlog
  | cancel a => exact cancel_keeps a hlog
  | reopen a => exact reopen_keeps a hlog

theorem startsSafe (zones : String → Bool) : StartsSafe protocol handler pre (start zones) :=
  fun i k w _ => (start_keeps zones i k w).mono (fun _ _ _ _ => trivial) fun _ _ _ _ => trivial

end Operations

/-! ## The law -/

section Law

variable {zones : String → Bool} {c c' : Calls}

theorem Reachable.inv (h : Reachable zones c) : Inv c.world :=
  ((AllSafe.idle inv_initial).reaches sound (startsSafe zones) h).1

theorem Reachable.trans (h : Reachable zones c) (h' : Reaches handler (start zones) c c') :
    Reachable zones c' :=
  Reaches.trans h h'

theorem Reachable.keeps (h : Reachable zones c) {i : ℕ} {k : Request}
    {log : Log Action Action.Reply} {p : Prog MutationResult}
    (hi : c.calls[i]? = some ⟨k, log, p⟩) : Keeps i (fun _ _ _ => True) p log c.world :=
  Reaches.every (fun _ => True) sound (startsSafe zones) inv_initial
    (fun i k w _ _ => start_keeps zones i k w) (fun _ _ _ _ _ _ _ _ => trivial)
    (fun _ _ _ _ _ _ _ hf => hf) h trivial hi

/-- **What a step does** in a reachable configuration: a step that changes the tables ends its call
with a result. -/
theorem Reachable.step (h : Reachable zones c) {i : ℕ} {input : Input}
    (he : step handler (start zones) c (.act i input) = some c') :
    Effect i c.world c'.world ∧ (c'.world.db ≠ c.world.db →
      ∃ k log result, c'.calls[i]? = some ⟨k, log, .ret result⟩) := by
  rcases step_cases he with ⟨k, hev, -⟩ | ⟨j, input', k, log, e, next, r, w, hev, hi, hr, rfl⟩
  · cases hev
  · cases hev
    obtain ⟨hpre, hrest⟩ := (h.keeps hi).act h.inv
    obtain ⟨heffect, hcommits⟩ := effect h.inv hpre hr
    refine ⟨heffect, fun hne => ?_⟩
    have hcommitted : Committed (log ++ [⟨e, r⟩]) :=
      ⟨⟨e, r⟩, List.mem_append_right _ (List.mem_singleton_self _), hcommits hne⟩
    have hafter := hrest hr
    have hlt := (List.getElem?_eq_some_iff.mp hi).1
    -- a call that has committed neither raises nor acts again
    cases hp : next r with
    | ret result => exact ⟨k, log ++ [⟨e, r⟩], result, by simp [List.getElem?_set_self hlt]⟩
    | raise x =>
      rw [hp] at hafter
      exact absurd hcommitted hafter.of_raise
    | await e' next' =>
      rw [hp] at hafter
      exact absurd hcommitted (hafter.act (heffect.inv h.inv)).1.1

/-- A finished call does nothing more. -/
theorem finished {i : ℕ} {k : Request} {log : Log Action Action.Reply} {result : MutationResult}
    (h : Reaches handler (start zones) c c') (hi : c.calls[i]? = some ⟨k, log, .ret result⟩) :
    c'.calls[i]? = some ⟨k, log, .ret result⟩ := by
  refine h.induction (motive := fun d => d.calls[i]? = some ⟨k, log, .ret result⟩) hi ?_
  intro d ev d' _ hd he
  rcases step_cases he with ⟨k', -, rfl⟩ | ⟨j, input, k', log', e, next, r, w, -, hj, -, rfl⟩
  · have hlt := (List.getElem?_eq_some_iff.mp hd).1
    simpa [List.getElem?_append_left hlt] using hd
  · have hne : j ≠ i := by
      rintro rfl
      rw [hd] at hj
      simp at hj
    simpa [List.getElem?_set_ne hne] using hd

/-- **The law of the event log** in one configuration: every log agrees with its snapshot; a step
adds at most one event, and a snooze event carries the next review of its item before and after the
step; a call that raises has changed no table; and commits on one item are based on different
revisions. -/
structure ReplayLaw (zones : String → Bool) (c : Calls) : Prop where
  log : ∀ item ∈ c.world.db.items, Replays c.world.db item
  appends : ∀ i input c', step handler (start zones) c (.act i input) = some c' →
    c'.world.db.events = c.world.db.events ∨
    ∃ event, c'.world.db.events = c.world.db.events ++ [event] ∧
      (event.eventType = .snoozed →
        ∃ before ∈ c.world.db.items, ∃ after ∈ c'.world.db.items,
          before.id = event.waitingForId ∧ after.id = event.waitingForId ∧
          RecordsReview event before after)
  raises : ∀ i input c' c'', step handler (start zones) c (.act i input) = some c' →
    Reaches handler (start zones) c' c'' →
    (∃ k log x, c''.calls[i]? = some ⟨k, log, .raise x⟩) → c'.world.db = c.world.db
  once : c.world.commits.Pairwise fun a b => ¬(a.itemId = b.itemId ∧ a.basedOn = b.basedOn)

/-- **The event log replays to its snapshot**, in every reachable configuration. -/
theorem event_log_replays (h : Reachable zones c) : ReplayLaw zones c where
  log := h.inv.replays
  appends i input c' he := by
    obtain ⟨heffect, -⟩ := h.step he
    cases heffect with
    | idle hw => exact .inl (by rw [hw])
    | created item event hfree hopen hid hrev hseq htype hw =>
      refine .inr ⟨event, by rw [hw], fun hs => ?_⟩
      rw [htype] at hs
      cases hs
    | moved current updated event hcur hmoves hid hrev hseq hw =>
      refine .inr ⟨event, by rw [hw], fun _ => ⟨current, hcur, updated, ?_, ?_, hid.symm,
        hmoves.review⟩⟩
      · rw [hw]
        exact mem_updateItem.mpr ⟨current, hcur, if_pos hmoves.id.symm⟩
      · rw [hid, hmoves.id]
  raises i input c' c'' he hr hraised := by
    by_contra hne
    obtain ⟨k, log, result, hi⟩ := (h.step he).2 hne
    obtain ⟨k', log', x, hi'⟩ := hraised
    rw [finished hr hi] at hi'
    simp at hi'
  once := h.inv.once

end Law

/-! ## A run -/

namespace Scenario

/-- An instant of one day. -/
def at_ (hour : Fin 24) : DateTime :=
  ⟨2026, 7, 24, hour, 0, 0, 0, by
    refine ⟨?_, ?_, ?_, hour.isLt, ?_, ?_, ?_⟩
    all_goals decide⟩

/-- The arguments of a mutation of the item. -/
def args (revision : Int) : MutationArgs where
  workspaceKey := {}
  waitingForId := "wf_reply"
  expectedRevision := revision
  note := "waiting"
  source := "api"

/-- An item is created and snoozed; two calls that have read revision 2 want to resolve it and to
record a follow-up, and the second to commit is refused. -/
def events : List (Event Request Input) := [
  .arrive (.create { workspaceKey := {}, subject := "reply", waitingOn := "owner", source := "api",
                     waitingForId := some "wf_reply" }),
  .act 0 (.clock (.utc (at_ 8))), .act 0 (.hex "1"), .act 0 .reached,
  .arrive (.snooze (args 1) (.utc (at_ 12))),
  .act 1 .reached, .act 1 (.clock (.utc (at_ 9))), .act 1 (.hex "2"), .act 1 .reached,
  .arrive (.resolve (args 2)), .arrive (.recordFollowUp (args 2)),
  .act 2 .reached, .act 3 .reached,
  .act 2 (.clock (.utc (at_ 10))), .act 2 (.clock (.utc (at_ 10))), .act 2 (.hex "3"),
  .act 3 (.clock (.utc (at_ 10))), .act 3 (.hex "4"), .act 2 .reached, .act 3 .reached]

/-- The configuration it leads to. -/
def after : Calls :=
  (run handler (start fun _ => true) (idle World.initial) events).getD (idle World.initial)

theorem reachable : Reachable (fun _ => true) after := by
  have hrun : (run handler (start fun _ => true) (idle World.initial) events).isSome = true := by
    decide +kernel
  obtain ⟨c, hc⟩ := Option.isSome_iff_exists.mp hrun
  refine ⟨events, ?_⟩
  rw [after, hc]
  rfl

end Scenario

/-- In that run three events are on the log of a resolved item. -/
theorem event_log_replays_scenario :
    Scenario.after.world.db.items.map (fun item => (item.status, item.revision)) =
      [(.resolved, 3)] ∧
    ReplayLaw (fun _ => true) Scenario.after :=
  ⟨by decide +kernel, event_log_replays Scenario.reachable⟩

end WaitingFors

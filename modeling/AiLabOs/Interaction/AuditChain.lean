import AiLabOs.Base.TimeDelta
import AiLabOs.Interaction.Audits
import AiLabOs.Interaction.Lifecycle
import AiLabOs.Process.Conditioned

/-!
# Trusted interactions: the audit trail as a chain

The lines of a commit come after all earlier ones. Of the four lines of a Preview each has the same
revision, so that their order is the order of the texts of their instants and of their
identifiers: the trail stays a chain exactly when that order is not against the one they tell of.

## Main definitions

* `Chained`: the lines lead to the current state and cover the revisions
* `InOrder`: the lines of a transition are read in an order that links them
* `ordered`: no event commits a transition with lines out of order

## Main results

* `Chronicled`: every reachable configuration has a line for every revision
* `audit_chain_law`
-/

namespace Interactions

open Process

variable {isoformat : Instant → String}

/-- The lines lead from nothing to the current state, by revisions that ascend and leave none
out. -/
structure Chained (r : Interaction) (lines : List AuditEvidence) : Prop where
  links : Trail.Links AuditEvidence.fromState (fun a => some a.toState) none lines
    (some r.lifecycleState)
  revisions : lines.Pairwise fun a b => a.revision ≤ b.revision
  covers : ∀ n, (∃ a ∈ lines, a.revision = n) ↔ 1 ≤ n ∧ n ≤ r.revision

/-- Every stored interaction has such a trail. -/
def AuditTrails (isoformat : Instant → String) (db : Database) : Prop :=
  ∀ X r, db.records X = some r → Chained r (db.audits isoformat r.scope X)

/-- **The lines of a transition are in order**: of a Preview, the line that it is made is read
before the line of the change of state, and the lines of its resolution before both or, where the
state is the same as before, after both. -/
def InOrder (isoformat : Instant → String) (t : Transition) : Prop :=
  match t.audits with
  | [a, b, made, changed] =>
    ReadBefore isoformat made changed ∧
      (ReadBefore isoformat a made ∨
        ¬ReadBefore isoformat a changed ∧ some changed.toState = made.fromState) ∧
      (ReadBefore isoformat b made ∨
        ¬ReadBefore isoformat b changed ∧ some changed.toState = made.fromState)
  | _ => True

instance (isoformat : Instant → String) (t : Transition) : Decidable (InOrder isoformat t) := by
  unfold InOrder
  split <;> infer_instance

/-- The transition an event commits. -/
def commitsTransition (c : Calls) : Event Request Input → Option Transition
  | .act i _ =>
    match awaited c i with
    | some (.transition t) =>
      match c.world.db.transition t with
      | .ok _ => some t
      | .error _ => none
    | _ => none
  | .arrive _ => none

/-- The lines of the transition an event commits are in order. -/
def ordered (isoformat : Instant → String) (c : Calls) (ev : Event Request Input) : Bool :=
  (commitsTransition c ev).all fun t => InOrder isoformat t

/-! ## The order of the lines -/

instance : IsTrans AuditEvidence (ReadBefore isoformat) :=
  ⟨fun _ _ _ h h' => le_trans (α := Int ×ₗ String ×ₗ String) h h'⟩

instance : Std.Total (ReadBefore isoformat) :=
  ⟨fun a b => le_total (a.orderKey isoformat) (b.orderKey isoformat)⟩

/-- Lines are read by revision first. -/
theorem ReadBefore.revision {a b : AuditEvidence} (h : ReadBefore isoformat a b) :
    a.revision ≤ b.revision :=
  Prod.Lex.monotone_fst _ _ h

theorem readBefore_of_lt {a b : AuditEvidence} (h : a.revision < b.revision) :
    ReadBefore isoformat a b :=
  (Prod.Lex.lt_iff.mpr (.inl h)).le

/-- The lines of an interaction, as they are stored. -/
def Database.lines (db : Database) (interactionId : String) : List AuditEvidence :=
  db.audit.filter fun a => a.interactionId = interactionId

theorem Database.audits_eq {db : Database} {X : String} {r : Interaction}
    (h : db.records X = some r) :
    db.audits isoformat r.scope X = (db.lines X).insertionSort (ReadBefore isoformat) := by
  rw [Database.audits, Database.get_eq_some.mpr ⟨h, rfl⟩]
  rfl

theorem Database.mem_lines {db : Database} {X : String} {a : AuditEvidence} :
    a ∈ db.lines X ↔ a ∈ db.audit ∧ a.interactionId = X := by
  simp [Database.lines]

/-! ## What an event writes -/

/-- **What an event can do** to the records and the audit trail, and the transition it commits. -/
inductive World.Writes (w w' : World) : Option Transition → Prop
  | kept (hdb : w'.db.records = w.db.records ∧ w'.db.audit = w.db.audit)
      (hseen : ∀ r, w'.Seen r → w.Seen r) : Writes w w' none
  | created (r : Interaction) (audit : AuditEvidence) (hnew : w.db.records r.interactionId = none)
      (hline : audit.Tells r none r.lifecycleState) (hrevision : r.revision = 1)
      (hstate : r.lifecycleState ≠ .previewed)
      (hrecords : w'.db.records = Function.update w.db.records r.interactionId (some r))
      (haudit : w'.db.audit = w.db.audit ++ [audit])
      (hseen : ∀ r', w'.Seen r' → r' = r ∨ w.Seen r') : Writes w w' none
  | changed (t : Transition) (cur : Interaction)
      (hcur : w.db.records cur.interactionId = some cur) (htells : Recounts w cur t)
      (hrecords : w'.db.records =
        Function.update w.db.records cur.interactionId (some t.interaction))
      (haudit : w'.db.audit = w.db.audit ++ t.audits)
      (hseen : ∀ r', w'.Seen r' → r' = t.interaction ∨ w.Seen r') : Writes w w' (some t)

section Events

variable {d : Deployment} {c c' : Calls} {ev : Event Request Input}

/-- A write that is about to happen tells of the record it changes. -/
theorem Reachable.tells (h : Reachable d c) {i : ℕ} {k : Request} {log : Log Action Action.Reply}
    {e : Action} {next : e.Reply → Prog Result}
    (hi : c.calls[i]? = some ⟨k, log, .await e next⟩) : tells i log e c.world := by
  have hsafe := Reaches.every (fun _ => True) (sound d.sha) (startsSafe d) inv_initial
    (fun i k w _ _ => start_tells d k i w) (fun _ _ _ _ _ _ _ _ => trivial)
    (fun _ _ _ _ _ _ _ _ => trivial) h trivial hi
  exact (hsafe.act h.inv).1

/-- An action that neither creates nor changes an interaction leaves the trail alone. -/
theorem handler_keeps_trail {i : ℕ} {e : Action} {input : Input} {r : e.Reply} {w w' : World}
    (hcreate : ∀ r audit key digest, e ≠ .create r audit key digest)
    (htransition : ∀ t, e ≠ .transition t) (hr : handler i e input w = some (r, w')) :
    w'.db.records = w.db.records ∧ w'.db.audit = w.db.audit ∧ w'.commits = w.commits := by
  cases e with
  | create r' audit key digest => exact absurd rfl (hcreate r' audit key digest)
  | transition t => exact absurd rfl (htransition t)
  | storeTrustedIngressEvidence id payload digest acceptedAt keyId =>
    cases input <;> simp only [handler, World.write, reduceCtorEq] at hr
    split at hr
    · rename_i db hok
      obtain ⟨rfl, rfl⟩ : _ ∧ _ := by simpa using hr
      rcases Database.storeTrustedIngressEvidence_ok hok with ⟨-, rfl⟩ | ⟨_, -, -, rfl⟩
      · exact ⟨rfl, rfl, rfl⟩
      · exact ⟨rfl, rfl, rfl⟩
    · obtain ⟨rfl, rfl⟩ : _ ∧ _ := by simpa using hr
      exact ⟨rfl, rfl, rfl⟩
  | storeConfirmationChallenge challenge =>
    cases input <;> simp only [handler, World.write, reduceCtorEq] at hr
    split at hr
    · rename_i db hok
      obtain ⟨rfl, rfl⟩ : _ ∧ _ := by simpa using hr
      obtain ⟨-, rfl⟩ := Database.storeConfirmationChallenge_ok hok
      exact ⟨rfl, rfl, rfl⟩
    · obtain ⟨rfl, rfl⟩ : _ ∧ _ := by simpa using hr
      exact ⟨rfl, rfl, rfl⟩
  | newId kind =>
    cases input <;> simp only [handler, reduceCtorEq] at hr
    split at hr
    · cases hr
    · obtain ⟨rfl, rfl⟩ : _ ∧ _ := by simpa using hr
      exact ⟨rfl, rfl, rfl⟩
  | record request =>
    cases input <;> simp only [handler, reduceCtorEq] at hr
    split at hr <;> obtain ⟨rfl, rfl⟩ : _ ∧ _ := by simpa using hr
    · exact ⟨rfl, rfl, rfl⟩
    · exact ⟨rfl, rfl, rfl⟩
  | authorize request presented =>
    cases input <;> simp only [handler, reduceCtorEq] at hr
    split at hr <;> obtain ⟨rfl, rfl⟩ : _ ∧ _ := by simpa using hr
    · exact ⟨rfl, rfl, rfl⟩
    · exact ⟨rfl, rfl, rfl⟩
  | confirmationChallenge id previewId =>
    cases input <;> simp only [handler, reduceCtorEq] at hr <;> split at hr
    · cases hr
    · obtain ⟨rfl, rfl⟩ : _ ∧ _ := by simpa using hr
      exact ⟨rfl, rfl, rfl⟩
    · obtain ⟨rfl, rfl⟩ : _ ∧ _ := by simpa using hr
      exact ⟨rfl, rfl, rfl⟩
    · cases hr
  | _ =>
    cases input <;> simp only [handler, reduceCtorEq] at hr
    obtain ⟨rfl, rfl⟩ : _ ∧ _ := by simpa using hr
    exact ⟨rfl, rfl, rfl⟩

theorem World.Writes.of_same {w w' : World} (hrecords : w'.db.records = w.db.records)
    (haudit : w'.db.audit = w.db.audit) (hcommits : w'.commits = w.commits) :
    w.Writes w' none :=
  .kept ⟨hrecords, haudit⟩ fun _ hr => by rwa [World.Seen, hcommits] at hr

/-- **What every event writes.** -/
theorem Reachable.writes (h : Reachable d c) (he : step handler (start d) c ev = some c') :
    c.world.Writes c'.world (commitsTransition c ev) := by
  rcases step_cases he with ⟨k, rfl, rfl⟩ | ⟨i, input, k, log, e, next, r, w, rfl, hi, hact, rfl⟩
  · exact .kept ⟨rfl, rfl⟩ fun _ hr => hr
  · have htells := h.tells hi
    simp only [commitsTransition, awaited_eq hi]
    cases e with
    | create r' audit key digest =>
      cases input <;> simp only [handler, reduceCtorEq] at hact
      split at hact
      · obtain ⟨rfl, rfl⟩ : _ ∧ _ := by simpa using hact
        exact .of_same rfl rfl rfl
      · rename_i res db hok
        rcases Database.create_ok hok with ⟨row, hrow, -⟩ | ⟨hkey, hnew, -, rfl⟩
        · rw [if_pos (by simp [hrow])] at hact
          obtain ⟨rfl, rfl⟩ : _ ∧ _ := by simpa using hact
          exact .of_same rfl rfl rfl
        · rw [if_neg (by simp [hkey])] at hact
          obtain ⟨rfl, rfl⟩ : _ ∧ _ := by simpa using hact
          obtain ⟨hline, hrevision, hstate⟩ := htells
          exact .created r' audit hnew hline hrevision hstate rfl rfl fun r hr =>
            World.commit_seen.mp hr
    | transition t =>
      cases input <;> simp only [handler, reduceCtorEq] at hact
      split at hact
      · rename_i e herr
        obtain ⟨rfl, rfl⟩ : _ ∧ _ := by simpa using hact
        simp only [herr]
        exact .of_same rfl rfl rfl
      · rename_i db hok
        obtain ⟨rfl, rfl⟩ : _ ∧ _ := by simpa using hact
        simp only [hok]
        obtain ⟨old, htold⟩ := htells
        have hcommitted := Database.transition_ok hok
        obtain ⟨cur, hcur, -, hrev⟩ := hcommitted.current
        -- the compare-and-set finds the record the call has read
        have hsame : old = cur := h.inv.current_eq htold.seen (htold.interactionId ▸ hcur)
          (htold.expected.symm.trans hrev.symm)
        subst hsame
        refine .changed t old (htold.interactionId ▸ hcur) htold ?_ hcommitted.audit fun r hr =>
          World.commit_seen.mp hr
        rw [← htold.interactionId]
        exact hcommitted.records
    | _ =>
      obtain ⟨hrecords, haudit, hcommits⟩ := handler_keeps_trail (by simp) (by simp) hact
      exact .of_same hrecords haudit hcommits

end Events

/-! ## What holds whatever the order -/

/-- **Every revision has its line**, and every line its record. -/
structure Chronicled (w : World) : Prop where
  known : ∀ a ∈ w.db.audit, ∃ r, w.db.records a.interactionId = some r
  seen : ∀ r, w.Seen r → 1 ≤ r.revision ∧ r.lifecycleState ≠ .previewed
  covers : ∀ X r, w.db.records X = some r →
    ∀ n, (∃ a ∈ w.db.lines X, a.revision = n) ↔ 1 ≤ n ∧ n ≤ r.revision

theorem chronicled_initial : Chronicled World.initial where
  known a ha := by simp [World.initial, Database.empty] at ha
  seen r hr := by simp [World.Seen, World.initial] at hr
  covers X r hr := by simp [World.initial, Database.empty] at hr

/-- The lines of a transition tell of the record it writes. -/
theorem Told.tells {source : LifecycleState} {t : Transition} (h : Told source t)
    {x : AuditEvidence} (hx : x ∈ t.audits) :
    x.interactionId = t.interaction.interactionId ∧ x.revision = t.interaction.revision := by
  cases h with
  | line a haudits ha =>
    obtain rfl : x = a := by simpa [haudits] using hx
    exact ⟨ha.interactionId, ha.revision⟩
  | preview a b c d haudits ha hb hc hd =>
    simp only [haudits, List.mem_cons, List.not_mem_nil, or_false] at hx
    rcases hx with rfl | rfl | rfl | rfl
    · exact ⟨ha.interactionId, ha.revision⟩
    · exact ⟨hb.interactionId, hb.revision⟩
    · exact ⟨hc.interactionId, hc.revision⟩
    · exact ⟨hd.interactionId, hd.revision⟩

theorem Told.ne_nil {source : LifecycleState} {t : Transition} (h : Told source t) :
    t.audits ≠ [] := by
  cases h with
  | line a haudits => simp [haudits]
  | preview a b c d haudits => simp [haudits]

/-- The lines of an interaction after some are added that tell of one interaction. -/
theorem Database.lines_append {db db' : Database} {new : List AuditEvidence} {X : String}
    (haudit : db'.audit = db.audit ++ new) (hnew : ∀ a ∈ new, a.interactionId = X) (Y : String) :
    db'.lines Y = if Y = X then db.lines Y ++ new else db.lines Y := by
  rw [Database.lines, haudit, List.filter_append]
  by_cases hY : Y = X
  · have hall : (new.filter fun a => a.interactionId = Y) = new :=
      List.filter_eq_self.mpr fun a ha => by simpa [hY] using hnew a ha
    rw [hall, if_pos hY]
    rfl
  · have hnone : (new.filter fun a => a.interactionId = Y) = [] :=
      List.filter_eq_nil_iff.mpr fun a ha => by simpa [hnew a ha] using Ne.symm hY
    rw [hnone, if_neg hY, List.append_nil]
    rfl

/-- **One more revision**: lines of the next revision of a record, or of the first one, are
recorded. -/
theorem Chronicled.append {w w' : World} (hw : Chronicled w) {r : Interaction} {n : Int}
    {new : List AuditEvidence} (hn : 0 ≤ n) (hrevision : r.revision = n + 1)
    (hstate : r.lifecycleState ≠ .previewed) (hne : new ≠ [])
    (hnew : ∀ a ∈ new, a.interactionId = r.interactionId ∧ a.revision = r.revision)
    (hold : ∀ m, (∃ a ∈ w.db.lines r.interactionId, a.revision = m) ↔ 1 ≤ m ∧ m ≤ n)
    (hrecords : w'.db.records = Function.update w.db.records r.interactionId (some r))
    (haudit : w'.db.audit = w.db.audit ++ new) (hseen : ∀ r', w'.Seen r' → r' = r ∨ w.Seen r') :
    Chronicled w' := by
  have hlines := Database.lines_append haudit fun a ha => (hnew a ha).1
  refine ⟨fun a ha => ?_, fun r' hr => ?_, fun X r' hr m => ?_⟩
  · rw [hrecords]
    by_cases hid : a.interactionId = r.interactionId
    · exact ⟨r, by rw [hid, Function.update_self]⟩
    · rw [haudit] at ha
      rcases List.mem_append.mp ha with ha | ha
      · rw [Function.update_of_ne hid]
        exact hw.known a ha
      · exact absurd (hnew a ha).1 hid
  · rcases hseen r' hr with rfl | hr
    · exact ⟨by omega, hstate⟩
    · exact hw.seen r' hr
  · rw [hlines]
    rw [hrecords] at hr
    by_cases hX : X = r.interactionId
    · subst hX
      obtain rfl : r = r' := by simpa using hr
      obtain ⟨b, hb⟩ := List.exists_mem_of_ne_nil new hne
      simp only [if_true, List.mem_append]
      constructor
      · rintro ⟨a, ha | ha, rfl⟩
        · have := (hold a.revision).mp ⟨a, ha, rfl⟩
          omega
        · have := (hnew a ha).2
          omega
      · intro hm
        by_cases hmn : m ≤ n
        · obtain ⟨a, ha, rfl⟩ := (hold m).mpr ⟨hm.1, hmn⟩
          exact ⟨a, .inl ha, rfl⟩
        · have := (hnew b hb).2
          exact ⟨b, .inr hb, by omega⟩
    · rw [Function.update_of_ne hX] at hr
      rw [if_neg hX]
      exact hw.covers X r' hr m

/-- An interaction that is not stored has no lines. -/
theorem Chronicled.lines_nil {w : World} (hw : Chronicled w) {X : String}
    (hnone : w.db.records X = none) : w.db.lines X = [] := by
  refine List.eq_nil_iff_forall_not_mem.mpr fun a ha => ?_
  obtain ⟨hmem, rfl⟩ := Database.mem_lines.mp ha
  obtain ⟨r, hr⟩ := hw.known a hmem
  rw [hnone] at hr
  cases hr

theorem World.Writes.recorded {w w' : World} {t : Option Transition} (h : w.Writes w' t)
    (hw : Chronicled w) : Chronicled w' := by
  cases h with
  | kept hdb hseen =>
    refine ⟨fun a ha => ?_, fun r hr => hw.seen r (hseen r hr), fun X r hr => ?_⟩
    · rw [hdb.1]
      exact hw.known a (hdb.2 ▸ ha)
    · rw [Database.lines, hdb.2]
      exact hw.covers X r (hdb.1 ▸ hr)
  | created r audit hnew hline hrevision hstate hrecords haudit hseen =>
    refine hw.append (n := 0) le_rfl hrevision hstate (List.cons_ne_nil audit []) ?_ ?_ hrecords
      haudit hseen
    · simpa using ⟨hline.interactionId, hline.revision⟩
    · intro m
      rw [hw.lines_nil hnew]
      simp
      omega
  | changed t cur hcur htells hrecords haudit hseen =>
    have hid := htells.interactionId
    have hrev := (hw.seen cur htells.seen).1
    refine hw.append (r := t.interaction) (by omega) htells.next htells.state htells.told.ne_nil
      (fun a ha => htells.told.tells ha) ?_ (hid ▸ hrecords) haudit hseen
    rw [hid]
    exact hw.covers _ cur hcur

/-- **Every reachable configuration** has recorded every revision. -/
theorem Reachable.audit_recorded {d : Deployment} {c : Calls} (h : Reachable d c) :
    Chronicled c.world :=
  Reaches.induction (motive := fun c => Chronicled c.world) h chronicled_initial
    fun _ _ _ hc hw he => World.Writes.recorded (Reachable.writes hc he) hw

/-! ## What links the lines -/

/-- The lines of a record lead to its state. -/
def Linked (isoformat : Instant → String) (lines : List AuditEvidence) (r : Interaction) : Prop :=
  Trail.Links AuditEvidence.fromState (fun a => some a.toState) none
    (lines.insertionSort (ReadBefore isoformat)) (some r.lifecycleState)

/-- Only the links depend on the order. -/
theorem Chronicled.auditTrails_iff {w : World} (hw : Chronicled w) : AuditTrails isoformat w.db ↔
    ∀ X r, w.db.records X = some r → Linked isoformat (w.db.lines X) r := by
  constructor
  · intro h X r hr
    have hlinks := (h X r hr).links
    rwa [Database.audits_eq hr] at hlinks
  · intro h X r hr
    rw [Database.audits_eq hr]
    refine ⟨h X r hr, ?_, fun n => ?_⟩
    · exact (List.pairwise_insertionSort (ReadBefore isoformat) _).imp ReadBefore.revision
    · simp only [(List.perm_insertionSort (ReadBefore isoformat) _).mem_iff]
      exact hw.covers X r hr n

/-- **The lines of a transition link** the state before to the state after exactly when they are in
order. -/
theorem Told.links_iff {source : LifecycleState} {t : Transition} (h : Told source t)
    (hsource : source ≠ .previewed) (htarget : t.interaction.lifecycleState ≠ .previewed) :
    Trail.Links AuditEvidence.fromState (fun a => some a.toState) (some source)
      (t.audits.insertionSort (ReadBefore isoformat)) (some t.interaction.lifecycleState) ↔
      InOrder isoformat t := by
  cases h with
  | line a haudits ha => simp [haudits, InOrder, ha.source, ha.target]
  | preview a b c d haudits ha hb hc hd =>
    have hlinks : Trail.Links AuditEvidence.fromState (fun a => some a.toState) _
        ([a, b, c, d].insertionSort (ReadBefore isoformat)) _ ↔ _ := Trail.links_sorted
      (fun h h' => IsTrans.trans _ _ _ h h') (by simpa using hsource) (by simpa using htarget)
      ha.source (congrArg some ha.target) hb.source (congrArg some hb.target) hc.source
      (congrArg some hc.target) hd.source (congrArg some hd.target)
    rw [haudits, hlinks, InOrder]
    simp only [haudits, hc.source, hd.target]

/-- New lines of the next revision go on from the state the old ones lead to. -/
theorem Linked.append_iff {lines new : List AuditEvidence} {r r' : Interaction}
    (h : Linked isoformat lines r) (hlt : ∀ a ∈ lines, ∀ b ∈ new, a.revision < b.revision) :
    Linked isoformat (lines ++ new) r' ↔
      Trail.Links AuditEvidence.fromState (fun a => some a.toState) (some r.lifecycleState)
        (new.insertionSort (ReadBefore isoformat)) (some r'.lifecycleState) := by
  rw [Linked, Query.insertionSort_append _ fun a ha b hb => readBefore_of_lt (hlt a ha b hb)]
  exact Trail.Links.append_iff h

/-- **The trails after an event** are chains exactly when the lines it commits are in order. -/
theorem World.Writes.trails_iff {w w' : World} {e : Option Transition} (h : w.Writes w' e)
    (hw : Chronicled w) (hw' : Chronicled w') (htrails : AuditTrails isoformat w.db) :
    AuditTrails isoformat w'.db ↔ ∀ t, e = some t → InOrder isoformat t := by
  rw [hw.auditTrails_iff] at htrails
  rw [hw'.auditTrails_iff]
  cases h with
  | kept hdb hseen =>
    refine iff_of_true (fun X r hr => ?_) (by simp)
    rw [hdb.1] at hr
    rw [Database.lines, hdb.2]
    exact htrails X r hr
  | created r audit hnew hline hrevision hstate hrecords haudit hseen =>
    have hlines := Database.lines_append (X := r.interactionId) haudit
      (by simpa using hline.interactionId)
    refine iff_of_true (fun X r' hr => ?_) (by simp)
    rw [hlines]
    rw [hrecords] at hr
    by_cases hX : X = r.interactionId
    · subst hX
      obtain rfl : r = r' := by simpa using hr
      rw [if_pos rfl, hw.lines_nil hnew]
      exact ⟨hline.source, congrArg some hline.target⟩
    · rw [Function.update_of_ne hX] at hr
      rw [if_neg hX]
      exact htrails X r' hr
  | changed t cur hcur htells hrecords haudit hseen =>
    have hlines := Database.lines_append (X := cur.interactionId) haudit fun a ha =>
      (htells.told.tells ha).1.trans htells.interactionId
    have hlinks : Linked isoformat (w'.db.lines cur.interactionId) t.interaction ↔
        InOrder isoformat t := by
      rw [hlines, if_pos rfl, (htrails _ cur hcur).append_iff fun a ha b hb => ?_]
      · exact htells.told.links_iff (hw.seen cur htells.seen).2 htells.state
      · have hle := (hw.covers _ cur hcur a.revision).mp ⟨a, ha, rfl⟩
        have hrev := (htells.told.tells hb).2
        have hnext := htells.next
        omega
    constructor
    · intro h t' ht
      obtain rfl := Option.some.inj ht
      exact hlinks.mp (h _ _ (by rw [hrecords, Function.update_self]))
    · intro horder X r hr
      rw [hrecords] at hr
      by_cases hX : X = cur.interactionId
      · subst hX
        obtain rfl : t.interaction = r := by simpa using hr
        exact hlinks.mpr (horder t rfl)
      · rw [Function.update_of_ne hX] at hr
        rw [hlines, if_neg hX]
        exact htrails X r hr

theorem ordered_iff {c : Calls} {ev : Event Request Input} : ordered isoformat c ev = true ↔
    ∀ t, commitsTransition c ev = some t → InOrder isoformat t := by
  simp [ordered, Option.all_eq_true]

/-- **The audit trail is a chain** in every configuration of a run that commits no lines out of
order, and an event breaks it exactly when it commits such lines, whatever text the database has of
an instant. -/
theorem audit_chain_law (d : Deployment) (isoformat : Instant → String) : ∀ c : Calls,
    ReachesIf handler (start d) (ordered isoformat) (idle World.initial) c →
    AuditTrails isoformat c.world.db ∧
      ∀ ev c', step handler (start d) c ev = some c' →
        (AuditTrails isoformat c'.world.db ↔ ordered isoformat c ev = true) := by
  intro c hc
  have htrails : AuditTrails isoformat c.world.db := by
    refine hc.induction (motive := fun c => AuditTrails isoformat c.world.db)
      (fun X r hr => by simp [idle, World.initial, Database.empty] at hr)
      fun c ev c' hr ih hok he => ?_
    have h : Reachable d c := hr.reaches
    exact ((h.writes he).trails_iff h.audit_recorded
      ((h.writes he).recorded h.audit_recorded) ih).mpr
      (ordered_iff.mp hok)
  have h : Reachable d c := hc.reaches
  refine ⟨htrails, fun ev c' he => ?_⟩
  rw [ordered_iff]
  exact (h.writes he).trails_iff h.audit_recorded ((h.writes he).recorded h.audit_recorded) htrails

namespace Scenario

/-- The text of an instant. -/
def instantText (t : Instant) : String :=
  ((DateTime.ofMicroseconds t.toNat).map DateTime.isoformat).getD ""

/-- `int_1` is previewed under a clock that stands still, with the given identifiers of the four
lines. -/
def previewedAs (ids : List String) : List Step :=
  created ++ ([.arrive (.preview (previewArgs false false))] : List Step) ++ plain 1 2 ++
    ([.act 1 (.instant 0)] : List Step) ++
    plain 1 1 ++ ([.act 1 (.text "1")] : List Step) ++ audited 1 ids ++ plain 1 1

theorem reachesIf {ok : Calls → Step → Bool} {events : List Step}
    (h : (runIf handler (start deployment) ok (idle World.initial) events).isSome = true) :
    ReachesIf handler (start deployment) ok (idle World.initial) (after events) := by
  obtain ⟨c, hc⟩ := Option.isSome_iff_exists.mp h
  refine ⟨events, ?_⟩
  rw [after, run_of_runIf hc]
  exact hc

end Scenario

/-- The trail of a Preview whose lines have ascending identifiers. -/
theorem audit_chain_law_scenario :
    let db := (Scenario.after (Scenario.previewedAs ["a", "b", "c", "d"])).world.db
    AuditTrails Scenario.instantText db ∧
      (db.audits Scenario.instantText ⟨"tenant", "workspace", "default"⟩ "int_1").length = 5 :=
  ⟨(audit_chain_law Scenario.deployment Scenario.instantText _
    (Scenario.reachesIf (by decide +kernel))).1, by decide +kernel⟩

/-- With descending identifiers the trail is no chain. -/
theorem audit_not_chain : ¬ ∀ (d : Deployment) (isoformat : Instant → String) (c : Calls),
    Reachable d c → AuditTrails isoformat c.world.db := by
  intro hall
  let db := (Scenario.after (Scenario.previewedAs ["d", "c", "b", "a"])).world.db
  have h : AuditTrails Scenario.instantText db := hall _ _ _ (Scenario.reachable _)
  have hlinks : (db.records "int_1").all (fun r => Trail.Links AuditEvidence.fromState
      (fun a => some a.toState) none (db.audits Scenario.instantText r.scope "int_1")
      (some r.lifecycleState)) = true :=
    (Option.all_eq_true _ _).mpr fun r hr => decide_eq_true (h "int_1" r hr).links
  exact absurd hlinks (by decide +kernel)

end Interactions

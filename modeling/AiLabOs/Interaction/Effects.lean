import AiLabOs.Interaction.Legal

/-!
# Trusted interactions: effects

What a call must have established before each of its actions, and what an action that meets its
precondition does to the world. Everything the service guarantees about a run is read off these
effects.

## Main definitions

* `Authorised`, `Granted`: the execution requests `start_execution` sends
* `pre`: the precondition of every action
* `Effect`: what an action that meets it does to the world
* `World.SameAggregate`: what the effects that commit nothing leave alone

## Main results

* `pre.effect`: an action that meets its precondition has one of the effects
* `sound`: the effects keep the protocol
-/

namespace Interactions

open Process

/-- The clock readings of a call so far, oldest first. -/
def readings (log : Log Action Action.Reply) : List Instant :=
  log.filterMap fun
    | ⟨.now, t⟩ => some t
    | _ => none

@[simp] theorem readings_nil : readings [] = [] := rfl

@[simp] theorem readings_append (l l' : Log Action Action.Reply) :
    readings (l ++ l') = readings l ++ readings l' := List.filterMap_append

@[simp] theorem readings_now (t : Instant) : readings [⟨.now, t⟩] = [t] := rfl

@[simp] theorem readings_fact (X : String) (ty : FactType) (fid : Option String)
    (x : Option ty.Model) : readings [⟨.fact X ty fid, x⟩] = [] := rfl

@[simp] theorem readings_newId (kind id : String) : readings [⟨.newId kind, id⟩] = [] := rfl

/-! ## Preconditions -/

/-- The authorisation check of `start_execution`: the clock it read first, and the readings at
which the Confirmation and the Approval it loaded were still valid. -/
structure Authorised (log : Log Action Action.Reply) (preview : Preview)
    (confirmation : Option Confirmation) (approval : Option Approval) (now : Instant) : Prop where
  first : (readings log)[0]? = some now
  confirmed : preview.requiresConfirmation = true →
    ∃ c t, confirmation = some c ∧ (readings log)[1]? = some t ∧ t < c.expiresAt
  approved : preview.requiresApproval = true →
    ∃ a t, approval = some a ∧ t < a.expiresAt ∧
      (readings log)[if preview.requiresConfirmation then 2 else 1]? = some t

/-- **An execution request the call `i` may send**: the one of an intent it has committed from an
authorised record, not sent before. -/
inductive Granted (w : World) (i : ℕ) (log : Log Action Action.Reply) : ExecutionRequest → Prop
  | intro (a : RevisionArgs) (cur : Interaction) (preview : Preview)
      (confirmation : Option Confirmation) (approval : Option Approval) (executionId : String)
      (now : Instant) (c : Commit) (hid : a.interactionId = cur.interactionId)
      (hcommit : c ∈ w.commits)
      (hrecord : c.interaction = cur.executing (newExecution a cur executionId now) now)
      (hseen : w.Seen cur) (hstate : cur.lifecycleState = .authorized)
      (hissued : (executionId, i) ∈ w.issued) (hunexecuted : w.Unexecuted executionId)
      (hpreview : w.Past cur.interactionId (.preview preview))
      (hcurrent : cur.currentPreviewId = some preview.previewId)
      (hconfirmation : w.Loaded cur.interactionId .confirmation cur.currentConfirmationId
        confirmation)
      (happroval : w.Loaded cur.interactionId .approval cur.currentApprovalId approval)
      (hlog : Authorised log preview confirmation approval now) :
      Granted w i log
        (executionRequest a cur preview (newExecution a cur executionId now))

theorem Granted.issued {w : World} {i : ℕ} {log : Log Action Action.Reply} {r : ExecutionRequest}
    (h : Granted w i log r) : (r.executionId, i) ∈ w.issued := by
  obtain ⟨⟩ := h
  assumption

/-- What the call `i` must have established before an action. -/
def pre (sha : Sha256) (i : ℕ) (log : Log Action Action.Reply) (e : Action) (w : World) : Prop :=
  match e with
  | .transition t => ∀ cur, w.db.records t.interaction.interactionId = some cur →
      cur.scope = t.interaction.scope → cur.revision = t.expectedRevision →
      cur.interactionId = t.interaction.interactionId ∧ Legal sha w i cur t
  | .create r _ key digest => ∃ (a : CreateArgs) (id : String) (now : Instant),
      r = a.interaction r.scope id now ∧ key = a.idempotencyKey ∧
        digest = sha.hexdigest (createPayload a r.scope)
  | .execute r => Granted w i log r
  | _ => True

/-! ## Effects -/

/-- A write to the tables of the ingress bridge: unused evidence, or an active challenge. -/
inductive Database.Ingress (db : Database) : Database → Prop
  | evidence (id : String) (row : EvidenceRow) (hnew : db.evidence id = none)
      (hunused : row.consumptionStatus = .unused) :
      Ingress db { db with evidence := Function.update db.evidence id (some row) }
  | challenge (row : ChallengeRow) (hnew : ∀ ch ∈ db.challenges, ch.challengeId ≠ row.challengeId)
      (hactive : row.status = .active) :
      Ingress db { db with challenges := db.challenges ++ [row] }

theorem Database.Ingress.aggregate {db db' : Database} (h : db.Ingress db') :
    db'.records = db.records ∧ db'.facts = db.facts ∧ db'.idempotency = db.idempotency ∧
      db'.audit = db.audit := by
  cases h <;> exact ⟨rfl, rfl, rfl, rfl⟩

/-- **What an action of the call `i` may do to the world.** -/
inductive Effect (sha : Sha256) (i : ℕ) (log : Log Action Action.Reply) (w : World) : World → Prop
  | commit (cur : Interaction) (t : Transition) (db : Database)
      (hcur : w.db.records cur.interactionId = some cur) (hlegal : Legal sha w i cur t)
      (hcommitted : w.db.Committed t db) : Effect sha i log w (w.commit db t.commit)
  | create (a : CreateArgs) (r : Interaction) (id : String) (now : Instant)
      (audit : AuditEvidence) (hshape : r = a.interaction r.scope id now)
      (hnew : w.db.records r.interactionId = none)
      (hkey : w.db.idempotency ⟨r.scope, .create, a.idempotencyKey⟩ = none) :
      Effect sha i log w (w.commit
        (w.db.created r audit a.idempotencyKey (sha.hexdigest (createPayload a r.scope)))
        (r.creation a.idempotencyKey (sha.hexdigest (createPayload a r.scope))))
  | execute (r : ExecutionRequest) (hgranted : Granted w i log r) :
      Effect sha i log w { w with executions := r :: w.executions }
  | issue (id : String) (hnew : ∀ j, (id, j) ∉ w.issued) :
      Effect sha i log w { w with issued := (id, i) :: w.issued }
  | supply (id X : String) : Effect sha i log w { w with supplied := (id, X) :: w.supplied }
  | authorise (g : ApprovalAuthorizationRequest × ApprovalAuthorizationEvidence) :
      Effect sha i log w { w with authorised := g :: w.authorised }
  | ingress (db : Database) (h : w.db.Ingress db) : Effect sha i log w { w with db }
  | read : Effect sha i log w w

/-- **Every action that meets its precondition has one of the effects.** -/
theorem pre.effect {sha : Sha256} {i : ℕ} {log : Log Action Action.Reply} {e : Action}
    {input : Input} {r : e.Reply} {w w' : World} (hpre : pre sha i log e w)
    (hr : handler i e input w = some (r, w')) : Effect sha i log w w' := by
  cases e with
  | newId kind =>
    cases input <;> simp only [handler, reduceCtorEq] at hr
    split at hr
    · cases hr
    · rename_i hnew
      obtain ⟨rfl, rfl⟩ : _ ∧ _ := by simpa using hr
      refine .issue _ fun j hj => hnew ?_
      simp only [List.any_eq_true, decide_eq_true_eq]
      exact ⟨_, hj, rfl⟩
  | create r' audit key digest =>
    cases input <;> simp only [handler, reduceCtorEq] at hr
    split at hr
    · obtain ⟨rfl, rfl⟩ : _ ∧ _ := by simpa using hr
      exact .read
    · rename_i res db hok
      obtain ⟨a, id, now, hshape, rfl, rfl⟩ := hpre
      rcases Database.create_ok hok with ⟨row, hrow, -⟩ | ⟨hkey, hrec, -, rfl⟩
      · rw [if_pos (by simp [hrow])] at hr
        obtain ⟨rfl, rfl⟩ : _ ∧ _ := by simpa using hr
        exact .read
      · rw [if_neg (by simp [hkey])] at hr
        obtain ⟨rfl, rfl⟩ : _ ∧ _ := by simpa using hr
        exact .create a r' id now audit hshape hrec hkey
  | transition t =>
    cases input <;> simp only [handler, reduceCtorEq] at hr
    split at hr
    · obtain ⟨rfl, rfl⟩ : _ ∧ _ := by simpa using hr
      exact .read
    · rename_i db hok
      obtain ⟨rfl, rfl⟩ : _ ∧ _ := by simpa using hr
      have hc := Database.transition_ok hok
      obtain ⟨cur, hcur, hscope, hrev⟩ := hc.current
      obtain ⟨hid, hlegal⟩ := hpre cur hcur hscope hrev
      exact .commit cur t db (hid ▸ hcur) hlegal hc
  | execute request =>
    cases input <;> simp only [handler, reduceCtorEq] at hr
    obtain ⟨rfl, rfl⟩ : _ ∧ _ := by simpa using hr
    exact .execute request hpre
  | record request =>
    cases input <;> simp only [handler, reduceCtorEq] at hr
    split at hr
    · obtain ⟨rfl, rfl⟩ : _ ∧ _ := by simpa using hr
      exact .read
    · obtain ⟨rfl, rfl⟩ : _ ∧ _ := by simpa using hr
      exact .supply _ _
  | authorize request presented =>
    cases input <;> simp only [handler, reduceCtorEq] at hr
    split at hr
    · obtain ⟨rfl, rfl⟩ : _ ∧ _ := by simpa using hr
      exact .authorise _
    · obtain ⟨rfl, rfl⟩ : _ ∧ _ := by simpa using hr
      exact .read
  | storeTrustedIngressEvidence id payload digest acceptedAt keyId =>
    cases input <;> simp only [handler, World.write, reduceCtorEq] at hr
    split at hr
    · rename_i db hok
      obtain ⟨rfl, rfl⟩ : _ ∧ _ := by simpa using hr
      rcases Database.storeTrustedIngressEvidence_ok hok with ⟨hnew, rfl⟩ | ⟨_, -, -, rfl⟩
      · exact .ingress _ (.evidence id _ hnew rfl)
      · exact .read
    · obtain ⟨rfl, rfl⟩ : _ ∧ _ := by simpa using hr
      exact .read
  | storeConfirmationChallenge challenge =>
    cases input <;> simp only [handler, World.write, reduceCtorEq] at hr
    split at hr
    · rename_i db hok
      obtain ⟨rfl, rfl⟩ : _ ∧ _ := by simpa using hr
      obtain ⟨hnew, rfl⟩ := Database.storeConfirmationChallenge_ok hok
      exact .ingress _ (.challenge _ hnew rfl)
    · obtain ⟨rfl, rfl⟩ : _ ∧ _ := by simpa using hr
      exact .read
  | confirmationChallenge id previewId =>
    cases input <;> simp only [handler, reduceCtorEq] at hr
    · split at hr
      · cases hr
      · obtain ⟨rfl, rfl⟩ : _ ∧ _ := by simpa using hr
        exact .read
    · split at hr
      · obtain ⟨rfl, rfl⟩ : _ ∧ _ := by simpa using hr
        exact .read
      · cases hr
  | _ =>
    cases input <;> simp only [handler, reduceCtorEq] at hr
    obtain ⟨rfl, rfl⟩ : _ ∧ _ := by simpa using hr
    exact .read

/-- What the actions that commit nothing leave alone: the aggregate and its history. -/
structure World.SameAggregate (w w' : World) : Prop where
  commits : w'.commits = w.commits
  records : w'.db.records = w.db.records
  facts : w'.db.facts = w.db.facts
  idempotency : w'.db.idempotency = w.db.idempotency
  issued : w.issued <:+ w'.issued
  supplied : w.supplied <:+ w'.supplied
  authorised : w.authorised <:+ w'.authorised

namespace World.SameAggregate

variable {w w' : World} (h : w.SameAggregate w')
include h

theorem past {X : String} {f : Fact} : w'.Past X f ↔ w.Past X f := by
  simp only [World.Past, h.commits]

theorem seen {r : Interaction} : w'.Seen r ↔ w.Seen r := by simp only [World.Seen, h.commits]

theorem portIdsFresh (hf : w'.PortIdsFresh) : w.PortIdsFresh where
  not_issued hX hi := hf.not_issued (h.supplied.mem hX) (h.issued.mem hi)
  one_interaction hX hY := hf.one_interaction (h.supplied.mem hX) (h.supplied.mem hY)

end World.SameAggregate

/-- **An effect is a commit, a creation, or leaves the aggregate alone.** -/
theorem Effect.aggregate {sha : Sha256} {i : ℕ} {log : Log Action Action.Reply} {w w' : World}
    (h : Effect sha i log w w') :
    (∃ cur t db, w.db.records cur.interactionId = some cur ∧ Legal sha w i cur t ∧
      w.db.Committed t db ∧ w' = w.commit db t.commit) ∨
    (∃ (a : CreateArgs) (r : Interaction) (id : String) (now : Instant) (audit : AuditEvidence),
      r = a.interaction r.scope id now ∧ w.db.records r.interactionId = none ∧
      w.db.idempotency ⟨r.scope, .create, a.idempotencyKey⟩ = none ∧
      w' = w.commit
        (w.db.created r audit a.idempotencyKey (sha.hexdigest (createPayload a r.scope)))
        (r.creation a.idempotencyKey (sha.hexdigest (createPayload a r.scope)))) ∨
    w.SameAggregate w' := by
  have hsuffix : ∀ {α : Type} {l : List α}, l <:+ l := List.suffix_rfl
  cases h with
  | commit cur t db hcur hlegal hc => exact .inl ⟨cur, t, db, hcur, hlegal, hc, rfl⟩
  | create a r id now audit hshape hnew hkey =>
    exact .inr (.inl ⟨a, r, id, now, audit, hshape, hnew, hkey, rfl⟩)
  | execute r hgranted => exact .inr (.inr ⟨rfl, rfl, rfl, rfl, hsuffix, hsuffix, hsuffix⟩)
  | issue id hnew =>
    exact .inr (.inr ⟨rfl, rfl, rfl, rfl, List.suffix_cons .., hsuffix, hsuffix⟩)
  | supply id X => exact .inr (.inr ⟨rfl, rfl, rfl, rfl, hsuffix, List.suffix_cons .., hsuffix⟩)
  | authorise g => exact .inr (.inr ⟨rfl, rfl, rfl, rfl, hsuffix, hsuffix, List.suffix_cons ..⟩)
  | ingress db h =>
    obtain ⟨hrecords, hfacts, hidem, -⟩ := h.aggregate
    exact .inr (.inr ⟨rfl, hrecords, hfacts, hidem, hsuffix, hsuffix, hsuffix⟩)
  | read => exact .inr (.inr ⟨rfl, rfl, rfl, rfl, hsuffix, hsuffix, hsuffix⟩)

/-- **Every effect keeps the commits.** -/
theorem Effect.commits {sha : Sha256} {i : ℕ} {log : Log Action Action.Reply} {w w' : World}
    (h : Effect sha i log w w') : w.commits <:+ w'.commits := by
  rcases h.aggregate with ⟨_, _, _, _, _, _, rfl⟩ | ⟨_, _, _, _, _, _, _, _, rfl⟩ | hsame
  · exact List.suffix_cons ..
  · exact List.suffix_cons ..
  · exact hsame.commits ▸ List.suffix_rfl

/-! ## Soundness -/

/-- A change of the history that no commit is part of keeps the invariant. -/
theorem Inv.extend {w w' : World} (h : Inv w) (hcommits : w'.commits = w.commits)
    (hrecords : w'.db.records = w.db.records) (hfacts : w'.db.facts = w.db.facts)
    (hidem : w'.db.idempotency = w.db.idempotency)
    (hissued : w.issued ⊆ w'.issued) (hsupplied : w.supplied ⊆ w'.supplied)
    (honce : ∀ {id i j}, (id, i) ∈ w'.issued → (id, j) ∈ w'.issued → i = j)
    (hexec : ∀ {r}, r ∈ w'.executions → ∃ i, (r.executionId, i) ∈ w'.issued) : Inv w' where
  issued_once := honce
  executed_issued := hexec
  record_seen hr := by
    rw [hrecords] at hr
    simpa only [World.Seen, hcommits] using h.record_seen hr
  current := by simpa only [hcommits, hrecords] using h.current
  ascending := by simpa only [hcommits] using h.ascending
  fact_past hr := by
    rw [hfacts] at hr
    simpa only [World.Past, hcommits] using h.fact_past hr
  fact_named hf hs := by
    simp only [World.Past, hcommits] at hf
    obtain ⟨⟨j, hj⟩, hn⟩ := h.fact_named hf hs
    exact ⟨⟨j, hissued hj⟩, hn⟩
  fact_supplied hf hs := by
    simp only [World.Past, hcommits] at hf
    exact hsupplied (h.fact_supplied hf hs)
  fact_owner hf hg := by
    simp only [World.Past, hcommits] at hf hg
    exact h.fact_owner hf hg
  row_commit hr := by
    rw [hidem] at hr
    simpa only [hcommits] using h.row_commit hr
  commit_row := by simpa only [hcommits, hidem] using h.commit_row
  preview_past hr hp := by
    simp only [World.Seen, hcommits] at hr
    simpa only [World.Past, hcommits] using h.preview_past hr hp
  recovery_past hr hv := by
    simp only [World.Seen, hcommits] at hr
    simpa only [World.Past, hcommits] using h.recovery_past hr hv
  stored hfresh _ _ hf := by
    simp only [World.Past, hcommits] at hf
    have hfresh' : w.PortIdsFresh :=
      ⟨fun hs hi => hfresh.not_issued (hsupplied hs) (hissued hi),
        fun hX hY => hfresh.one_interaction (hsupplied hX) (hsupplied hY)⟩
    simpa only [hfacts] using h.stored hfresh' hf

/-- A change that no commit is part of, and that sends no request under another call's
identifier, is one the call `j` may rely on. -/
theorem Rely.extend {j : ℕ} {w w' : World} (hcommits : w'.commits = w.commits)
    (hissued : w.issued <:+ w'.issued) (hsupplied : w.supplied <:+ w'.supplied)
    (hauthorised : w.authorised <:+ w'.authorised) (hexecutions : w.executions <:+ w'.executions)
    (hun : ∀ id, (id, j) ∈ w.issued → w.Unexecuted id → w'.Unexecuted id) : Rely j w w' where
  commits := hcommits ▸ List.suffix_rfl
  issued := hissued
  supplied := hsupplied
  authorised := hauthorised
  executions := hexecutions
  unused id _ hu := by simpa only [World.Used, hcommits] using hu
  unexecuted := hun

section Effects

variable {sha : Sha256} {i : ℕ} {log : Log Action Action.Reply} {w w' : World}

/-- **Every effect keeps the invariant.** -/
theorem Effect.inv (h : Effect sha i log w w') (hinv : Inv w) : Inv w' := by
  cases h with
  | commit cur t db hcur hlegal hc => exact hinv.commit hcur (hlegal.wellFormed hinv hcur) hc
  | create a r id now audit hshape hnew hkey =>
    exact hinv.create hnew hkey (by rw [hshape]; rfl) (by rw [hshape]; rfl)
  | execute r hgranted =>
    refine hinv.extend rfl rfl rfl rfl (fun _ => id) (fun _ => id) hinv.issued_once ?_
    intro r' hr'
    rcases List.mem_cons.mp hr' with rfl | hr'
    · exact ⟨i, hgranted.issued⟩
    · exact hinv.executed_issued hr'
  | issue new hnew =>
    refine hinv.extend rfl rfl rfl rfl (List.subset_cons_self ..) (fun _ => id) ?_ fun hr =>
      (hinv.executed_issued hr).imp fun _ => List.mem_cons_of_mem _
    intro id j k hj hk
    rcases List.mem_cons.mp hj with heq | hj <;> rcases List.mem_cons.mp hk with heq' | hk
    · exact (Prod.mk.inj heq).2.trans (Prod.mk.inj heq').2.symm
    · exact absurd ((Prod.mk.inj heq).1 ▸ hk) (hnew k)
    · exact absurd ((Prod.mk.inj heq').1 ▸ hj) (hnew j)
    · exact hinv.issued_once hj hk
  | supply new X =>
    exact hinv.extend rfl rfl rfl rfl (fun _ => id) (List.subset_cons_self ..) hinv.issued_once
      hinv.executed_issued
  | authorise g =>
    exact hinv.extend rfl rfl rfl rfl (fun _ => id) (fun _ => id) hinv.issued_once
      hinv.executed_issued
  | ingress db h =>
    obtain ⟨hrecords, hfacts, hidem, -⟩ := h.aggregate
    exact hinv.extend rfl hrecords hfacts hidem (fun _ => id) (fun _ => id) hinv.issued_once
      hinv.executed_issued
  | read => exact hinv

/-- **Every effect is one the other calls may rely on.** -/
theorem Effect.rely (h : Effect sha i log w w') (hinv : Inv w) {j : ℕ} (hj : j ≠ i) :
    Rely j w w' := by
  cases h with
  | commit cur t db hcur hlegal hc => exact Rely.commit hinv (hlegal.wellFormed hinv hcur) hj
  | create a r id now audit hshape hnew hkey => exact Rely.create j
  | execute r hgranted =>
    refine Rely.extend rfl List.suffix_rfl List.suffix_rfl List.suffix_rfl
      (List.suffix_cons ..) fun id hid hu r' hr' => ?_
    rcases List.mem_cons.mp hr' with rfl | hr'
    · rintro rfl
      exact hj (hinv.issued_once hid hgranted.issued)
    · exact hu r' hr'
  | issue id hnew =>
    exact Rely.extend rfl (List.suffix_cons ..) List.suffix_rfl List.suffix_rfl List.suffix_rfl
      fun _ _ hu => hu
  | supply id X =>
    exact Rely.extend rfl List.suffix_rfl (List.suffix_cons ..) List.suffix_rfl List.suffix_rfl
      fun _ _ hu => hu
  | authorise g =>
    exact Rely.extend rfl List.suffix_rfl List.suffix_rfl (List.suffix_cons ..) List.suffix_rfl
      fun _ _ hu => hu
  | ingress db h =>
    exact Rely.extend rfl List.suffix_rfl List.suffix_rfl List.suffix_rfl List.suffix_rfl
      fun _ _ hu => hu
  | read => exact Rely.refl j w

end Effects

/-- **Soundness**: an action that meets its precondition keeps the protocol. -/
theorem sound (sha : Sha256) : Sound protocol handler (pre sha) := by
  intro i log e input r w w' hinv hpre hr
  have heffect := pre.effect hpre hr
  exact ⟨heffect.inv hinv, fun j hj => heffect.rely hinv hj⟩

end Interactions

import AiLabOs.Interaction.History

/-!
# Trusted interactions: commits

A well-formed commit moves one record to its next revision and writes facts under identifiers it
may use. It keeps the invariant and everything the other calls rely on.

## Main definitions

* `World.MayWrite`: a fact a call may commit for an interaction
* `Transition.WellFormed`: a transition of the stored record
* `World.commit`: the world after a commit

## Main results

* `Inv.commit`, `Rely.commit`: a well-formed transition keeps the protocol
* `Inv.create`, `Rely.create`: so does a creation
* `fact_frame`: under fresh port identifiers a commit leaves the facts of other interactions alone
-/

namespace Interactions

open Process

/-- A fact the call `i` may commit for the interaction: under an identifier of its own, under the
one it was committed under before, or under the one supplied for it. -/
inductive World.MayWrite (w : World) (i : ℕ) (X : String) (f : Fact) : Prop
  | own (hs : ¬f.supplied) (h : w.Own i f.type f.factId)
  | again (hs : ¬f.supplied) (g : Fact) (hg : w.Past X g) (hgs : ¬g.supplied)
      (hid : g.factId = f.factId) (hty : g.type = f.type)
  | supplied (hs : f.supplied) (h : (f.factId, X) ∈ w.supplied)

/-- A transition of the stored record `cur` that the call `i` may commit. -/
structure Transition.WellFormed (w : World) (i : ℕ) (cur : Interaction)
    (t : Transition) : Prop where
  identity : cur.SameIdentity t.interaction
  revision : t.interaction.revision = cur.revision + 1
  expected : t.expectedRevision = cur.revision
  may : ∀ f ∈ t.facts, w.MayWrite i cur.interactionId f
  preview : t.interaction.currentPreviewId = cur.currentPreviewId ∨
    ∃ p, .preview p ∈ t.facts ∧ t.interaction.currentPreviewId = some p.previewId
  recovery : t.interaction.recoveryId = cur.recoveryId ∨
    ∃ v, .recovery v ∈ t.facts ∧ t.interaction.recoveryId = some v.recoveryId

/-- The world after a commit. -/
def World.commit (w : World) (db : Database) (c : Commit) : World :=
  { w with db, commits := c :: w.commits }

@[simp] theorem World.commit_db (w : World) (db : Database) (c : Commit) :
    (w.commit db c).db = db := rfl

@[simp] theorem World.commit_commits (w : World) (db : Database) (c : Commit) :
    (w.commit db c).commits = c :: w.commits := rfl

@[simp] theorem World.commit_issued (w : World) (db : Database) (c : Commit) :
    (w.commit db c).issued = w.issued := rfl

@[simp] theorem World.commit_supplied (w : World) (db : Database) (c : Commit) :
    (w.commit db c).supplied = w.supplied := rfl

@[simp] theorem World.commit_executions (w : World) (db : Database) (c : Commit) :
    (w.commit db c).executions = w.executions := rfl

@[simp] theorem World.commit_authorised (w : World) (db : Database) (c : Commit) :
    (w.commit db c).authorised = w.authorised := rfl

theorem World.commit_portIdsFresh {w : World} {db : Database} {c : Commit} :
    (w.commit db c).PortIdsFresh ↔ w.PortIdsFresh :=
  ⟨fun h => ⟨h.not_issued, h.one_interaction⟩, fun h => ⟨h.not_issued, h.one_interaction⟩⟩

/-- The past facts after a commit are its own and the earlier ones. -/
theorem World.commit_past {w : World} {db : Database} {c : Commit} {X : String} {f : Fact} :
    (w.commit db c).Past X f ↔ (c.interaction.interactionId = X ∧ f ∈ c.facts) ∨ w.Past X f := by
  simp [World.Past]

theorem World.commit_seen {w : World} {db : Database} {c : Commit} {r : Interaction} :
    (w.commit db c).Seen r ↔ r = c.interaction ∨ w.Seen r := by
  simp [World.Seen, eq_comm]

theorem World.commit_used {w : World} {db : Database} {c : Commit} {id : String} :
    (w.commit db c).Used id ↔ (∃ f ∈ c.facts, ¬f.supplied ∧ f.factId = id) ∨ w.Used id := by
  simp [World.Used]

theorem World.Past.used {w : World} {X : String} {f : Fact} (h : w.Past X f) (hs : ¬f.supplied) :
    w.Used f.factId := by
  obtain ⟨c, hc, -, hf⟩ := h
  exact ⟨c, hc, f, hf, hs, rfl⟩

theorem Fact.supplied.type {f : Fact} (h : f.supplied) : f.type = .canonicalCommitEvidence := by
  cases f <;> first | rfl | cases h

section MayWrite

variable {w : World} {i : ℕ} {X Y : String} {f g : Fact}

theorem World.MayWrite.named (h : Inv w) (hm : w.MayWrite i X f) (hs : ¬f.supplied) :
    (∃ j, (f.factId, j) ∈ w.issued) ∧ f.type.Names f.factId := by
  cases hm with
  | own _ ho => exact ⟨⟨i, ho.1⟩, ho.2.2⟩
  | again _ g hg hgs hid hty =>
    rw [← hid, ← hty]
    exact h.fact_named hg hgs
  | supplied hs' _ => exact absurd hs' hs

/-- A fact written under an identifier the service named before is of the same interaction. -/
theorem World.MayWrite.owner (h : Inv w) (hm : w.MayWrite i X f) (hs : ¬f.supplied)
    (hg : w.Past Y g) (hgs : ¬g.supplied) (hid : f.factId = g.factId) : X = Y := by
  cases hm with
  | own _ ho => exact absurd (hid ▸ hg.used hgs) ho.2.1
  | again _ g' hg' hgs' hid' _ => exact h.fact_owner hg' hg hgs' hgs (hid'.trans hid)
  | supplied hs' _ => exact absurd hs' hs

/-- Under fresh port identifiers, a fact written under any past identifier is of the same
interaction and kind. -/
theorem World.MayWrite.same (h : Inv w) (hfresh : w.PortIdsFresh) (hm : w.MayWrite i X f)
    (hg : w.Past Y g) (hid : f.factId = g.factId) : X = Y ∧ f.type = g.type := by
  by_cases hgs : g.supplied <;> by_cases hfs : f.supplied
  · refine ⟨?_, hfs.type.trans hgs.type.symm⟩
    cases hm with
    | own hs _ => exact absurd hfs hs
    | again hs => exact absurd hfs hs
    | supplied _ hsup => exact hfresh.one_interaction hsup (hid ▸ h.fact_supplied hg hgs)
  · obtain ⟨⟨j, hj⟩, -⟩ := hm.named h hfs
    exact absurd hj (hfresh.not_issued (hid ▸ h.fact_supplied hg hgs))
  · obtain ⟨⟨j, hj⟩, -⟩ := h.fact_named hg hgs
    cases hm with
    | own hs _ => exact absurd hfs hs
    | again hs => exact absurd hfs hs
    | supplied _ hsup => exact absurd (hid ▸ hj) (hfresh.not_issued hsup)
  · exact ⟨hm.owner h hfs hg hgs hid,
      (hm.named h hfs).2.unique (hid ▸ (h.fact_named hg hgs).2)⟩

/-- Under fresh port identifiers, two facts written under one identifier are of one kind. -/
theorem World.MayWrite.type_eq (h : Inv w) (hfresh : w.PortIdsFresh) (hm : w.MayWrite i X f)
    (hm' : w.MayWrite i Y g) (hid : f.factId = g.factId) : f.type = g.type := by
  by_cases hgs : g.supplied <;> by_cases hfs : f.supplied
  · exact hfs.type.trans hgs.type.symm
  · obtain ⟨⟨j, hj⟩, -⟩ := hm.named h hfs
    cases hm' with
    | own hs _ => exact absurd hgs hs
    | again hs => exact absurd hgs hs
    | supplied _ hsup => exact absurd (hid ▸ hj) (hfresh.not_issued hsup)
  · obtain ⟨⟨j, hj⟩, -⟩ := hm'.named h hgs
    cases hm with
    | own hs _ => exact absurd hfs hs
    | again hs => exact absurd hfs hs
    | supplied _ hsup => exact absurd (hid ▸ hj) (hfresh.not_issued hsup)
  · exact (hm.named h hfs).2.unique (hid ▸ (hm'.named h hgs).2)

end MayWrite

section Commit

variable {w : World} {i : ℕ} {cur : Interaction} {t : Transition} {db : Database}

/-- **A well-formed transition keeps the invariant.** -/
theorem Inv.commit (h : Inv w) (hcur : w.db.records cur.interactionId = some cur)
    (hw : t.WellFormed w i cur) (hc : w.db.Committed t db) : Inv (w.commit db t.commit) := by
  have hid : cur.interactionId = t.interaction.interactionId := hw.identity.interactionId
  have hseen : w.Seen cur := (h.record_seen hcur).2
  refine
    { issued_once := h.issued_once
      executed_issued := h.executed_issued
      record_seen := ?_
      current := ?_
      ascending := ?_
      fact_past := ?_
      fact_named := ?_
      fact_supplied := ?_
      fact_owner := ?_
      row_commit := ?_
      commit_row := ?_
      preview_past := ?_
      recovery_past := ?_
      stored := ?_ }
  · intro X r hr
    rw [World.commit_db, hc.records, Function.update_apply] at hr
    split at hr
    · obtain rfl := Option.some.inj hr
      exact ⟨‹X = _›.symm, World.commit_seen.mpr (.inl rfl)⟩
    · obtain ⟨hX, hr⟩ := h.record_seen hr
      exact ⟨hX, World.commit_seen.mpr (.inr hr)⟩
  · intro c hmem
    rw [World.commit_db, hc.records]
    rcases List.mem_cons.mp hmem with rfl | hmem
    · exact ⟨t.interaction, Function.update_self .., ⟨rfl, rfl, rfl⟩, Int.le_refl _, fun _ => rfl⟩
    · obtain ⟨r, hr, hsame, hle, heq⟩ := h.current c hmem
      by_cases hX : c.interaction.interactionId = t.interaction.interactionId
      · obtain rfl : r = cur := by simpa [hX, ← hid, hcur] using hr.symm
        refine ⟨t.interaction, by rw [hX, Function.update_self], ?_, ?_, ?_⟩
        · exact ⟨hX, hsame.scope.trans hw.identity.scope, hsame.actorId.trans hw.identity.actorId⟩
        · rw [hw.revision]
          omega
        · intro hrev
          rw [hw.revision] at hrev
          omega
      · exact ⟨r, by rw [Function.update_of_ne hX]; exact hr, hsame, hle, heq⟩
  · refine List.pairwise_cons.mpr ⟨fun c hmem hX => ?_, h.ascending⟩
    have hle := h.le_current hcur hmem (hX.symm.trans hid.symm)
    change c.interaction.revision < t.interaction.revision
    rw [hw.revision]
    omega
  · intro fid row hrow
    rw [World.commit_db, hc.facts] at hrow
    rcases Database.putFacts_apply t.interaction.interactionId w.db.facts t.facts fid with
      ⟨f, hf, hfid, hput⟩ | ⟨-, hput⟩
    · obtain rfl : _ = row := Option.some.inj (hput.symm.trans hrow)
      exact ⟨hfid, World.commit_past.mpr (.inl ⟨rfl, hf⟩)⟩
    · obtain ⟨hfid, hpast⟩ := h.fact_past (hput.symm.trans hrow)
      exact ⟨hfid, World.commit_past.mpr (.inr hpast)⟩
  · intro X f hf hs
    rcases World.commit_past.mp hf with ⟨-, hmem⟩ | hf'
    · have hnamed := (hw.may f hmem).named h hs
      exact hnamed
    · exact h.fact_named hf' hs
  · intro X f hf hs
    rcases World.commit_past.mp hf with ⟨rfl, hmem⟩ | hf'
    · cases hw.may f hmem with
      | own hns _ => exact absurd hs hns
      | again hns => exact absurd hs hns
      | supplied _ hsup => exact hid ▸ hsup
    · exact h.fact_supplied hf' hs
  · intro X Y f g hf hg hfs hgs hfg
    rcases World.commit_past.mp hf with ⟨rfl, hmem⟩ | hf' <;>
      rcases World.commit_past.mp hg with ⟨rfl, hmem'⟩ | hg'
    · rfl
    · exact hid.symm.trans ((hw.may f hmem).owner h hfs hg' hgs hfg)
    · exact ((hw.may g hmem').owner h hgs hf' hfs hfg.symm).symm.trans hid
    · exact h.fact_owner hf' hg' hfs hgs hfg
  · intro key row hrow
    rw [World.commit_db, hc.idempotency, Function.update_apply] at hrow
    split at hrow
    · obtain rfl := Option.some.inj hrow
      exact ⟨t.commit, List.mem_cons_self, ‹key = _›.symm, rfl, rfl, rfl⟩
    · obtain ⟨c, hmem, hkey, hd, hres, hrid⟩ := h.row_commit hrow
      exact ⟨c, List.mem_cons_of_mem _ hmem, hkey, hd, hres, hrid⟩
  · intro c hmem
    rw [World.commit_db, hc.idempotency]
    rcases List.mem_cons.mp hmem with rfl | hmem
    · exact ⟨_, Function.update_self .., rfl, rfl⟩
    · obtain ⟨row, hrow, hd, hX⟩ := h.commit_row c hmem
      by_cases hkey : c.key = t.key
      · obtain ⟨hd', hX'⟩ := hc.unclaimed row (hkey ▸ hrow)
        exact ⟨_, by rw [hkey, Function.update_self], hd'.symm.trans hd, hX'.symm.trans hX⟩
      · exact ⟨row, by rw [Function.update_of_ne hkey]; exact hrow, hd, hX⟩
  · intro r id hr hp
    rcases World.commit_seen.mp hr with rfl | hr
    · rcases hw.preview with hsame | ⟨p, hp', hnew⟩
      · obtain ⟨p, rfl, hpast⟩ := h.preview_past hseen (hsame.symm.trans hp)
        exact ⟨p, rfl, World.commit_past.mpr (.inr (hid ▸ hpast))⟩
      · exact ⟨p, Option.some.inj (hnew.symm.trans hp), World.commit_past.mpr (.inl ⟨rfl, hp'⟩)⟩
    · obtain ⟨p, hpid, hpast⟩ := h.preview_past hr hp
      exact ⟨p, hpid, World.commit_past.mpr (.inr hpast)⟩
  · intro r id hr hv
    rcases World.commit_seen.mp hr with rfl | hr
    · rcases hw.recovery with hsame | ⟨v, hv', hnew⟩
      · obtain ⟨v, rfl, hpast⟩ := h.recovery_past hseen (hsame.symm.trans hv)
        exact ⟨v, rfl, World.commit_past.mpr (.inr (hid ▸ hpast))⟩
      · exact ⟨v, Option.some.inj (hnew.symm.trans hv), World.commit_past.mpr (.inl ⟨rfl, hv'⟩)⟩
    · obtain ⟨v, hvid, hpast⟩ := h.recovery_past hr hv
      exact ⟨v, hvid, World.commit_past.mpr (.inr hpast)⟩
  · intro hfresh X f hf
    have hfresh := World.commit_portIdsFresh.mp hfresh
    rw [World.commit_db, hc.facts]
    rcases Database.putFacts_apply t.interaction.interactionId w.db.facts t.facts f.factId with
      ⟨g, hg, hgid, hput⟩ | ⟨hne, hput⟩
    · refine ⟨_, hput, ?_⟩
      rcases World.commit_past.mp hf with ⟨rfl, hmem⟩ | hf'
      · exact ⟨rfl, (hw.may g hg).type_eq h hfresh (hw.may f hmem) hgid⟩
      · obtain ⟨hX, hty⟩ := (hw.may g hg).same h hfresh hf' hgid
        exact ⟨hid.symm.trans hX, hty⟩
    · rcases World.commit_past.mp hf with ⟨-, hmem⟩ | hf'
      · exact absurd rfl (hne f hmem)
      · rw [hput]
        exact h.stored hfresh hf'

/-- **A well-formed transition leaves the others what they rely on.** -/
theorem Rely.commit (h : Inv w) (hw : t.WellFormed w i cur) {j : ℕ} (hj : j ≠ i) :
    Rely j w (w.commit db t.commit) where
  commits := List.suffix_cons ..
  issued := List.suffix_rfl
  supplied := List.suffix_rfl
  authorised := List.suffix_rfl
  executions := List.suffix_rfl
  unused id hid hu := by
    rw [World.commit_used, not_or]
    refine ⟨?_, hu⟩
    rintro ⟨f, hf, hs, rfl⟩
    cases hw.may f hf with
    | own _ ho => exact hj (h.issued_once hid ho.1)
    | again _ g hg hgs hgid _ => exact hu (hgid ▸ hg.used hgs)
    | supplied hsup _ => exact hs hsup
  unexecuted _ _ hu := hu

/-- Under fresh port identifiers a commit leaves the facts of other interactions alone. -/
theorem fact_frame (h : Inv w) (hfresh : w.PortIdsFresh) (hw : t.WellFormed w i cur)
    (hc : w.db.Committed t db) {X : String} (hX : X ≠ cur.interactionId) (ty : FactType)
    (fid : Option String) : db.fact X ty fid = w.db.fact X ty fid := by
  cases fid with
  | none => rfl
  | some fid =>
    have hid : cur.interactionId = t.interaction.interactionId := hw.identity.interactionId
    simp only [Database.fact, Option.bind_some, hc.facts]
    rcases Database.putFacts_apply t.interaction.interactionId w.db.facts t.facts fid with
      ⟨f, hf, hfid, hput⟩ | ⟨-, hput⟩
    · rw [hput, Option.bind_some, if_neg (hid ▸ hX.symm)]
      cases hrow : w.db.facts fid with
      | none => rfl
      | some row =>
        obtain ⟨hrid, hpast⟩ := h.fact_past hrow
        have hne : row.interactionId ≠ X := fun heq => hX
          (heq ▸ ((hw.may f hf).same h hfresh hpast (hfid.trans hrid.symm)).1).symm
        rw [Option.bind_some, if_neg hne]
    · rw [hput]

end Commit

/-! ## Creation -/

section Create

variable {w : World} {i : ℕ} {r : Interaction} {audit : AuditEvidence} {key digest : String}

/-- The tables a creation leaves. -/
def Database.created (db : Database) (r : Interaction) (audit : AuditEvidence)
    (key digest : String) : Database :=
  { db with
    idempotency := Function.update db.idempotency ⟨r.scope, .create, key⟩
      (some ⟨digest, r.interactionId, r⟩)
    records := Function.update db.records r.interactionId (some r)
    audit := db.audit ++ [audit] }

/-- **A creation keeps the invariant.** -/
theorem Inv.create (h : Inv w) (hrec : w.db.records r.interactionId = none)
    (hkey : w.db.idempotency ⟨r.scope, .create, key⟩ = none) (hp : r.currentPreviewId = none)
    (hv : r.recoveryId = none) :
    Inv (w.commit (w.db.created r audit key digest) (r.creation key digest)) := by
  have hnew : ∀ c ∈ w.commits, c.interaction.interactionId ≠ r.interactionId := by
    intro c hc heq
    obtain ⟨r', hr', -⟩ := h.current c hc
    simp [heq, hrec] at hr'
  have hpast : ∀ {X f}, (w.commit (w.db.created r audit key digest)
      (r.creation key digest)).Past X f → w.Past X f := by
    intro X f hf
    simpa [World.commit_past, Interaction.creation] using hf
  refine
    { issued_once := h.issued_once
      executed_issued := h.executed_issued
      record_seen := ?_
      current := ?_
      ascending := List.pairwise_cons.mpr ⟨fun c hc heq => absurd heq.symm (hnew c hc), h.ascending⟩
      fact_past := ?_
      fact_named := fun hf => h.fact_named (hpast hf)
      fact_supplied := fun hf => h.fact_supplied (hpast hf)
      fact_owner := fun hf hg => h.fact_owner (hpast hf) (hpast hg)
      row_commit := ?_
      commit_row := ?_
      preview_past := ?_
      recovery_past := ?_
      stored := fun hfresh _ _ hf =>
        h.stored (World.commit_portIdsFresh.mp hfresh) (hpast hf) }
  · intro X r' hr'
    simp only [World.commit_db, Database.created, Function.update_apply] at hr'
    split at hr'
    · obtain rfl := Option.some.inj hr'
      exact ⟨‹X = _›.symm, World.commit_seen.mpr (.inl rfl)⟩
    · obtain ⟨hX, hs⟩ := h.record_seen hr'
      exact ⟨hX, World.commit_seen.mpr (.inr hs)⟩
  · intro c hmem
    rcases List.mem_cons.mp hmem with rfl | hmem
    · exact ⟨r, Function.update_self .., ⟨rfl, rfl, rfl⟩, Int.le_refl _, fun _ => rfl⟩
    · obtain ⟨r', hr', hsame⟩ := h.current c hmem
      exact ⟨r', (Function.update_of_ne (hnew c hmem) _ _).trans hr', hsame⟩
  · intro fid row hrow
    obtain ⟨hfid, hf⟩ := h.fact_past hrow
    exact ⟨hfid, World.commit_past.mpr (.inr hf)⟩
  · intro k row hrow
    simp only [World.commit_db, Database.created, Function.update_apply] at hrow
    split at hrow
    · obtain rfl := Option.some.inj hrow
      exact ⟨r.creation key digest, List.mem_cons_self, ‹k = _›.symm, rfl, rfl, rfl⟩
    · obtain ⟨c, hmem, hk⟩ := h.row_commit hrow
      exact ⟨c, List.mem_cons_of_mem _ hmem, hk⟩
  · intro c hmem
    rcases List.mem_cons.mp hmem with rfl | hmem
    · exact ⟨_, Function.update_self .., rfl, rfl⟩
    · obtain ⟨row, hrow, hd⟩ := h.commit_row c hmem
      have hne : c.key ≠ ⟨r.scope, .create, key⟩ := fun heq => by simp [← heq, hrow] at hkey
      exact ⟨row, (Function.update_of_ne hne _ _).trans hrow, hd⟩
  · intro r' id hr' hid
    rcases World.commit_seen.mp hr' with rfl | hr'
    · exact absurd hid (by simp [hp])
    · obtain ⟨p, hpid, hf⟩ := h.preview_past hr' hid
      exact ⟨p, hpid, World.commit_past.mpr (.inr hf)⟩
  · intro r' id hr' hid
    rcases World.commit_seen.mp hr' with rfl | hr'
    · exact absurd hid (by simp [hv])
    · obtain ⟨v, hvid, hf⟩ := h.recovery_past hr' hid
      exact ⟨v, hvid, World.commit_past.mpr (.inr hf)⟩

/-- **A creation leaves the others what they rely on.** -/
theorem Rely.create {db : Database} (j : ℕ) : Rely j w (w.commit db (r.creation key digest)) where
  commits := List.suffix_cons ..
  issued := List.suffix_rfl
  supplied := List.suffix_rfl
  authorised := List.suffix_rfl
  executions := List.suffix_rfl
  unused id _ hu := by simpa [World.commit_used, Interaction.creation] using hu
  unexecuted _ _ hu := hu

end Create

end Interactions

import AiLabOs.Interaction.Evidence

/-!
# Trusted interactions: the commits under a key

A key is claimed by its first commit. The payload of most operations names the revision they
commit from, so a second commit under the same payload would have to start from a record that is
gone; `create`, `recover` and the reconciliation of an execution are kept apart otherwise. Only
`execute` commits twice under its key, the intent and the observation.

## Main definitions

* `Operation.bindsRevision`: the operations whose payload names the revision they commit from
* `Commit.observes`: the second commit of an execution
* `Keyed`: what the history says about keys

## Main results

* `Reachable.keyed`
* `Reachable.commits_under_key`: two commits under a key are an intent and its observation
-/

namespace Interactions

open Process

/-- The operations whose payload names the revision they commit from. -/
def Operation.bindsRevision : Operation → Bool
  | .create | .recover | .reconcileExecution => false
  | _ => true

/-- The second commit of an execution. -/
def Commit.observes (c : Commit) : Bool :=
  c.operation = .execute && c.interaction.lifecycleState ≠ .executing

/-- **The payload of a commit names the revision it started from**, that of an observation the
revision before. -/
def Commit.Bound (sha : Sha256) (c : Commit) : Prop :=
  ∃ (p : Payload) (e : Int), c.payloadDigest = sha.hexdigest p ∧
    p.lookup "expected_revision" = some (.int e) ∧
    c.expectedRevision = some (if c.observes then e + 1 else e)

/-! ## What one transition says -/

section Legal

variable {sha : Sha256} {w : World} {i : ℕ} {cur : Interaction} {t : Transition}

theorem Legal.bound (h : Legal sha w i cur t) (hb : t.operation.bindsRevision = true) :
    t.commit.Bound sha := by
  -- the payload of each of these operations lists the revision under the same name
  cases h with
  | preview a old previewId now audits hid hactor hrev =>
    exact ⟨_, a.expectedRevision, rfl, rfl, congrArg some hrev⟩
  | confirm a preview confirmationId now audits hid hrev =>
    exact ⟨_, a.expectedRevision, rfl, rfl, congrArg some hrev⟩
  | approve a preview confirmation authority approvalId now audits hid hrev =>
    exact ⟨_, a.expectedRevision, rfl, rfl, congrArg some hrev⟩
  | cancel a preview now audits hid hrev =>
    exact ⟨_, a.expectedRevision, rfl, rfl, congrArg some hrev⟩
  | expire a preview now audits hid hrev =>
    exact ⟨_, a.expectedRevision, rfl, rfl, congrArg some hrev⟩
  | start a executionId now audits hid hrev =>
    exact ⟨_, a.expectedRevision, rfl, rfl, congrArg some hrev⟩
  | observe a execution o recovery finished audits hid hrev =>
    refine ⟨_, a.expectedRevision, rfl, rfl, ?_⟩
    have hobserves : (cur.observed o recovery finished).lifecycleState ≠ .executing := by
      simp only [Interaction.observed]
      split
      · decide
      · split <;> decide
    simp [Commit.observes, Transition.commit, hobserves, hrev]
  | succeed a v preview execution o resultId evidence recovery now audits hid hstate hkey =>
    cases hkey with
    | verify b hop hdigest hbid hrev =>
      refine ⟨_, b.expectedRevision, hdigest, rfl, ?_⟩
      simp [Commit.observes, Transition.commit, hop, hrev]
    | recover b hop => simp [hop, Operation.bindsRevision] at hb
  | unverified a v reply result failure recoveryId now audits hid hstate hkey =>
    cases hkey with
    | verify b hop hdigest hbid hrev =>
      refine ⟨_, b.expectedRevision, hdigest, rfl, ?_⟩
      simp [Commit.observes, Transition.commit, hop, hrev]
    | recover b hop => simp [hop, Operation.bindsRevision] at hb
  | reconcile a actorId key execution recoveryId now audits => exact absurd hb Bool.false_ne_true

/-- Only the intent of an execution leads to `EXECUTING`. -/
theorem Legal.executing (h : Legal sha w i cur t)
    (hs : t.interaction.lifecycleState = .executing) : cur.lifecycleState = .authorized := by
  cases h with
  | start a executionId now audits hid hrev hstate => exact hstate
  | preview a old previewId now =>
    simp only [Interaction.previewed] at hs
    split at hs <;> cases hs
  | confirm a preview confirmationId now =>
    simp only [Interaction.confirmed] at hs
    split at hs <;> cases hs
  | observe a execution o recovery finished =>
    simp only [Interaction.observed] at hs
    split at hs
    · cases hs
    · split at hs <;> cases hs
  | _ => cases hs

/-- A reconciliation leaves `EXECUTING`. -/
theorem Legal.reconciles (h : Legal sha w i cur t) (hop : t.operation = .reconcileExecution) :
    cur.lifecycleState = .executing ∧ t.interaction.lifecycleState = .recoveryRequired := by
  cases h with
  | reconcile a actorId key execution recoveryId now audits hid hstate => exact ⟨hstate, rfl⟩
  | succeed a v preview execution o resultId evidence recovery now audits hid hstate hkey =>
    cases hkey with
    | verify b hop' => exact absurd (hop'.symm.trans hop) (by decide)
    | recover b hop' => exact absurd (hop'.symm.trans hop) (by decide)
  | unverified a v reply result failure recoveryId now audits hid hstate hkey =>
    cases hkey with
    | verify b hop' => exact absurd (hop'.symm.trans hop) (by decide)
    | recover b hop' => exact absurd (hop'.symm.trans hop) (by decide)
  | _ => cases hop

/-- A transition that does not name its revision is the first of a recovery, or a
reconciliation. -/
theorem Legal.first (h : Legal sha w i cur t) (hb : t.operation.bindsRevision = false) :
    t.operation = .reconcileExecution ∨ t.operation = .recover ∧
      ∀ c ∈ w.commits, c.operation = .recover → c.idempotencyKey = t.idempotencyKey →
        c.interaction.interactionId ≠ cur.interactionId := by
  cases h with
  | reconcile a actorId key execution recoveryId now audits => exact .inl rfl
  | succeed a v preview execution o resultId evidence recovery now audits hid hstate hkey =>
    cases hkey with
    | verify b hop => simp [hop, Operation.bindsRevision] at hb
    | recover b hop hdigest hbid hfirst => exact .inr ⟨hop, hfirst⟩
  | unverified a v reply result failure recoveryId now audits hid hstate hkey =>
    cases hkey with
    | verify b hop => simp [hop, Operation.bindsRevision] at hb
    | recover b hop hdigest hbid hfirst => exact .inr ⟨hop, hfirst⟩
  | _ => cases hb

end Legal

/-! ## What the history says -/

/-- What the history says about revisions and keys. -/
structure Keyed (sha : Sha256) (w : World) : Prop where
  /-- A transition raises the revision by one. -/
  raises : ∀ c ∈ w.commits, ∀ e, c.expectedRevision = some e → c.interaction.revision = e + 1
  /-- The payload of an operation that names its revision names the one it started from. -/
  bound : ∀ c ∈ w.commits, c.operation.bindsRevision = true → c.Bound sha
  /-- A reconciled interaction needs a recovery. -/
  reconciled : ∀ c ∈ w.commits, c.operation = .reconcileExecution →
    c.interaction.lifecycleState = .recoveryRequired
  /-- The other operations commit once under a key. -/
  first : w.commits.Pairwise fun c c' => c.operation.bindsRevision = false → c.key ≠ c'.key

section Reachable

variable {d : Deployment} {c : Calls} {r cur : Interaction}

/-- An interaction that left `EXECUTING` never returns to it. -/
theorem Reachable.not_executing (h : Reachable d c) (hr : c.world.Seen r)
    (hcur : c.world.db.records r.interactionId = some cur)
    (hs : r.lifecycleState.started = true) (hne : r.lifecycleState ≠ .executing) :
    cur.lifecycleState ≠ .executing := by
  have hkeep := h.seen_current
    (R := fun r cur => r.lifecycleState.started = true ∧ r.lifecycleState ≠ .executing →
      cur.lifecycleState.started = true ∧ cur.lifecycleState ≠ .executing)
    (fun _ hr => hr) ?_ hr hcur ⟨hs, hne⟩
  · exact hkeep.2
  · intro w i r cur t ih hl hr
    obtain ⟨hstarted, -⟩ := ih hr
    refine ⟨(hl.started hstarted).started, fun hexec => ?_⟩
    rw [hl.executing hexec] at hstarted
    exact absurd hstarted (by decide)

/-- Two commits under a key are of one interaction. -/
theorem Inv.same_key {w : World} (h : Inv w) {cm cm' : Commit} (hc : cm ∈ w.commits)
    (hc' : cm' ∈ w.commits) (hkey : cm.key = cm'.key) :
    cm.payloadDigest = cm'.payloadDigest ∧
      cm.interaction.interactionId = cm'.interaction.interactionId := by
  obtain ⟨row, hrow, hd, hX⟩ := h.commit_row cm hc
  obtain ⟨row', hrow', hd', hX'⟩ := h.commit_row cm' hc'
  obtain rfl : row = row' := Option.some.inj (hrow.symm.trans (hkey ▸ hrow'))
  exact ⟨hd.symm.trans hd', hX.symm.trans hX'⟩

theorem Reachable.keyed (h : Reachable d c) : Keyed d.sha c.world := by
  refine h.aggregate (J := Keyed d.sha) ?_ ?_ ?_ ?_
  · refine ⟨?_, ?_, ?_, List.Pairwise.nil⟩ <;> intro c hc <;> cases hc
  · intro c i cur t db hreach hj hcur hl hc
    have hinv := hreach.inv
    have hw := hl.wellFormed hinv hcur
    refine ⟨?_, ?_, ?_, List.pairwise_cons.mpr ⟨fun cm hmem hb hkey => ?_, hj.first⟩⟩
    · intro cm hmem e he
      rcases List.mem_cons.mp hmem with rfl | hmem
      · obtain rfl : cur.revision = e := hw.expected.symm.trans (Option.some.inj he)
        exact hw.revision
      · exact hj.raises cm hmem e he
    · intro cm hmem hb
      rcases List.mem_cons.mp hmem with rfl | hmem
      · exact hl.bound hb
      · exact hj.bound cm hmem hb
    · intro cm hmem hop
      rcases List.mem_cons.mp hmem with rfl | hmem
      · exact (hl.reconciles hop).2
      · exact hj.reconciled cm hmem hop
    · -- an earlier commit under the key is of the same interaction
      have htkey : cm.key = t.key := hkey.symm
      obtain ⟨row, hrow, -, hX⟩ := hinv.commit_row cm hmem
      have hsame : cm.interaction.interactionId = cur.interactionId :=
        hX.symm.trans (((hc.unclaimed row (htkey ▸ hrow)).2).trans hl.interactionId)
      have hop : cm.operation = t.operation := congrArg IdempotencyKey.operation hkey.symm
      have hk : cm.idempotencyKey = t.idempotencyKey := congrArg IdempotencyKey.key hkey.symm
      rcases hl.first hb with hrec | ⟨hrec, hfirst⟩
      · have hstate := hj.reconciled cm hmem (hop.trans hrec)
        refine hreach.not_executing ⟨cm, hmem, rfl⟩ (hsame ▸ hcur) ?_ ?_ (hl.reconciles hrec).1 <;>
          rw [hstate] <;> decide
      · exact hfirst cm hmem (hop.trans hrec) hk hsame
  · intro c a r id now audit key digest hreach hj hshape hnew hkey
    refine ⟨?_, ?_, ?_, List.pairwise_cons.mpr ⟨fun cm hmem _ heq => ?_, hj.first⟩⟩
    · intro cm hmem e he
      rcases List.mem_cons.mp hmem with rfl | hmem
      · cases he
      · exact hj.raises cm hmem e he
    · intro cm hmem hb
      rcases List.mem_cons.mp hmem with rfl | hmem
      · cases hb
      · exact hj.bound cm hmem hb
    · intro cm hmem hop
      rcases List.mem_cons.mp hmem with rfl | hmem
      · cases hop
      · exact hj.reconciled cm hmem hop
    · obtain ⟨row, hrow, -⟩ := hreach.inv.commit_row cm hmem
      have hnone : c.world.db.idempotency cm.key = none := heq ▸ hkey
      rw [hrow] at hnone
      cases hnone
  · intro w w' hj hsame
    refine ⟨?_, ?_, ?_, ?_⟩ <;> rw [hsame.commits]
    · exact hj.raises
    · exact hj.bound
    · exact hj.reconciled
    · exact hj.first

/-- **Two commits under a key are an intent and its observation.** -/
theorem Reachable.commits_under_key (h : Reachable d c) (hfree : d.sha.CollisionFree) :
    c.world.commits.Pairwise fun cm cm' => cm.key = cm'.key → cm.observes ≠ cm'.observes := by
  have hkeyed := h.keyed
  have hboth := hkeyed.first.and h.inv.ascending
  refine hboth.imp_of_mem fun {cm cm'} hc hc' hpair hkey hobserves => ?_
  obtain ⟨hfirst, hlater⟩ := hpair
  obtain ⟨hd, hX⟩ := h.inv.same_key hc hc' hkey
  have hop : cm.operation = cm'.operation := congrArg IdempotencyKey.operation hkey
  cases hb : cm.operation.bindsRevision with
  | false => exact hfirst hb hkey
  | true =>
    -- one payload names one revision, and no two commits start from one
    obtain ⟨p, e, hp, he, hstart⟩ := hkeyed.bound cm hc hb
    obtain ⟨p', e', hp', he', hstart'⟩ := hkeyed.bound cm' hc' (hop ▸ hb)
    obtain rfl : p = p' := hfree (hp.symm.trans (hd.trans hp'))
    obtain rfl : e = e' := by simpa [he] using he'
    rw [← hobserves] at hstart'
    have hrev := hkeyed.raises cm hc _ hstart
    have hrev' := hkeyed.raises cm' hc' _ hstart'
    exact absurd (hrev'.trans hrev.symm) (Int.ne_of_lt (hlater hX))

end Reachable

end Interactions

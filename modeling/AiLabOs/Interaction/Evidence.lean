import AiLabOs.Interaction.AuthorisedExecution

/-!
# Trusted interactions: the evidence of a success

A success is committed together with a VerifiedResult and the evidence of the canonical commit,
both of the execution the record names. No later commit is of the same interaction, and under
fresh port identifiers none of another interaction writes these facts again.

## Main definitions

* `SuccessEvidence`: what the tables show of a succeeded interaction

## Main results

* `Legal.successEvidence`: a commit that succeeds writes its evidence
* `success_needs_evidence`
-/

namespace Interactions

open Process

/-- The canonical commit a Preview asks for: an object and its revision, or none. -/
structure CanonicalCommitEvidence.Answers (e : CanonicalCommitEvidence) (p : Preview) : Prop where
  required : p.canonicalCommitRequired = true → e.outcome = "COMMITTED" ∧
    (∃ object, e.canonicalObjectId = some object ∧ object ≠ "") ∧ e.canonicalRevision ≠ none
  notRequired : p.canonicalCommitRequired = false → e.outcome = "NOT_REQUIRED"

/-- **What the tables show of a succeeded interaction**: its current Preview, and the VerifiedResult
and the commit evidence of its current Execution. -/
structure SuccessEvidence (db : Database) (r : Interaction) (p : Preview) (v : VerifiedResult)
    (e : CanonicalCommitEvidence) : Prop where
  verified : r.verificationStatus = .verified
  failure : r.failure = none
  preview : db.fact r.interactionId .preview r.currentPreviewId = some p
  result : db.fact r.interactionId .verifiedResult r.verifiedResultId = some v
  evidence : db.fact r.interactionId .canonicalCommitEvidence r.canonicalCommitEvidenceId = some e
  interactions : v.interactionId = r.interactionId ∧ e.interactionId = r.interactionId
  executions : r.currentExecutionId = some v.executionId ∧ r.currentExecutionId = some e.executionId
  digests : v.evidenceDigest ≠ "" ∧ e.evidenceDigest ≠ ""
  backed : v.canonicalCommitEvidenceId = some e.canonicalCommitEvidenceId
  answers : e.Answers p

/-- The evidence of a success rests on the facts of its interaction only. -/
theorem SuccessEvidence.frame {db db' : Database} {r : Interaction} {p : Preview}
    {v : VerifiedResult} {e : CanonicalCommitEvidence} (h : SuccessEvidence db r p v e)
    (hfact : ∀ ty fid, db'.fact r.interactionId ty fid = db.fact r.interactionId ty fid) :
    SuccessEvidence db' r p v e :=
  { h with
    preview := (hfact _ _).trans h.preview
    result := (hfact _ _).trans h.result
    evidence := (hfact _ _).trans h.evidence }

/-- The evidence of a canonical commit is of the execution, and answers the Preview. -/
theorem CommitBacked.describes {sha : Sha256} {w : World} {i : ℕ} {cur : Interaction}
    {preview : Preview} {execution : Execution} {now : Instant} {e : CanonicalCommitEvidence}
    (h : CommitBacked sha w i cur preview execution now e) :
    e.interactionId = cur.interactionId ∧ e.executionId = execution.executionId ∧
      e.evidenceDigest ≠ "" ∧ e.Answers preview := by
  cases h with
  | notRequired evidenceId hreq hown hev =>
    subst hev
    exact ⟨rfl, rfl, sha.nonempty _, by simp [hreq], fun _ => rfl⟩
  | committed hreq hmatch hsup =>
    obtain ⟨hX, hexec, -, -, -, -, houtcome, hobject, hrevision, hdigest⟩ := hmatch
    refine ⟨hX, hexec, hdigest, fun _ => ⟨houtcome, ?_, hrevision⟩, by simp [hreq]⟩
    cases hobj : e.canonicalObjectId with
    | none => simp [hobj] at hobject
    | some object => exact ⟨object, rfl, by simpa [hobj] using hobject⟩

/-! ## The commit of a success -/

section Commit

variable {sha : Sha256} {w : World} {i : ℕ} {cur : Interaction} {t : Transition} {db : Database}

/-- A fact of a transition that is the only one under its identifier is found under it. -/
theorem Database.Committed.fact (hc : w.db.Committed t db) (ty : FactType) {x : ty.Model}
    (hx : .of ty x ∈ t.facts)
    (honly : ∀ f ∈ t.facts, f.factId = (Fact.of ty x).factId → f = .of ty x) :
    db.fact t.interaction.interactionId ty (some (Fact.of ty x).factId) = some x := by
  rcases Database.putFacts_apply t.interaction.interactionId w.db.facts t.facts
    (Fact.of ty x).factId with ⟨f, hf, hid, hput⟩ | ⟨hne, -⟩
  · obtain rfl := honly f hf hid
    simp [Database.fact, hc.facts, hput]
  · exact absurd rfl (hne _ hx)

/-- A success commits one fact of a kind. -/
theorem succeededFacts_unique {v : VerifiedResult} {e : CanonicalCommitEvidence}
    {recovery : Option Recovery} {now : Instant} {f g : Fact}
    (hf : f ∈ succeededFacts v e recovery now) (hg : g ∈ succeededFacts v e recovery now)
    (ht : f.type = g.type) : f = g := by
  cases recovery with
  | none =>
    simp only [succeededFacts, Option.toList_none, List.map_nil, List.append_nil, List.mem_cons,
      List.not_mem_nil, or_false] at hf hg
    rcases hf with rfl | rfl <;> rcases hg with rfl | rfl <;> first | rfl | cases ht
  | some r =>
    simp only [succeededFacts, Option.toList_some, List.map_cons, List.map_nil, List.cons_append,
      List.nil_append, List.mem_cons, List.not_mem_nil, or_false] at hf hg
    rcases hf with rfl | rfl | rfl <;> rcases hg with rfl | rfl | rfl <;> first | rfl | cases ht

/-- **A commit that succeeds writes its evidence.** -/
theorem Legal.successEvidence (hl : Legal sha w i cur t) (hinv : Inv w) (hauth : Authorisation w)
    (hfresh : w.PortIdsFresh) (hcur : w.db.records cur.interactionId = some cur)
    (hc : w.db.Committed t db) (hs : t.interaction.lifecycleState = .succeeded) :
    ∃ p v e, SuccessEvidence db t.interaction p v e := by
  have hw := hl.wellFormed hinv hcur
  have hinv' := hinv.commit hcur hw hc
  have hauth' := hauth.commit hinv hcur hl hc
  have hkind : ∀ {f g}, f ∈ t.facts → g ∈ t.facts → f.factId = g.factId → f.type = g.type :=
    fun hf hg => (hw.may _ hf).type_eq hinv hfresh (hw.may _ hg)
  cases hl with
  | succeed a v preview execution o resultId evidence recovery now audits hid hstate hkey hpast
      hexecution hpreview hcurrent hevidence hown hbacked hload =>
    obtain ⟨hX, hexec, hdigest, hanswers⟩ := hbacked.describes
    have honly : ∀ {f g}, f ∈ succeededFacts (newVerifiedResult a cur execution o resultId now)
        evidence recovery now → g ∈ succeededFacts
          (newVerifiedResult a cur execution o resultId now) evidence recovery now →
        g.factId = f.factId → g = f :=
      fun hf hg hfid => succeededFacts_unique hg hf (hkind hg hf hfid)
    have hv : Fact.of .verifiedResult ((newVerifiedResult a cur execution o resultId now).backedBy
        evidence) ∈ succeededFacts (newVerifiedResult a cur execution o resultId now) evidence
          recovery now := by simp [succeededFacts, Fact.of]
    have he : Fact.of .canonicalCommitEvidence evidence ∈ succeededFacts
        (newVerifiedResult a cur execution o resultId now) evidence recovery now := by
      simp [succeededFacts, Fact.of]
    obtain ⟨p, hp, hppast, hpid⟩ := hinv'.fact_stored (World.commit_portIdsFresh.mpr hfresh)
      .preview (World.commit_past.mpr (.inr hpreview))
    have hterms : preview.SameTerms p :=
      hauth'.sameTerms (World.commit_past.mpr (.inr hpreview)) hppast hpid.symm
    refine ⟨p, (newVerifiedResult a cur execution o resultId now).backedBy evidence, evidence,
      rfl, rfl, ?_, ?_, ?_, ⟨hid, hX⟩, ⟨hexecution, hexec ▸ hexecution⟩, ⟨hevidence, hdigest⟩,
      rfl, ?_⟩
    · simp only [Interaction.succeeded, hcurrent]
      exact hp
    · exact hc.fact .verifiedResult hv fun _ => honly hv
    · exact hc.fact .canonicalCommitEvidence he fun _ => honly he
    · have hreq := hterms.field Preview.canonicalCommitRequired
      exact ⟨fun h => hanswers.required (hreq.trans h),
        fun h => hanswers.notRequired (hreq.trans h)⟩
  | preview =>
    simp only [Interaction.previewed] at hs
    split at hs <;> cases hs
  | confirm =>
    simp only [Interaction.confirmed] at hs
    split at hs <;> cases hs
  | observe =>
    simp only [Interaction.observed] at hs
    split at hs
    · cases hs
    · split at hs <;> cases hs
  | _ => cases hs

end Commit

/-- **A succeeded interaction has its evidence**, under fresh port identifiers. -/
theorem Reachable.successEvidence {d : Deployment} {c : Calls} (h : Reachable d c)
    (hfresh : c.world.PortIdsFresh) {X : String} {r : Interaction}
    (hr : c.world.db.records X = some r) (hs : r.lifecycleState = .succeeded) :
    ∃ p v e, SuccessEvidence c.world.db r p v e := by
  refine h.aggregate (J := fun w => w.PortIdsFresh → ∀ X r, w.db.records X = some r →
    r.lifecycleState = .succeeded → ∃ p v e, SuccessEvidence w.db r p v e) ?_ ?_ ?_ ?_ hfresh X r
    hr hs
  · intro _ X r hr
    simp [World.initial, Database.empty] at hr
  · intro c i cur t db hreach hj hcur hl hc hfresh X r hr hs
    have hinv := hreach.inv
    have hfresh' := World.commit_portIdsFresh.mp hfresh
    rw [World.commit_db, hc.records, hl.interactionId] at hr
    by_cases hX : X = cur.interactionId
    · obtain rfl : t.interaction = r := by simpa [hX] using hr
      exact hl.successEvidence hinv hreach.authorisation hfresh' hcur hc hs
    · rw [Function.update_of_ne hX] at hr
      obtain rfl := (hinv.record_seen hr).1
      obtain ⟨p, v, e, hev⟩ := hj hfresh' _ r hr hs
      have hframe := fact_frame hinv hfresh' (hl.wellFormed hinv hcur) hc hX
      exact ⟨p, v, e, hev.frame hframe⟩
  · intro c a r id now audit key digest hreach hj hshape hnew _ hfresh X r' hr hs
    by_cases hX : X = r.interactionId
    · obtain rfl : r = r' := by simpa [Database.created, hX] using hr
      have hrequested : r.lifecycleState = .requested := by rw [hshape]; rfl
      exact absurd (hrequested.symm.trans hs) (by decide)
    · simp only [World.commit_db, Database.created, Function.update_of_ne hX] at hr
      obtain ⟨p, v, e, hev⟩ := hj (World.commit_portIdsFresh.mp hfresh) X r' hr hs
      exact ⟨p, v, e, hev.frame fun _ _ => rfl⟩
  · intro w w' hj hsame hfresh X r hr hs
    obtain ⟨p, v, e, hev⟩ := hj (hsame.portIdsFresh hfresh) X r (hsame.records ▸ hr) hs
    exact ⟨p, v, e, hev.frame fun ty fid => by simp only [Database.fact, hsame.facts]⟩

/-- **Success needs evidence**, and a run leaves an interaction that ended as it is. -/
theorem success_needs_evidence {d : Deployment} {c c' : Calls} (h : Reachable d c)
    (hr : Reaches handler (start d) c c') (hfresh : c.world.PortIdsFresh) :
    (∀ X r, c.world.db.records X = some r → r.lifecycleState = .succeeded →
      ∃ p v e, SuccessEvidence c.world.db r p v e) ∧
    ∀ X r, c.world.db.records X = some r →
      r.lifecycleState ∈ [.succeeded, .failed, .cancelled, .expired] →
      c'.world.db.records X = some r := by
  refine ⟨fun X r hX hs => h.successEvidence hfresh hX hs, fun X r hX ht => ?_⟩
  obtain ⟨rfl, hseen⟩ := h.inv.record_seen hX
  have h' : Reachable d c' := h.trans hr
  have hseen' := h.seen hr hseen
  obtain ⟨cur, hcur, -⟩ := h'.inv.seen_stored hseen'
  have hterminal : r.lifecycleState.terminal = true := by
    simp only [List.mem_cons, List.not_mem_nil, or_false] at ht
    rcases ht with ht | ht | ht | ht <;> rw [ht] <;> rfl
  rw [hcur, h'.terminal hseen' hcur hterminal]

namespace Scenario

/-- The evidence the canonical commit authority answers with. -/
def commitEvidence : CanonicalCommitEvidence :=
  { canonicalCommitEvidenceId := "commit", interactionId := "int_1", executionId := "exe_1"
    previewId := "prv_1", scope := ⟨"tenant", "workspace", "default"⟩, policyReference := "policy"
    commitRequired := true, outcome := "COMMITTED", canonicalObjectId := some "object"
    canonicalRevision := some 1, evidenceDigest := "digest", committedAt := 2 }

/-- The call 3 verifies the execution and commits the success. -/
def verified : List Step :=
  ([.arrive (.verify (revisionArgs "u" 4 "verify"))] : List Step) ++ plain 3 3 ++
    ([.act 3 (.verification (.ok { status := .verified, evidenceDigest := "digest" }))] :
      List Step) ++
    plain 3 1 ++ ([.act 3 (.instant 2), .act 3 (.text "1"),
      .act 3 (.commit (.ok commitEvidence))] : List Step) ++ audited 3 ["b3"] ++ plain 3 9

/-- An interaction previewed, executed and verified. -/
def succeeded : List Step :=
  created ++ previewed false false ++ intended 2 "u" 2 0 [] ++ executed 2 ++ observed 2 ++ verified

/-- The call 4 tries to cancel it. -/
def cancelling : List Step :=
  ([.arrive (.cancel (revisionArgs "u" 5 "cancel"))] : List Step) ++ plain 4 2

end Scenario

/-- A success with a canonical commit, which a later call does not cancel. -/
theorem success_needs_evidence_scenario : ∃ (c c' : Calls) (r : Interaction),
    Reachable Scenario.deployment c ∧ Reaches handler (start Scenario.deployment) c c' ∧
    c.world.PortIdsFresh ∧ c.world.db.records "int_1" = some r ∧ r.lifecycleState = .succeeded ∧
    (∃ p v e, SuccessEvidence c.world.db r p v e) ∧ c'.world.db.records "int_1" = some r := by
  have h := Scenario.reachable Scenario.succeeded
  have hrun : (run handler (start Scenario.deployment) (idle World.initial)
      (Scenario.succeeded ++ Scenario.cancelling)).isSome := by decide +kernel
  have hr := Scenario.reaches hrun
  have hfresh : (Scenario.after Scenario.succeeded).world.PortIdsFresh := by decide +kernel
  have hstate : ((Scenario.after Scenario.succeeded).world.db.records "int_1").map
      Interaction.lifecycleState = some .succeeded := by decide +kernel
  obtain ⟨r, hrec, hs⟩ := Option.map_eq_some_iff.mp hstate
  obtain ⟨hevidence, habsorbing⟩ := success_needs_evidence h hr hfresh
  exact ⟨_, _, r, h, hr, hfresh, hrec, hs, hevidence _ r hrec hs,
    habsorbing _ r hrec (by simp [hs])⟩

end Interactions

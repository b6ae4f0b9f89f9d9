import AiLabOs.Interaction.CommitLaw

/-!
# Trusted interactions: trusted evidence is consumed once

An evidence envelope and a confirmation challenge are tokens: stored unused, consumed by the one
commit that confirms what they name, and left alone from then on. The two tables are read as one
kind of thing, so the argument is made once.

## Main definitions

* `TokenTable`: a table of tokens, and when a commit has spent one
* `TokenTable.Moves`: what a step may do to a token
* `evidenceTokens`, `challengeTokens`: the two tables
* `Commit.Consumes`: a commit that confirms the Preview its consumption names
* `ConsumptionLaw`: the law of one table, in one configuration

## Main results

* `evidence_consumed_once`
-/

namespace Interactions

open Process

/-! ## Tokens -/

/-- A table of tokens, the commits that spend them, and the token a commit asks for. -/
structure TokenTable where
  Row : Type
  rows : Database → String → Option Row
  spent : Row → Prop
  spentBy : String → Row → Commit → Prop
  asks : Commit → Option String

namespace TokenTable

/-- **What a step may do to a token**: nothing, store it unspent, or spend it in the commit it
makes. -/
inductive Moves (T : TokenTable) (id : String) (w w' : World) : Prop
  | keep (h : T.rows w'.db id = T.rows w.db id)
  | store (row : T.Row) (hnone : T.rows w.db id = none) (hrow : T.rows w'.db id = some row)
      (hunspent : ¬T.spent row)
  | spend (row row' : T.Row) (cm : Commit) (hrow : T.rows w.db id = some row)
      (hunspent : ¬T.spent row) (hrow' : T.rows w'.db id = some row') (hspent : T.spent row')
      (hcommit : w'.commits = cm :: w.commits) (hby : T.spentBy id row' cm)

/-- The tokens move by these steps, and a commit spends the token it asks for. -/
structure Sound (T : TokenTable) (d : Deployment) : Prop where
  moves : ∀ {c : Calls} {i log w'} (id : String), Reachable d c → Effect d.sha i log c.world w' →
    T.Moves id c.world w'
  spends : ∀ {c : Calls} {i cur t db id}, Reachable d c → Legal d.sha c.world i cur t →
    c.world.db.Committed t db → T.asks t.commit = some id →
    (∃ row, T.rows c.world.db id = some row ∧ ¬T.spent row) ∧
      ∃ row, T.rows db id = some row ∧ T.spent row
  unasked : ∀ {r : Interaction} {key digest}, T.asks (r.creation key digest) = none

/-- The history of the tokens: what was asked for is spent, and each was asked for once. -/
structure Spent (T : TokenTable) (w : World) : Prop where
  asked : ∀ cm ∈ w.commits, ∀ id, T.asks cm = some id →
    ∃ row, T.rows w.db id = some row ∧ T.spent row
  once : w.commits.Pairwise fun cm cm' => ∀ id, T.asks cm = some id → T.asks cm' ≠ some id
  by_commit : ∀ id row, T.rows w.db id = some row → T.spent row →
    ∃ cm ∈ w.commits, T.spentBy id row cm

variable {T : TokenTable} {d : Deployment} {c c' : Calls}

/-- A spent token stays as it is. -/
theorem Moves.spent_kept {w w' : World} {id : String} (h : T.Moves id w w') {row : T.Row}
    (hrow : T.rows w.db id = some row) (hspent : T.spent row) : T.rows w'.db id = some row := by
  cases h with
  | keep h => exact h.trans hrow
  | store row' hnone => exact absurd (hnone.symm.trans hrow) (by simp)
  | spend row' row'' cm hrow' hunspent =>
    obtain rfl : row' = row := Option.some.inj (hrow'.symm.trans hrow)
    exact absurd hspent hunspent

/-- What one step adds to the history of the tokens. -/
theorem Spent.moves {w w' : World} (hs : T.Spent w)
    (hm : ∀ id, T.Moves id w w') (hcommits : w'.commits = w.commits ∨ ∃ cm,
      w'.commits = cm :: w.commits ∧ ∀ id, T.asks cm = some id →
        (∃ row, T.rows w.db id = some row ∧ ¬T.spent row) ∧
          ∃ row, T.rows w'.db id = some row ∧ T.spent row) : T.Spent w' := by
  have hold : ∀ cm ∈ w.commits, ∀ id, T.asks cm = some id →
      ∃ row, T.rows w'.db id = some row ∧ T.spent row := by
    intro cm hc id hid
    obtain ⟨row, hrow, hspent⟩ := hs.asked cm hc id hid
    exact ⟨row, (hm id).spent_kept hrow hspent, hspent⟩
  refine ⟨fun cm hc id hid => ?_, ?_, fun id row hrow hspent => ?_⟩
  · rcases hcommits with heq | ⟨cm', heq, hnew⟩
    · exact hold cm (heq ▸ hc) id hid
    · rcases List.mem_cons.mp (heq ▸ hc) with rfl | hc
      · exact (hnew id hid).2
      · exact hold cm hc id hid
  · rcases hcommits with heq | ⟨cm', heq, hnew⟩
    · exact heq ▸ hs.once
    · rw [heq]
      refine List.pairwise_cons.mpr ⟨fun cm hc id hid hid' => ?_, hs.once⟩
      -- the token was unspent when the new commit asked for it
      obtain ⟨⟨row, hrow, hunspent⟩, -⟩ := hnew id hid
      obtain ⟨row', hrow', hspent⟩ := hs.asked cm hc id hid'
      obtain rfl : row = row' := Option.some.inj (hrow.symm.trans hrow')
      exact hunspent hspent
  · have hsuffix : ∀ cm ∈ w.commits, cm ∈ w'.commits := by
      intro cm hc
      rcases hcommits with heq | ⟨cm', heq, -⟩
      · exact heq ▸ hc
      · exact heq ▸ List.mem_cons_of_mem _ hc
    cases hm id with
    | keep h =>
      obtain ⟨cm, hc, hby⟩ := hs.by_commit id row (h ▸ hrow) hspent
      exact ⟨cm, hsuffix cm hc, hby⟩
    | store row' hnone hrow' hunspent =>
      obtain rfl : row' = row := Option.some.inj (hrow'.symm.trans hrow)
      exact absurd hspent hunspent
    | spend row₀ row' cm hrow₀ hunspent hrow' hspent' hcommit hby =>
      obtain rfl : row' = row := Option.some.inj (hrow'.symm.trans hrow)
      exact ⟨cm, hcommit ▸ List.mem_cons_self, hby⟩

/-- **The history of the tokens** in every reachable configuration. -/
theorem Sound.spent (hT : T.Sound d) (hempty : ∀ id, T.rows .empty id = none)
    (h : Reachable d c) : T.Spent c.world := by
  refine h.invariant (J := T.Spent) ⟨?_, List.Pairwise.nil, ?_⟩ fun hc hj he => ?_
  · intro cm hc
    cases hc
  · intro id row hrow
    exact absurd ((hempty id).symm.trans hrow) (by simp)
  · refine hj.moves (fun id => hT.moves id hc he) ?_
    rcases he.aggregate with ⟨cur, t, db, hcur, hlegal, hcm, rfl⟩ |
      ⟨a, r, id, now, audit, -, -, -, rfl⟩ | hsame
    · exact .inr ⟨t.commit, rfl, fun id hid => hT.spends hc hlegal hcm hid⟩
    · refine .inr ⟨_, rfl, fun id hid => ?_⟩
      rw [hT.unasked] at hid
      cases hid
    · exact .inl hsame.commits

/-- **A spent token stays as it is**, whatever happens. -/
theorem Sound.kept (hT : T.Sound d) (h : Reachable d c) (hr : Reaches handler (start d) c c')
    {id : String} {row : T.Row} (hrow : T.rows c.world.db id = some row) (hspent : T.spent row) :
    T.rows c'.world.db id = some row := by
  refine hr.induction (motive := fun c => T.rows c.world.db id = some row) hrow
    fun d ev d' hd ih he => ?_
  rcases step_cases he with ⟨k, -, rfl⟩ | ⟨i, input, k, log, e, next, r, w, -, hi, hact, rfl⟩
  · exact ih
  · have hd' : Reachable _ d := h.trans hd
    have heffect := pre.effect (hd'.allSafe.meets_pre hi) hact
    exact (hT.moves id hd' heffect).spent_kept ih hspent

end TokenTable

/-! ## Confirmations that consume -/

/-- A confirmation that consumes trusted evidence for the Preview it confirms. -/
structure Commit.Consumes (cm : Commit) (u : TrustedEvidenceConsumption) : Prop where
  operation : cm.operation = .confirm
  consumption : cm.consumption = some u
  confirms : ∃ f : Confirmation, .confirmation f ∈ cm.facts ∧
    f.interactionId = cm.interaction.interactionId ∧ f.previewId = u.previewId ∧
    f.previewRevision = u.previewRevision

theorem Legal.consumes {sha : Sha256} {w : World} {i : ℕ} {cur : Interaction} {t : Transition}
    (h : Legal sha w i cur t) {u : TrustedEvidenceConsumption} (hu : t.consumption = some u) :
    t.commit.Consumes u := by
  cases h with
  | confirm a preview confirmationId now audits hid hrev hstate hpast hpid hprev hcurrent hactor
      hlive hconsume =>
    obtain ⟨hup, hur⟩ := hconsume u hu
    exact ⟨rfl, hu, newConfirmation a cur preview confirmationId now, by simp [Transition.commit],
      hid, hpid.trans hup.symm, hprev.symm.trans hur.symm⟩
  | _ => cases hu

/-- The row of evidence that a commit consumed. -/
def EvidenceRow.ConsumedBy (id : String) (row : EvidenceRow) (cm : Commit) : Prop :=
  ∃ u, cm.Consumes u ∧ u.evidenceId = id ∧
    row.consumedInteractionId = some cm.interaction.interactionId ∧
    row.consumedPreviewId = some u.previewId ∧
    row.consumedPreviewRevision = some u.previewRevision

/-- The row of a challenge that a commit consumed. -/
def ChallengeRow.ConsumedBy (id : String) (row : ChallengeRow) (cm : Commit) : Prop :=
  ∃ u, cm.Consumes u ∧ u.challengeId = id ∧ row.challengeId = id ∧
    row.interactionId = cm.interaction.interactionId ∧ row.previewId = u.previewId ∧
    row.previewRevision = u.previewRevision ∧ cm.expectedRevision = some row.interactionRevision

/-- The row of a challenge, by its primary key. -/
def Database.challenge (db : Database) (id : String) : Option ChallengeRow :=
  db.challenges.find? fun ch => ch.challengeId = id

/-- The table of the evidence envelopes. -/
def evidenceTokens : TokenTable where
  Row := EvidenceRow
  rows db id := db.evidence id
  spent row := row.consumptionStatus = .consumed
  spentBy := EvidenceRow.ConsumedBy
  asks cm := cm.consumption.map TrustedEvidenceConsumption.evidenceId

/-- The table of the confirmation challenges. -/
def challengeTokens : TokenTable where
  Row := ChallengeRow
  rows := Database.challenge
  spent row := row.status = .consumed
  spentBy := ChallengeRow.ConsumedBy
  asks cm := cm.consumption.map TrustedEvidenceConsumption.challengeId

section Evidence

variable {d : Deployment}

theorem unused_not_consumed {row : EvidenceRow} (h : row.consumptionStatus = .unused) :
    ¬row.consumptionStatus = .consumed := by
  rw [h]
  decide

theorem evidenceTokens_sound : evidenceTokens.Sound d where
  moves {c i log w'} id _ he := by
    cases he with
    | commit cur t db hcur hlegal hc =>
      cases hu : t.consumption with
      | none => exact .keep (congrFun (hc.keeps hu).1 id)
      | some u =>
        obtain ⟨row, hrow, hunused, -, -, hdb, -⟩ := hc.consumes u hu
        by_cases hid : id = u.evidenceId
        · subst hid
          refine .spend row (Database.consumedEvidence row t u) t.commit hrow
            (unused_not_consumed hunused) ?_ rfl rfl ⟨u, hlegal.consumes hu, rfl, rfl, rfl, rfl⟩
          exact (congrFun hdb u.evidenceId).trans (Function.update_self ..)
        · exact .keep ((congrFun hdb id).trans (Function.update_of_ne hid ..))
    | ingress db h =>
      cases h with
      | evidence id' row hnew hunused =>
        by_cases hid : id = id'
        · subst hid
          exact .store row hnew (Function.update_self ..) (unused_not_consumed hunused)
        · exact .keep (Function.update_of_ne hid ..)
      | challenge row hnew hactive => exact .keep rfl
    | _ => exact .keep rfl
  spends {c i cur t db id} _ hlegal hc hasks := by
    obtain ⟨u, hu, rfl⟩ := Option.map_eq_some_iff.mp hasks
    obtain ⟨row, hrow, hunused, -, -, hdb, -⟩ := hc.consumes u hu
    exact ⟨⟨row, hrow, unused_not_consumed hunused⟩, Database.consumedEvidence row t u,
      (congrFun hdb u.evidenceId).trans (Function.update_self ..), rfl⟩
  unasked := rfl

end Evidence

/-! ## Challenges -/

section Challenges

variable {d : Deployment} {c : Calls}

/-- The challenge after the updates of a transition. -/
def consumeChallenge (t : Transition) (u : TrustedEvidenceConsumption) (ch : ChallengeRow) :
    ChallengeRow :=
  if Database.challengeMatches t u ch then
    { ch with status := .consumed, consumedAt := some u.consumedAt }
  else ch

theorem consumeChallenge_id (t : Transition) (u : TrustedEvidenceConsumption) (ch : ChallengeRow) :
    (consumeChallenge t u ch).challengeId = ch.challengeId := by
  unfold consumeChallenge
  split <;> rfl

/-- Challenges have different identifiers. -/
theorem Reachable.challenge_ids (h : Reachable d c) :
    c.world.db.challenges.Pairwise fun ch ch' => ch.challengeId ≠ ch'.challengeId := by
  refine h.invariant (J := fun w => w.db.challenges.Pairwise fun ch ch' =>
    ch.challengeId ≠ ch'.challengeId) List.Pairwise.nil fun hc hj he => ?_
  cases he with
  | commit cur t db hcur hlegal hcm =>
    cases hu : t.consumption with
    | none => exact ((hcm.keeps hu).2).symm ▸ hj
    | some u =>
      obtain ⟨-, -, -, -, -, -, hdb⟩ := hcm.consumes u hu
      change db.challenges.Pairwise _
      rw [hdb]
      refine List.Pairwise.map (consumeChallenge t u) (fun ch ch' hne => ?_) hj
      rwa [consumeChallenge_id, consumeChallenge_id]
  | ingress db h =>
    cases h with
    | evidence id row hnew hunused => exact hj
    | challenge row hnew hactive =>
      refine List.pairwise_append.mpr ⟨hj, List.pairwise_singleton _ _, fun ch hch ch' hch' => ?_⟩
      obtain rfl := List.mem_singleton.mp hch'
      exact hnew ch hch
  | _ => exact hj

/-- A stored challenge is the one under its identifier. -/
theorem challenge_of_mem {l : List ChallengeRow}
    (h : l.Pairwise fun ch ch' => ch.challengeId ≠ ch'.challengeId) {ch : ChallengeRow}
    (hch : ch ∈ l) : l.find? (fun x => x.challengeId = ch.challengeId) = some ch := by
  induction h with
  | nil => cases hch
  | @cons a l hne _ ih =>
    rcases List.mem_cons.mp hch with rfl | hmem
    · simp
    · rw [List.find?_cons_of_neg (by simpa using hne ch hmem)]
      exact ih hmem

/-- The rows after a transition are the updated ones. -/
theorem challenge_map {db : Database} {l : List ChallengeRow} {t : Transition}
    {u : TrustedEvidenceConsumption} (h : db.challenges = l.map (consumeChallenge t u))
    (id : String) :
    db.challenge id = (l.find? fun ch => ch.challengeId = id).map (consumeChallenge t u) := by
  rw [Database.challenge, h, List.find?_map]
  congr 2
  funext ch
  simp [consumeChallenge_id]

theorem challengeTokens_sound : challengeTokens.Sound d where
  moves {c i log w'} id h he := by
    cases he with
    | commit cur t db hcur hlegal hc =>
      cases hu : t.consumption with
      | none =>
        refine .keep ?_
        exact congrArg (List.find? fun ch : ChallengeRow => ch.challengeId = id) (hc.keeps hu).2
      | some u =>
        obtain ⟨-, -, -, -, -, -, hdb⟩ := hc.consumes u hu
        have hrows := challenge_map hdb id
        cases hch : c.world.db.challenge id with
        | none =>
          refine .keep (hrows.trans ?_)
          rw [show (c.world.db.challenges.find? fun ch => ch.challengeId = id) = none from hch]
          exact hch.symm
        | some ch =>
          rw [show (c.world.db.challenges.find? fun ch => ch.challengeId = id) = some ch from hch]
            at hrows
          have hid : ch.challengeId = id := by simpa using List.find?_some hch
          by_cases hmatch : Database.challengeMatches t u ch = true
          · have hm := hmatch
            simp only [Database.challengeMatches, Bool.and_eq_true, decide_eq_true_eq] at hm
            obtain ⟨⟨⟨⟨⟨hcid, hX⟩, hp⟩, hrev⟩, hexp⟩, hactive⟩ := hm
            refine .spend ch (consumeChallenge t u ch) t.commit hch ?_ hrows ?_ rfl
              ⟨u, hlegal.consumes hu, hcid.symm.trans hid, ?_⟩
            · change ¬ch.status = .consumed
              rw [hactive]
              decide
            · simp [challengeTokens, consumeChallenge, hmatch]
            · simp [consumeChallenge, hmatch, hid, hX, hp, hrev, hexp, Transition.commit]
          · have hsame : consumeChallenge t u ch = ch := by simp [consumeChallenge, hmatch]
            exact .keep (hrows.trans (by rw [Option.map_some, hsame]; exact hch.symm))
    | ingress db h =>
      cases h with
      | evidence id row hnew hunused => exact .keep rfl
      | challenge row hnew hactive =>
        by_cases hid : row.challengeId = id
        · subst hid
          have hnone : c.world.db.challenge row.challengeId = none :=
            List.find?_eq_none.mpr fun ch hch => by simpa using hnew ch hch
          refine .store row hnone ?_ ?_
          · change List.find? _ (c.world.db.challenges ++ [row]) = _
            rw [Database.challenge] at hnone
            rw [List.find?_append, hnone]
            simp
            rfl
          · change ¬row.status = .consumed
            rw [hactive]
            decide
        · refine .keep ?_
          change List.find? _ (c.world.db.challenges ++ [row]) = _
          rw [List.find?_append]
          simp [Database.challenge, challengeTokens, hid]
    | _ => exact .keep rfl
  spends {c i cur t db id} h hlegal hc hasks := by
    obtain ⟨u, hu, rfl⟩ := Option.map_eq_some_iff.mp hasks
    obtain ⟨-, -, -, -, hcount, -, hdb⟩ := hc.consumes u hu
    -- exactly one challenge matches, and it is the one under its identifier
    obtain ⟨ch, hmem, hmatch⟩ := List.countP_pos_iff.mp (hcount ▸ Nat.one_pos)
    have hm := hmatch
    simp only [Database.challengeMatches, Bool.and_eq_true, decide_eq_true_eq] at hm
    have hfind := challenge_of_mem h.challenge_ids hmem
    rw [hm.1.1.1.1.1] at hfind
    refine ⟨⟨ch, hfind, ?_⟩, consumeChallenge t u ch, ?_, ?_⟩
    · change ¬ch.status = .consumed
      rw [hm.2]
      decide
    · exact (challenge_map hdb u.challengeId).trans (by rw [hfind]; rfl)
    · simp [challengeTokens, consumeChallenge, hmatch]
  unasked := rfl

end Challenges

/-! ## The law -/

/-- **The law of a table of tokens**, in one configuration. -/
structure ConsumptionLaw (T : TokenTable) (d : Deployment) (c : Calls) : Prop where
  /-- A step leaves a token alone, stores it unspent, or spends it in the commit it makes. -/
  step : ∀ ev c', Process.step handler (start d) c ev = some c' → ∀ id,
    T.Moves id c.world c'.world
  /-- A spent token stays as it is. -/
  kept : ∀ c' id row, Reaches handler (start d) c c' → T.rows c.world.db id = some row →
    T.spent row → T.rows c'.world.db id = some row
  /-- The commit that spent it is in the history, and no other one asked for it. -/
  once : ∀ id row, T.rows c.world.db id = some row → T.spent row →
    (∃ cm ∈ c.world.commits, T.spentBy id row cm) ∧
      (c.world.commits.filter fun cm => T.asks cm = some id).length ≤ 1

theorem TokenTable.Sound.law {T : TokenTable} {d : Deployment} {c : Calls} (hT : T.Sound d)
    (hempty : ∀ id, T.rows .empty id = none) (h : Reachable d c) : ConsumptionLaw T d c where
  step ev c' he id := by
    rcases step_cases he with ⟨k, -, rfl⟩ | ⟨i, input, k, log, e, next, r, w, -, hi, hact, rfl⟩
    · exact .keep rfl
    · exact hT.moves id h (pre.effect (h.allSafe.meets_pre hi) hact)
  kept _ _ _ hr hrow hspent := hT.kept h hr hrow hspent
  once id row hrow hspent := by
    have hs := hT.spent hempty h
    refine ⟨hs.by_commit id row hrow hspent, length_filter_le_one (hs.once.imp fun hne hboth => ?_)⟩
    simp only [decide_eq_true_eq] at hboth
    exact hne id hboth.1 hboth.2

/-- **Trusted evidence is consumed once**: evidence and challenges obey the law of tokens, and a
transition that does not commit under all of its guards changes no table. -/
theorem evidence_consumed_once {d : Deployment} {c : Calls} (h : Reachable d c) :
    ConsumptionLaw evidenceTokens d c ∧ ConsumptionLaw challengeTokens d c ∧
    ∀ i k log t next input c', c.calls[i]? = some ⟨k, log, .await (.transition t) next⟩ →
      step handler (start d) c (.act i input) = some c' →
      (c'.world.db = c.world.db ∧ c'.world.commits = c.world.commits) ∨
        (c.world.db.Committed t c'.world.db ∧ c'.world.commits = t.commit :: c.world.commits) := by
  refine ⟨evidenceTokens_sound.law (fun _ => rfl) h, challengeTokens_sound.law (fun _ => rfl) h, ?_⟩
  intro i k log t next input c' hi he
  rcases step_cases he with ⟨k, hev, -⟩ | ⟨j, _, k', log', e, next', r, w, hev, hj, hact, rfl⟩
  · cases hev
  · cases hev
    obtain ⟨-, -, he⟩ : k = k' ∧ log = log' ∧
        Program.await (.transition t) next = .await e next' := by simpa using hi.symm.trans hj
    cases he
    cases input <;> simp only [handler, reduceCtorEq] at hact
    split at hact
    · obtain ⟨-, rfl⟩ : _ ∧ _ := by simpa using hact
      exact .inl ⟨rfl, rfl⟩
    · rename_i db hok
      obtain ⟨-, rfl⟩ : _ ∧ _ := by simpa using hact
      exact .inr ⟨Database.transition_ok hok, rfl⟩

namespace Scenario

/-- What the shell binding resolves to. -/
def context : ResolvedShellContext := ⟨workspace "u", "u", "binding", "evidence"⟩

/-- What the policy resolves to: a Preview that only requires a Confirmation. -/
def plan : ResolvedOperationPlan :=
  { canonicalOperation := "op", policyReference := "policy", riskLevel := "low"
    normalizedParameters := ⟨"{}"⟩, mutationSummary := "summary" }

/-- The owner's message, as the ingress signed it. -/
def envelope : Envelope :=
  ⟨"evidence", "key", "wecom", ⟨"account", "owner", "conversation"⟩, some 60, "owner_dm_text",
    "确认 AB-CD", some 100⟩

/-- The challenge the bridge stored. -/
def challenge : ChallengeRow :=
  ⟨"pch_1", "int_1", "prv_1", 1, 2, Sha256.reference.hexdigest [("", .str "确认 AB-CD")], 51,
    300000051, .active, none⟩

/-- The bridge previews, the owner answers the challenge, and the bridge confirms. -/
def answered : List Step :=
  ([.arrive (.bridgePreview ⟨"{}"⟩ "key"), .act 0 (.binding (.ok context)),
    .act 0 (.plan (.ok plan)),
    .act 0 (.instant 0), .act 0 (.text "1")] : List Step) ++ audited 0 ["a0"] ++ plain 0 3 ++
    ([.act 0 (.instant 50)] : List Step) ++ plain 0 1 ++ ([.act 0 (.text "1")] : List Step) ++
    audited 0 ["a1", "a2", "a3", "a4"] ++ plain 0 17 ++
    ([.act 0 (.binding (.ok context)), .act 0 (.binding (.ok context))] : List Step) ++ plain 0 8 ++
    ([.act 0 (.text "ab"), .act 0 (.text "cd"), .act 0 (.instant 50),
      .act 0 (.text "1")] : List Step) ++
    plain 0 1 ++
    ([.arrive (.acceptEvidence "wire"), .act 1 (.envelope (.ok envelope)),
      .act 1 (.instant 60)] : List Step) ++
    plain 1 1 ++
    ([.arrive (.bridgeConfirm ⟨"int_1", 2, "evidence", "确认 AB-CD", "confirm"⟩),
      .act 2 (.binding (.ok context))] : List Step) ++ plain 2 9 ++
    ([.act 2 (.challenge challenge), .act 2 (.envelope (.ok envelope)),
      .act 2 (.instant 70)] : List Step) ++
    plain 2 3 ++ ([.act 2 (.instant 70), .act 2 (.text "1")] : List Step) ++ audited 2 ["a5"] ++
      plain 2 1

end Scenario

/-- A confirmation that consumed its evidence and its challenge. -/
theorem evidence_consumed_once_scenario : ∃ c : Calls, Reachable Scenario.deployment c ∧
    (c.world.db.evidence "evidence").map EvidenceRow.consumptionStatus = some .consumed ∧
    (c.world.db.challenge "pch_1").map ChallengeRow.status = some .consumed ∧
    ConsumptionLaw evidenceTokens Scenario.deployment c ∧
    ConsumptionLaw challengeTokens Scenario.deployment c :=
  have h := Scenario.reachable Scenario.answered
  have hlaw := evidence_consumed_once h
  ⟨_, h, by decide +kernel, by decide +kernel, hlaw.1, hlaw.2.1⟩

end Interactions

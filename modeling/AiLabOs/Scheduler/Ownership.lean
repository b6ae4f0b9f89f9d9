import AiLabOs.Process.Conditioned
import AiLabOs.Scheduler.Fencing

/-!
# Scheduler: what a claim holds fast

While a job is under a claim, only its owner and a release change what decides about its next
attempt; a renewal moves the expiry alone. So the job a runtime has in memory since it claimed it
agrees with the row as long as the row has its token.

## Main definitions

* `SameTerms`: two states of a job with the same trigger and counters
* `Owns`: the row under a token agrees with a job in memory
* `ClaimedBy`: a call has claimed a job

## Main results

* `held_row`: a row under a claim was there before an action, with the same terms
* `finalize_held`: a settlement under the token of the row goes through
* `owns_of_reaches`: a job that was claimed agrees with its row until the claim is settled
-/

namespace Scheduler

open Process

/-- Two states of a job that differ neither in its trigger nor in its counters. -/
structure SameTerms (a b : Job) : Prop where
  id : a.id = b.id
  trigger : a.trigger = b.trigger
  maxRetries : a.maxRetries = b.maxRetries
  retryCount : a.retryCount = b.retryCount
  runCount : a.runCount = b.runCount

theorem SameTerms.refl (job : Job) : SameTerms job job := ⟨rfl, rfl, rfl, rfl, rfl⟩

theorem SameTerms.trans {a b c : Job} (h : SameTerms a b) (h' : SameTerms b c) : SameTerms a c :=
  ⟨h.id.trans h'.id, h.trigger.trans h'.trigger, h.maxRetries.trans h'.maxRetries,
    h.retryCount.trans h'.retryCount, h.runCount.trans h'.runCount⟩

/-- The row under a token agrees with a job in memory. -/
def Owns (db : Database) (job : Job) (token : String) : Prop :=
  ∀ row ∈ db.jobs, row.claimToken = some token → SameTerms job row

section Rows

variable {w w' : World} {token : String}

/-- A row under a claim, among the jobs of one table after the update of another. -/
theorem held_update {hit : Job → Bool} {f : Job → Job} {jobs : List Job}
    (hkeep : ∀ row, hit row = true → (f row).claimToken = some token →
      row.claimToken = some token ∧ SameTerms row (f row)) {row' : Job}
    (hrow' : row' ∈ Table.update hit f jobs) (htoken : row'.claimToken = some token) :
    ∃ row ∈ jobs, row.claimToken = some token ∧ SameTerms row row' := by
  obtain ⟨row, hrow, rfl⟩ := Table.mem_update.mp hrow'
  split at htoken
  · rename_i hhit
    rw [if_pos hhit]
    exact ⟨row, hrow, hkeep row hhit htoken⟩
  · rename_i hhit
    rw [if_neg hhit]
    exact ⟨row, hrow, htoken, .refl row⟩

/-- **A row under a claim** that was made before an action was there before it, with the same
terms. -/
theorem held_row {i : ℕ} {log : Log Action Action.Reply} {e : Action} {input : Input} {r : e.Reply}
    (hinv : Inv w) (hpre : pre i log e w) (hr : handler i e input w = some (r, w'))
    (hclaim : ∃ claim ∈ w.claims, claim.token = token) {row' : Job} (hrow' : row' ∈ w'.db.jobs)
    (htoken : row'.claimToken = some token) :
    ∃ row ∈ w.db.jobs, row.claimToken = some token ∧ SameTerms row row' := by
  -- a row whose token an update takes away is not the one
  have hfreed : ∀ {hit : Job → Bool} {f : Job → Job}, (∀ row, (f row).claimToken = none) →
      row' ∈ Table.update hit f w.db.jobs →
      ∃ row ∈ w.db.jobs, row.claimToken = some token ∧ SameTerms row row' := by
    intro hit f hnone hmem
    refine held_update (fun row _ ht => ?_) hmem htoken
    rw [hnone row] at ht
    cases ht
  -- nor one that an update asks to have none
  have hunheld : ∀ {hit : Job → Bool} {f : Job → Job}, (∀ row, hit row = true →
      row.claimToken = none) → (∀ row, (f row).claimToken = row.claimToken) →
      row' ∈ Table.update hit f w.db.jobs →
      ∃ row ∈ w.db.jobs, row.claimToken = some token ∧ SameTerms row row' := by
    intro hit f hnone hsame hmem
    refine held_update (fun row hhit ht => ?_) hmem htoken
    rw [hsame row, hnone row hhit] at ht
    cases ht
  have hstays : w' = w → ∃ row ∈ w.db.jobs, row.claimToken = some token ∧ SameTerms row row' := by
    rintro rfl
    exact ⟨row', hrow', htoken, .refl row'⟩
  cases e with
  | now =>
    cases input <;> simp only [handler, Option.some.injEq, Prod.mk.injEq, reduceCtorEq] at hr
    exact hstays hr.2.symm
  | newId =>
    cases input <;> simp only [handler, Option.some.injEq, Prod.mk.injEq, reduceCtorEq] at hr
    exact hstays hr.2.symm
  | execute job run =>
    cases input <;> simp only [handler, reduceCtorEq] at hr
    split at hr
    · cases hr
      exact hstays rfl
    · cases hr
  | saveJob job =>
    cases input <;> simp only [handler, reduceCtorEq] at hr
    split at hr
    · cases hr
      exact hstays rfl
    · rename_i db hok
      cases hr
      unfold Database.saveJob at hok
      split at hok
      · cases hok
      · cases hok
        rcases List.mem_append.mp hrow' with hrow' | hrow'
        · exact ⟨row', hrow', htoken, .refl row'⟩
        · rw [List.mem_singleton.mp hrow', hpre.token] at htoken
          cases htoken
  | claimJob jobId now expiresAt =>
    cases input <;> simp only [handler, reduceCtorEq] at hr
    rename_i ids
    split at hr
    · rename_i hfresh
      split at hr
      · cases hr
        exact hstays rfl
      · rename_i db hok
        cases hr
        rcases claimJob_ok hinv.jobs hok with ⟨-, rfl⟩ | ⟨row, -, -, -, hsome, -⟩
        · exact ⟨row', hrow', htoken, .refl row'⟩
        · cases hsome
      · rename_i job db hok
        cases hr
        rcases claimJob_ok hinv.jobs hok with ⟨hnone, -⟩ | ⟨row, hrow, -, -, -, rfl⟩
        · cases hnone
        · rcases Table.mem_put.mp hrow' with ⟨rfl, -⟩ | ⟨hrow', -⟩
          · -- the new token is not that of an earlier claim
            obtain ⟨claim, hclaim, hct⟩ := hclaim
            exact absurd (hct.trans (Option.some.inj htoken).symm) (hfresh.1 claim hclaim)
          · exact ⟨row', hrow', htoken, .refl row'⟩
    · cases hr
  | finalizeClaim job run token' =>
    cases input <;> simp only [handler, reduceCtorEq] at hr
    split at hr
    · cases hr
      exact hstays rfl
    · rename_i db hok
      cases hr
      unfold Database.finalizeClaim at hok
      dsimp only at hok
      split at hok
      · cases hok
      · split at hok
        · cases hok
        · cases hok
          exact hfreed (fun _ => rfl) hrow'
  | renewClaim jobId token' expiresAt now =>
    cases input <;> simp only [handler, Option.some.injEq, Prod.mk.injEq, reduceCtorEq] at hr
    rw [← hr.2] at hrow'
    exact held_update (f := Database.renewedRow expiresAt now)
      (fun row _ ht => ⟨ht, rfl, rfl, rfl, rfl, rfl⟩) hrow' htoken
  | releaseExpiredClaims now retryAt =>
    cases input <;> simp only [handler, Option.some.injEq, Prod.mk.injEq, reduceCtorEq] at hr
    rw [← hr.2] at hrow'
    exact hfreed (fun _ => rfl) hrow'
  | pauseJob jobId revision now =>
    cases input <;> simp only [handler, Option.some.injEq, Prod.mk.injEq, reduceCtorEq] at hr
    rw [← hr.2] at hrow'
    refine hunheld (f := Database.pausedRow now) (fun row hhit => ?_) (fun _ => rfl) hrow'
    simp only [Bool.and_eq_true, Option.isNone_iff_eq_none] at hhit
    exact hhit.2
  | resumeJob jobId revision next now =>
    cases input <;> simp only [handler, Option.some.injEq, Prod.mk.injEq, reduceCtorEq] at hr
    rw [← hr.2] at hrow'
    refine hunheld (f := Database.resumedRow next now) (fun row hhit => ?_) (fun _ => rfl) hrow'
    simp only [Bool.and_eq_true, Option.isNone_iff_eq_none] at hhit
    exact hhit.2
  | deleteJob jobId revision =>
    cases input <;> simp only [handler, Option.some.injEq, Prod.mk.injEq, reduceCtorEq] at hr
    rw [← hr.2] at hrow'
    have hmem : row' ∈ w.db.jobs := by
      unfold Database.deleteJob at hrow'
      split at hrow'
      · exact hrow'
      · dsimp only at hrow'
        split at hrow' <;> exact List.mem_of_mem_filter hrow'
    exact ⟨row', hmem, htoken, .refl row'⟩
  | cancelJob jobId now =>
    cases input <;> simp only [handler, Option.some.injEq, Prod.mk.injEq, reduceCtorEq] at hr
    rw [← hr.2] at hrow'
    exact hfreed (fun _ => rfl) hrow'
  | rescheduleJob jobId revision runAt timezone payload now =>
    cases input <;> simp only [handler, Option.some.injEq, Prod.mk.injEq, reduceCtorEq] at hr
    rw [← hr.2] at hrow'
    refine hunheld (f := Database.rescheduledRow runAt timezone payload now)
      (fun row hhit => ?_) (fun _ => rfl) hrow'
    simp only [Bool.and_eq_true, Option.isNone_iff_eq_none] at hhit
    exact hhit.1.2

/-- A settlement under the token of the row goes through. -/
theorem finalize_held {row job : Job} {run : JobRun} {n : ℕ} (h : Inv w) (hrow : row ∈ w.db.jobs)
    (htoken : row.claimToken = some token)
    (hid : job.id = row.id) (hknown : Known w token run.id n) :
    ∃ runs, w.db.finalizeClaim job run token =
      .ok ⟨Table.put Job.id (Database.finalizedRow job row) w.db.jobs, runs⟩ := by
  obtain ⟨held, hheldmem, hheld, hht, -⟩ := h.run_of_token hrow htoken
  obtain ⟨claim, hclaim, hct, hcr, -⟩ := hknown
  obtain ⟨claim', hclaim', hof⟩ := h.claimed held hheldmem
  have hsame : claim' = claim :=
    h.claimTokens.eq hclaim' hclaim (hof.token.trans (hht.trans hct.symm))
  have hrunId : held.id = run.id := hof.runId.symm.trans (hsame ▸ hcr)
  have hhit : (row.id = job.id && row.claimToken = some token) = true := by simp [hid, htoken]
  have hkey : ∀ other : Job, (other.id = job.id && other.claimToken = some token) = true →
      other.id = row.id := by
    intro other hother
    simp only [Bool.and_eq_true, decide_eq_true_eq] at hother
    exact hother.1.trans hid
  have hjobs : w.db.jobs.countP (fun row => row.id = job.id && row.claimToken = some token) = 1 :=
    Table.countP_eq_one (List.Nodup.of_map _ h.jobs) hrow hhit fun other hother hp =>
      h.jobs.eq hother hrow (hkey other hp)
  have hruns : w.db.runs.countP (fun row => row.id = run.id && row.claimToken = token) = 1 := by
    refine Table.countP_eq_one (List.Nodup.of_map _ h.runs) hheldmem (by simp [hrunId, hht])
      fun other hother hp => h.runs.eq hother hheldmem ?_
    simp only [Bool.and_eq_true, decide_eq_true_eq] at hp
    exact hp.1.trans hrunId.symm
  refine ⟨Table.update (fun row => row.id = run.id && row.claimToken = token)
    (Database.finishedRun run) w.db.runs, ?_⟩
  rw [← Table.update_eq_put h.jobs hrow hhit hkey rfl]
  unfold Database.finalizeClaim
  dsimp only
  rw [if_neg (by omega), if_neg (by omega)]

end Rows

/-! ## Runs -/

/-- A claim that was made, as its reply told the runtime. -/
def claimEntry (jobId : String) (now expiresAt : DateTime) (ids : ClaimIds) (job : Job) :
    Σ e : Action, e.Reply :=
  ⟨.claimJob jobId now expiresAt, (ids, .ok (some job))⟩

/-- The reply to a claim: the row as it is now, under the new token. -/
theorem claim_reply {i : ℕ} {w w' : World} {jobId : String} {now expiresAt : DateTime}
    {input : Input} {ids : ClaimIds} {job : Job} (hinv : Inv w)
    (hr : handler i (.claimJob jobId now expiresAt) input w = some ((ids, .ok (some job)), w')) :
    Known w' ids.token ids.runId job.runCount ∧ Owns w'.db job ids.token := by
  have hpre : pre i [] (.claimJob jobId now expiresAt) w := trivial
  have hinv' : Inv w' := (effect hinv hpre hr).inv hinv
  cases input <;> simp only [handler, reduceCtorEq] at hr
  rename_i drawn
  split at hr
  · split at hr
    · cases hr
    · cases hr
    · rename_i found db hok
      cases hr
      refine ⟨⟨_, List.mem_cons_self .., rfl, rfl, rfl⟩, fun row hrow htoken => ?_⟩
      rcases claimJob_ok hinv.jobs hok with ⟨hnone, -⟩ | ⟨old, hold, -, -, hsome, rfl⟩
      · cases hnone
      · obtain rfl := Option.some.inj hsome
        rw [hinv'.job_of_token hrow (Table.mem_put_self hold rfl) htoken rfl]
        exact .refl _
  · cases hr

/-- The call `i` has claimed the job with these identifiers. -/
def ClaimedBy (c : Calls) (i : ℕ) (job : Job) (ids : ClaimIds) : Prop :=
  ∃ (call : Call Request Action Action.Reply Raised Unit) (jobId : String)
    (now expiresAt : DateTime), c.calls[i]? = some call ∧
    claimEntry jobId now expiresAt ids job ∈ call.log

/-- **A job that was claimed** agrees with its row until the claim is settled. -/
theorem owns_of_reaches {w₀ : World} (hw₀ : Inv w₀) {c : Calls}
    (h : Reaches handler start (idle w₀) c) {i : ℕ} {job : Job} {ids : ClaimIds}
    (hclaimed : ClaimedBy c i job ids) :
    Known c.world ids.token ids.runId job.runCount ∧ Owns c.world.db job ids.token := by
  refine h.induction (motive := fun d => ∀ i, ClaimedBy d i job ids →
    Known d.world ids.token ids.runId job.runCount ∧ Owns d.world.db job ids.token)
    (fun i ⟨_, _, _, _, hi, _⟩ => by cases hi) ?_ i hclaimed
  rintro d ev d' hd hmotive he i ⟨call, jobId, now, expiresAt, hi, hmem⟩
  have hall := (AllSafe.idle hw₀).reaches sound startsSafe hd
  -- what held before the step holds after it
  have hlater : Known d.world ids.token ids.runId job.runCount → Owns d.world.db job ids.token →
      Known d'.world ids.token ids.runId job.runCount ∧ Owns d'.world.db job ids.token := by
    intro hknown howns
    rcases step_cases he with ⟨k, -, rfl⟩ | ⟨j, input, k, log, e, next, r, w, -, hj, hr, rfl⟩
    · exact ⟨hknown, howns⟩
    · have hpre := hall.meets_pre hj
      refine ⟨hknown.rely (effect hall.1 hpre hr).rely, fun row' hrow' htoken => ?_⟩
      obtain ⟨claim, hmem, hct, -⟩ := hknown
      obtain ⟨row, hrow, ht, hsame⟩ := held_row hall.1 hpre hr ⟨claim, hmem, hct⟩ hrow' htoken
      exact (howns row hrow ht).trans hsame
  rcases call_cases he hi with hsame | ⟨k, -, rfl⟩ | ⟨input, k, log, e, next, r, -, hj, hr, rfl⟩
  · obtain ⟨hknown, howns⟩ := hmotive i ⟨call, jobId, now, expiresAt, hsame, hmem⟩
    exact hlater hknown howns
  · cases hmem
  · rcases List.mem_append.mp hmem with hmem | hmem
    · obtain ⟨hknown, howns⟩ := hmotive i ⟨_, jobId, now, expiresAt, hj, hmem⟩
      exact hlater hknown howns
    · -- the claim is made by this step
      obtain ⟨rfl, hreply⟩ := Sigma.mk.inj (List.mem_singleton.mp hmem)
      obtain rfl := eq_of_heq hreply
      exact claim_reply hall.1 hr

theorem Reachable.owns {c : Calls} (h : Reachable c) {i : ℕ} {job : Job} {ids : ClaimIds}
    (hclaimed : ClaimedBy c i job ids) :
    Known c.world ids.token ids.runId job.runCount ∧ Owns c.world.db job ids.token :=
  owns_of_reaches inv_initial h hclaimed

end Scheduler

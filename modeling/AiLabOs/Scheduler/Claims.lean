import AiLabOs.Scheduler.Runtime

/-!
# Scheduler: claims

What an action does to the tables, and the invariant that every action keeps. A job is free, or it
is held: then it is running, and of its runs exactly one is running, with the token of the job.
A claim is settled when its job is free again, and its token is never the token of a job after
that.

## Main definitions

* `Free`, `HeldBy`, `Consistent`: the two states of a job
* `Inv`: the invariant
* `Effect`: what an action does to the world

## Main results

* `Effect.inv`: every effect keeps the invariant
-/

namespace Scheduler

open Process

/-! ## The invariant -/

/-- Nobody holds a claim on the job. -/
structure Free (job : Job) : Prop where
  status : job.status ≠ .running
  token : job.claimToken = none
  expires : job.claimExpiresAt = none

/-- The run is the attempt under the claim on the job. -/
structure HeldBy (job : Job) (run : JobRun) : Prop where
  jobId : run.jobId = job.id
  running : run.status = .running
  token : job.claimToken = some run.claimToken
  expires : job.claimExpiresAt.isSome

/-- **A job and its runs agree**: it is free and none of its runs is running, or it is running and
exactly one of its runs is, the one that holds it. -/
structure Consistent (runs : List JobRun) (job : Job) : Prop where
  free : job.status ≠ .running →
    Free job ∧ ∀ run ∈ runs, run.jobId = job.id → run.status ≠ .running
  held : job.status = .running → ∃ run ∈ runs, HeldBy job run ∧
    ∀ other ∈ runs, other.jobId = job.id → other.status = .running → other = run

/-- A run belongs to a claim. -/
structure Claim.Of (claim : Claim) (run : JobRun) : Prop where
  token : claim.token = run.claimToken
  runId : claim.runId = run.id
  jobId : claim.jobId = run.jobId
  attempt : run.attempt = claim.runCount + 1

/-- The attempts of a job are counted: a run that is over is within the count, the running one is
the next. -/
structure Counted (job : Job) (run : JobRun) : Prop where
  ended : run.status ≠ .running → run.attempt ≤ job.runCount
  running : run.status = .running → run.attempt = job.runCount + 1

/-- **The invariant.** -/
structure Inv (w : World) : Prop where
  jobs : Table.Unique Job.id w.db.jobs
  runs : Table.Unique JobRun.id w.db.runs
  tokens : Table.Unique JobRun.claimToken w.db.runs
  claimTokens : Table.Unique Claim.token w.claims
  consistent : ∀ job ∈ w.db.jobs, Consistent w.db.runs job
  owned : ∀ run ∈ w.db.runs, ∃ job ∈ w.db.jobs, job.id = run.jobId
  claimed : ∀ run ∈ w.db.runs, ∃ claim ∈ w.claims, claim.Of run
  counted : ∀ job ∈ w.db.jobs, ∀ run ∈ w.db.runs, run.jobId = job.id → Counted job run
  attempts : ∀ a ∈ w.db.runs, ∀ b ∈ w.db.runs, a.jobId = b.jobId → a.attempt = b.attempt → a = b
  settledOnce : Table.Unique Prod.fst w.settled
  settledClaim : ∀ s ∈ w.settled, ∃ claim ∈ w.claims, claim.token = s.1
  settledGone : ∀ s ∈ w.settled, ∀ job ∈ w.db.jobs, job.claimToken ≠ some s.1

theorem inv_initial : Inv World.initial where
  jobs := List.nodup_nil
  runs := List.nodup_nil
  tokens := List.nodup_nil
  claimTokens := List.nodup_nil
  consistent _ h := by cases h
  owned _ h := by cases h
  claimed _ h := by cases h
  counted _ h := by cases h
  attempts _ h := by cases h
  settledOnce := List.nodup_nil
  settledClaim _ h := by cases h
  settledGone _ h := by cases h

/-- Claims are never forgotten. -/
def Rely (w w' : World) : Prop := w.claims ⊆ w'.claims

/-- What every call may assume of the others. -/
def protocol : Protocol World where
  Inv := Inv
  Rely _ := Rely
  refl _ _ := List.Subset.refl _
  trans h h' := List.Subset.trans h h'

section Invariant

variable {w : World}

/-- A job with a token is held. -/
theorem Consistent.of_token {runs : List JobRun} {job : Job} (h : Consistent runs job)
    {token : String} (htoken : job.claimToken = some token) : job.status = .running := by
  by_contra hne
  have hnone := (h.free hne).1.token
  rw [htoken] at hnone
  cases hnone

/-- The run of a held job has the token of the job and of no other one. -/
theorem Inv.run_of_token (h : Inv w) {job : Job} (hjob : job ∈ w.db.jobs) {token : String}
    (htoken : job.claimToken = some token) : ∃ run ∈ w.db.runs, HeldBy job run ∧
      run.claimToken = token ∧ ∀ other ∈ w.db.runs, other.claimToken = token → other = run := by
  obtain ⟨run, hrun, hheld, -⟩ :=
    (h.consistent job hjob).held ((h.consistent job hjob).of_token htoken)
  have hsame : run.claimToken = token := Option.some.inj (hheld.token.symm.trans htoken)
  exact ⟨run, hrun, hheld, hsame, fun other hother heq =>
    h.tokens.eq hother hrun (heq.trans hsame.symm)⟩

/-- Two held jobs have different tokens. -/
theorem Inv.job_of_token (h : Inv w) {a b : Job} (ha : a ∈ w.db.jobs) (hb : b ∈ w.db.jobs)
    {token : String} (hat : a.claimToken = some token) (hbt : b.claimToken = some token) :
    a = b := by
  obtain ⟨run, -, hheld, -, honly⟩ := h.run_of_token ha hat
  obtain ⟨run', hrun', hheld', htoken', -⟩ := h.run_of_token hb hbt
  have hsame : run' = run := honly run' hrun' htoken'
  refine h.jobs.eq ha hb ?_
  rw [← hheld.jobId, ← hheld'.jobId, hsame]

/-- A claim that is held has not been settled. -/
theorem Inv.unsettled (h : Inv w) {job : Job} (hjob : job ∈ w.db.jobs) {token : String}
    (htoken : job.claimToken = some token) : ∀ s ∈ w.settled, s.1 ≠ token := by
  rintro s hs rfl
  exact h.settledGone s hs job hjob htoken

/-- The token of a held job is that of a claim. -/
theorem Inv.claim_of_token (h : Inv w) {job : Job} (hjob : job ∈ w.db.jobs) {token : String}
    (htoken : job.claimToken = some token) : ∃ claim ∈ w.claims, claim.token = token := by
  obtain ⟨run, hrun, -, hrt, -⟩ := h.run_of_token hjob htoken
  obtain ⟨claim, hclaim, hof⟩ := h.claimed run hrun
  exact ⟨claim, hclaim, hof.token.trans hrt⟩

end Invariant

/-! ## What an action does -/

/-- The rows a release leaves. -/
def Released (w : World) (now retryAt : DateTime) : World :=
  ⟨(w.db.releaseExpiredClaims now retryAt).2, w.claims, releases w.db now ++ w.settled⟩

/-- **What an action does to the world.** -/
inductive Effect (w w' : World) : Prop
  | idle (h : w' = w)
  | saved (job : Job) (hnew : ∀ row ∈ w.db.jobs, row.id ≠ job.id) (hfree : Free job)
      (hw : w' = { w with db := { w.db with jobs := w.db.jobs ++ [job] } })
  | changed (row new : Job) (hrow : row ∈ w.db.jobs) (hid : new.id = row.id) (hfree : Free row)
      (hfree' : Free new) (hcount : new.runCount = row.runCount)
      (hw : w' = { w with db := { w.db with jobs := Table.put Job.id new w.db.jobs } })
  | renewed (row new : Job) (hrow : row ∈ w.db.jobs) (hid : new.id = row.id)
      (hrunning : row.status = .running) (hrunning' : new.status = .running)
      (htoken : new.claimToken = row.claimToken) (hexpires : new.claimExpiresAt.isSome)
      (hcount : new.runCount = row.runCount)
      (hw : w' = { w with db := { w.db with jobs := Table.put Job.id new w.db.jobs } })
  | claimed (row new : Job) (run : JobRun) (ids : ClaimIds) (hrow : row ∈ w.db.jobs)
      (hid : new.id = row.id) (hfree : Free row) (hrunning : new.status = .running)
      (hheld : HeldBy new run) (hcount : new.runCount = row.runCount) (hfresh : w.Fresh ids)
      (htoken : run.claimToken = ids.token) (hrun : run.id = ids.runId)
      (hattempt : run.attempt = row.runCount + 1)
      (hw : w' = ⟨⟨Table.put Job.id new w.db.jobs, w.db.runs ++ [run]⟩,
        ⟨ids.token, ids.runId, row.id, row.runCount⟩ :: w.claims, w.settled⟩)
  | finalized (row new : Job) (run run' : JobRun) (hrow : row ∈ w.db.jobs) (hrun : run ∈ w.db.runs)
      (hheld : HeldBy row run) (hid : new.id = row.id) (hfree : Free new)
      (hcount : row.runCount + 1 ≤ new.runCount) (hid' : run'.id = run.id)
      (hjobId : run'.jobId = run.jobId) (htoken : run'.claimToken = run.claimToken)
      (hattempt : run'.attempt = run.attempt) (hover : run'.status ≠ .running)
      (hw : w' = ⟨⟨Table.put Job.id new w.db.jobs, Table.put JobRun.id run' w.db.runs⟩, w.claims,
        (run.claimToken, .finalized) :: w.settled⟩)
  | released (now retryAt : DateTime) (hw : w' = Released w now retryAt)
  | deleted (jobId : String) (hfree : ∀ job ∈ w.db.jobs, job.id = jobId → Free job)
      (hw : w' = { w with db := ⟨w.db.jobs.filter fun job => job.id ≠ jobId,
        w.db.runs.filter fun run => run.jobId ≠ jobId⟩ })

/-! ## Every effect keeps the invariant -/

section Keeps

variable {w : World}

/-- A run of a job that has no row does not exist. -/
theorem Inv.no_run (h : Inv w) {jobId : String} (hnew : ∀ row ∈ w.db.jobs, row.id ≠ jobId) :
    ∀ run ∈ w.db.runs, run.jobId ≠ jobId := by
  intro run hrun heq
  obtain ⟨job, hjob, hid⟩ := h.owned run hrun
  exact hnew job hjob (hid.trans heq)

theorem Inv.save (h : Inv w) {job : Job} (hnew : ∀ row ∈ w.db.jobs, row.id ≠ job.id)
    (hfree : Free job) : Inv { w with db := { w.db with jobs := w.db.jobs ++ [job] } } where
  jobs := h.jobs.insert hnew
  runs := h.runs
  tokens := h.tokens
  claimTokens := h.claimTokens
  consistent row hrow := by
    rcases List.mem_append.mp hrow with hrow | hrow
    · exact h.consistent row hrow
    · rw [List.mem_singleton.mp hrow]
      exact ⟨fun _ => ⟨hfree, fun run hrun hid => absurd hid (h.no_run hnew run hrun)⟩,
        fun hr => absurd hr hfree.status⟩
  owned run hrun := by
    obtain ⟨row, hrow, hid⟩ := h.owned run hrun
    exact ⟨row, List.mem_append_left _ hrow, hid⟩
  claimed := h.claimed
  counted row hrow run hrun hid := by
    rcases List.mem_append.mp hrow with hrow | hrow
    · exact h.counted row hrow run hrun hid
    · rw [List.mem_singleton.mp hrow] at hid
      exact absurd hid (h.no_run hnew run hrun)
  attempts := h.attempts
  settledOnce := h.settledOnce
  settledClaim := h.settledClaim
  settledGone s hs row hrow := by
    rcases List.mem_append.mp hrow with hrow | hrow
    · exact h.settledGone s hs row hrow
    · rw [List.mem_singleton.mp hrow, hfree.token]
      simp

/-- A job whose token and count stay, and which still agrees with its runs. -/
theorem Inv.replace (h : Inv w) {row new : Job} (hrow : row ∈ w.db.jobs) (hid : new.id = row.id)
    (htoken : new.claimToken = row.claimToken) (hcount : new.runCount = row.runCount)
    (hcons : Consistent w.db.runs new) :
    Inv { w with db := { w.db with jobs := Table.put Job.id new w.db.jobs } } where
  jobs := h.jobs.put
  runs := h.runs
  tokens := h.tokens
  claimTokens := h.claimTokens
  consistent job hjob := by
    rcases Table.mem_put.mp hjob with ⟨rfl, -⟩ | ⟨hjob, -⟩
    · exact hcons
    · exact h.consistent job hjob
  owned run hrun := by
    obtain ⟨job, hjob, hjid⟩ := h.owned run hrun
    by_cases hsame : job.id = new.id
    · exact ⟨new, Table.mem_put_self hjob hsame, hsame.symm.trans hjid⟩
    · exact ⟨job, Table.mem_put_of_ne hjob hsame, hjid⟩
  claimed := h.claimed
  counted job hjob run hrun hjid := by
    rcases Table.mem_put.mp hjob with ⟨rfl, -⟩ | ⟨hjob, -⟩
    · have hold := h.counted row hrow run hrun (hjid.trans hid)
      exact ⟨fun hover => hcount ▸ hold.ended hover, fun hrunning => hcount ▸ hold.running hrunning⟩
    · exact h.counted job hjob run hrun hjid
  attempts := h.attempts
  settledOnce := h.settledOnce
  settledClaim := h.settledClaim
  settledGone s hs job hjob := by
    rcases Table.mem_put.mp hjob with ⟨rfl, -⟩ | ⟨hjob, -⟩
    · rw [htoken]
      exact h.settledGone s hs row hrow
    · exact h.settledGone s hs job hjob

theorem Inv.change (h : Inv w) {row new : Job} (hrow : row ∈ w.db.jobs) (hid : new.id = row.id)
    (hfree : Free row) (hfree' : Free new) (hcount : new.runCount = row.runCount) :
    Inv { w with db := { w.db with jobs := Table.put Job.id new w.db.jobs } } := by
  refine h.replace hrow hid (hfree'.token.trans hfree.token.symm) hcount ⟨fun _ => ?_, fun hr => ?_⟩
  · obtain ⟨-, hnone⟩ := (h.consistent row hrow).free hfree.status
    exact ⟨hfree', fun run hrun hjid => hnone run hrun (hjid.trans hid)⟩
  · exact absurd hr hfree'.status

theorem Inv.renew (h : Inv w) {row new : Job} (hrow : row ∈ w.db.jobs) (hid : new.id = row.id)
    (hrunning : row.status = .running) (hrunning' : new.status = .running)
    (htoken : new.claimToken = row.claimToken) (hexpires : new.claimExpiresAt.isSome)
    (hcount : new.runCount = row.runCount) :
    Inv { w with db := { w.db with jobs := Table.put Job.id new w.db.jobs } } := by
  refine h.replace hrow hid htoken hcount ⟨fun hne => absurd hrunning' hne, fun _ => ?_⟩
  obtain ⟨run, hrun, hheld, honly⟩ := (h.consistent row hrow).held hrunning
  refine ⟨run, hrun, ⟨hheld.jobId.trans hid.symm, hheld.running, htoken.trans hheld.token,
    hexpires⟩, ?_⟩
  exact fun other hother hjid => honly other hother (hjid.trans hid)

theorem Inv.claim (h : Inv w) {row new : Job} {run : JobRun} {ids : ClaimIds}
    (hrow : row ∈ w.db.jobs) (hid : new.id = row.id) (hfree : Free row)
    (hrunning : new.status = .running) (hheld : HeldBy new run)
    (hcount : new.runCount = row.runCount) (hfresh : w.Fresh ids)
    (htoken : run.claimToken = ids.token) (hrun : run.id = ids.runId)
    (hattempt : run.attempt = row.runCount + 1) :
    Inv ⟨⟨Table.put Job.id new w.db.jobs, w.db.runs ++ [run]⟩,
      ⟨ids.token, ids.runId, row.id, row.runCount⟩ :: w.claims, w.settled⟩ := by
  obtain ⟨htokens, hruns⟩ := hfresh
  have hjobId : run.jobId = row.id := hheld.jobId.trans hid
  -- no run of the job is running, so all of them are within the count
  obtain ⟨-, hover⟩ := (h.consistent row hrow).free hfree.status
  have hbelow : ∀ other ∈ w.db.runs, other.jobId = row.id → other.attempt ≤ row.runCount :=
    fun other hother hjid => (h.counted row hrow other hother hjid).ended
      (hover other hother hjid)
  have hid_ne : ∀ other ∈ w.db.runs, other.id ≠ run.id := by
    intro other hother heq
    obtain ⟨claim, hclaim, hof⟩ := h.claimed other hother
    exact hruns claim hclaim (hof.runId.trans (heq.trans hrun))
  have htoken_ne : ∀ other ∈ w.db.runs, other.claimToken ≠ run.claimToken := by
    intro other hother heq
    obtain ⟨claim, hclaim, hof⟩ := h.claimed other hother
    exact htokens claim hclaim (hof.token.trans (heq.trans htoken))
  have hlast : run ∈ w.db.runs ++ [run] := List.mem_append_right _ (List.mem_singleton_self _)
  constructor
  · exact h.jobs.put
  · exact h.runs.insert hid_ne
  · exact h.tokens.insert htoken_ne
  · exact List.nodup_cons.mpr ⟨fun hmem => by
      obtain ⟨claim, hclaim, heq⟩ := List.mem_map.mp hmem
      exact htokens claim hclaim heq, h.claimTokens⟩
  · intro job hjob
    rcases Table.mem_put.mp hjob with ⟨rfl, -⟩ | ⟨hjob, hne⟩
    · refine ⟨fun hne => absurd hrunning hne, fun _ => ⟨run, hlast, hheld, ?_⟩⟩
      intro other hother hjid hrun'
      rcases List.mem_append.mp hother with hother | hother
      · exact absurd hrun' (hover other hother (hjid.trans hid))
      · exact List.mem_singleton.mp hother
    · -- the new run is of another job
      have hjne : run.jobId ≠ job.id := fun heq => hne (heq.symm.trans hheld.jobId)
      refine ⟨fun hstatus => ?_, fun hstatus => ?_⟩
      · obtain ⟨hfree', hnone⟩ := (h.consistent job hjob).free hstatus
        refine ⟨hfree', fun other hother hjid => ?_⟩
        rcases List.mem_append.mp hother with hother | hother
        · exact hnone other hother hjid
        · rw [List.mem_singleton.mp hother] at hjid
          exact absurd hjid hjne
      · obtain ⟨run', hrun', hheld', honly⟩ := (h.consistent job hjob).held hstatus
        refine ⟨run', List.mem_append_left _ hrun', hheld', fun other hother hjid => ?_⟩
        rcases List.mem_append.mp hother with hother | hother
        · exact honly other hother hjid
        · rw [List.mem_singleton.mp hother] at hjid
          exact absurd hjid hjne
  · intro other hother
    have howner : ∃ job ∈ w.db.jobs, job.id = other.jobId := by
      rcases List.mem_append.mp hother with hother | hother
      · exact h.owned other hother
      · rw [List.mem_singleton.mp hother]
        exact ⟨row, hrow, hjobId.symm⟩
    obtain ⟨job, hjob, hjid⟩ := howner
    by_cases hsame : job.id = new.id
    · exact ⟨new, Table.mem_put_self hjob hsame, hsame.symm.trans hjid⟩
    · exact ⟨job, Table.mem_put_of_ne hjob hsame, hjid⟩
  · intro other hother
    rcases List.mem_append.mp hother with hother | hother
    · obtain ⟨claim, hclaim, hof⟩ := h.claimed other hother
      exact ⟨claim, List.mem_cons_of_mem _ hclaim, hof⟩
    · rw [List.mem_singleton.mp hother]
      exact ⟨_, List.mem_cons_self .., htoken.symm, hrun.symm, hjobId.symm, hattempt⟩
  · intro job hjob other hother hjid
    rcases Table.mem_put.mp hjob with ⟨rfl, -⟩ | ⟨hjob, hne⟩
    · rcases List.mem_append.mp hother with hother | hother
      · have hold := hover other hother (hjid.trans hid)
        exact ⟨fun _ => hcount ▸ hbelow other hother (hjid.trans hid), fun hr => absurd hr hold⟩
      · rw [List.mem_singleton.mp hother]
        exact ⟨fun hne => absurd hheld.running hne, fun _ => by rw [hattempt, hcount]⟩
    · rcases List.mem_append.mp hother with hother | hother
      · exact h.counted job hjob other hother hjid
      · rw [List.mem_singleton.mp hother] at hjid
        exact absurd (hjid.symm.trans hheld.jobId) hne
  · intro a ha b hb hjid hatt
    rcases List.mem_append.mp ha with ha | ha <;> rcases List.mem_append.mp hb with hb | hb
    · exact h.attempts a ha b hb hjid hatt
    · rw [List.mem_singleton.mp hb] at hjid hatt
      have := hbelow a ha (hjid.trans hjobId)
      omega
    · rw [List.mem_singleton.mp ha] at hjid hatt
      have := hbelow b hb (hjid.symm.trans hjobId)
      omega
    · rw [List.mem_singleton.mp ha, List.mem_singleton.mp hb]
  · exact h.settledOnce
  · intro s hs
    obtain ⟨claim, hclaim, heq⟩ := h.settledClaim s hs
    exact ⟨claim, List.mem_cons_of_mem _ hclaim, heq⟩
  · intro s hs job hjob
    rcases Table.mem_put.mp hjob with ⟨rfl, -⟩ | ⟨hjob, -⟩
    · rw [hheld.token, htoken]
      intro heq
      obtain ⟨claim, hclaim, hct⟩ := h.settledClaim s hs
      exact htokens claim hclaim (hct.trans (Option.some.inj heq).symm)
    · exact h.settledGone s hs job hjob

theorem Inv.finalize (h : Inv w) {row new : Job} {run run' : JobRun} (hrow : row ∈ w.db.jobs)
    (hrun : run ∈ w.db.runs) (hheld : HeldBy row run) (hid : new.id = row.id) (hfree : Free new)
    (hcount : row.runCount + 1 ≤ new.runCount) (hid' : run'.id = run.id)
    (hjobId : run'.jobId = run.jobId) (htoken : run'.claimToken = run.claimToken)
    (hattempt : run'.attempt = run.attempt) (hover : run'.status ≠ .running) :
    Inv ⟨⟨Table.put Job.id new w.db.jobs, Table.put JobRun.id run' w.db.runs⟩, w.claims,
      (run.claimToken, .finalized) :: w.settled⟩ := by
  have hrunning : row.status = .running := (h.consistent row hrow).of_token hheld.token
  obtain ⟨held, -, hheldBy, honly⟩ := (h.consistent row hrow).held hrunning
  have hsame : run = held := honly run hrun hheld.jobId hheld.running
  -- every run afterwards is the one that ended, or is as it was
  have hruns : ∀ other ∈ Table.put JobRun.id run' w.db.runs,
      other = run' ∨ other ∈ w.db.runs ∧ other ≠ run := by
    intro other hother
    rcases Table.mem_put.mp hother with ⟨rfl, -⟩ | ⟨hother, hne⟩
    · exact .inl rfl
    · exact .inr ⟨hother, fun heq => hne (by rw [heq, hid'])⟩
  constructor
  · exact h.jobs.put
  · exact h.runs.put
  · have hmap : (Table.put JobRun.id run' w.db.runs).map JobRun.claimToken =
        w.db.runs.map JobRun.claimToken := by
      unfold Table.put
      rw [List.map_map]
      refine List.map_congr_left fun other hother => ?_
      rw [Function.comp_apply]
      split
      · rename_i heq
        rw [htoken, h.runs.eq hother hrun (heq.trans hid')]
      · rfl
    unfold Table.Unique
    rw [hmap]
    exact h.tokens
  · exact h.claimTokens
  · intro job hjob
    rcases Table.mem_put.mp hjob with ⟨rfl, -⟩ | ⟨hjob, hne⟩
    · refine ⟨fun _ => ⟨hfree, fun other hother hjid => ?_⟩, fun hr => absurd hr hfree.status⟩
      rcases hruns other hother with rfl | ⟨hother, hne⟩
      · exact hover
      · exact fun hr => hne ((honly other hother (hjid.trans hid) hr).trans hsame.symm)
    · -- the run that ended is of another job
      have hjne : run.jobId ≠ job.id := fun heq => hne (by rw [← heq, hheld.jobId, hid])
      refine ⟨fun hstatus => ?_, fun hstatus => ?_⟩
      · obtain ⟨hfree', hnone⟩ := (h.consistent job hjob).free hstatus
        refine ⟨hfree', fun other hother hjid => ?_⟩
        rcases hruns other hother with rfl | ⟨hother, -⟩
        · exact hover
        · exact hnone other hother hjid
      · obtain ⟨other, hother, hheld', honly'⟩ := (h.consistent job hjob).held hstatus
        have hne' : other.id ≠ run'.id := by
          rw [hid']
          intro heq
          exact hjne ((congrArg JobRun.jobId (h.runs.eq hother hrun heq)).symm.trans hheld'.jobId)
        refine ⟨other, Table.mem_put_of_ne hother hne', hheld', fun another hanother hjid hr => ?_⟩
        rcases hruns another hanother with rfl | ⟨hanother, -⟩
        · exact absurd hr hover
        · exact honly' another hanother hjid hr
  · intro other hother
    have howner : ∃ job ∈ w.db.jobs, job.id = other.jobId := by
      rcases hruns other hother with rfl | ⟨hother, -⟩
      · exact ⟨row, hrow, hheld.jobId.symm.trans hjobId.symm⟩
      · exact h.owned other hother
    obtain ⟨job, hjob, hjid⟩ := howner
    by_cases hsame : job.id = new.id
    · exact ⟨new, Table.mem_put_self hjob hsame, hsame.symm.trans hjid⟩
    · exact ⟨job, Table.mem_put_of_ne hjob hsame, hjid⟩
  · intro other hother
    rcases hruns other hother with rfl | ⟨hother, -⟩
    · obtain ⟨claim, hclaim, hof⟩ := h.claimed run hrun
      exact ⟨claim, hclaim, hof.token.trans htoken.symm, hof.runId.trans hid'.symm,
        hof.jobId.trans hjobId.symm, hattempt.trans hof.attempt⟩
    · exact h.claimed other hother
  · intro job hjob other hother hjid
    rcases Table.mem_put.mp hjob with ⟨rfl, -⟩ | ⟨hjob, hne⟩
    · rcases hruns other hother with rfl | ⟨hother, hone⟩
      · have hatt := (h.counted row hrow run hrun hheld.jobId).running hheld.running
        exact ⟨fun _ => by rw [hattempt, hatt]; exact hcount, fun hr => absurd hr hover⟩
      · have hold := h.counted row hrow other hother (hjid.trans hid)
        have hstop : other.status ≠ .running := fun hr =>
          hone ((honly other hother (hjid.trans hid) hr).trans hsame.symm)
        exact ⟨fun hne => (hold.ended hne).trans (by omega), fun hr => absurd hr hstop⟩
    · rcases hruns other hother with rfl | ⟨hother, -⟩
      · exact absurd (hjid.symm.trans (hjobId.trans (hheld.jobId.trans hid.symm))) hne
      · exact h.counted job hjob other hother hjid
  · intro a ha b hb hjid hatt
    rcases hruns a ha with rfl | ⟨ha', hane⟩ <;> rcases hruns b hb with rfl | ⟨hb', hbne⟩
    · rfl
    · exact absurd (h.attempts run hrun b hb' (hjobId.symm.trans hjid)
        (hattempt.symm.trans hatt)).symm hbne
    · exact absurd (h.attempts a ha' run hrun (hjid.trans hjobId) (hatt.trans hattempt)) hane
    · exact h.attempts a ha' b hb' hjid hatt
  · exact List.nodup_cons.mpr ⟨fun hmem => by
      obtain ⟨s, hs, heq⟩ := List.mem_map.mp hmem
      exact h.unsettled hrow hheld.token s hs heq, h.settledOnce⟩
  · intro s hs
    rcases List.mem_cons.mp hs with rfl | hs
    · exact h.claim_of_token hrow hheld.token
    · exact h.settledClaim s hs
  · intro s hs job hjob
    rcases Table.mem_put.mp hjob with ⟨rfl, -⟩ | ⟨hjob, hne⟩
    · rw [hfree.token]
      simp
    · rcases List.mem_cons.mp hs with rfl | hs
      · exact fun heq => hne (by rw [h.job_of_token hjob hrow heq hheld.token, hid])
      · exact h.settledGone s hs job hjob

theorem Inv.delete (h : Inv w) (jobId : String) :
    Inv { w with db := ⟨w.db.jobs.filter fun job => job.id ≠ jobId,
      w.db.runs.filter fun run => run.jobId ≠ jobId⟩ } := by
  have hjobs : ∀ job, job ∈ w.db.jobs.filter (fun job => job.id ≠ jobId) ↔
      job ∈ w.db.jobs ∧ job.id ≠ jobId := fun job => by simp [List.mem_filter]
  have hruns : ∀ run, run ∈ w.db.runs.filter (fun run => run.jobId ≠ jobId) ↔
      run ∈ w.db.runs ∧ run.jobId ≠ jobId := fun run => by simp [List.mem_filter]
  constructor
  · exact h.jobs.filter _
  · exact h.runs.filter _
  · exact h.tokens.filter _
  · exact h.claimTokens
  · intro job hjob
    obtain ⟨hjob, hne⟩ := (hjobs job).mp hjob
    refine ⟨fun hstatus => ?_, fun hstatus => ?_⟩
    · obtain ⟨hfree', hnone⟩ := (h.consistent job hjob).free hstatus
      exact ⟨hfree', fun run hrun => hnone run ((hruns run).mp hrun).1⟩
    · obtain ⟨run, hrun, hheld, honly⟩ := (h.consistent job hjob).held hstatus
      refine ⟨run, (hruns run).mpr ⟨hrun, hheld.jobId ▸ hne⟩, hheld, fun other hother => ?_⟩
      exact honly other ((hruns other).mp hother).1
  · intro run hrun
    obtain ⟨hrun, hne⟩ := (hruns run).mp hrun
    obtain ⟨job, hjob, hid⟩ := h.owned run hrun
    exact ⟨job, (hjobs job).mpr ⟨hjob, hid ▸ hne⟩, hid⟩
  · exact fun run hrun => h.claimed run ((hruns run).mp hrun).1
  · exact fun job hjob run hrun => h.counted job ((hjobs job).mp hjob).1 run ((hruns run).mp hrun).1
  · exact fun a ha b hb => h.attempts a ((hruns a).mp ha).1 b ((hruns b).mp hb).1
  · exact h.settledOnce
  · exact h.settledClaim
  · exact fun s hs job hjob => h.settledGone s hs job ((hjobs job).mp hjob).1

theorem mem_expiredTokens {db : Database} {now : DateTime} {token : String} :
    token ∈ db.expiredTokens now ↔
      ∃ job ∈ db.jobs, expired now job = true ∧ job.claimToken = some token := by
  unfold Database.expiredTokens
  rw [List.mem_filterMap]
  constructor
  · rintro ⟨job, hjob, htoken⟩
    obtain ⟨hmem, hexp⟩ := List.mem_filter.mp hjob
    exact ⟨job, hmem, hexp, htoken⟩
  · rintro ⟨job, hjob, hexp, htoken⟩
    exact ⟨job, List.mem_filter.mpr ⟨hjob, hexp⟩, htoken⟩

theorem expired_running {now : DateTime} {job : Job} (h : expired now job = true) :
    job.status = .running :=
  (expired_iff.mp h).1

theorem releasedRow_free (now retryAt : DateTime) (job : Job) :
    Free (Database.releasedRow now retryAt job) := by
  unfold Database.releasedRow
  refine ⟨?_, rfl, rfl⟩
  dsimp only
  split <;> simp

/-- A running run is under an expired claim exactly when its job is expired. -/
theorem Inv.mem_expiredTokens (h : Inv w) {now : DateTime} {job : Job} {run : JobRun}
    (hjob : job ∈ w.db.jobs) (hheld : HeldBy job run) :
    run.claimToken ∈ w.db.expiredTokens now ↔ expired now job = true := by
  rw [Scheduler.mem_expiredTokens]
  constructor
  · rintro ⟨job', hjob', hexp, htoken⟩
    rw [← h.job_of_token hjob' hjob htoken hheld.token]
    exact hexp
  · exact fun hexp => ⟨job, hjob, hexp, hheld.token⟩

/-- The expired claims have different tokens. -/
theorem Inv.nodup_expiredTokens (h : Inv w) (now : DateTime) :
    (w.db.expiredTokens now).Nodup := by
  have hjobs : (w.db.jobs.filter (expired now)).Nodup := (List.Nodup.of_map _ h.jobs).filter _
  unfold Database.expiredTokens
  refine List.pairwise_filterMap.mpr (hjobs.imp_of_mem ?_)
  rintro a b ha hb hne token hat token' hbt rfl
  exact hne (h.job_of_token (List.mem_filter.mp ha).1 (List.mem_filter.mp hb).1 hat hbt)

theorem Inv.release (h : Inv w) (now retryAt : DateTime) : Inv (Released w now retryAt) := by
  -- a job afterwards is a released one or an old one whose claim has not expired
  have hjobs : ∀ job ∈ (Released w now retryAt).db.jobs, ∃ old ∈ w.db.jobs,
      expired now old = true ∧ job = Database.releasedRow now retryAt old ∨
      expired now old ≠ true ∧ job = old := by
    intro job hjob
    obtain ⟨old, hold, rfl⟩ := Table.mem_update.mp hjob
    by_cases hexp : expired now old = true
    · exact ⟨old, hold, .inl ⟨hexp, if_pos hexp⟩⟩
    · exact ⟨old, hold, .inr ⟨hexp, if_neg hexp⟩⟩
  have hruns : ∀ run ∈ (Released w now retryAt).db.runs, ∃ old ∈ w.db.runs,
      run.id = old.id ∧ run.jobId = old.jobId ∧ run.claimToken = old.claimToken ∧
      run.attempt = old.attempt ∧ (run.status = .running →
        run = old ∧ old.claimToken ∉ w.db.expiredTokens now) ∧
      (run.status ≠ .running → old.status ≠ .running ∨
        old.claimToken ∈ w.db.expiredTokens now) := by
    intro run hrun
    obtain ⟨old, hold, rfl⟩ := Table.mem_update.mp hrun
    refine ⟨old, hold, ?_⟩
    split
    · rename_i hhit
      simp only [Bool.and_eq_true, decide_eq_true_eq] at hhit
      exact ⟨rfl, rfl, rfl, rfl, nofun, fun _ => .inr hhit.2⟩
    · rename_i hhit
      simp only [Bool.and_eq_true, decide_eq_true_eq, not_and] at hhit
      exact ⟨rfl, rfl, rfl, rfl, fun hr => ⟨rfl, hhit hr⟩, fun hne => .inl hne⟩
  have hkept : ∀ run ∈ w.db.runs, run.claimToken ∉ w.db.expiredTokens now →
      run ∈ (Released w now retryAt).db.runs := by
    intro run hrun hne
    refine Table.mem_update.mpr ⟨run, hrun, if_neg ?_⟩
    simp only [Bool.and_eq_true, decide_eq_true_eq, not_and]
    exact fun _ => hne
  constructor
  · exact h.jobs.update fun _ => rfl
  · exact h.runs.update fun _ => rfl
  · exact h.tokens.update fun _ => rfl
  · exact h.claimTokens
  · intro job hjob
    obtain ⟨old, hold, ⟨hexp, rfl⟩ | ⟨hexp, rfl⟩⟩ := hjobs job hjob
    · have hfree := releasedRow_free now retryAt old
      refine ⟨fun _ => ⟨hfree, fun run hrun hjid hr => ?_⟩, fun hr => absurd hr hfree.status⟩
      obtain ⟨run', hrun', -, hjid', -, -, hkeep, -⟩ := hruns run hrun
      obtain ⟨rfl, hnot⟩ := hkeep hr
      -- the running run of an expired job is under an expired claim
      obtain ⟨held, -, hheld, honly⟩ :=
        (h.consistent old hold).held (expired_running hexp)
      rw [honly run hrun' hjid hr] at hnot hrun'
      exact hnot ((h.mem_expiredTokens hold hheld).mpr hexp)
    · refine ⟨fun hstatus => ?_, fun hstatus => ?_⟩
      · obtain ⟨hfree, hnone⟩ := (h.consistent job hold).free hstatus
        refine ⟨hfree, fun run hrun hjid hr => ?_⟩
        obtain ⟨run', hrun', -, -, -, -, hkeep, -⟩ := hruns run hrun
        obtain ⟨rfl, -⟩ := hkeep hr
        exact hnone run hrun' hjid hr
      · obtain ⟨run, hrun, hheld, honly⟩ := (h.consistent job hold).held hstatus
        have hnot : run.claimToken ∉ w.db.expiredTokens now :=
          fun hmem => hexp ((h.mem_expiredTokens hold hheld).mp hmem)
        refine ⟨run, hkept run hrun hnot, hheld, fun other hother hjid hr => ?_⟩
        obtain ⟨other', hother', -, -, -, -, hkeep, -⟩ := hruns other hother
        obtain ⟨rfl, -⟩ := hkeep hr
        exact honly other hother' hjid hr
  · intro run hrun
    obtain ⟨old, hold, -, hjid, -⟩ := hruns run hrun
    obtain ⟨job, hjob, hid⟩ := h.owned old hold
    refine ⟨_, Table.mem_update.mpr ⟨job, hjob, rfl⟩, ?_⟩
    rw [hjid, ← hid]
    split <;> rfl
  · intro run hrun
    obtain ⟨old, hold, hid, hjid, htoken, hatt, -⟩ := hruns run hrun
    obtain ⟨claim, hclaim, hof⟩ := h.claimed old hold
    exact ⟨claim, hclaim, hof.token.trans htoken.symm, hof.runId.trans hid.symm,
      hof.jobId.trans hjid.symm, hatt.trans hof.attempt⟩
  · intro job hjob run hrun hjid
    obtain ⟨run', hrun', -, hjid', -, hatt, hkeep, hstop⟩ := hruns run hrun
    obtain ⟨old, hold, ⟨hexp, rfl⟩ | ⟨hexp, rfl⟩⟩ := hjobs job hjob
    · have hrunning := expired_running hexp
      have hc := h.counted old hold run' hrun' (hjid'.symm.trans hjid)
      have hcount : (Database.releasedRow now retryAt old).runCount = old.runCount + 1 := rfl
      refine ⟨fun _ => ?_, fun hr => ?_⟩
      · rw [hatt, hcount]
        by_cases hr' : run'.status = .running
        · exact (hc.running hr').le
        · exact (hc.ended hr').trans (Nat.le_succ _)
      · obtain ⟨rfl, hnot⟩ := hkeep hr
        obtain ⟨held, hheldmem, hheld, honly⟩ := (h.consistent old hold).held hrunning
        rw [honly run hrun' hjid hr] at hnot
        exact absurd ((h.mem_expiredTokens hold hheld).mpr hexp) hnot
    · have hc := h.counted job hold run' hrun' (hjid'.symm.trans hjid)
      refine ⟨fun hne => ?_, fun hr => ?_⟩
      · rw [hatt]
        refine hc.ended fun hr' => ?_
        rcases hstop hne with hne' | hmem
        · exact hne' hr'
        · -- a running run under an expired claim belongs to an expired job
          obtain ⟨job', hjob', hexp', htoken'⟩ := Scheduler.mem_expiredTokens.mp hmem
          obtain ⟨held, -, hheld, hht, honly⟩ := h.run_of_token hjob' htoken'
          have hsame := honly run' hrun' rfl
          have : job' = job := h.jobs.eq hjob' hold
            (hheld.jobId.symm.trans (hsame ▸ hjid'.symm.trans hjid))
          exact hexp (this ▸ hexp')
      · obtain ⟨rfl, -⟩ := hkeep hr
        exact hc.running hr
  · intro a ha b hb hjid hatt
    obtain ⟨a', ha', haid, hajid, -, haatt, -⟩ := hruns a ha
    obtain ⟨b', hb', hbid, hbjid, -, hbatt, -⟩ := hruns b hb
    have hsame : a' = b' := h.attempts a' ha' b' hb' (hajid.symm.trans (hjid.trans hbjid))
      (haatt.symm.trans (hatt.trans hbatt))
    have hunique : Table.Unique JobRun.id (Released w now retryAt).db.runs :=
      h.runs.update fun _ => rfl
    exact hunique.eq ha hb (haid.trans ((congrArg JobRun.id hsame).trans hbid.symm))
  · have hlist : (releases w.db now ++ w.settled).map Prod.fst =
        w.db.expiredTokens now ++ w.settled.map Prod.fst := by
      unfold releases
      rw [List.map_append, List.map_map]
      congr 1
      exact List.map_id _
    show ((releases w.db now ++ w.settled).map Prod.fst).Nodup
    rw [hlist, List.nodup_append]
    refine ⟨h.nodup_expiredTokens now, h.settledOnce, ?_⟩
    intro token htoken s hs heq
    obtain ⟨job, hjob, -, hjt⟩ := Scheduler.mem_expiredTokens.mp htoken
    obtain ⟨s', hs', rfl⟩ := List.mem_map.mp hs
    exact h.unsettled hjob hjt s' hs' heq.symm
  · intro s hs
    rcases List.mem_append.mp hs with hs | hs
    · obtain ⟨token, htoken, rfl⟩ := List.mem_map.mp hs
      obtain ⟨job, hjob, -, hjt⟩ := Scheduler.mem_expiredTokens.mp htoken
      exact h.claim_of_token hjob hjt
    · exact h.settledClaim s hs
  · intro s hs job hjob
    obtain ⟨old, hold, ⟨hexp, rfl⟩ | ⟨hexp, rfl⟩⟩ := hjobs job hjob
    · rw [(releasedRow_free now retryAt old).token]
      simp
    · rcases List.mem_append.mp hs with hs | hs
      · obtain ⟨token, htoken, rfl⟩ := List.mem_map.mp hs
        obtain ⟨job', hjob', hexp', hjt'⟩ := Scheduler.mem_expiredTokens.mp htoken
        exact fun heq => hexp (h.job_of_token hjob' hold hjt' heq ▸ hexp')
      · exact h.settledGone s hs job hold

end Keeps

section Effects

variable {w w' : World}

/-- **Every effect keeps the invariant.** -/
theorem Effect.inv (h : Effect w w') (hinv : Inv w) : Inv w' := by
  cases h with
  | idle h => exact h ▸ hinv
  | saved job hnew hfree hw => exact hw ▸ hinv.save hnew hfree
  | changed row new hrow hid hfree hfree' hcount hw =>
    exact hw ▸ hinv.change hrow hid hfree hfree' hcount
  | renewed row new hrow hid hrunning hrunning' htoken hexpires hcount hw =>
    exact hw ▸ hinv.renew hrow hid hrunning hrunning' htoken hexpires hcount
  | claimed row new run ids hrow hid hfree hrunning hheld hcount hfresh htoken hrun hattempt hw =>
    exact hw ▸ hinv.claim hrow hid hfree hrunning hheld hcount hfresh htoken hrun hattempt
  | finalized row new run run' hrow hrun hheld hid hfree hcount hid' hjobId htoken hattempt hover
      hw =>
    exact hw ▸ hinv.finalize hrow hrun hheld hid hfree hcount hid' hjobId htoken hattempt hover
  | released now retryAt hw => exact hw ▸ hinv.release now retryAt
  | deleted jobId hfree hw => exact hw ▸ hinv.delete jobId

/-- Claims are never forgotten. -/
theorem Effect.rely (h : Effect w w') : Rely w w' := by
  cases h with
  | idle h => exact h ▸ List.Subset.refl _
  | saved _ _ _ hw => exact hw ▸ List.Subset.refl _
  | changed _ _ _ _ _ _ _ hw => exact hw ▸ List.Subset.refl _
  | renewed _ _ _ _ _ _ _ _ _ hw => exact hw ▸ List.Subset.refl _
  | claimed _ _ _ _ _ _ _ _ _ _ _ _ _ _ hw => exact hw ▸ List.subset_cons_self _ _
  | finalized _ _ _ _ _ _ _ _ _ _ _ _ _ _ _ hw => exact hw ▸ List.Subset.refl _
  | released _ _ hw => exact hw ▸ List.Subset.refl _
  | deleted _ _ hw => exact hw ▸ List.Subset.refl _

end Effects

end Scheduler

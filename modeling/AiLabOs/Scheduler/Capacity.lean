import AiLabOs.Process.Paths
import AiLabOs.Scheduler.Fencing
import AiLabOs.Scheduler.Ticks

/-!
# Scheduler: the limit on executions

The limit is checked against rows: a job is started when fewer than the limit are shown as running.
So it bounds the executions whose rows still run under their claims. An execution ceases to be one
of them when it settles, and when a tick releases its claim while it is still in flight; the limit
bounds the executions in flight as long as the second does not happen.

## Main definitions

* `Database.Holds`: the row of a job runs under a token
* `Runtime.holders`: the executions in flight that hold their claims
* `SettlesLast`: a program that does nothing after it has settled
* `Runtime.Inv`, `Runtime.Held`: what every run keeps, and what runs keep whose ticks are timely
* `Runtime.timely`: the tick releases no claim of an execution in flight

## Main results

* `Runtime.Inv.step`, `Runtime.Held.step`: what one event keeps
* `holders_bounded`: the limit bounds the executions that hold their claims
* `concurrency_limit`: it bounds the executions in flight if every tick is timely
-/

namespace Scheduler

open Process

/-! ## Rows under a claim -/

/-- The row is that of a job, and runs under a token. -/
def HeldUnder (jobId token : String) (row : Job) : Prop :=
  row.id = jobId ∧ row.status = .running ∧ row.claimToken = some token

instance (jobId token : String) (row : Job) : Decidable (HeldUnder jobId token row) := by
  unfold HeldUnder
  infer_instance

/-- **The row of a job runs under a token.** -/
def Database.Holds (db : Database) (jobId token : String) : Prop :=
  ∃ row ∈ db.jobs, HeldUnder jobId token row

instance (db : Database) (jobId token : String) : Decidable (db.Holds jobId token) := by
  unfold Database.Holds
  infer_instance

section Rows

variable {jobId token : String} {hit : Job → Bool} {f : Job → Job} {jobs : List Job}

/-- A row that is not held after an update was not changed by it. -/
theorem heldUnder_of_update (hf : ∀ row, hit row = true → HeldUnder jobId token (f row) →
      HeldUnder jobId token row)
    (h : ∃ row ∈ Table.update hit f jobs, HeldUnder jobId token row) :
    ∃ row ∈ jobs, HeldUnder jobId token row := by
  obtain ⟨row, hrow, hheld⟩ := h
  obtain ⟨old, hold, rfl⟩ := Table.mem_update.mp hrow
  split at hheld
  · rename_i hhit
    exact ⟨old, hold, hf old hhit hheld⟩
  · exact ⟨old, hold, hheld⟩

/-- A row that is held stays so under an update that does not end its claim. -/
theorem heldUnder_update (hf : ∀ row ∈ jobs, hit row = true → HeldUnder jobId token row →
      HeldUnder jobId token (f row))
    (h : ∃ row ∈ jobs, HeldUnder jobId token row) :
    ∃ row ∈ Table.update hit f jobs, HeldUnder jobId token row := by
  obtain ⟨row, hrow, hheld⟩ := h
  refine ⟨_, Table.mem_update.mpr ⟨row, hrow, rfl⟩, ?_⟩
  split
  · rename_i hhit
    exact hf row hrow hhit hheld
  · exact hheld

end Rows

/-- What an action that neither makes nor ends a claim keeps. -/
structure Frame (w w' : World) : Prop where
  unique : Table.Unique Job.id w.db.jobs → Table.Unique Job.id w'.db.jobs
  claims : w'.claims = w.claims
  holds : ∀ jobId token, w'.db.Holds jobId token ↔ w.db.Holds jobId token

theorem Frame.refl (w : World) : Frame w w := ⟨id, rfl, fun _ _ => .rfl⟩

section Frames

variable {w : World} {hit : Job → Bool} {f : Job → Job}

/-- An update of rows that hold no claim, which gives them none. -/
theorem Frame.update_free (hid : ∀ row, (f row).id = row.id)
    (hhit : ∀ row, hit row = true → row.status ≠ .running ∨ row.claimToken = none)
    (hf : ∀ row, (f row).status ≠ .running ∨ (f row).claimToken = none) :
    Frame w { w with db := { w.db with jobs := Table.update hit f w.db.jobs } } where
  unique h := h.update hid
  claims := rfl
  holds jobId token := by
    refine ⟨heldUnder_of_update fun row _ hheld => ?_, heldUnder_update fun row _ hrow hheld => ?_⟩
    · rcases hf row with hstatus | htoken
      · exact absurd hheld.2.1 hstatus
      · rw [hheld.2.2] at htoken
        cases htoken
    · rcases hhit row hrow with hstatus | htoken
      · exact absurd hheld.2.1 hstatus
      · rw [hheld.2.2] at htoken
        cases htoken

/-- The actions that neither make nor end a claim. -/
def Quiet : Action → Prop
  | .saveJob job => job.status ≠ .running
  | .renewClaim _ _ _ _ => True
  | .pauseJob _ _ _ => True
  | .resumeJob _ _ _ _ => True
  | .deleteJob _ _ => True
  | .cancelJob _ _ => True
  | .rescheduleJob _ _ _ _ _ _ => True
  | .now => True
  | .execute _ _ => True
  | _ => False

theorem frame_saveJob {job : Job} (hjob : job.status ≠ .running) {db : Database}
    (hok : w.db.saveJob job = .ok db) : Frame w { w with db } := by
  unfold Database.saveJob at hok
  split at hok
  · cases hok
  · rename_i hnew
    cases hok
    refine ⟨fun h => h.insert fun row hrow heq => hnew ?_, rfl, fun jobId token => ?_⟩
    · exact List.any_eq_true.mpr ⟨row, hrow, decide_eq_true heq⟩
    · constructor
      · rintro ⟨row, hrow, hheld⟩
        rcases List.mem_append.mp hrow with hrow | hrow
        · exact ⟨row, hrow, hheld⟩
        · rw [List.mem_singleton.mp hrow] at hheld
          exact absurd hheld.2.1 hjob
      · rintro ⟨row, hrow, hheld⟩
        exact ⟨row, List.mem_append_left _ hrow, hheld⟩

theorem frame_renewClaim (jobId token : String) (expiresAt now : DateTime) :
    Frame w { w with db := (w.db.renewClaim jobId token expiresAt now).2 } where
  unique h := h.update fun _ => rfl
  claims := rfl
  holds jobId' token' := by
    constructor
    · exact heldUnder_of_update fun row _ hheld => hheld
    · exact heldUnder_update fun row _ _ hheld => hheld

theorem frame_deleteJob (jobId : String) (revision : Option ℕ) :
    Frame w { w with db := (w.db.deleteJob jobId revision).2 } := by
  unfold Database.deleteJob
  split
  · exact .refl w
  · rename_i revision' _
    -- the rows that stay are those the condition does not name
    have hkept : ∀ runs, Frame w { w with db := ⟨w.db.jobs.filter fun job =>
        !(job.id = jobId && job.revision = revision' && job.status ≠ .running &&
          job.claimToken.isNone), runs⟩ } := by
      intro runs
      refine ⟨fun h => h.filter _, rfl, fun jobId' token => ?_⟩
      constructor
      · rintro ⟨row, hrow, hheld⟩
        exact ⟨row, List.mem_of_mem_filter hrow, hheld⟩
      · rintro ⟨row, hrow, hheld⟩
        refine ⟨row, List.mem_filter.mpr ⟨hrow, ?_⟩, hheld⟩
        simp [hheld.2.1]
    dsimp only
    split
    · exact hkept _
    · exact hkept _

/-- **An action that neither makes nor ends a claim** keeps them all. -/
theorem Quiet.frame {e : Action} (he : Quiet e) {i : ℕ} {input : Input} {r : e.Reply} {w' : World}
    (hr : handler i e input w = some (r, w')) : Frame w w' := by
  cases e with
  | now =>
    cases input <;> simp only [handler, Option.some.injEq, Prod.mk.injEq, reduceCtorEq] at hr
    rw [← hr.2]
    exact .refl w
  | execute job run =>
    cases input <;> simp only [handler, reduceCtorEq] at hr
    split at hr
    · cases hr
      exact .refl w
    · cases hr
  | saveJob job =>
    cases input <;> simp only [handler, reduceCtorEq] at hr
    split at hr
    · cases hr
      exact .refl w
    · rename_i db hok
      cases hr
      exact frame_saveJob he hok
  | renewClaim jobId token expiresAt now =>
    cases input <;> simp only [handler, Option.some.injEq, Prod.mk.injEq, reduceCtorEq] at hr
    rw [← hr.2]
    exact frame_renewClaim jobId token expiresAt now
  | pauseJob jobId revision now =>
    cases input <;> simp only [handler, Option.some.injEq, Prod.mk.injEq, reduceCtorEq] at hr
    rw [← hr.2]
    refine Frame.update_free (f := Database.pausedRow now) (fun _ => rfl) (fun row hhit => ?_)
      (fun _ => .inl (by rintro ⟨⟩))
    simp only [Bool.and_eq_true, Option.isNone_iff_eq_none] at hhit
    exact .inr hhit.2
  | resumeJob jobId revision next now =>
    cases input <;> simp only [handler, Option.some.injEq, Prod.mk.injEq, reduceCtorEq] at hr
    rw [← hr.2]
    refine Frame.update_free (f := Database.resumedRow next now) (fun _ => rfl)
      (fun row hhit => ?_) (fun _ => .inl (by rintro ⟨⟩))
    simp only [Bool.and_eq_true, Option.isNone_iff_eq_none] at hhit
    exact .inr hhit.2
  | deleteJob jobId revision =>
    cases input <;> simp only [handler, Option.some.injEq, Prod.mk.injEq, reduceCtorEq] at hr
    rw [← hr.2]
    exact frame_deleteJob jobId revision
  | cancelJob jobId now =>
    cases input <;> simp only [handler, Option.some.injEq, Prod.mk.injEq, reduceCtorEq] at hr
    rw [← hr.2]
    refine Frame.update_free (f := Database.cancelledRow now) (fun _ => rfl) (fun row hhit => ?_)
      (fun _ => .inr rfl)
    simp only [Bool.and_eq_true] at hhit
    exact .inl (cancellable_not_running hhit.2)
  | rescheduleJob jobId revision runAt timezone payload now =>
    cases input <;> simp only [handler, Option.some.injEq, Prod.mk.injEq, reduceCtorEq] at hr
    rw [← hr.2]
    refine Frame.update_free (f := Database.rescheduledRow runAt timezone payload now)
      (fun _ => rfl) (fun row hhit => ?_) (fun _ => .inl (by rintro ⟨⟩))
    simp only [Bool.and_eq_true, Option.isNone_iff_eq_none] at hhit
    exact .inr hhit.1.2
  | newId => exact he.elim
  | claimJob jobId now expiresAt => exact he.elim
  | finalizeClaim job run token => exact he.elim
  | releaseExpiredClaims now retryAt => exact he.elim

end Frames

/-! ## Programs -/

/-- **The program settles last**: until it has settled its own claim it makes and ends none, and
then it is over. -/
def SettlesLast (token : String) : Prog Unit → Prop
  | .ret _ => True
  | .raise _ => True
  | .await (.finalizeClaim _ _ token') next => token' = token ∧ ∀ r, (next r).Ended
  | .await e next => Quiet e ∧ ∀ r, SettlesLast token (next r)

section Programs

variable {token : String}

theorem settlesLast_now {f : DateTime → Prog Unit} (h : ∀ t, SettlesLast token (f t)) :
    SettlesLast token (clockNow >>= f) := ⟨trivial, h⟩

theorem settlesLast_finalize (job : Job) (run : JobRun) :
    SettlesLast token (finalize job run token) := by
  refine ⟨rfl, fun r => ?_⟩
  cases r with
  | ok _ => trivial
  | error e => cases e <;> trivial

theorem settlesLast_failRun (job : Job) (run : JobRun) (error : FailureInfo) :
    SettlesLast token (failRun job run token error) :=
  settlesLast_now fun _ => settlesLast_finalize _ _

theorem settlesLast_nextRun {config : Config} {job : Job}
    {f : Except Raised (Option DateTime) → Prog Unit} (h : ∀ next, SettlesLast token (f next)) :
    SettlesLast token (nextRun config job >>= f) := by
  unfold nextRun
  split
  · exact settlesLast_now fun _ => h _
  · split
    · refine ⟨trivial, fun t => ?_⟩
      dsimp only [Program.bind]
      cases t.plus config.retryDelay with
      | none => exact h _
      | some t' => exact h _
    · exact h _

/-- **`_run_job` settles last.** -/
theorem settlesLast_runJob (config : Config) (job : Job) (run : JobRun) :
    SettlesLast token (runJob config job run token) := by
  refine ⟨trivial, fun execution => ?_⟩
  cases execution with
  | raised counted error => exact settlesLast_failRun _ _ _
  | finished status failure finishedAt =>
    refine settlesLast_nextRun fun next => ?_
    cases next with
    | error x => exact settlesLast_failRun _ _ _
    | ok next => exact settlesLast_now fun _ => settlesLast_finalize _ _

/-- What a program that settles last may do next. -/
theorem SettlesLast.await_cases {e : Action} {next : e.Reply → Prog Unit}
    (h : SettlesLast token (.await e next)) :
    (Quiet e ∧ ∀ r, SettlesLast token (next r)) ∨
      (∃ job run, e = .finalizeClaim job run token) ∧ ∀ r, (next r).Ended := by
  cases e with
  | finalizeClaim job run token' =>
    obtain ⟨rfl, hended⟩ := h
    exact .inr ⟨⟨job, run, rfl⟩, hended⟩
  | _ => exact .inl h

theorem SettlesLast.of_ended {p : Prog Unit} (h : p.Ended) : SettlesLast token p := by
  cases p with
  | ret _ => trivial
  | raise _ => trivial
  | await e next => exact h.elim

end Programs

/-! ## Runtimes -/

/-- **An execution in flight that holds its claim.** -/
def Flight.holds (db : Database) (flight : Flight) : Bool :=
  flight.live && db.Holds flight.jobId flight.token

theorem Flight.holds_iff {db : Database} {flight : Flight} :
    flight.holds db = true ↔ flight.live = true ∧ db.Holds flight.jobId flight.token := by
  unfold holds
  rw [Bool.and_eq_true, decide_eq_true_eq]

theorem Flight.live_of_ended {flight : Flight} (h : flight.rest.Ended) : flight.live = false := by
  unfold live
  cases hrest : flight.rest with
  | ret _ => rfl
  | raise _ => rfl
  | await e next =>
    rw [hrest] at h
    exact h.elim

namespace Runtime

/-- **What every run keeps**: the executions have tokens of their own, which were drawn, and no more
of them hold their claims than the limit allows. -/
structure Inv (config : Limits) (w : World) (flights : List Flight) : Prop where
  unique : Table.Unique Job.id w.db.jobs
  tokens : (flights.map Flight.token).Nodup
  drawn : ∀ flight ∈ flights, ∃ claim ∈ w.claims, claim.token = flight.token
  settles : ∀ flight ∈ flights, SettlesLast flight.token flight.rest
  bounded : flights.countP (Flight.holds w.db) ≤ config.maxConcurrentJobs

/-- **Every execution in flight holds its claim.** -/
def Held (w : World) (flights : List Flight) : Prop :=
  ∀ flight ∈ flights, flight.live = true → w.db.Holds flight.jobId flight.token

section Keeping

variable {config : Limits} {w w' : World} {flights : List Flight}

/-- Where no claim comes to be held, the invariant stays. -/
theorem Inv.shrink (h : Inv config w flights) (hunique : Table.Unique Job.id w'.db.jobs)
    (hclaims : w'.claims = w.claims)
    (hholds : ∀ jobId token, w'.db.Holds jobId token → w.db.Holds jobId token) :
    Inv config w' flights where
  unique := hunique
  tokens := h.tokens
  drawn flight hflight := by
    rw [hclaims]
    exact h.drawn flight hflight
  settles := h.settles
  bounded := by
    refine le_trans (List.countP_mono_left fun flight _ hflight => ?_) h.bounded
    obtain ⟨hlive, hheld⟩ := Flight.holds_iff.mp hflight
    exact Flight.holds_iff.mpr ⟨hlive, hholds _ _ hheld⟩

theorem Inv.frame (h : Inv config w flights) (hframe : Frame w w') : Inv config w' flights :=
  h.shrink (hframe.unique h.unique) hframe.claims fun _ _ => (hframe.holds _ _).mp

theorem Held.frame (h : Held w flights) (hframe : Frame w w') : Held w' flights :=
  fun flight hflight hlive => (hframe.holds _ _).mpr (h flight hflight hlive)

/-- If every execution holds its claim, the limit bounds those in flight. -/
theorem Inv.inFlight_le (h : Inv config w flights) (hheld : Held w flights) :
    flights.countP Flight.live ≤ config.maxConcurrentJobs := by
  refine le_trans (List.countP_mono_left fun flight hflight hlive => ?_) h.bounded
  exact Flight.holds_iff.mpr ⟨hlive, hheld flight hflight hlive⟩

/-- An execution that goes on is replaced by what it has become. -/
theorem Inv.set (h : Inv config w flights) {i : ℕ} {flight : Flight} {rest : Prog Unit}
    (hi : flights[i]? = some flight)
    (hlive : ({ flight with rest } : Flight).live = true → flight.live = true)
    (hrest : SettlesLast flight.token rest) :
    Inv config w (flights.set i { flight with rest }) := by
  obtain ⟨hlt, hget⟩ := List.getElem?_eq_some_iff.mp hi
  refine ⟨h.unique, ?_, fun other hother => ?_, fun other hother => ?_, ?_⟩
  · have hsame : (flights.set i { flight with rest }).map Flight.token =
        flights.map Flight.token := by
      rw [List.map_set]
      refine List.ext_getElem (by simp) fun j hj _ => ?_
      rw [List.getElem_set]
      split
      · rename_i hij
        subst hij
        rw [List.getElem_map, hget]
      · rfl
    rw [hsame]
    exact h.tokens
  · rcases List.mem_or_eq_of_mem_set hother with hother | rfl
    · exact h.drawn other hother
    · exact h.drawn flight (List.mem_of_getElem? hi)
  · rcases List.mem_or_eq_of_mem_set hother with hother | rfl
    · exact h.settles other hother
    · exact hrest
  · -- what the execution has become holds its claim only if it did before
    have hbefore : ∀ {new : Flight}, new = { flight with rest } →
        new.holds w.db = true → flights[i].holds w.db = true := by
      rintro new rfl hholds
      rw [hget]
      obtain ⟨hnew, hheld⟩ := Flight.holds_iff.mp hholds
      exact Flight.holds_iff.mpr ⟨hlive hnew, hheld⟩
    have hpos : flights[i].holds w.db = true → 0 < flights.countP (Flight.holds w.db) :=
      fun hp => List.countP_pos_iff.mpr ⟨_, List.getElem_mem hlt, hp⟩
    have hbound := h.bounded
    rw [List.countP_set hlt]
    by_cases hnew : ({ flight with rest } : Flight).holds w.db = true
    · have hold := hbefore rfl hnew
      have := hpos hold
      rw [if_pos hold, if_pos hnew]
      omega
    · rw [if_neg hnew]
      omega

theorem Held.set (h : Held w flights) {i : ℕ} {flight : Flight} {rest : Prog Unit}
    (hi : flights[i]? = some flight)
    (hlive : ({ flight with rest } : Flight).live = true → flight.live = true) :
    Held w (flights.set i { flight with rest }) := by
  intro other hother hother'
  rcases List.mem_or_eq_of_mem_set hother with hother | rfl
  · exact h other hother hother'
  · exact h flight (List.mem_of_getElem? hi) (hlive hother')

/-! ### The management of jobs -/

/-- What the management of jobs changes: neither a claim nor an execution. -/
structure Managed (s s' : Runtime) : Prop where
  frame : Frame s.world s'.world
  flights : s'.flights = s.flights

variable {s s' : Runtime}

theorem Managed.refl (s : Runtime) : Managed s s := ⟨.refl _, rfl⟩

theorem Managed.inv (h : Managed s s') (hinv : Inv config s.world s.flights) :
    Inv config s'.world s'.flights := by
  rw [h.flights]
  exact hinv.frame h.frame

theorem Managed.held (h : Managed s s') (hheld : Held s.world s.flights) :
    Held s'.world s'.flights := by
  rw [h.flights]
  exact hheld.frame h.frame

/-- One quiet transaction, and changes of the registry after it. -/
theorem Managed.of_perform {e : Action} (he : Quiet e) {input : Input}
    {g : e.Reply × Runtime → Runtime} (hworld : ∀ p, (g p).world = p.2.world)
    (hflights : ∀ p, (g p).flights = p.2.flights) (h : (s.perform e input).map g = some s') :
    Managed s s' := by
  obtain ⟨p, hp, rfl⟩ := Option.map_eq_some_iff.mp h
  obtain ⟨⟨r, w⟩, hr, rfl⟩ := Option.map_eq_some_iff.mp hp
  exact ⟨by rw [hworld]; exact he.frame hr, by rw [hflights]⟩

theorem managed_save {job : Job} (hjob : job.status ≠ .running) (h : s.save job = some s') :
    Managed s s' := by
  refine Managed.of_perform (e := .saveJob job) hjob (fun p => ?_) (fun p => ?_) h
  · obtain ⟨r, s''⟩ := p
    cases r <;> rfl
  · obtain ⟨r, s''⟩ := p
    cases r <;> rfl

theorem managed_schedule {request : ScheduleRequest} {id : String} {now createdAt : DateTime}
    (h : s.schedule request id now createdAt = some s') : Managed s s' := by
  unfold schedule at h
  split at h
  · cases h
    exact .refl s
  · split at h
    · cases h
      exact .refl s
    · dsimp only at h
      split at h
      · cases h
        exact .refl s
      · have hmanaged := managed_save (fun hrunning => JobStatus.noConfusion hrunning) h
        exact ⟨hmanaged.frame, hmanaged.flights⟩

theorem afterChange_world (p : Option Job × Runtime) : (afterChange p).world = p.2.world := by
  obtain ⟨job, s⟩ := p
  cases job <;> rfl

theorem afterChange_flights (p : Option Job × Runtime) : (afterChange p).flights = p.2.flights := by
  obtain ⟨job, s⟩ := p
  cases job <;> rfl

theorem managed_pauseJob {jobId : String} {now : DateTime} (h : s.pauseJob jobId now = some s') :
    Managed s s' := by
  unfold pauseJob at h
  split at h
  · cases h
    exact .refl s
  · rename_i job _
    split at h
    · cases h
      exact ⟨.refl _, rfl⟩
    · have hmanaged := Managed.of_perform (e := .pauseJob jobId job.revision now) trivial
        afterChange_world afterChange_flights h
      exact ⟨hmanaged.frame, hmanaged.flights⟩

theorem managed_resumeJob {jobId : String} {now changedAt : DateTime}
    (h : s.resumeJob jobId now changedAt = some s') : Managed s s' := by
  unfold resumeJob at h
  split at h
  · cases h
    exact .refl s
  · rename_i job _
    split at h
    · cases h
      exact ⟨.refl _, rfl⟩
    · split at h
      · cases h
        exact ⟨.refl _, rfl⟩
      · rename_i next _
        have hmanaged := Managed.of_perform (e := .resumeJob jobId job.revision next changedAt)
          trivial afterChange_world afterChange_flights h
        exact ⟨hmanaged.frame, hmanaged.flights⟩

theorem managed_deleteJob {jobId : String} (h : s.deleteJob jobId = some s') : Managed s s' := by
  unfold deleteJob at h
  split at h
  · cases h
    exact .refl s
  · rename_i job _
    split at h
    · cases h
      exact ⟨.refl _, rfl⟩
    · have hmanaged := Managed.of_perform (e := .deleteJob jobId (some job.revision)) trivial
        (fun p => by obtain ⟨deleted, s''⟩ := p; cases deleted <;> rfl)
        (fun p => by obtain ⟨deleted, s''⟩ := p; cases deleted <;> rfl) h
      exact ⟨hmanaged.frame, hmanaged.flights⟩

theorem managed_cancelJob {jobId : String} {now : DateTime} (h : s.cancelJob jobId now = some s') :
    Managed s s' := by
  unfold cancelJob at h
  split at h
  · cases h
    exact .refl s
  · have hmanaged := Managed.of_perform (e := .cancelJob jobId now)
      (g := fun p => p.2.sync) trivial (fun _ => rfl) (fun _ => rfl) h
    exact ⟨hmanaged.frame, hmanaged.flights⟩

theorem managed_rescheduleOneShot {jobId timezoneName : String} {runAt now : DateTime}
    {payload : Payload} (h : s.rescheduleOneShot jobId runAt timezoneName payload now = some s') :
    Managed s s' := by
  unfold rescheduleOneShot at h
  split at h
  · cases h
    exact .refl s
  · rename_i job _
    split at h
    · cases h
      exact ⟨.refl _, rfl⟩
    · have hmanaged := Managed.of_perform
        (e := .rescheduleJob jobId job.revision runAt timezoneName payload now)
        (g := fun p => p.2.sync) trivial (fun _ => rfl) (fun _ => rfl) h
      exact ⟨hmanaged.frame, hmanaged.flights⟩

theorem managed_renew {i : ℕ} {now : DateTime} (h : s.renew config i now = some s') :
    Managed s s' := by
  unfold renew at h
  split at h
  · cases h
  · cases h
    exact .refl s
  · rename_i flight expiresAt _ _
    split at h
    · exact Managed.of_perform (e := .renewClaim flight.jobId flight.token expiresAt now) trivial
        (fun _ => rfl) (fun _ => rfl) h
    · cases h

/-! ### Executions -/

/-- **A settlement** frees the row under its token, and no other. -/
theorem finalize_holds {job : Job} {run : JobRun} {token : String} {i : ℕ} {input : Input}
    {r : Except PersistenceError Unit}
    (hr : handler i (.finalizeClaim job run token) input w = some (r, w')) :
    (Table.Unique Job.id w.db.jobs → Table.Unique Job.id w'.db.jobs) ∧ w'.claims = w.claims ∧
    (∀ jobId token', w'.db.Holds jobId token' → w.db.Holds jobId token') ∧
    ∀ jobId token', token' ≠ token → w.db.Holds jobId token' → w'.db.Holds jobId token' := by
  cases input <;> simp only [handler, reduceCtorEq] at hr
  split at hr
  · cases hr
    exact ⟨id, rfl, fun _ _ => id, fun _ _ _ => id⟩
  · rename_i db hok
    cases hr
    unfold Database.finalizeClaim at hok
    dsimp only at hok
    split at hok
    · cases hok
    · split at hok
      · cases hok
      · cases hok
        refine ⟨fun h => h.update fun _ => rfl, rfl, fun jobId token' => ?_,
          fun jobId token' hne => ?_⟩
        · refine heldUnder_of_update fun row _ hheld => ?_
          cases hheld.2.2
        · refine heldUnder_update fun row _ hhit hheld => ?_
          simp only [Bool.and_eq_true, decide_eq_true_eq] at hhit
          exact absurd (Option.some.inj (hheld.2.2.symm.trans hhit.2)) hne

theorem act_keeps {i : ℕ} {input : Input} (h : Inv config s.world s.flights)
    (hact : s.act i input = some s') :
    Inv config s'.world s'.flights ∧ (Held s.world s.flights → Held s'.world s'.flights) := by
  unfold act at hact
  split at hact
  · rename_i jobId token e next hi
    obtain ⟨⟨r, w⟩, hr, rfl⟩ := Option.map_eq_some_iff.mp hact
    dsimp only
    have hlast : SettlesLast token (.await e next) := h.settles _ (List.mem_of_getElem? hi)
    rcases hlast.await_cases with ⟨hquiet, hnext⟩ | ⟨⟨job, run, rfl⟩, hended⟩
    · have hframe := hquiet.frame hr
      have hset := h.set hi (fun _ => rfl) (hnext r)
      exact ⟨hset.frame hframe, fun hheld => (hheld.set hi fun _ => rfl).frame hframe⟩
    · obtain ⟨hunique, hclaims, hback, hforth⟩ := finalize_holds hr
      have hset := h.set hi (fun _ => rfl) (SettlesLast.of_ended (hended r))
      refine ⟨hset.shrink (hunique h.unique) hclaims hback, fun hheld other hother hlive => ?_⟩
      refine hforth _ _ (fun htoken => ?_) (hheld.set hi (fun _ => rfl) other hother hlive)
      -- the execution of this token is over
      obtain ⟨hlt, -⟩ := List.getElem?_eq_some_iff.mp hi
      have hself := List.mem_set hlt ⟨jobId, token, next r⟩
      rw [List.inj_on_of_nodup_map hset.tokens hother hself htoken] at hlive
      rw [Flight.live_of_ended (hended r)] at hlive
      cases hlive
  · cases hact

theorem ends_keeps {i : ℕ} (h : Inv config s.world s.flights) (hends : s.ends i = some s') :
    Inv config s'.world s'.flights ∧ (Held s.world s.flights → Held s'.world s'.flights) := by
  obtain ⟨flight, hi, rfl⟩ := Option.map_eq_some_iff.mp hends
  refine ⟨h.set hi (fun hlive => ?_) trivial, fun hheld => hheld.set hi fun hlive => ?_⟩
  · cases hlive
  · cases hlive

/-! ### Ticks -/

/-- The tick releases the claim of no execution in flight. -/
def unexpired (s : Runtime) (now : DateTime) : Bool :=
  s.flights.all fun flight => !flight.live || s.world.db.jobs.all fun row =>
    !(row.id = flight.jobId && row.claimToken = some flight.token && expired now row)

theorem expired_of_unexpired {now : DateTime} (h : s.unexpired now = true) {flight : Flight}
    (hflight : flight ∈ s.flights) (hlive : flight.live = true) {row : Job}
    (hrow : row ∈ s.world.db.jobs) (hid : row.id = flight.jobId)
    (htoken : row.claimToken = some flight.token) : expired now row = false := by
  have hall := List.all_eq_true.mp h flight hflight
  rw [hlive, Bool.not_true, Bool.false_or] at hall
  have hthis := List.all_eq_true.mp hall row hrow
  simpa [hid, htoken] using hthis

/-- The release of expired claims gives none, and takes none from an execution that is in time. -/
theorem release_keeps {now retryAt : DateTime} {p : ℕ × Runtime} (h : Inv config s.world s.flights)
    (hp : s.perform (.releaseExpiredClaims now retryAt) .reached = some p) :
    Inv config p.2.world p.2.flights ∧
      (s.unexpired now = true → Held s.world s.flights → Held p.2.world p.2.flights) := by
  obtain ⟨⟨r, w⟩, hr, rfl⟩ := Option.map_eq_some_iff.mp hp
  simp only [handler, Option.some.injEq, Prod.mk.injEq] at hr
  obtain ⟨rfl, rfl⟩ := hr
  refine ⟨h.shrink (h.unique.update fun _ => rfl) rfl fun jobId token => ?_,
    fun htime hheld flight hflight hlive => ?_⟩
  · refine heldUnder_of_update fun row _ hheld => ?_
    cases hheld.2.2
  · refine heldUnder_update (fun row hrow hhit hrowHeld => ?_) (hheld flight hflight hlive)
    rw [expired_of_unexpired htime hflight hlive hrow hrowHeld.1 hrowHeld.2.2] at hhit
    cases hhit

/-- Fewer executions hold their claims than are shown as running. -/
theorem Inv.holders_le (h : Inv config s.world s.flights)
    (hshows : s.registry.Shows s.world.db.jobs) :
    s.flights.countP (Flight.holds s.world.db) ≤ s.registry.runningCount := by
  have hnodup : ((s.flights.filter (Flight.holds s.world.db)).map Flight.jobId).Nodup := by
    refine List.Nodup.map_on (fun a ha b hb hjob => ?_) ((List.Nodup.of_map _ h.tokens).filter _)
    obtain ⟨ha, hholds⟩ := List.mem_filter.mp ha
    obtain ⟨hb, hholds'⟩ := List.mem_filter.mp hb
    obtain ⟨row, hrow, hid, -, htoken⟩ := (Flight.holds_iff.mp hholds).2
    obtain ⟨row', hrow', hid', -, htoken'⟩ := (Flight.holds_iff.mp hholds').2
    -- two executions of one job hold the same row, so their tokens agree
    have hsame := h.unique.eq hrow hrow' (hid.trans (hjob.trans hid'.symm))
    rw [hsame, htoken'] at htoken
    exact (List.inj_on_of_nodup_map h.tokens hb ha (Option.some.inj htoken)).symm
  have hlength := hshows.length_le hnodup fun id hid => by
    obtain ⟨flight, hflight, rfl⟩ := List.mem_map.mp hid
    obtain ⟨row, hrow, hrowId, hrunning, -⟩ :=
      (Flight.holds_iff.mp (List.mem_filter.mp hflight).2).2
    exact ⟨row, hrow, hrowId, hrunning⟩
  rwa [List.length_map, ← List.countP_eq_length_filter] at hlength

/-- What the rest of a tick keeps, once the registry is up to date. -/
structure Ready (config : Limits) (s : Runtime) : Prop where
  inv : Inv config s.world s.flights
  shows : s.registry.Shows s.world.db.jobs

/-- A claim takes a row that no other claim holds. -/
theorem holds_of_claimed {w : World} {row : Job} {now expiresAt : DateTime} {token : String}
    {runs : List JobRun} (hunique : Table.Unique Job.id w.db.jobs) (hrow : row ∈ w.db.jobs)
    (hfree : row.status ≠ .running) {jobId token' : String} (hne : token' ≠ token) :
    Database.Holds
      ⟨Table.put Job.id (Database.claimedRow now token expiresAt row) w.db.jobs, runs⟩
      jobId token' ↔ w.db.Holds jobId token' := by
  constructor
  · rintro ⟨other, hother, hheld⟩
    rcases Table.mem_put.mp hother with ⟨rfl, -⟩ | ⟨hother, -⟩
    · exact absurd (Option.some.inj hheld.2.2).symm hne
    · exact ⟨other, hother, hheld⟩
  · rintro ⟨other, hother, hheld⟩
    refine ⟨other, Table.mem_put_of_ne hother fun hid => ?_, hheld⟩
    have hsame := hunique.eq hother hrow hid
    rw [hsame] at hheld
    exact hfree hheld.2.1

/-- The world after a claim that was made. -/
def claimedWorld (w : World) (row : Job) (now expiresAt : DateTime) (ids : ClaimIds)
    (runs : List JobRun) (jobId : String) : World where
  db := ⟨Table.put Job.id (Database.claimedRow now ids.token expiresAt row) w.db.jobs, runs⟩
  claims := ⟨ids.token, ids.runId, jobId, row.runCount⟩ :: w.claims
  settled := w.settled

section Starting

variable {row : Job} {now expiresAt : DateTime} {ids : ClaimIds} {runs : List JobRun}
variable {jobId : String} {rest : Prog Unit}

/-- A new token is that of no execution. -/
theorem Inv.fresh_token (h : Inv config w flights) (hfresh : w.Fresh ids) :
    ∀ flight ∈ flights, flight.token ≠ ids.token := by
  intro flight hflight heq
  obtain ⟨claim, hclaim, htoken⟩ := h.drawn flight hflight
  exact hfresh.1 claim hclaim (htoken.trans heq)

/-- **An execution is started** where the limit leaves room for one more. -/
theorem Inv.start (h : Inv config w flights) (hfresh : w.Fresh ids) (hrow : row ∈ w.db.jobs)
    (hfree : row.status ≠ .running) (hrest : SettlesLast ids.token rest)
    (hroom : flights.countP (Flight.holds w.db) < config.maxConcurrentJobs) :
    Inv config (claimedWorld w row now expiresAt ids runs jobId)
      (flights ++ [⟨row.id, ids.token, rest⟩]) where
  unique := h.unique.put
  tokens := by
    rw [List.map_append, List.map_singleton, List.nodup_append]
    refine ⟨h.tokens, List.nodup_singleton _, fun token htoken token' htoken' => ?_⟩
    obtain ⟨flight, hflight, rfl⟩ := List.mem_map.mp htoken
    rw [List.mem_singleton.mp htoken']
    exact h.fresh_token hfresh flight hflight
  drawn flight hflight := by
    rcases List.mem_append.mp hflight with hflight | hflight
    · obtain ⟨claim, hclaim, htoken⟩ := h.drawn flight hflight
      exact ⟨claim, List.mem_cons_of_mem _ hclaim, htoken⟩
    · rw [List.mem_singleton.mp hflight]
      exact ⟨_, List.mem_cons_self .., rfl⟩
  settles flight hflight := by
    rcases List.mem_append.mp hflight with hflight | hflight
    · exact h.settles flight hflight
    · rw [List.mem_singleton.mp hflight]
      exact hrest
  bounded := by
    rw [List.countP_append]
    have hold : flights.countP (Flight.holds (claimedWorld w row now expiresAt ids runs jobId).db) ≤
        flights.countP (Flight.holds w.db) := by
      refine List.countP_mono_left fun flight hflight hholds => ?_
      obtain ⟨hlive, hheld⟩ := Flight.holds_iff.mp hholds
      have hne := h.fresh_token hfresh flight hflight
      exact Flight.holds_iff.mpr ⟨hlive, (holds_of_claimed h.unique hrow hfree hne).mp hheld⟩
    have hone : [(⟨row.id, ids.token, rest⟩ : Flight)].countP
        (Flight.holds (claimedWorld w row now expiresAt ids runs jobId).db) ≤ 1 :=
      List.countP_le_length
    omega

theorem Held.start (h : Held w flights) (hinv : Inv config w flights) (hfresh : w.Fresh ids)
    (hrow : row ∈ w.db.jobs) (hfree : row.status ≠ .running) :
    Held (claimedWorld w row now expiresAt ids runs jobId)
      (flights ++ [⟨row.id, ids.token, rest⟩]) := by
  intro flight hflight hlive
  rcases List.mem_append.mp hflight with hflight | hflight
  · have hne := hinv.fresh_token hfresh flight hflight
    exact (holds_of_claimed hinv.unique hrow hfree hne).mpr (h flight hflight hlive)
  · rw [List.mem_singleton.mp hflight]
    exact ⟨_, Table.mem_put_self hrow rfl, rfl, rfl, rfl⟩

end Starting

/-- **A claim** that is tried while fewer jobs than the limit are shown as running. -/
theorem Ready.claim (h : Ready config s) {now expiresAt : DateTime} {jobId : String}
    {ids : ClaimIds} {reply : ClaimIds × Except PersistenceError (Option Job)} {s₁ : Runtime}
    (hroom : s.registry.runningCount < config.maxConcurrentJobs)
    (hp : s.perform (.claimJob jobId now expiresAt) (.claim ids) = some (reply, s₁)) :
    Ready config (afterClaim config now reply s₁).1 ∧ (Held s.world s.flights →
      Held (afterClaim config now reply s₁).1.world
        (afterClaim config now reply s₁).1.flights) := by
  obtain ⟨⟨r, w⟩, hr, heq⟩ := Option.map_eq_some_iff.mp hp
  obtain ⟨rfl, rfl⟩ := Prod.mk.inj heq
  simp only [handler] at hr
  split at hr
  · rename_i hfresh
    split at hr
    · cases hr
      exact ⟨h, id⟩
    · rename_i db hok
      cases hr
      rcases claimJob_ok h.inv.unique hok with ⟨-, rfl⟩ | ⟨row, -, -, -, hsome, -⟩
      · exact ⟨h, id⟩
      · cases hsome
    · rename_i job db hok
      cases hr
      rcases claimJob_ok h.inv.unique hok with ⟨hnone, -⟩ | ⟨row, hrow, -, hdue, hsome, rfl⟩
      · cases hnone
      obtain rfl := Option.some.inj hsome
      have hfree := claimable_not_running hdue
      have hholders := lt_of_le_of_lt (h.inv.holders_le h.shows) hroom
      refine ⟨⟨?_, h.shows.replace rfl⟩, fun hheld => ?_⟩
      · exact h.inv.start hfresh hrow hfree (settlesLast_runJob _ _ _) hholders
      · exact hheld.start h.inv hfresh hrow hfree
  · cases hr

theorem Ready.dispatchDueJob (h : Ready config s) {now : DateTime} {job : Job} {draw : Draw}
    {p : Runtime × Bool} (hp : s.dispatchDueJob config now job draw = some p) :
    Ready config p.1 ∧ (Held s.world s.flights → Held p.1.world p.1.flights) := by
  unfold Runtime.dispatchDueJob at hp
  split at hp
  · cases hp
    exact ⟨h, id⟩
  · split at hp
    · cases hp
      exact ⟨h, id⟩
    · cases hp
      exact ⟨h, id⟩
  · split at hp
    · cases hp
      exact ⟨h, id⟩
    · rename_i hroom
      split at hp
      · cases hp
        exact ⟨h, id⟩
      · obtain ⟨⟨reply, s₁⟩, hclaim, rfl⟩ := Option.map_eq_some_iff.mp hp
        exact h.claim (Nat.lt_of_not_le hroom) hclaim

/-- **The loop of a tick**, by induction on the jobs that are left. -/
theorem Ready.dispatchAll {now : DateTime} {draws : String → Draw} {jobs : List Job}
    (h : Ready config s) (hs' : Runtime.dispatchAll config now draws jobs s = some s') :
    Ready config s' ∧ (Held s.world s.flights → Held s'.world s'.flights) := by
  induction jobs generalizing s with
  | nil =>
    cases hs'
    exact ⟨h, id⟩
  | cons job jobs ih =>
    unfold Runtime.dispatchAll at hs'
    split at hs'
    · obtain ⟨p, hp, hs'⟩ := Option.bind_eq_some_iff.mp hs'
      obtain ⟨hready, hkeep⟩ := h.dispatchDueJob hp
      split at hs'
      · obtain ⟨hdone, hkeep'⟩ := ih hready hs'
        exact ⟨hdone, fun hheld => hkeep' (hkeep hheld)⟩
      · cases hs'
        exact ⟨hready, hkeep⟩
    · exact ih h hs'

theorem refreshAndDispatch_keeps {now : DateTime} {loads : Bool} {draws : String → Draw}
    (h : Inv config s.world s.flights)
    (hs' : s.refreshAndDispatch config now loads draws = some s') :
    Inv config s'.world s'.flights ∧ (Held s.world s.flights → Held s'.world s'.flights) := by
  unfold refreshAndDispatch at hs'
  split at hs'
  · split at hs'
    · rename_i hsynced
      have hready : Ready config s.sync := ⟨h, Registry.sync_shows h.unique hsynced⟩
      unfold dispatchWaiting at hs'
      dsimp only at hs'
      split at hs'
      · obtain ⟨hdone, hkeep⟩ := hready.dispatchAll hs'
        exact ⟨hdone.inv, hkeep⟩
      · cases hs'
        exact ⟨h, id⟩
    · cases hs'
      exact ⟨h, id⟩
  · cases hs'
    exact ⟨h, id⟩

/-- **The condition**: a tick that releases expired claims finds none of an execution in flight. -/
def timely (config : Limits) (s : Runtime) : RuntimeEvent → Bool
  | .tick now _ _ => (now.plus config.retryDelay).isNone || s.unexpired now
  | _ => true

theorem tick_keeps {now : DateTime} {loads : Bool} {draws : String → Draw}
    (h : Inv config s.world s.flights) (hs' : s.tick config now loads draws = some s') :
    Inv config s'.world s'.flights ∧ (timely config s (.tick now loads draws) = true →
      Held s.world s.flights → Held s'.world s'.flights) := by
  unfold tick at hs'
  split at hs'
  · cases hs'
    exact ⟨h, fun _ => id⟩
  · rename_i retryAt hretry
    obtain ⟨p, hp, hs'⟩ := Option.bind_eq_some_iff.mp hs'
    obtain ⟨hinv, hkeep⟩ := release_keeps h hp
    obtain ⟨hinv', hkeep'⟩ := refreshAndDispatch_keeps hinv hs'
    refine ⟨hinv', fun htimely hheld => hkeep' (hkeep ?_ hheld)⟩
    simpa [timely, hretry] using htimely

/-! ### Runs -/

/-- **One event** keeps the invariant, and, if it is timely, the claims of the executions. -/
theorem step_keeps {ev : RuntimeEvent} (h : Inv config s.world s.flights)
    (hstep : s.step config ev = some s') :
    Inv config s'.world s'.flights ∧ (timely config s ev = true → Held s.world s.flights →
      Held s'.world s'.flights) := by
  have hmanaged : Managed s s' → Inv config s'.world s'.flights ∧ (timely config s ev = true →
      Held s.world s.flights → Held s'.world s'.flights) :=
    fun hm => ⟨hm.inv h, fun _ => hm.held⟩
  cases ev with
  | tick now loads draws => exact tick_keeps h hstep
  | act i input =>
    obtain ⟨hinv, hkeep⟩ := act_keeps h hstep
    exact ⟨hinv, fun _ => hkeep⟩
  | ends i =>
    obtain ⟨hinv, hkeep⟩ := ends_keeps h hstep
    exact ⟨hinv, fun _ => hkeep⟩
  | renew i now => exact hmanaged (managed_renew hstep)
  | schedule request id now createdAt => exact hmanaged (managed_schedule hstep)
  | pause jobId now => exact hmanaged (managed_pauseJob hstep)
  | resume jobId now changedAt => exact hmanaged (managed_resumeJob hstep)
  | delete jobId => exact hmanaged (managed_deleteJob hstep)
  | cancel jobId now => exact hmanaged (managed_cancelJob hstep)
  | reschedule jobId runAt timezoneName payload now =>
    exact hmanaged (managed_rescheduleOneShot hstep)
  | list =>
    cases hstep
    exact hmanaged ⟨.refl _, rfl⟩

/-- **A run** keeps the invariant, and, if its ticks are timely, the claims of the executions. -/
theorem runIf_keeps {ok : Runtime → RuntimeEvent → Bool} {evs : List RuntimeEvent}
    (h : Inv config s.world s.flights) (hrun : runIf config ok s evs = some s') :
    Inv config s'.world s'.flights ∧ ((∀ s ev, ok s ev = true → timely config s ev = true) →
      Held s.world s.flights → Held s'.world s'.flights) := by
  induction evs generalizing s with
  | nil =>
    cases hrun
    exact ⟨h, fun _ => id⟩
  | cons ev evs ih =>
    unfold runIf at hrun
    split at hrun
    · rename_i hok
      obtain ⟨s₁, hstep, hrun⟩ := Option.bind_eq_some_iff.mp hrun
      obtain ⟨hinv, hkeep⟩ := step_keeps h hstep
      obtain ⟨hinv', hkeep'⟩ := ih hinv hrun
      exact ⟨hinv', fun htimely hheld => hkeep' htimely (hkeep (htimely _ _ hok) hheld)⟩
    · cases hrun

/-- A runtime that has started nothing yet. -/
theorem inv_fresh (config : Limits) {db : Database} (hdb : Table.Unique Job.id db.jobs) :
    Inv config (fresh db []).world [] where
  unique := hdb
  tokens := List.nodup_nil
  drawn _ hflight := nomatch hflight
  settles _ hflight := nomatch hflight
  bounded := Nat.zero_le _

end Keeping

/-- How many executions in flight hold their claims. -/
def holders (s : Runtime) : ℕ := s.flights.countP (Flight.holds s.world.db)

end Runtime

/-- **The limit bounds the executions that hold their claims**, in every run. -/
theorem holders_bounded (config : Limits) {db : Database} (hdb : Table.Unique Job.id db.jobs)
    {registry : Registry} {evs : List RuntimeEvent} {s : Runtime}
    (h : (Runtime.fresh db registry).run config evs = some s) :
    s.holders ≤ config.maxConcurrentJobs :=
  (Runtime.runIf_keeps (s := .fresh db registry) (Runtime.inv_fresh config hdb) h).1.bounded

/-- **The limit bounds the executions in flight**, in every run no tick of which releases the claim
of one of them. -/
theorem concurrency_limit (config : Limits) {db : Database} (hdb : Table.Unique Job.id db.jobs)
    {registry : Registry} {evs : List RuntimeEvent} {s : Runtime}
    (h : (Runtime.fresh db registry).runIf config (Runtime.timely config) evs = some s) :
    s.inFlight ≤ config.maxConcurrentJobs := by
  obtain ⟨hinv, hheld⟩ :=
    Runtime.runIf_keeps (s := .fresh db registry) (Runtime.inv_fresh config hdb) h
  exact hinv.inFlight_le (hheld (fun _ _ => id) fun _ hflight => nomatch hflight)

/-! ## Two runs -/

namespace Overrun

/-- The limit of one execution. -/
def config : Limits := { maxConcurrentJobs := 1 }

/-- A job that is due at eight. -/
def due (id : String) : Job where
  id := id
  name := id
  trigger := { triggerType := .oneShot, runAt := Scenario.at_ 8, nextRunAt := Scenario.at_ 8 }
  updatedAt := Scenario.at_ 7

def db : Database := ⟨[due "backup", due "report"], []⟩

theorem unique : Table.Unique Job.id db.jobs := by
  unfold Table.Unique
  decide

/-- The identifiers drawn for a job. -/
def draws (jobId : String) : Draw := .drawn ⟨jobId ++ "-token", jobId ++ "-run"⟩

def start : Runtime := .fresh db db.jobs

/-- A tick starts the one job, and one a second later starts nothing. -/
def early : List RuntimeEvent := [
  .tick (Scenario.at_ 8) true draws, .tick (Scenario.at_ 8) true draws,
  .act 0 (.executed (.finished .success none (Scenario.at_ 8))), .act 0 (.clock (Scenario.at_ 8)),
  .act 0 .reached, .tick (Scenario.at_ 9) true draws]

/-- The clock goes on by an hour while the job runs, and no renewal comes in time. -/
def late : List RuntimeEvent := [
  .tick (Scenario.at_ 8) true draws, .tick (Scenario.at_ 9) true draws]

/-- What a run leads to. -/
def after (ok : Runtime → RuntimeEvent → Bool) (evs : List RuntimeEvent) : Runtime :=
  (start.runIf config ok evs).getD start

theorem runs_early : start.runIf config (Runtime.timely config) early =
    some (after (Runtime.timely config) early) := by
  have hsome : (start.runIf config (Runtime.timely config) early).isSome = true := by
    decide +kernel
  obtain ⟨s, hs⟩ := Option.isSome_iff_exists.mp hsome
  rw [after, hs]
  rfl

theorem runs_late : start.run config late = some (after (fun _ _ => true) late) := by
  have hsome : (start.run config late).isSome = true := by
    decide +kernel
  obtain ⟨s, hs⟩ := Option.isSome_iff_exists.mp hsome
  rw [after, ← Runtime.run, hs]
  rfl

end Overrun

/-- The first job is settled before the second is started. -/
theorem concurrency_limit_early :
    (Overrun.after (Runtime.timely Overrun.config) Overrun.early).flights.map Flight.jobId =
      ["backup", "report"] ∧
    (Overrun.after (Runtime.timely Overrun.config) Overrun.early).inFlight ≤ 1 :=
  ⟨by decide +kernel, concurrency_limit Overrun.config Overrun.unique Overrun.runs_early⟩

/-- **The limit is exceeded** when a tick releases the claim of a job that still runs. -/
theorem limit_exceeded : ¬ ∀ (config : Limits) (db : Database), Table.Unique Job.id db.jobs →
    ∀ (registry : Registry) (evs : List RuntimeEvent) (s : Runtime),
      (Runtime.fresh db registry).run config evs = some s →
        s.inFlight ≤ config.maxConcurrentJobs := by
  intro h
  have hle := h Overrun.config Overrun.db Overrun.unique Overrun.db.jobs Overrun.late _
    Overrun.runs_late
  revert hle
  decide +kernel

end Scheduler

import AiLabOs.Interaction.SystemSafety

/-!
# Trusted interactions: the lifecycle of an interaction

Once the execution of an interaction has started, its record stays started and keeps what it was
authorised by; an interaction that ended stays as it is. An interaction therefore starts at most
one execution, and the port is asked at most once to carry it out.

## Main definitions

* `LifecycleState.started`: the states from the intent of an execution on
* `Interaction.SameAuthorisation`: what a started record keeps
* `ExecutedOnce`: every request the port answered is that of the one execution
* `sentExecutions`: the requests the port was sent, answered or pending
* `Scenario`: a short run of the system, piece by piece

## Main results

* `Reachable.started`, `Reachable.terminal`: started records stay started, ended ones stay
* `executes_at_most_once`
-/

namespace Interactions

open Process

/-! ## Started and ended records -/

/-- The states from the intent of an execution on. -/
def LifecycleState.started : LifecycleState → Bool
  | .executing | .verifying | .succeeded | .failed | .recoveryRequired => true
  | _ => false

/-- What a started record keeps: the Preview, the Confirmation, the Approval and the Execution. -/
structure Interaction.SameAuthorisation (r r' : Interaction) : Prop where
  started : r'.lifecycleState.started = true
  preview : r'.currentPreviewId = r.currentPreviewId
  confirmation : r'.currentConfirmationId = r.currentConfirmationId
  approval : r'.currentApprovalId = r.currentApprovalId
  execution : r'.currentExecutionId = r.currentExecutionId

section Legal

variable {sha : Sha256} {w : World} {i : ℕ} {cur : Interaction} {t : Transition}

/-- **A started record stays started** and keeps its authorisation. -/
theorem Legal.started (h : Legal sha w i cur t) (hs : cur.lifecycleState.started = true) :
    cur.SameAuthorisation t.interaction := by
  have hnot : ∀ {s : LifecycleState}, cur.lifecycleState = s → s.started = true :=
    fun h => h ▸ hs
  cases h with
  | preview a old previewId now audits hid hactor hrev hstate =>
    simp only [List.mem_cons, List.not_mem_nil, or_false] at hstate
    rcases hstate with h | h | h <;> exact absurd (hnot h) (by decide)
  | confirm a preview confirmationId now audits hid hrev hstate =>
    exact absurd (hnot hstate) (by decide)
  | approve a preview confirmation authority approvalId now audits hid hrev hstate =>
    exact absurd (hnot hstate) (by decide)
  | cancel a preview now audits hid hrev hterminal hstate =>
    cases hl : cur.lifecycleState <;> simp_all [LifecycleState.started, LifecycleState.terminal]
  | expire a preview now audits hid hrev hstate =>
    simp only [List.mem_cons, List.not_mem_nil, or_false] at hstate
    rcases hstate with h | h <;> exact absurd (hnot h) (by decide)
  | start a executionId now audits hid hrev hstate => exact absurd (hnot hstate) (by decide)
  | observe a execution o recovery finished =>
    refine ⟨?_, rfl, rfl, rfl, rfl⟩
    simp only [Interaction.observed]
    split
    · rfl
    · split <;> rfl
  | succeed => exact ⟨rfl, rfl, rfl, rfl, rfl⟩
  | unverified => exact ⟨rfl, rfl, rfl, rfl, rfl⟩
  | reconcile => exact ⟨rfl, rfl, rfl, rfl, rfl⟩

/-- **No operation moves a record that ended.** -/
theorem Legal.not_terminal (h : Legal sha w i cur t) : cur.lifecycleState.terminal = false := by
  cases h with
  | preview a old previewId now audits hid hactor hrev hstate =>
    simp only [List.mem_cons, List.not_mem_nil, or_false] at hstate
    rcases hstate with h | h | h <;> rw [h] <;> rfl
  | confirm a preview confirmationId now audits hid hrev hstate => rw [hstate]; rfl
  | approve a preview confirmation authority approvalId now audits hid hrev hstate =>
    rw [hstate]; rfl
  | cancel a preview now audits hid hrev hterminal => exact hterminal
  | expire a preview now audits hid hrev hstate =>
    simp only [List.mem_cons, List.not_mem_nil, or_false] at hstate
    rcases hstate with h | h <;> rw [h] <;> rfl
  | start a executionId now audits hid hrev hstate => rw [hstate]; rfl
  | observe a execution o recovery finished audits hid hrev hstate => rw [hstate]; rfl
  | succeed a v preview execution o resultId evidence recovery now audits hid hstate =>
    simp only [List.mem_cons, List.not_mem_nil, or_false] at hstate
    rcases hstate with h | h <;> rw [h] <;> rfl
  | unverified a v reply result failure recoveryId now audits hid hstate =>
    simp only [List.mem_cons, List.not_mem_nil, or_false] at hstate
    rcases hstate with h | h <;> rw [h] <;> rfl
  | reconcile a actorId key execution recoveryId now audits hid hstate => rw [hstate]; rfl

end Legal

section Reachable

variable {d : Deployment} {c c' : Calls} {r cur : Interaction}

/-- A record that was ever started is still started, with the same authorisation. -/
theorem Reachable.started (h : Reachable d c) (hr : c.world.Seen r)
    (hcur : c.world.db.records r.interactionId = some cur)
    (hs : r.lifecycleState.started = true) : r.SameAuthorisation cur := by
  refine h.seen_current (R := fun r cur => r.lifecycleState.started = true →
    r.SameAuthorisation cur) ?_ ?_ hr hcur hs
  · exact fun r hs => ⟨hs, rfl, rfl, rfl, rfl⟩
  · intro w i r cur t hkeep hl hs
    obtain ⟨h₀, h₁, h₂, h₃, h₄⟩ := hkeep hs
    obtain ⟨g₀, g₁, g₂, g₃, g₄⟩ := hl.started h₀
    exact ⟨g₀, g₁.trans h₁, g₂.trans h₂, g₃.trans h₃, g₄.trans h₄⟩

/-- **An interaction that ended stays as it is.** -/
theorem Reachable.terminal (h : Reachable d c) (hr : c.world.Seen r)
    (hcur : c.world.db.records r.interactionId = some cur)
    (ht : r.lifecycleState.terminal = true) : cur = r := by
  refine h.seen_current (R := fun r cur => r.lifecycleState.terminal = true → cur = r)
    (fun _ _ => rfl) ?_ hr hcur ht
  intro w i r cur t hkeep hl ht
  obtain rfl := hkeep ht
  exact absurd (hl.not_terminal.symm.trans ht) Bool.false_ne_true

/-- A record of the past is one after every run. -/
theorem Reachable.seen (h : Reachable d c) (hr : Reaches handler (start d) c c')
    (hs : c.world.Seen r) : c'.world.Seen r :=
  hs.mono (h.commits hr)

end Reachable

/-! ## A scenario -/

namespace Scenario

/-- An event of the system. -/
abbrev Step := Event Request Input

/-- A deployment with a hash that can be run. -/
def deployment : Deployment := ⟨.reference, ⟨"owner", ⟨"account", "owner", "conversation"⟩, id⟩⟩

/-- The one workspace, as the given user sees it. -/
def workspace (userId : String) : WorkspaceKey :=
  ⟨"tenant", "workspace", "default", userId, "trace"⟩

/-- The actions of the call `i` that need nothing from the environment. -/
def plain (i n : ℕ) : List Step := List.replicate n (.act i .none)

/-- The identifiers of audit lines, each with its reading of the clock. -/
def audited (i : ℕ) (ids : List String) : List Step :=
  ids.flatMap fun id => [.act i (.text id), .act i (.instant 0)]

/-- The call `i` creates the interaction `int_n`. -/
def created (i : ℕ := 0) (n : String := "1") : List Step :=
  ([.arrive (.create ⟨workspace "u", "u", "op", "low", "policy", "request", "trace", "create" ++ n,
      "", []⟩), .act i (.instant 0), .act i (.text n)] : List Step) ++ audited i [n ++ "a0"] ++
        plain i 1

/-- A request for a Preview of `int_n` that expires at the instant 100. -/
def previewArgs (requiresConfirmation requiresApproval : Bool) (n : String := "1") : PreviewArgs :=
  { workspace := workspace "u", actorId := "u", interactionId := "int_" ++ n, expectedRevision := 1
    normalizedParameters := ⟨"{}"⟩, mutationSummary := "summary", expiresIn := 100
    idempotencyKey := "preview" ++ n, requiresConfirmation, requiresApproval
    canonicalCommitRequired := true }

/-- The call `i` previews it at the instant 0. -/
def previewed (requiresConfirmation requiresApproval : Bool) (i : ℕ := 1) (n : String := "1") :
    List Step :=
  [.arrive (.preview (previewArgs requiresConfirmation requiresApproval n))] ++ plain i 2 ++
    [.act i (.instant 0)] ++ plain i 1 ++ [.act i (.text n)] ++
    audited i [n ++ "a1", n ++ "a2", n ++ "a3", n ++ "a4"] ++ plain i 1

/-- The arguments of an operation on `int_n` at a revision, under a key. -/
def revisionArgs (userId : String) (revision : Int) (key : String) (n : String := "1") :
    RevisionArgs :=
  ⟨workspace userId, userId, "int_" ++ n, revision, key⟩

/-- The call `i` commits the intent of the execution `exe_n`, with the given readings of the clock
for its authorisation check. -/
def intended (i : ℕ) (userId : String) (revision : Int) (now : Instant) (checks : List Instant)
    (n : String := "1") : List Step :=
  ([.arrive (.startExecution (revisionArgs userId revision ("start" ++ n) n))] : List Step) ++
    plain i 3 ++
    ([.act i (.instant now)] : List Step) ++ plain i 2 ++
      checks.map (fun t => .act i (.instant t)) ++
    ([.act i (.text n)] : List Step) ++ audited i [n ++ "a6"] ++ plain i 1

/-- The call `i` asks the port, which reports a completed execution. -/
def executed (i : ℕ) : List Step := [.act i (.execution (.ok { status := .completed }))]

/-- The call `i` commits the observation and returns. -/
def observed (i : ℕ) (n : String := "1") : List Step :=
  ([.act i (.instant 1)] : List Step) ++ audited i [n ++ "a7"] ++ plain i 9

/-- The call `i` reconciles an intent without observation. -/
def reconciled (i : ℕ) (userId : String) (revision : Int) : List Step :=
  ([.arrive (.recover (revisionArgs userId revision "recover"))] : List Step) ++ plain i 3 ++
    ([.act i (.instant 2), .act i (.text "1")] : List Step) ++ audited i ["a8"] ++ plain i 1

/-- The configuration a run of the scenario leads to, the initial one if it cannot happen. -/
def after (events : List Step) : Calls :=
  (run handler (start deployment) (idle World.initial) events).getD (idle World.initial)

theorem reachable (events : List Step) : Reachable deployment (after events) := by
  unfold after
  cases h : run handler (start deployment) (idle World.initial) events with
  | none => exact .refl _
  | some c => exact ⟨events, h⟩

theorem reaches {events more : List Step}
    (h : (run handler (start deployment) (idle World.initial) (events ++ more)).isSome) :
    Reaches handler (start deployment) (after events) (after (events ++ more)) := by
  obtain ⟨c', hc'⟩ := Option.isSome_iff_exists.mp h
  rw [run_append] at hc'
  obtain ⟨c, hc, hmore⟩ := Option.bind_eq_some_iff.mp hc'
  exact ⟨more, by simp [after, run_append, hc, hmore]⟩

end Scenario

/-! ## One execution -/

/-- Every request the port answered is that of the execution its interaction started, and no two
are of one interaction. -/
structure ExecutedOnce (w : World) : Prop where
  intent : ∀ r ∈ w.executions, ∃ s, w.Seen s ∧ s.interactionId = r.interactionId ∧
    s.lifecycleState.started = true ∧ s.currentExecutionId = some r.executionId
  once : w.executions.Pairwise fun r r' => r.interactionId ≠ r'.interactionId

theorem ExecutedOnce.of_same {w w' : World} (h : ExecutedOnce w)
    (hcommits : w.commits <:+ w'.commits)
    (hexecutions : w'.executions = w.executions) : ExecutedOnce w' where
  intent r hr := by
    rw [hexecutions] at hr
    obtain ⟨s, hs, hrest⟩ := h.intent r hr
    exact ⟨s, hs.mono hcommits, hrest⟩
  once := hexecutions ▸ h.once

/-- The execution a started record names is the one its interaction started. -/
theorem Reachable.execution_unique {d : Deployment} {c : Calls} (h : Reachable d c)
    {s s' : Interaction} (hs : c.world.Seen s) (hs' : c.world.Seen s')
    (hid : s.interactionId = s'.interactionId) (hstart : s.lifecycleState.started = true)
    (hstart' : s'.lifecycleState.started = true) :
    s.currentExecutionId = s'.currentExecutionId := by
  obtain ⟨cur, hcur, -⟩ := h.inv.seen_stored hs
  have hkept := (h.started hs hcur hstart).execution
  have hkept' := (h.started hs' (hid ▸ hcur) hstart').execution
  exact hkept.symm.trans hkept'

theorem Reachable.executedOnce {d : Deployment} {c : Calls} (h : Reachable d c) :
    ExecutedOnce c.world := by
  refine h.invariant ⟨by simp [World.initial], List.Pairwise.nil⟩ fun hc hj he => ?_
  rename_i c i log w'
  cases he with
  | commit cur t db => exact hj.of_same (List.suffix_cons ..) rfl
  | create a r id now audit => exact hj.of_same (List.suffix_cons ..) rfl
  | execute r hgranted =>
    obtain ⟨a, cur, preview, confirmation, approval, executionId, now, cm, hid, hcommit, hrecord,
      hseen, hstate, hissued, hunexecuted, -⟩ := hgranted
    have hseen' : c.world.Seen (cur.executing (newExecution a cur executionId now) now) :=
      ⟨cm, hcommit, hrecord⟩
    refine ⟨fun r' hr' => ?_, List.pairwise_cons.mpr ⟨fun r' hr' heq => ?_, hj.once⟩⟩
    · rcases List.mem_cons.mp hr' with rfl | hr'
      · exact ⟨_, hseen', hid.symm, rfl, rfl⟩
      · exact hj.intent r' hr'
    · -- a second request would be of the execution that was not carried out yet
      obtain ⟨s, hs, hsid, hstart, hsexec⟩ := hj.intent r' hr'
      have hsame := hc.execution_unique hs hseen'
        (hsid.trans (heq.symm.trans hid)) hstart rfl
      have heid : some r'.executionId = some executionId := hsexec.symm.trans hsame
      exact hunexecuted r' hr' (Option.some.inj heid)
  | issue id hnew => exact hj.of_same List.suffix_rfl rfl
  | supply id X => exact hj.of_same List.suffix_rfl rfl
  | authorise g => exact hj.of_same List.suffix_rfl rfl
  | ingress db h => exact hj.of_same List.suffix_rfl rfl
  | read => exact hj

/-- The request a call is waiting for the port to answer, if it is. -/
def pendingExecution (call : Call Request Action Action.Reply Raised Result) :
    Option ExecutionRequest :=
  match call.rest with
  | .await (.execute r) _ => some r
  | _ => none

theorem pendingExecution_eq_some {call : Call Request Action Action.Reply Raised Result}
    {r : ExecutionRequest} (h : pendingExecution call = some r) :
    ∃ next, call = ⟨call.request, call.log, .await (.execute r) next⟩ := by
  obtain ⟨k, log, a | x | ⟨e, next⟩⟩ := call
  · cases h
  · cases h
  · cases e <;> cases h
    exact ⟨next, rfl⟩

/-- The requests the port was sent: the answered ones and those it still has to answer. -/
def sentExecutions (c : Calls) : List ExecutionRequest :=
  c.calls.filterMap pendingExecution ++ c.world.executions

/-- A pending request is answered in some continuation, which moves no other call. -/
theorem Reachable.answer {d : Deployment} {c : Calls} (h : Reachable d c) {i : ℕ}
    {call : Call Request Action Action.Reply Raised Result} {r : ExecutionRequest}
    (hi : c.calls[i]? = some call) (hr : pendingExecution call = some r) :
    ∃ c' : Calls, Reachable d c' ∧ c'.world.executions = r :: c.world.executions ∧
      ∀ j, j ≠ i → c'.calls[j]? = c.calls[j]? := by
  obtain ⟨next, heq⟩ := pendingExecution_eq_some hr
  rw [heq] at hi
  let c' : Calls :=
    ⟨{ c.world with executions := r :: c.world.executions },
      c.calls.set i ⟨call.request, call.log ++ [⟨.execute r, .error ""⟩], next (.error "")⟩⟩
  have hstep : Reaches handler (start d) c c' :=
    ⟨[.act i (.execution (.error ""))], by simp [run, step, hi, handler, c']⟩
  exact ⟨c', h.trans hstep, rfl, fun j hj => List.getElem?_set_ne (Ne.symm hj)⟩

/-- **No two requests sent to the port are of one interaction.** -/
theorem Reachable.sent_once {d : Deployment} {c : Calls} (h : Reachable d c) :
    (sentExecutions c).Pairwise fun r r' => r.interactionId ≠ r'.interactionId := by
  refine List.pairwise_append.mpr ⟨?_, h.executedOnce.once, ?_⟩
  · rw [List.pairwise_filterMap, List.pairwise_iff_getElem]
    intro i j hi hj hij r hr r' hr'
    obtain ⟨c₁, h₁, hexec₁, hcalls⟩ := h.answer (List.getElem?_eq_getElem hj) hr'
    obtain ⟨c₂, h₂, hexec₂, -⟩ := h₁.answer
      ((hcalls i (by omega)).trans (List.getElem?_eq_getElem hi)) hr
    have honce := h₂.executedOnce.once
    rw [hexec₂, hexec₁] at honce
    exact (List.pairwise_cons.mp honce).1 r' List.mem_cons_self
  · intro r hr r' hr'
    obtain ⟨call, hmem, hpending⟩ := List.mem_filterMap.mp hr
    obtain ⟨i, hi⟩ := List.mem_iff_getElem?.mp hmem
    obtain ⟨c', h', hexec, -⟩ := h.answer hi hpending
    have honce := h'.executedOnce.once
    rw [hexec] at honce
    exact (List.pairwise_cons.mp honce).1 r' hr'

/-- A list contains at most one of the elements of which no two are in it. -/
theorem length_filter_le_one {α : Type} {l : List α} {p : α → Bool}
    (h : l.Pairwise fun a b => ¬(p a = true ∧ p b = true)) : (l.filter p).length ≤ 1 := by
  induction h with
  | nil => exact Nat.zero_le 1
  | @cons a l hne _ ih =>
    by_cases ha : p a = true
    · have hnone : l.filter p = [] :=
        List.filter_eq_nil_iff.mpr fun b hb hpb => hne b hb ⟨ha, hpb⟩
      rw [List.filter_cons_of_pos ha, hnone]
      exact Nat.le_refl 1
    · rw [List.filter_cons_of_neg ha]
      exact ih

/-- **At most one execution**: in every run the port is sent at most one request for an interaction,
answered or still pending, and an interaction that was executing never waits for its authorisation
again. -/
theorem executes_at_most_once {d : Deployment} {c c' : Calls} (h : Reachable d c)
    (hr : Reaches handler (start d) c c') :
    (∀ X, ((sentExecutions c').filter fun r => r.interactionId = X).length ≤ 1) ∧
    ∀ X r r', c.world.db.records X = some r → r.lifecycleState = .executing →
      c'.world.db.records X = some r' →
      r'.lifecycleState ∉ [.requested, .previewed, .awaitingConfirmation, .authorized] := by
  have h' : Reachable d c' := h.trans hr
  refine ⟨fun X => ?_, fun X r r' hX hexec hX' => ?_⟩
  · refine length_filter_le_one (h'.sent_once.imp fun hne hboth => hne ?_)
    simp only [decide_eq_true_eq] at hboth
    exact hboth.1.trans hboth.2.symm
  · obtain ⟨rfl, hseen⟩ := h.inv.record_seen hX
    have hstarted := (h'.started (h.seen hr hseen) hX' (by rw [hexec]; rfl)).started
    intro hmem
    simp only [List.mem_cons, List.not_mem_nil, or_false] at hmem
    rcases hmem with h | h | h | h <;> rw [h] at hstarted <;> exact absurd hstarted (by decide)

/-- A recovery that overtakes the pending port call: the port is still asked once. -/
theorem executes_at_most_once_scenario : ∃ c c' : Calls,
    Reachable Scenario.deployment c ∧ Reaches handler (start Scenario.deployment) c c' ∧
    (c.world.db.records "int_1").map Interaction.lifecycleState = some .executing ∧
    (c'.world.db.records "int_1").map Interaction.lifecycleState = some .recoveryRequired ∧
    c'.world.executions.length = 1 ∧
    (∀ X, ((sentExecutions c').filter fun r => r.interactionId = X).length ≤ 1) ∧
    ∀ X r r', c.world.db.records X = some r → r.lifecycleState = .executing →
      c'.world.db.records X = some r' →
      r'.lifecycleState ∉ [.requested, .previewed, .awaitingConfirmation, .authorized] :=
  have h := Scenario.reachable (Scenario.created ++ Scenario.previewed false false ++
    Scenario.intended 2 "u" 2 0 [])
  have hrun : (run handler (start Scenario.deployment) (idle World.initial)
      ((Scenario.created ++ Scenario.previewed false false ++ Scenario.intended 2 "u" 2 0 []) ++
        (Scenario.reconciled 3 "u" 3 ++ Scenario.executed 2))).isSome := by decide +kernel
  have hr := Scenario.reaches hrun
  ⟨_, _, h, hr, by decide +kernel, by decide +kernel, by decide +kernel,
    executes_at_most_once h hr⟩

end Interactions

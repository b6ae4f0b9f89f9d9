import AiLabOs.Interaction.Idempotency
import AiLabOs.Process.Paths

/-!
# Trusted interactions: the law of commits

Compare-and-set and idempotency together: what one step does to the stored records, how many
commits a revision and a key can have, and what a call does that finds its key claimed.

## Main definitions

* `Commit.Applied`: what a commit does to the tables
* `ChangesOnly`, `NeverReturns`: what a call does from a configuration on
* `CommitLaw`: the law, of one configuration

## Main results

* `commit_law`: every reachable configuration obeys it
* `recovery_commits_again`: what a recovery does that the law leaves out
-/

namespace Interactions

open Process

/-- The configuration after one more call has arrived. -/
def Calls.arrive (d : Deployment) (k : Request) (c : Calls) : Calls :=
  { c with calls := c.calls ++ [⟨k, [], start d k⟩] }

/-- **What a commit does to the tables**: a creation stores a new record, a transition replaces
the record at its expected revision by one at the next, and both record their key. -/
structure Commit.Applied (cm : Commit) (db db' : Database) : Prop where
  record : db'.records =
    Function.update db.records cm.interaction.interactionId (some cm.interaction)
  row : db'.idempotency = Function.update db.idempotency cm.key
    (some ⟨cm.payloadDigest, cm.interaction.interactionId, cm.interaction⟩)
  created : cm.expectedRevision = none → db.records cm.interaction.interactionId = none
  raised : ∀ e, cm.expectedRevision = some e → ∃ cur,
    db.records cm.interaction.interactionId = some cur ∧ cur.revision = e ∧
      cm.interaction.revision = e + 1

/-- From `c` on, each action of the call `i` changes no table or makes a commit that `P` allows. -/
def ChangesOnly (d : Deployment) (c : Calls) (i : ℕ) (P : Commit → Prop) : Prop :=
  ∀ (c' c'' : Calls) (input : Input), Reaches handler (start d) c c' →
    step handler (start d) c' (.act i input) = some c'' →
      c''.world.db = c'.world.db ∨
        ∃ cm, c''.world.commits = cm :: c'.world.commits ∧ P cm

/-- From `c` on, the call `i` does not return. Programs are finite, so it raises, or crashes. -/
def NeverReturns (d : Deployment) (c : Calls) (i : ℕ) : Prop :=
  ∀ (c' : Calls) (k : Request) (log : Log Action Action.Reply) (a : Result),
    Reaches handler (start d) c c' → c'.calls[i]? ≠ some ⟨k, log, .ret a⟩

/-- **The law of commits**, of a configuration. -/
structure CommitLaw (d : Deployment) (c : Calls) : Prop where
  /-- A step leaves the records alone or applies one commit. -/
  step : ∀ ev c', Process.step handler (start d) c ev = some c' →
    (c'.world.commits = c.world.commits ∧ c'.world.db.records = c.world.db.records ∧
      c'.world.db.idempotency = c.world.db.idempotency) ∨
    ∃ cm, c'.world.commits = cm :: c.world.commits ∧ cm.Applied c.world.db c'.world.db
  /-- At most one commit starts from a revision of an interaction. -/
  once : ∀ X e, (c.world.commits.filter fun cm =>
    cm.interaction.interactionId = X && cm.expectedRevision = some e).length ≤ 1
  /-- The commits under a key carry one digest and one interaction. -/
  agree : ∀ cm ∈ c.world.commits, ∀ cm' ∈ c.world.commits, cm.key = cm'.key →
    cm.payloadDigest = cm'.payloadDigest ∧
      cm.interaction.interactionId = cm'.interaction.interactionId
  /-- A key other than of an execution has exactly one commit, if it is recorded. -/
  single : ∀ key, key.operation ≠ .execute →
    (c.world.commits.filter fun cm => cm.key = key).length =
      if (c.world.db.idempotency key).isSome then 1 else 0
  /-- A key of an execution has at most one intent and at most one observation. -/
  execute : ∀ key, key.operation = .execute →
    ((c.world.db.idempotency key).isSome ↔ ∃ cm ∈ c.world.commits, cm.key = key) ∧
    (c.world.commits.filter fun cm => cm.key = key &&
      cm.interaction.lifecycleState = .executing).length ≤ 1 ∧
    (c.world.commits.filter fun cm => cm.key = key &&
      cm.interaction.lifecycleState ≠ .executing).length ≤ 1
  /-- A call that arrives when its key is recorded changes no table. -/
  repeated : ∀ k key p, k.recorded d.sha = some (key, p) →
    (∃ cm ∈ c.world.commits, cm.key = key) →
    ChangesOnly d (c.arrive d k) c.calls.length fun _ => False
  /-- A call whose key is recorded with another payload fails, and changes no table, but for the
  reconciliation of a recovery that has passed the check of its key already, where nothing is
  recorded yet under the key derived from it. -/
  conflicting : ∀ i call key p p', c.calls[i]? = some call →
    call.request.recorded d.sha = some (key, p) →
    (∃ cm ∈ c.world.commits, cm.key = key ∧ cm.payloadDigest = d.sha.hexdigest p') → p' ≠ p →
    NeverReturns d c i ∧ ChangesOnly d c i fun cm =>
      (∃ a, call.request = .recover a) ∧ call.log ≠ [] ∧ cm.key = key.gap ∧
        c.world.db.idempotency key.gap = none

section Steps

variable {d : Deployment} {c c' : Calls}

/-- **What a step does**: it leaves the records alone or applies one commit. -/
theorem Reachable.step_commits (h : Reachable d c) {ev : Event Request Input}
    (he : Process.step handler (start d) c ev = some c') :
    (c'.world.commits = c.world.commits ∧ c'.world.db.records = c.world.db.records ∧
      c'.world.db.idempotency = c.world.db.idempotency) ∨
    ∃ cm, c'.world.commits = cm :: c.world.commits ∧ cm.Applied c.world.db c'.world.db := by
  rcases step_cases he with ⟨k, -, rfl⟩ | ⟨i, input, k, log, e, next, r, w, -, hi, hact, rfl⟩
  · exact .inl ⟨rfl, rfl, rfl⟩
  · have heffect := pre.effect (h.allSafe.meets_pre hi) hact
    rcases heffect.aggregate with ⟨cur, t, db, hcur, hlegal, hc, rfl⟩ |
      ⟨a, r, id, now, audit, -, hnew, hkey, rfl⟩ | hsame
    · have hw := hlegal.wellFormed h.inv hcur
      refine .inr ⟨t.commit, rfl, hc.records, hc.idempotency, ?_, fun e he => ?_⟩
      · exact fun hnone => by cases hnone
      · obtain rfl : t.expectedRevision = e := Option.some.inj he
        refine ⟨cur, hlegal.interactionId ▸ hcur, hw.expected.symm, ?_⟩
        exact hw.revision.trans (congrArg (· + 1) hw.expected.symm)
    · refine .inr ⟨r.creation a.idempotencyKey (d.sha.hexdigest (createPayload a r.scope)), rfl,
        rfl, rfl, fun _ => hnew, fun e he => ?_⟩
      cases he
    · exact .inl ⟨hsame.commits, hsame.records, hsame.idempotency⟩

/-- A key is recorded when some commit is under it. -/
theorem Inv.recorded_iff {w : World} (h : Inv w) (key : IdempotencyKey) :
    (w.db.idempotency key).isSome ↔ ∃ cm ∈ w.commits, cm.key = key := by
  constructor
  · intro hsome
    obtain ⟨row, hrow⟩ := Option.isSome_iff_exists.mp hsome
    obtain ⟨cm, hc, hk, -⟩ := h.row_commit hrow
    exact ⟨cm, hc, hk⟩
  · rintro ⟨cm, hc, rfl⟩
    obtain ⟨row, hrow, -⟩ := h.commit_row cm hc
    rw [hrow]
    rfl

/-- At most one commit starts from a revision. -/
theorem Reachable.once (h : Reachable d c) (X : String) (e : Int) :
    (c.world.commits.filter fun cm =>
      cm.interaction.interactionId = X && cm.expectedRevision = some e).length ≤ 1 := by
  refine length_filter_le_one (h.inv.ascending.imp_of_mem fun {cm cm'} hc hc' hlater hboth => ?_)
  simp only [Bool.and_eq_true, decide_eq_true_eq] at hboth
  obtain ⟨⟨hX, he⟩, hX', he'⟩ := hboth
  have hrev := h.keyed.raises cm hc e he
  have hrev' := h.keyed.raises cm' hc' e he'
  exact Int.ne_of_lt (hlater (hX.trans hX'.symm)) (hrev'.trans hrev.symm)

/-- The commits under a key that are all intents, or all observations, are at most one. -/
theorem Reachable.once_under_key (h : Reachable d c) (hfree : d.sha.CollisionFree)
    (key : IdempotencyKey) (b : Bool) {p : Commit → Bool}
    (hp : ∀ cm, p cm = true → cm.key = key ∧ cm.observes = b) :
    (c.world.commits.filter p).length ≤ 1 := by
  refine length_filter_le_one ((h.commits_under_key hfree).imp fun {cm cm'} hne hboth => ?_)
  obtain ⟨hkey, hobserves⟩ := hp cm hboth.1
  obtain ⟨hkey', hobserves'⟩ := hp cm' hboth.2
  exact hne (hkey.trans hkey'.symm) (hobserves.trans hobserves'.symm)

theorem Reachable.single (h : Reachable d c) (hfree : d.sha.CollisionFree) {key : IdempotencyKey}
    (hop : key.operation ≠ .execute) :
    (c.world.commits.filter fun cm => cm.key = key).length =
      if (c.world.db.idempotency key).isSome then 1 else 0 := by
  have hle : (c.world.commits.filter fun cm => cm.key = key).length ≤ 1 := by
    refine h.once_under_key hfree key false fun cm hp => ?_
    obtain rfl : cm.key = key := by simpa using hp
    exact ⟨rfl, by simpa [Commit.observes, Commit.key] using fun ho => absurd ho hop⟩
  have hiff := h.inv.recorded_iff key
  split
  · rename_i hsome
    obtain ⟨cm, hc, hk⟩ := hiff.mp hsome
    have hmem : cm ∈ c.world.commits.filter fun cm => cm.key = key :=
      List.mem_filter.mpr ⟨hc, decide_eq_true hk⟩
    exact Nat.le_antisymm hle (List.length_pos_of_mem hmem)
  · rename_i hnone
    refine List.length_eq_zero_iff.mpr (List.filter_eq_nil_iff.mpr fun cm hc hk => hnone ?_)
    exact hiff.mpr ⟨cm, hc, of_decide_eq_true hk⟩

end Steps

section Calls

variable {d : Deployment} {c c' : Calls} {i : ℕ}

/-- A call that has done nothing yet changes no table, once its key is recorded. -/
theorem Reachable.unstarted (h : Reachable d c) {k : Request} {key : IdempotencyKey} {p : Payload}
    {digest : String} (hi : c.calls[i]? = some ⟨k, [], start d k⟩)
    (hk : k.recorded d.sha = some (key, p)) (hrec : c.world.Recorded key digest) :
    ChangesOnly d c i fun _ => False := by
  intro c' c'' input hr he
  obtain ⟨log, p', hi', hsafe⟩ := Safe.reaches (sound d.sha) (startsSafe d) h.allSafe hi
    (start_replays d hk hrec) (fun _ _ _ _ _ _ _ => trivial) (fun _ _ _ _ _ _ _ => trivial) hr
  rcases step_cases he with ⟨k, hev, -⟩ | ⟨j, input', k', log', e, next, r, w, hev, hj, hact, rfl⟩
  · cases hev
  · cases hev
    obtain ⟨rfl, rfl, rfl⟩ : _ = k' ∧ log = log' ∧ p' = .await e next := by
      simpa using hi'.symm.trans hj
    exact .inl ((hsafe.act (h.trans hr).inv).1 _ _ _ hact)

/-- **A repeated call** changes no table. -/
theorem Reachable.repeated (h : Reachable d c) {k : Request} {key : IdempotencyKey} {p : Payload}
    (hk : k.recorded d.sha = some (key, p)) (hrec : ∃ cm ∈ c.world.commits, cm.key = key) :
    ChangesOnly d (c.arrive d k) c.calls.length fun _ => False := by
  have harrive : Reachable d (c.arrive d k) := h.trans ⟨[.arrive k], rfl⟩
  obtain ⟨cm, hc, hkey⟩ := hrec
  have hrec : (c.arrive d k).world.Recorded key cm.payloadDigest := ⟨cm, hc, hkey, rfl⟩
  exact harrive.unstarted List.getElem?_concat_length hk hrec

/-- The writes of a call are under its key throughout, and its return says the key is recorded. -/
theorem Reachable.under (h : Reachable d c) {call : Call Request Action Action.Reply Raised Result}
    (hi : c.calls[i]? = some call) {key : IdempotencyKey} {p : Payload}
    (hk : call.request.recorded d.sha = some (key, p)) :
    KeepsUnder key (d.sha.hexdigest p) (∃ a, call.request = .recover a) i call.rest call.log
      c.world :=
  Reaches.every (· = call.request) (sound d.sha) (startsSafe d) inv_initial
    (fun i _ w hreq _ => hreq ▸ start_under d hk i [] w)
    (fun _ _ _ _ _ hw _ hrec => hw.recorded hrec) (fun _ _ _ _ _ _ _ _ => trivial) h rfl hi

/-- A write under a key that is recorded with another digest writes nothing. -/
theorem Action.Under.unchanged {key : IdempotencyKey} {digest digest' : String} {recovers : Prop}
    {e : Action} {input : Input} {r : e.Reply} {w w' : World} (hinv : Inv w)
    (he : e.Under key digest recovers) (hrec : w.Recorded key digest') (hne : digest' ≠ digest)
    (hr : handler i e input w = some (r, w')) :
    w'.db = w.db ∨ ∃ cm, w'.commits = cm :: w.commits ∧ recovers ∧ cm.key = key.gap := by
  obtain ⟨row, hrow, hd⟩ := hinv.recorded_row hrec
  cases hw : e.writes with
  | false => exact .inl (handler_reads hw hr)
  | true =>
    cases e <;> simp only [Action.writes, reduceCtorEq] at hw
    case create r' audit k digest'' =>
      -- the repository finds the key, with another digest
      obtain ⟨rfl, rfl⟩ := he
      cases input <;> simp only [handler, reduceCtorEq] at hr
      split at hr
      · obtain ⟨-, rfl⟩ : _ ∧ _ := by simpa using hr
        exact .inl rfl
      · rw [if_pos (by rw [hrow]; rfl)] at hr
        obtain ⟨-, rfl⟩ : _ ∧ _ := by simpa using hr
        exact .inl rfl
    case transition t =>
      cases input <;> simp only [handler, reduceCtorEq] at hr
      split at hr
      · obtain ⟨-, rfl⟩ : _ ∧ _ := by simpa using hr
        exact .inl rfl
      · rename_i db hok
        obtain ⟨-, rfl⟩ : _ ∧ _ := by simpa using hr
        rcases he with ⟨rfl, rfl⟩ | ⟨hrecovers, hgap⟩
        · have hsame := ((Database.transition_ok hok).unclaimed row hrow).1
          exact absurd (hd.symm.trans hsame) hne
        · exact .inr ⟨t.commit, rfl, hrecovers, hgap⟩
    case execute request =>
      cases input <;> simp only [handler, reduceCtorEq] at hr
      obtain ⟨-, rfl⟩ : _ ∧ _ := by simpa using hr
      exact .inl rfl
    case storeTrustedIngressEvidence => exact he.elim
    case storeConfirmationChallenge => exact he.elim

/-- A step that commits under a key other than of an execution is the first to do so. -/
theorem Reachable.first_commit (h : Reachable d c) (hfree : d.sha.CollisionFree)
    (hr : Reaches handler (start d) c c') {ev : Event Request Input} {c'' : Calls}
    (he : Process.step handler (start d) c' ev = some c'') {cm : Commit}
    (hcm : c''.world.commits = cm :: c'.world.commits) (hop : cm.key.operation ≠ .execute) :
    c.world.db.idempotency cm.key = none := by
  have h'' : Reachable d c'' := (h.trans hr).trans ⟨[ev], by rw [run, he]; rfl⟩
  by_contra hsome
  obtain ⟨old, hold, hkey⟩ := (h.inv.recorded_iff cm.key).mp (Option.ne_none_iff_isSome.mp hsome)
  have hmem : old ∈ c'.world.commits.filter fun other => other.key = cm.key :=
    List.mem_filter.mpr ⟨(h.commits hr).mem hold, decide_eq_true hkey⟩
  have hlength := h''.single hfree hop
  have hcons : (cm :: c'.world.commits).filter (fun other => other.key = cm.key) =
      cm :: c'.world.commits.filter fun other => other.key = cm.key :=
    List.filter_cons_of_pos (decide_eq_true rfl)
  rw [hcm, hcons, List.length_cons] at hlength
  have hpos := List.length_pos_of_mem hmem
  split at hlength <;> omega

/-- **A conflicting call** fails, and changes no table but for a reconciliation. -/
theorem Reachable.conflicting (h : Reachable d c) (hfree : d.sha.CollisionFree)
    {call : Call Request Action Action.Reply Raised Result} (hi : c.calls[i]? = some call)
    {key : IdempotencyKey} {p : Payload} {digest : String}
    (hk : call.request.recorded d.sha = some (key, p)) (hrec : c.world.Recorded key digest)
    (hne : digest ≠ d.sha.hexdigest p) :
    NeverReturns d c i ∧ ChangesOnly d c i fun cm =>
      (∃ a, call.request = .recover a) ∧ call.log ≠ [] ∧ cm.key = key.gap ∧
        c.world.db.idempotency key.gap = none := by
  constructor
  · intro c' k log a hr hret
    have h' : Reachable d c' := h.trans hr
    obtain ⟨call', hi', hreq⟩ := hr.request hi
    rw [← hreq] at hk
    obtain rfl : ⟨k, log, .ret a⟩ = call' := Option.some.inj (hret.symm.trans hi')
    have hown := (h'.under hi' hk).of_ret
    exact hne (h'.inv.recorded_unique (hrec.mono (h.commits hr)) hown)
  · intro c' c'' input hr he
    have h' : Reachable d c' := h.trans hr
    obtain ⟨call', hi', hreq⟩ := hr.request hi
    by_cases hlog : call.log = []
    · -- the check of its key is still ahead
      obtain ⟨k, log, rest⟩ := call
      obtain rfl : log = [] := hlog
      obtain rfl : rest = start d k := (h.leads hi).of_nil
      exact (h.unstarted hi hk hrec c' c'' input hr he).imp_right fun ⟨_, _, hfalse⟩ => hfalse.elim
    have hk' := hreq ▸ hk
    rcases step_cases he with ⟨k, hev, -⟩ | ⟨j, input', k', log', e, next, r, w, hev, hj, hact, rfl⟩
    · cases hev
    · cases hev
      obtain rfl : ⟨k', log', .await e next⟩ = call' := Option.some.inj (hj.symm.trans hi')
      have hunder := ((h'.under hi' hk').act h'.inv).1
      rcases hunder.unchanged h'.inv (hrec.mono (h.commits hr)) hne hact with
        hdb | ⟨cm, hcm, hrecovers, hgap⟩
      · exact .inl hdb
      · have hop : cm.key.operation ≠ .execute := hgap ▸ Operation.noConfusion
        exact .inr ⟨cm, hcm, hreq ▸ hrecovers, hlog, hgap,
          hgap ▸ h.first_commit hfree hr he hcm hop⟩

end Calls

/-- **The law of commits** holds in every reachable configuration. -/
theorem commit_law {d : Deployment} {c : Calls} (h : Reachable d c) (hfree : d.sha.CollisionFree) :
    CommitLaw d c where
  step _ _ he := h.step_commits he
  once := h.once
  agree _ hc _ hc' hkey := h.inv.same_key hc hc' hkey
  single _ hop := h.single hfree hop
  execute key hop := by
    refine ⟨h.inv.recorded_iff key, ?_, ?_⟩
    · refine h.once_under_key hfree key false fun cm hp => ?_
      simp only [Bool.and_eq_true, decide_eq_true_eq] at hp
      exact ⟨hp.1, by simp [Commit.observes, hp.2]⟩
    · refine h.once_under_key hfree key true fun cm hp => ?_
      simp only [Bool.and_eq_true, decide_eq_true_eq] at hp
      obtain ⟨rfl, hstate⟩ := hp
      have hop' : cm.operation = .execute := hop
      exact ⟨rfl, by simp [Commit.observes, hop', hstate]⟩
  repeated _ _ _ hk hrec := h.repeated hk hrec
  conflicting _ _ _ _ _ hi hk hrec hne :=
    h.conflicting hfree hi hk hrec fun hd => hne (hfree hd)

namespace Scenario

/-- An interaction executed and observed. -/
def completed : List Step :=
  created ++ previewed false false ++ intended 2 "u" 2 0 [] ++ executed 2 ++ observed 2

/-- The call 4 repeats the recovery of the call 3 up to its own commit. -/
def recovering : List Step :=
  plain 4 7 ++ ([.act 4 (.verification (.error ""))] : List Step) ++ plain 4 1 ++
    ([.act 4 (.instant 3)] : List Step) ++
    audited 4 ["a9"]

/-- The call 3 has reconciled the execution `exe_1`. -/
def reconciledOnce : List Step :=
  created ++ previewed false false ++ intended 2 "u" 2 0 [] ++ reconciled 3 "u" 3

/-- The call 4 repeats the recovery. -/
def repeatedOnce : List Step :=
  reconciledOnce ++ ([.arrive (.recover (revisionArgs "u" 3 "recover"))] : List Step)

/-- The call 6 recovers `int_2` past the check of its key, the call 7 recovers `int_1` under the
same key, and the call 6 goes on up to its reconciliation. -/
def overtaken : List Step :=
  completed ++ created 3 "2" ++ previewed false false 4 "2" ++ intended 5 "u" 2 0 [] "2" ++
    ([.arrive (.recover (revisionArgs "u" 3 "recover" "2"))] : List Step) ++ plain 6 2 ++
    ([.arrive (.recover (revisionArgs "u" 4 "recover"))] : List Step) ++ plain 7 5 ++
    ([.act 7 (.verification (.error ""))] : List Step) ++ plain 7 1 ++
      ([.act 7 (.instant 3), .act 7 (.text "7")] : List Step) ++
    audited 7 ["b7"] ++ plain 7 1 ++
    plain 6 1 ++ ([.act 6 (.instant 4), .act 6 (.text "6")] : List Step) ++ audited 6 ["b6"]

theorem step_after {events : List Step} {ev : Step}
    (h : (run handler (start deployment) (idle World.initial) (events ++ [ev])).isSome) :
    Process.step handler (start deployment) (after events) ev = some (after (events ++ [ev])) := by
  obtain ⟨c', hc'⟩ := Option.isSome_iff_exists.mp h
  rw [run_append] at hc'
  obtain ⟨c, hc, hstep⟩ := Option.bind_eq_some_iff.mp hc'
  have hone : Process.step handler (start deployment) c ev = some c' := by
    simpa [run] using hstep
  simp [after, run_append, hc, run, hone]

theorem arrive_after {events : List Step} {k : Request}
    (h : (run handler (start deployment) (idle World.initial)
      (events ++ ([.arrive k] : List Step))).isSome) :
    (after events).arrive deployment k = after (events ++ ([.arrive k] : List Step)) :=
  Option.some.inj (step_after h)

/-- A call that changes nothing leaves the tables as they are in the runs of the scenario. -/
theorem unchanged {events : List Step} {i : ℕ} (more : List Step) (input : Input)
    (h : ChangesOnly deployment (after events) i fun _ => False)
    (hrun : (run handler (start deployment) (idle World.initial)
      (events ++ more ++ ([.act i input] : List Step))).isSome) :
    (after (events ++ more ++ ([.act i input] : List Step))).world.db =
      (after (events ++ more)).world.db := by
  have hmore : (run handler (start deployment) (idle World.initial) (events ++ more)).isSome := by
    obtain ⟨c', hc'⟩ := Option.isSome_iff_exists.mp hrun
    rw [run_append] at hc'
    obtain ⟨c, hc, -⟩ := Option.bind_eq_some_iff.mp hc'
    rw [hc]
    rfl
  rcases h _ _ input (reaches hmore) (step_after hrun) with hdb | ⟨_, -, hfalse⟩
  · exact hdb
  · exact hfalse.elim

end Scenario

/-- The law of a run with an intent and its observation. -/
theorem commit_law_scenario : CommitLaw Scenario.deployment (Scenario.after Scenario.completed) ∧
    (Scenario.after Scenario.completed).world.commits.length = 4 :=
  ⟨commit_law (Scenario.reachable _) Sha256.reference_collisionFree, by decide +kernel⟩

/-- A transition that the call has committed. -/
def committed (log : Log Action Action.Reply) : Bool :=
  log.any fun
    | ⟨.transition _, .ok ()⟩ => true
    | _ => false

/-- **A recovery commits twice**: repeated after its reconciliation it commits the verification,
and overtaken by another recovery under its key it still reconciles. -/
theorem recovery_commits_again :
    (¬ ∀ (d : Deployment) (c : Calls) (i : ℕ)
      (call : Call Request Action Action.Reply Raised Result),
      d.sha.CollisionFree → Reachable d c → c.calls[i]? = some call → committed call.log = true →
      ChangesOnly d (c.arrive d call.request) c.calls.length fun _ => False) ∧
    ¬ ∀ (d : Deployment) (c : Calls) (i : ℕ) (call : Call Request Action Action.Reply Raised Result)
      (key : IdempotencyKey) (p p' : Payload), d.sha.CollisionFree → Reachable d c →
      c.calls[i]? = some call → call.request.recorded d.sha = some (key, p) →
      (∃ cm ∈ c.world.commits, cm.key = key ∧ cm.payloadDigest = d.sha.hexdigest p') → p' ≠ p →
      ChangesOnly d c i fun _ => False := by
  constructor
  · intro hall
    have hrun : (Scenario.after Scenario.reconciledOnce).calls[3]?.map
          (fun call : Call Request Action Action.Reply Raised Result =>
            (call.request, committed call.log)) =
          some (Request.recover (Scenario.revisionArgs "u" 3 "recover"), true) ∧
        (Scenario.after Scenario.reconciledOnce).calls.length = 4 ∧
        (run handler (start Scenario.deployment) (idle World.initial) (Scenario.reconciledOnce ++
          ([.arrive (.recover (Scenario.revisionArgs "u" 3 "recover"))] :
            List Scenario.Step))).isSome ∧
        (run handler (start Scenario.deployment) (idle World.initial) (Scenario.repeatedOnce ++
          Scenario.recovering ++ ([.act 4 .none] : List Scenario.Step))).isSome ∧
        ((Scenario.after (Scenario.repeatedOnce ++ Scenario.recovering ++
          ([.act 4 .none] : List Scenario.Step))).world.db.records "int_1").map
            Interaction.revision ≠
          ((Scenario.after (Scenario.repeatedOnce ++ Scenario.recovering)).world.db.records
            "int_1").map Interaction.revision := by
      decide +kernel
    obtain ⟨hcall, hlength, harrive, hmore, hchanged⟩ := hrun
    obtain ⟨call, hi, hk⟩ := Option.map_eq_some_iff.mp hcall
    obtain ⟨hreq, hcommitted⟩ := Prod.mk.inj hk
    have hlaw := hall Scenario.deployment _ 3 call Sha256.reference_collisionFree
      (Scenario.reachable Scenario.reconciledOnce) hi hcommitted
    rw [hreq, Scenario.arrive_after harrive, hlength] at hlaw
    have hdb : (Scenario.after (Scenario.repeatedOnce ++ Scenario.recovering ++
          ([.act 4 .none] : List Scenario.Step))).world.db =
        (Scenario.after (Scenario.repeatedOnce ++ Scenario.recovering)).world.db :=
      Scenario.unchanged Scenario.recovering .none hlaw hmore
    exact hchanged (congrArg (fun db => (db.records "int_1").map Interaction.revision) hdb)
  · intro hall
    have hrun : (Scenario.after Scenario.overtaken).calls[6]?.map Call.request =
          some (Request.recover (Scenario.revisionArgs "u" 3 "recover" "2")) ∧
        (∃ cm ∈ (Scenario.after Scenario.overtaken).world.commits,
          cm.key = ⟨⟨"tenant", "workspace", "default"⟩, .recover, "recover"⟩ ∧
          cm.payloadDigest = Sha256.reference.hexdigest
            (revisionPayload (Scenario.revisionArgs "u" 4 "recover"))) ∧
        (run handler (start Scenario.deployment) (idle World.initial)
          (Scenario.overtaken ++ [] ++ ([.act 6 .none] : List Scenario.Step))).isSome ∧
        ((Scenario.after (Scenario.overtaken ++ [] ++
          ([.act 6 .none] : List Scenario.Step))).world.db.records
          "int_2").map Interaction.revision ≠
          ((Scenario.after (Scenario.overtaken ++ [])).world.db.records "int_2").map
            Interaction.revision := by
      decide +kernel
    obtain ⟨hcall, hother, hmore, hchanged⟩ := hrun
    obtain ⟨call, hi, hreq⟩ := Option.map_eq_some_iff.mp hcall
    have hlaw := hall Scenario.deployment _ 6 call
      ⟨⟨"tenant", "workspace", "default"⟩, .recover, "recover"⟩
      (revisionPayload (Scenario.revisionArgs "u" 3 "recover" "2"))
      (revisionPayload (Scenario.revisionArgs "u" 4 "recover")) Sha256.reference_collisionFree
      (Scenario.reachable Scenario.overtaken) hi (by rw [hreq]; decide +kernel)
      hother (by decide +kernel)
    have hdb := Scenario.unchanged [] .none hlaw hmore
    exact hchanged (congrArg (fun db => (db.records "int_2").map Interaction.revision) hdb)

end Interactions

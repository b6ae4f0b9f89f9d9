import AiLabOs.Interaction.ExecutionSafety

/-!
# Trusted interactions: the system is safe

The bridge and the adapter add nothing to what the service may commit, so every call of the system
is safe from its arrival, and the protocol holds in every reachable configuration.

## Main results

* `startsSafe`: every call is safe on arrival
* `Reachable.inv`: the invariant of every reachable configuration
* `Reachable.invariant`, `Reachable.aggregate`, `Reachable.relation`: further invariants, from the
  effects of the actions
* `Reachable.seen_current`: how a record of the past relates to the stored one
-/

namespace Interactions

open Process

/-- **The operations of the service** meet a precondition that asks nothing of actions that only
read, nor of the writes of the bridge. -/
structure OperationsKeep (sha : Sha256)
    (pr : ℕ → Log Action Action.Reply → Action → World → Prop) (i : ℕ) : Prop where
  reads : ReadsFree pr
  evidence : ∀ log w id payload digest acceptedAt keyId,
    pr i log (.storeTrustedIngressEvidence id payload digest acceptedAt keyId) w
  challenge : ∀ log w row, pr i log (.storeConfirmationChallenge row) w
  create : ∀ a log w, Keeps pr i (fun _ _ _ => True) (createInteraction sha a) log w
  preview : ∀ a log w, Keeps pr i (fun _ _ _ => True) (preview sha a) log w
  confirm : ∀ a : ConfirmArgs, a.Consistent → ∀ log w,
    Keeps pr i (fun _ _ _ => True) (confirm sha a) log w
  approve : ∀ a log w, Keeps pr i (fun _ _ _ => True) (approve sha a) log w
  cancel : ∀ a log w, Keeps pr i (fun _ _ _ => True) (cancel sha a) log w
  expirePreview : ∀ a log w, Keeps pr i (fun _ _ _ => True) (expirePreview sha a) log w
  startExecution : ∀ a log w, readings log = [] →
    Keeps pr i (fun _ _ _ => True) (startExecution sha a) log w
  verify : ∀ a log w, Keeps pr i (fun _ _ _ => True) (verify sha a) log w
  recover : ∀ a log w, Keeps pr i (fun _ _ _ => True) (recover sha a) log w

section Bridge

variable {α β : Type} {sha : Sha256} {i : ℕ} {log : Log Action Action.Reply} {w : World}
variable {pr : ℕ → Log Action Action.Reply → Action → World → Prop}
variable {post : β → Log Action Action.Reply → World → Prop}

/-- A safe program and a safe continuation, with nothing carried from one to the other. -/
theorem keeps_seq {p : Prog α} {f : α → Prog β}
    (hp : Keeps pr i (fun _ _ _ => True) p log w)
    (hf : ∀ a log' w', Keeps pr i post (f a) log' w') :
    Keeps pr i post (p >>= f) log w :=
  Safe.bind (hp.mono (fun a log' w' _ => hf a log' w') fun _ _ _ _ => trivial)

/-- An action that only the environment answers. -/
theorem keeps_ask {e : Action} {f : e.Reply → Prog β} (hpr : ReadsFree pr) (he : e.writes = false)
    (h : ∀ r log' w', Keeps pr i post (f r) log' w') :
    Keeps pr i post (act e >>= f) log w :=
  Safe.perform fun w' _ _ => ⟨hpr i log e w' he, fun _ r w'' _ => h r _ w''⟩

theorem keeps_orRaise {r : Except Raised α} {f : α → Prog β}
    (h : ∀ a, Keeps pr i post (f a) log w) :
    Keeps pr i post (orRaise r >>= f) log w := by
  cases r with
  | error x => exact keeps_raise
  | ok a => exact h a

theorem keeps_orRaiseError {r : Except RepositoryError α} {f : α → Prog β}
    (h : ∀ a, Keeps pr i post (f a) log w) :
    Keeps pr i post (orRaiseError r >>= f) log w := by
  rcases r with (_ | _) | a
  · exact keeps_raise
  · exact keeps_raise
  · exact h a

theorem keeps_resolve {assertion : ShellAssertion} {f : ResolvedShellContext → Prog β}
    (hpr : ReadsFree pr)
    (h : ∀ c log' w', Keeps pr i post (f c) log' w') :
    Keeps pr i post (resolve assertion >>= f) log w := by
  unfold resolve
  refine Safe.bind (keeps_ask hpr rfl fun r log' w' => ?_)
  cases r with
  | error x => exact keeps_raise
  | ok c => exact Safe.ret (h c log' w')

theorem respond_keeps {context : ResolvedShellContext} {X requestId traceId : String}
    (hr : ReadsFree pr) :
    Keeps pr i (fun _ _ _ => True) (respond context X requestId traceId) log w := by
  unfold respond view
  refine keeps_status hr fun _ _ _ _ => ?_
  refine Safe.bind (keeps_status hr fun _ _ _ _ => ?_)
  exact Safe.ret (Safe.ret trivial)

/-- Every exception of a guarded operation becomes a response. -/
theorem guarded_keeps {assertion : ShellAssertion}
    {operation : ResolvedShellContext → String → String → Prog AdapterResponse}
    (hpr : ReadsFree pr)
    (h : ∀ c r t log' w', Keeps pr i (fun _ _ _ => True) (operation c r t) log' w') :
    Keeps pr i (fun _ _ _ => True) (guarded assertion operation) log w := by
  unfold guarded
  refine Safe.tryCatch ((keeps_resolve hpr fun c log' w' => h c _ _ log' w').mono
    (fun _ _ _ _ => trivial) fun x log' w' _ => ?_)
  cases x <;> exact Safe.ret trivial

theorem adapterPreview_keeps {assertion : ShellAssertion} {operation key : String}
    {parameters : JsonDoc} (ops : OperationsKeep sha pr i) :
    Keeps pr i (fun _ _ _ => True) (adapterPreview sha assertion operation parameters key)
      log w := by
  refine guarded_keeps ops.reads fun context requestId traceId log' w' => ?_
  refine keeps_ask ops.reads rfl fun _ _ _ => ?_
  refine keeps_orRaise fun plan => ?_
  refine keeps_failIf fun _ => ?_
  refine keeps_seq (ops.create _ _ _) fun created _ _ => ?_
  exact keeps_seq (ops.preview _ _ _) fun _ _ _ => respond_keeps ops.reads

theorem acceptEvidence_keeps {cfg : BridgeConfig} {wire : String} (hr : ReadsFree pr)
    (hevidence : ∀ log w id payload digest acceptedAt keyId,
      pr i log (.storeTrustedIngressEvidence id payload digest acceptedAt keyId) w) :
    Keeps pr i (fun _ _ _ => True) (acceptEvidence sha cfg wire) log w := by
  unfold acceptEvidence
  refine keeps_ask hr rfl fun reply _ _ => ?_
  cases reply with
  | error e => exact keeps_fail
  | ok envelope =>
    refine keeps_failIf fun _ => ?_
    refine keeps_now hr fun _ _ _ => ?_
    refine Safe.perform fun _ _ _ => ⟨hevidence _ _ _ _ _ _ _, fun _ _ _ _ => ?_⟩
    exact keeps_orRaiseError fun _ => Safe.ret trivial

/-- The bridge's preview, given that of the adapter. -/
theorem bridgePreview_keeps {cfg : BridgeConfig} {parameters : JsonDoc} {key : String}
    (hr : ReadsFree pr) (hchallenge : ∀ log w row, pr i log (.storeConfirmationChallenge row) w)
    (hpreview : Keeps pr i (fun _ _ _ => True) (adapterPreview sha (bridgeAssertion cfg key)
      "user_task.create" parameters key) log w) :
    Keeps pr i (fun _ _ _ => True) (bridgePreview sha cfg parameters key) log w := by
  unfold bridgePreview
  refine keeps_seq hpreview fun response _ _ => ?_
  split
  · refine keeps_resolve hr fun _ _ _ => ?_
    refine keeps_resolve hr fun _ _ _ => ?_
    refine keeps_status hr fun _ _ _ _ => ?_
    refine keeps_asserted fun preview _ => ?_
    refine keeps_ask hr rfl fun _ _ _ => ?_
    refine keeps_ask hr rfl fun _ _ _ => ?_
    refine keeps_now hr fun _ _ _ => ?_
    refine keeps_ask hr rfl fun _ _ _ => ?_
    refine Safe.perform fun _ _ _ => ⟨hchallenge _ _ _, fun _ _ _ _ => ?_⟩
    exact keeps_orRaiseError fun _ => Safe.ret trivial
  · exact Safe.ret trivial

theorem keeps_parsedInstant {t : Option Instant} {f : Instant → Prog β}
    (h : ∀ t, Keeps pr i post (f t) log w) :
    Keeps pr i post (parsedInstant t >>= f) log w := by
  cases t with
  | none => exact keeps_raise
  | some t => exact h t

/-- What the bridge consumes it consumes for the Preview it confirms. -/
theorem bridgeConfirmArgs_consistent (a : BridgeConfirmArgs) (context : ResolvedShellContext)
    (preview : Preview) (record : EvidenceRow) (challenge : ChallengeRow) (now : Instant) :
    (bridgeConfirmArgs a context preview record challenge now).Consistent := by
  intro c hc
  obtain rfl := Option.some.inj hc
  exact ⟨rfl, rfl⟩

/-- The bridge's confirmation, given that of the service. -/
theorem bridgeConfirm_keeps {cfg : BridgeConfig} {a : BridgeConfirmArgs} (hr : ReadsFree pr)
    (hconfirm : ∀ a : ConfirmArgs, a.Consistent → ∀ log w,
      Keeps pr i (fun _ _ _ => True) (confirm sha a) log w) :
    Keeps pr i (fun _ _ _ => True) (bridgeConfirm sha cfg a) log w := by
  unfold bridgeConfirm
  refine keeps_resolve hr fun context _ _ => ?_
  refine keeps_status hr fun status _ _ _ => ?_
  split
  · exact keeps_fail
  · rename_i preview _
    refine keeps_failIf fun _ => ?_
    refine keeps_ask hr rfl fun record _ _ => ?_
    refine keeps_ask hr rfl fun challenge _ _ => ?_
    split
    · refine keeps_ask hr rfl fun reply _ _ => ?_
      cases reply with
      | error e => exact keeps_fail
      | ok envelope =>
        dsimp only
        unfold consumeEvidence
        refine keeps_now hr fun now _ _ => ?_
        refine keeps_parsedInstant fun _ => ?_
        refine keeps_parsedInstant fun _ => ?_
        refine keeps_failIf fun _ => ?_
        refine keeps_seq (hconfirm _ (bridgeConfirmArgs_consistent _ _ _ _ _ _) _ _)
          fun _ _ _ => ?_
        refine keeps_seq (guarded_keeps hr fun _ _ _ _ _ => respond_keeps hr) fun _ _ _ => ?_
        exact Safe.ret trivial
    · exact keeps_fail

end Bridge

/-! ## Every call -/

/-- **Every call** meets what the operations meet. -/
theorem start_keeps {d : Deployment} {pr : ℕ → Log Action Action.Reply → Action → World → Prop}
    {i : ℕ} (ops : OperationsKeep d.sha pr i) (k : Request) (w : World) :
    Keeps pr i (fun _ _ _ => True) (start d k) [] w := by
  have hdone : ∀ {α : Type} (f : α → Result) {p : Prog α},
      Keeps pr i (fun _ _ _ => True) p [] w → Keeps pr i (fun _ _ _ => True) (f <$> p) [] w :=
    fun f _ hp => keeps_seq hp fun _ _ _ => Safe.ret trivial
  cases k with
  | create a => exact hdone _ (ops.create a _ _)
  | preview a => exact hdone _ (ops.preview a _ _)
  | confirm a =>
    have hconsistent : ConfirmArgs.Consistent { a with consumption := none } := nofun
    exact hdone _ (ops.confirm _ hconsistent _ _)
  | approve a => exact hdone _ (ops.approve a _ _)
  | cancel a => exact hdone _ (ops.cancel a _ _)
  | expirePreview a => exact hdone _ (ops.expirePreview a _ _)
  | startExecution a => exact hdone _ (ops.startExecution a _ _ rfl)
  | verify a => exact hdone _ (ops.verify a _ _)
  | recover a => exact hdone _ (ops.recover a _ _)
  | status workspace actorId id =>
    exact hdone _ ((status_keeps ops.reads).mono (fun _ _ _ _ => trivial) fun _ _ _ _ => trivial)
  | acceptEvidence wire => exact hdone _ (acceptEvidence_keeps ops.reads ops.evidence)
  | bridgePreview parameters key =>
    exact hdone _ (bridgePreview_keeps ops.reads ops.challenge (adapterPreview_keeps ops))
  | bridgeConfirm a => exact hdone _ (bridgeConfirm_keeps ops.reads ops.confirm)

theorem operationsKeep_pre (sha : Sha256) (i : ℕ) : OperationsKeep sha (pre sha) i where
  reads := readsFree_pre sha
  evidence _ _ _ _ _ _ _ := trivial
  challenge _ _ _ := trivial
  create a _ _ := createInteraction_keeps a
  preview a _ _ := preview_keeps a
  confirm a ha _ _ := confirm_keeps a ha
  approve a _ _ := approve_keeps a
  cancel a _ _ := cancel_keeps a
  expirePreview a _ _ := expirePreview_keeps a
  startExecution a _ _ hlog := startExecution_keeps a hlog
  verify a _ _ := verify_keeps a
  recover a _ _ := recover_keeps a

/-- **Every call is safe on arrival.** -/
theorem startsSafe (d : Deployment) : StartsSafe protocol handler (pre d.sha) (start d) :=
  fun i k w _ => start_keeps (operationsKeep_pre d.sha i) k w

section Reachable

variable {d : Deployment} {c c' : Calls}

theorem Reachable.allSafe (h : Reachable d c) : AllSafe protocol handler (pre d.sha) c :=
  (AllSafe.idle inv_initial).reaches (sound d.sha) (startsSafe d) h

/-- **The invariant of every reachable configuration.** -/
theorem Reachable.inv (h : Reachable d c) : Inv c.world := h.allSafe.1

theorem Reachable.trans (h : Reachable d c) (hr : Reaches handler (start d) c c') :
    Reachable d c' := Reaches.trans h hr

/-- **Invariants of runs**: what holds at first and every effect keeps holds in every reachable
configuration. -/
theorem Reachable.invariant {J : World → Prop} (h : Reachable d c) (hinit : J World.initial)
    (heffect : ∀ {c : Calls} {i log w'}, Reachable d c → J c.world →
      Effect d.sha i log c.world w' → J w') : J c.world := by
  refine Reaches.induction (motive := fun c => J c.world) h hinit fun c ev c' hc hj he => ?_
  rcases step_cases he with ⟨k, -, rfl⟩ | ⟨i, input, k, log, e, next, r, w, -, hi, hact, rfl⟩
  · exact hj
  · have hsafe : AllSafe protocol handler (pre d.sha) c := Reachable.allSafe hc
    exact heffect hc hj (pre.effect (hsafe.meets_pre hi) hact)

/-- A preorder that every effect follows relates the two ends of every run. -/
theorem Reachable.relation {T : World → World → Prop} (h : Reachable d c)
    (hr : Reaches handler (start d) c c') (hrefl : ∀ w, T w w)
    (htrans : ∀ u v w, T u v → T v w → T u w)
    (heffect : ∀ i log w w', Inv w → Inv w' → Effect d.sha i log w w' → T w w') :
    T c.world c'.world :=
  h.allSafe.relation (sound d.sha) (startsSafe d) hr hrefl htrans
    fun i log _ _ _ w w' hinv hinv' hpre hr => heffect i log w w' hinv hinv' (pre.effect hpre hr)

/-- **What was committed before a run** is still in the history after it. -/
theorem Reachable.commits (h : Reachable d c) (hr : Reaches handler (start d) c c') :
    c.world.commits <:+ c'.world.commits :=
  h.relation hr (T := fun w w' => w.commits <:+ w'.commits) (fun _ => List.suffix_rfl)
    (fun _ _ _ => List.IsSuffix.trans) fun _ _ _ _ _ _ he => he.commits

/-- Invariants of the aggregate, from what a commit and a creation keep. -/
theorem Reachable.aggregate {J : World → Prop} (h : Reachable d c) (hinit : J World.initial)
    (hcommit : ∀ {c : Calls} {i cur t db}, Reachable d c → J c.world →
      c.world.db.records cur.interactionId = some cur → Legal d.sha c.world i cur t →
      c.world.db.Committed t db → J (c.world.commit db t.commit))
    (hcreate : ∀ {c : Calls} {a : CreateArgs} {r : Interaction} {id now audit key digest},
      Reachable d c → J c.world → r = a.interaction r.scope id now →
      c.world.db.records r.interactionId = none →
      c.world.db.idempotency ⟨r.scope, .create, key⟩ = none →
      J (c.world.commit (c.world.db.created r audit key digest) (r.creation key digest)))
    (hsame : ∀ {w w'}, J w → w.SameAggregate w' → J w') : J c.world :=
  h.invariant hinit fun hc hj he => by
    rcases he.aggregate with ⟨cur, t, db, hcur, hlegal, hcm, rfl⟩ |
      ⟨a, r, id, now, audit, hshape, hnew, hkey, rfl⟩ | hs
    · exact hcommit hc hj hcur hlegal hcm
    · exact hcreate hc hj hshape hnew hkey
    · exact hsame hj hs

/-- **A record of the past and the stored one**: a relation that is reflexive and that every legal
transition of the stored record keeps relates every record of the past to the stored one. -/
theorem Reachable.seen_current {R : Interaction → Interaction → Prop} (h : Reachable d c)
    (hrefl : ∀ r, R r r)
    (hlegal : ∀ w i r cur t, R r cur → Legal d.sha w i cur t → R r t.interaction)
    {r cur : Interaction} (hr : c.world.Seen r)
    (hcur : c.world.db.records r.interactionId = some cur) : R r cur := by
  refine h.aggregate (J := fun w => ∀ r cur, w.Seen r → w.db.records r.interactionId = some cur →
    R r cur) ?_ ?_ ?_ ?_ r cur hr hcur
  · intro r cur hr
    simp [World.Seen, World.initial] at hr
  · intro c i cur t db hreach hj hcur hl hc r cur' hr hcur'
    have hid := hl.interactionId
    rw [World.commit_db, hc.records, hid] at hcur'
    rw [World.commit_seen] at hr
    rcases hr with rfl | hr
    · have heq : t.interaction = cur' := by simpa [Transition.commit, hid] using hcur'
      exact heq ▸ hrefl _
    · by_cases hX : r.interactionId = cur.interactionId
      · have heq : t.interaction = cur' := by simpa [hX] using hcur'
        exact heq ▸ hlegal _ i r cur t (hj r cur hr (hX ▸ hcur)) hl
      · rw [Function.update_of_ne hX] at hcur'
        exact hj r cur' hr hcur'
  · intro c a r id now audit key digest hreach hj hshape hnew _ r' cur' hr hcur'
    rw [World.commit_seen] at hr
    simp only [World.commit_db, Database.created] at hcur'
    rcases hr with rfl | hr
    · have heq : r' = cur' := by simpa [Interaction.creation] using hcur'
      exact heq ▸ hrefl _
    · have hne : r'.interactionId ≠ r.interactionId := by
        intro hX
        obtain ⟨cur, hcur, -⟩ := hreach.inv.seen_stored hr
        simp [hX, hnew] at hcur
      rw [Function.update_of_ne hne] at hcur'
      exact hj r' cur' hr hcur'
  · intro w w' hj hs r cur hr hcur
    simp only [World.Seen, hs.commits] at hr
    rw [hs.records] at hcur
    exact hj r cur hr hcur

end Reachable

end Interactions

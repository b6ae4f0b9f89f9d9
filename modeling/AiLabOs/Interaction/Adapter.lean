import AiLabOs.Interaction.Idempotency
import AiLabOs.Interaction.Policy
import AiLabOs.Process.Paths

/-!
# Trusted interactions: the shell adapter

The calls of the adapter besides its `preview`, in a deployment whose policy resolver is that of
the pilot. The rest of the system runs beside it; only the adapter previews.

## Main definitions

* `adapterModify`, `adapterConfirm`, `adapterCancel`, `adapterRecover`: the adapter over the service
* `AdapterRequest`, `adapterStart`: the calls of the system
* `AdapterReachable`: the configurations some run with the pilot's resolver leads to

## Main results

* `AdapterReachable.conforms`: every reply of the resolver is the resolver's
* `AdapterReachable.read_past`: what a call has read of an interaction is a past fact
* `AdapterReachable.resolved`: every Preview has the parameters of some plan
-/

namespace Interactions

open Process Process.Program

/-! ## The adapter -/

/-- `_require_policy_context`. -/
def requirePolicyContext (current : InteractionStatus) (plan : ResolvedOperationPlan)
    (operation traceId : String) : Prog Unit :=
  failIf (current.interaction.operation ≠ plan.canonicalOperation ∨
      current.interaction.policyReference ≠ plan.policyReference ∨
      current.interaction.riskLevel ≠ plan.riskLevel)
    (adapterFailure "interaction_adapter.policy_context_changed" operation
      "Resolved operation, policy, or risk no longer matches the canonical Interaction" traceId)

/-- The Preview `modify` asks for. -/
def adapterModifyArgs (context : ResolvedShellContext) (plan : ResolvedOperationPlan)
    (interactionId : String) (expectedRevision : Int) (idempotencyKey : String) : PreviewArgs :=
  { workspace := context.workspace, actorId := context.actorId, interactionId, expectedRevision
    normalizedParameters := plan.normalizedParameters, mutationSummary := plan.mutationSummary
    expiresIn := plan.previewTtlSeconds * 1000000, idempotencyKey
    targetObjectId := plan.targetObjectId, targetRevision := plan.targetRevision
    expectedExternalEffects := plan.expectedExternalEffects
    requiresConfirmation := plan.requiresConfirmation
    requiresApproval := plan.requiresApproval
    canonicalCommitRequired := plan.canonicalCommitRequired }

/-- `TrustedInteractionAdapter.modify`. -/
def adapterModify (sha : Sha256) (assertion : ShellAssertion) (interactionId : String)
    (expectedRevision : Int) (requestedOperation : String) (parameters : JsonDoc)
    (idempotencyKey : String) : Prog AdapterResponse :=
  guarded assertion fun context requestId traceId => do
    let reply ← act (.resolvePolicy context requestedOperation parameters traceId)
    let plan ← orRaise reply
    let current ← status context.workspace context.actorId interactionId
    requirePolicyContext current plan "modify" traceId
    let _ ← preview sha (adapterModifyArgs context plan interactionId expectedRevision
      idempotencyKey)
    respond context interactionId requestId traceId

/-- `TrustedInteractionAdapter.confirm`. -/
def adapterConfirm (sha : Sha256) (assertion : ShellAssertion) (interactionId previewId : String)
    (previewRevision expectedRevision : Int) (idempotencyKey : String) : Prog AdapterResponse :=
  guarded assertion fun context requestId traceId => do
    let _ ← confirm sha { workspace := context.workspace, actorId := context.actorId, interactionId
                          previewId, previewRevision, expectedRevision, idempotencyKey }
    respond context interactionId requestId traceId

/-- `TrustedInteractionAdapter.cancel`. -/
def adapterCancel (sha : Sha256) (assertion : ShellAssertion) (interactionId : String)
    (expectedRevision : Int) (idempotencyKey : String) : Prog AdapterResponse :=
  guarded assertion fun context requestId traceId => do
    let _ ← cancel sha
      ⟨context.workspace, context.actorId, interactionId, expectedRevision, idempotencyKey⟩
    respond context interactionId requestId traceId

/-- The re-resolution of the policy and the recovery, with the Preview that `recover` found. -/
def recoverUnderPolicy (sha : Sha256) (context : ResolvedShellContext)
    (current : InteractionStatus) (interactionId : String) (expectedRevision : Int)
    (idempotencyKey requestId traceId : String) : Option Preview → Prog AdapterResponse
  | none => fail (adapterFailure "interaction_adapter.policy_context_unavailable" "recover"
      "Canonical Preview is unavailable for policy validation" traceId)
  | some preview => do
    let reply ← act (.resolvePolicy context current.interaction.operation
      preview.normalizedParameters traceId)
    let plan ← orRaise reply
    requirePolicyContext current plan "recover" traceId
    let _ ← recover sha
      ⟨context.workspace, context.actorId, interactionId, expectedRevision, idempotencyKey⟩
    respond context interactionId requestId traceId

/-- `TrustedInteractionAdapter.recover`. -/
def adapterRecover (sha : Sha256) (assertion : ShellAssertion) (interactionId : String)
    (expectedRevision : Int) (idempotencyKey : String) : Prog AdapterResponse :=
  guarded assertion fun context requestId traceId => do
    let current ← status context.workspace context.actorId interactionId
    recoverUnderPolicy sha context current interactionId expectedRevision idempotencyKey requestId
      traceId current.preview

/-! ## The system -/

/-- A request that previews on its own, past the adapter. -/
def Request.previews : Request → Bool
  | .preview _ => true
  | _ => false

/-- What a call asks for: one of the adapter, or another one of the system. -/
inductive AdapterRequest where
  | preview (assertion : ShellAssertion) (requestedOperation : String) (parameters : JsonDoc)
      (idempotencyKey : String)
  | modify (assertion : ShellAssertion) (interactionId : String) (expectedRevision : Int)
      (requestedOperation : String) (parameters : JsonDoc) (idempotencyKey : String)
  | confirm (assertion : ShellAssertion) (interactionId previewId : String)
      (previewRevision expectedRevision : Int) (idempotencyKey : String)
  | cancel (assertion : ShellAssertion) (interactionId : String) (expectedRevision : Int)
      (idempotencyKey : String)
  | status (assertion : ShellAssertion) (interactionId : String)
  | recover (assertion : ShellAssertion) (interactionId : String) (expectedRevision : Int)
      (idempotencyKey : String)
  | other (k : Request) (h : k.previews = false)

/-- What a call returns. -/
inductive AdapterResult where
  | response (r : AdapterResponse)
  | other (r : Result)
deriving DecidableEq, Repr

/-- The program of a request. -/
def adapterStart (d : Deployment) : AdapterRequest → Prog AdapterResult
  | .preview assertion operation parameters key =>
    .response <$> adapterPreview d.sha assertion operation parameters key
  | .modify assertion X revision operation parameters key =>
    .response <$> adapterModify d.sha assertion X revision operation parameters key
  | .confirm assertion X previewId previewRevision revision key =>
    .response <$> adapterConfirm d.sha assertion X previewId previewRevision revision key
  | .cancel assertion X revision key => .response <$> adapterCancel d.sha assertion X revision key
  | .status assertion X => .response <$> adapterStatus assertion X
  | .recover assertion X revision key =>
    .response <$> adapterRecover d.sha assertion X revision key
  | .other k _ => .other <$> start d k

/-- The calls in flight over the world. -/
abbrev AdapterCalls := Config AdapterRequest Action Action.Reply Raised AdapterResult World

/-- The replies of the policy resolver are those of the pilot's. -/
def policyReplies (env : PolicyEnvironment) : ℕ → Action → Input → World → Bool
  | _, .resolvePolicy context operation parameters traceId, .plan r, _ =>
    r = resolveOperation env context operation (JsonText.fieldsOf parameters) traceId
  | _, _, _, _ => true

/-- Some run with the pilot's resolver leads from the initial world to `c`. -/
def AdapterReachable (env : PolicyEnvironment) (d : Deployment) (c : AdapterCalls) : Prop :=
  ReachesIf handler (adapterStart d) (meets (policyReplies env)) (idle World.initial) c

/-- The replies in the log are the resolver's. -/
def Conforms (env : PolicyEnvironment) (log : Log Action Action.Reply) : Prop :=
  ∀ context operation parameters traceId r,
    (⟨.resolvePolicy context operation parameters traceId, r⟩ : Σ e : Action, e.Reply) ∈ log →
      r = resolveOperation env context operation (JsonText.fieldsOf parameters) traceId

/-- What the calls have read of interactions are past facts. -/
def ReadPast (log : Log Action Action.Reply) (w : World) : Prop :=
  ∀ X ty id x, (⟨.fact X ty id, some x⟩ : Σ e : Action, e.Reply) ∈ log → w.Past X (.of ty x)

/-! ## Every call is safe -/

section Safety

variable {d : Deployment} {env : PolicyEnvironment} {i : ℕ} {w : World}
variable {log : Log Action Action.Reply}
variable {pr : ℕ → Log Action Action.Reply → Action → World → Prop}

/-- **The adapter is safe** for what the operations it calls meet, given those that preview. -/
theorem adapterStart_keeps (hr : ReadsFree pr)
    (hconfirm : ∀ a : ConfirmArgs, a.Consistent → ∀ log w,
      Keeps pr i (fun _ _ _ => True) (confirm d.sha a) log w)
    (hcancel : ∀ a log w, Keeps pr i (fun _ _ _ => True) (cancel d.sha a) log w)
    (hrecover : ∀ a log w, Keeps pr i (fun _ _ _ => True) (recover d.sha a) log w)
    (hpreview : ∀ assertion operation parameters key,
      Keeps pr i (fun _ _ _ => True) (adapterPreview d.sha assertion operation parameters key) [] w)
    (hmodify : ∀ assertion X revision operation parameters key, Keeps pr i (fun _ _ _ => True)
      (adapterModify d.sha assertion X revision operation parameters key) [] w)
    (hother : ∀ k, k.previews = false → Keeps pr i (fun _ _ _ => True) (start d k) [] w)
    (k : AdapterRequest) : Keeps pr i (fun _ _ _ => True) (adapterStart d k) [] w := by
  have hdone : ∀ {α : Type} (f : α → AdapterResult) {p : Prog α},
      Keeps pr i (fun _ _ _ => True) p [] w → Keeps pr i (fun _ _ _ => True) (f <$> p) [] w :=
    fun f _ hp => keeps_seq hp fun _ _ _ => Safe.ret trivial
  cases k with
  | preview assertion operation parameters key => exact hdone _ (hpreview ..)
  | modify assertion X revision operation parameters key => exact hdone _ (hmodify ..)
  | confirm assertion X previewId previewRevision revision key =>
    refine hdone _ (guarded_keeps hr fun context _ _ _ _ => ?_)
    exact keeps_seq (hconfirm _ (by intro c hc; cases hc) _ _) fun _ _ _ => respond_keeps hr
  | cancel assertion X revision key =>
    refine hdone _ (guarded_keeps hr fun context _ _ _ _ => ?_)
    exact keeps_seq (hcancel _ _ _) fun _ _ _ => respond_keeps hr
  | status assertion X =>
    exact hdone _ (guarded_keeps hr fun _ _ _ _ _ => respond_keeps hr)
  | recover assertion X revision key =>
    refine hdone _ (guarded_keeps hr fun context _ _ _ _ => ?_)
    refine keeps_status hr fun current _ _ _ => ?_
    cases current.preview with
    | none => exact keeps_fail
    | some preview =>
      refine keeps_ask hr rfl fun _ _ _ => ?_
      refine keeps_orRaise fun plan => ?_
      refine keeps_failIf fun _ => ?_
      exact keeps_seq (hrecover _ _ _) fun _ _ _ => respond_keeps hr
  | other k h => exact hdone _ (hother k h)

/-- Every call of the system is safe on arrival. -/
theorem adapterStartsSafe (d : Deployment) :
    StartsSafe protocol handler (pre d.sha) (adapterStart d) := by
  intro i k w _
  have ops := operationsKeep_pre d.sha i
  refine adapterStart_keeps ops.reads ops.confirm ops.cancel ops.recover
    (fun _ _ _ _ => adapterPreview_keeps ops) (fun _ _ _ _ _ _ => ?_)
    (fun k _ => start_keeps ops k w) k
  refine guarded_keeps ops.reads fun context _ _ _ _ => ?_
  refine keeps_ask ops.reads rfl fun _ _ _ => ?_
  refine keeps_orRaise fun plan => ?_
  refine keeps_status ops.reads fun current _ _ _ => ?_
  refine keeps_failIf fun _ => ?_
  exact keeps_seq (ops.preview _ _ _) fun _ _ _ => respond_keeps ops.reads

end Safety

/-! ## What a preview may write -/

/-- The Previews a `preview` writes anew have the parameters of some plan. -/
def Action.PreviewsResolved (env : PolicyEnvironment) : Action → Prop
  | .transition t => t.operation = .preview → ∀ p, .preview p ∈ t.facts → p.status = .active →
      Resolved env p.normalizedParameters
  | _ => True

/-- What a call writes while the resolver's replies are the resolver's. -/
def policyPre (env : PolicyEnvironment) (_ : ℕ) (log : Log Action Action.Reply) (e : Action)
    (_ : World) : Prop := Conforms env log → e.PreviewsResolved env

section Previews

variable {β : Type} {d : Deployment} {sha : Sha256} {env : PolicyEnvironment} {i : ℕ} {w : World}
variable {log : Log Action Action.Reply}

theorem readsFree_policyPre (env : PolicyEnvironment) : ReadsFree (policyPre env) := by
  intro i log e w he _
  cases e <;> first | exact trivial | cases he

/-- Calls that write under a key of another operation preview nothing. -/
theorem keeps_of_under {α : Type} {key : IdempotencyKey} {digest : String} {p : Prog α}
    (hop : key.operation ≠ .preview) (h : KeepsUnder key digest True i p log w) :
    Keeps (policyPre env) i (fun _ _ _ => True) p log w := by
  refine (h.mono (fun _ _ _ _ => trivial) fun _ _ _ _ => trivial).weaken fun log e w hunder _ => ?_
  cases e with
  | transition t =>
    intro hpreview
    rcases hunder with ⟨hkey, -⟩ | ⟨-, hgap⟩
    · exact absurd ((congrArg IdempotencyKey.operation hkey).symm.trans hpreview) hop
    · have hrec : t.operation = .reconcileExecution := congrArg IdempotencyKey.operation hgap
      exact absurd (hrec.symm.trans hpreview) Operation.noConfusion
  | _ => trivial

/-- **A preview of resolved parameters** writes them only. -/
theorem preview_resolved (a : PreviewArgs) (ha : Resolved env a.normalizedParameters) :
    Keeps (policyPre env) i (fun _ _ _ => True) (preview sha a) log w := by
  have hr := readsFree_policyPre env
  unfold preview
  refine keeps_scopeOf ?_
  refine keeps_idempotent hr (fun w₁ _ _ _ _ _ => ?_) fun row w₁ _ _ _ _ _ => ?_
  · refine keeps_require hr fun cur _ _ _ _ _ _ _ _ _ => ?_
    refine keeps_failIf fun _ => ?_
    refine keeps_failIf fun _ => ?_
    refine keeps_failIf fun _ => ?_
    refine keeps_now hr fun now _ _ => ?_
    refine keeps_failIf fun _ => ?_
    refine keeps_fact hr fun old _ _ _ _ _ => ?_
    refine keeps_newId_any hr fun previewId _ _ => ?_
    refine keeps_audit hr fun _ _ _ _ _ _ => ?_
    refine keeps_audit hr fun _ _ _ _ _ _ => ?_
    refine keeps_audit hr fun _ _ _ _ _ _ => ?_
    refine keeps_audit hr fun _ _ _ _ _ _ => ?_
    unfold transition
    refine Safe.bind (Safe.perform fun w' _ _ => ⟨fun _ _ p hp hactive => ?_, fun _ r _ _ => ?_⟩)
    · simp only [previewFacts, List.mem_append, List.mem_map, Option.mem_toList,
        List.mem_singleton, Fact.preview.injEq] at hp
      rcases hp with ⟨q, -, rfl⟩ | rfl
      · exact absurd hactive (by simp [Preview.withStatus])
      · exact ha
    · rcases r with (_ | _) | _
      · exact keeps_fail
      · exact keeps_raise
      · exact Safe.ret (Safe.ret trivial)
  · refine keeps_fact hr fun stored _ _ _ _ _ => ?_
    cases stored with
    | none => exact keeps_raise
    | some p => exact Safe.ret trivial

/-- **After the resolver's reply** a plan is at hand, or the log does not conform. -/
theorem keeps_plan {context : ResolvedShellContext} {operation traceId : String}
    {parameters : JsonDoc} {f : ResolvedOperationPlan → Prog β}
    (h : ∀ plan log' w', Resolved env plan.normalizedParameters →
      Keeps (policyPre env) i (fun _ _ _ => True) (f plan) log' w') :
    Keeps (policyPre env) i (fun _ _ _ => True)
      (act (.resolvePolicy context operation parameters traceId) >>= fun r => orRaise r >>= f)
      log w := by
  refine Safe.perform fun w' _ _ =>
    ⟨readsFree_policyPre env i log _ w' rfl, fun _ r w'' _ => ?_⟩
  by_cases hlog : Conforms env (log ++ [⟨.resolvePolicy context operation parameters traceId, r⟩])
  · have hreply := hlog context operation parameters traceId r (by simp)
    cases r with
    | error x => exact keeps_raise
    | ok plan => exact h plan _ w'' ⟨context, operation, _, traceId, plan, hreply.symm, rfl⟩
  · refine Safe.of_log (Q := fun log => ¬Conforms env log) hlog ?_ fun _ _ _ hn hc => absurd hc hn
    intro log entry hn hc
    exact hn fun context operation parameters traceId r hmem =>
      hc context operation parameters traceId r (List.mem_append_left _ hmem)

theorem adapterPreview_resolved {assertion : ShellAssertion} {operation key : String}
    {parameters : JsonDoc} :
    Keeps (policyPre env) i (fun _ _ _ => True)
      (adapterPreview sha assertion operation parameters key) log w := by
  have hr := readsFree_policyPre env
  refine guarded_keeps hr fun context requestId traceId _ _ => ?_
  refine keeps_plan fun plan _ _ hplan => ?_
  refine keeps_failIf fun _ => ?_
  refine keeps_seq (keeps_of_under (by simp) (createInteraction_under _)) fun created _ _ => ?_
  exact keeps_seq (preview_resolved _ hplan) fun _ _ _ => respond_keeps hr

theorem adapterModify_resolved {assertion : ShellAssertion} {X operation key : String}
    {revision : Int} {parameters : JsonDoc} :
    Keeps (policyPre env) i (fun _ _ _ => True)
      (adapterModify sha assertion X revision operation parameters key) log w := by
  have hr := readsFree_policyPre env
  refine guarded_keeps hr fun context requestId traceId _ _ => ?_
  refine keeps_plan fun plan _ _ hplan => ?_
  refine keeps_status hr fun current _ _ _ => ?_
  refine keeps_failIf fun _ => ?_
  exact keeps_seq (preview_resolved _ hplan) fun _ _ _ => respond_keeps hr

theorem confirm_resolved (a : ConfirmArgs) :
    Keeps (policyPre env) i (fun _ _ _ => True) (confirm sha a) log w :=
  keeps_of_under (by simp) (confirm_under a)

/-- A request that does not preview on its own previews through the adapter only. -/
theorem start_resolved (k : Request) (hk : k.previews = false) :
    Keeps (policyPre env) i (fun _ _ _ => True) (start d k) [] w := by
  have hr := readsFree_policyPre env
  have hdone : ∀ {α : Type} (f : α → Result) {p : Prog α},
      Keeps (policyPre env) i (fun _ _ _ => True) p [] w →
        Keeps (policyPre env) i (fun _ _ _ => True) (f <$> p) [] w :=
    fun f _ hp => keeps_seq hp fun _ _ _ => Safe.ret trivial
  cases k with
  | preview a => cases hk
  | create a => exact hdone _ (keeps_of_under (by simp) (createInteraction_under a))
  | confirm a => exact hdone _ (confirm_resolved _)
  | approve a => exact hdone _ (keeps_of_under (by simp) (approve_under a))
  | cancel a => exact hdone _ (keeps_of_under (by simp) (cancel_under a))
  | expirePreview a => exact hdone _ (keeps_of_under (by simp) (expirePreview_under a))
  | startExecution a => exact hdone _ (keeps_of_under (by simp) (startExecution_under a))
  | verify a => exact hdone _ (keeps_of_under (by simp) (verify_under a))
  | recover a => exact hdone _ (keeps_of_under (by simp) (recover_under a trivial))
  | status workspace actorId id =>
    exact hdone _ ((status_keeps hr).mono (fun _ _ _ _ => trivial) fun _ _ _ _ => trivial)
  | acceptEvidence wire =>
    exact hdone _ (acceptEvidence_keeps hr fun _ _ _ _ _ _ _ _ => trivial)
  | bridgePreview parameters key =>
    exact hdone _ (bridgePreview_keeps hr (fun _ _ _ _ => trivial) adapterPreview_resolved)
  | bridgeConfirm a => exact hdone _ (bridgeConfirm_keeps hr fun a _ _ _ => confirm_resolved a)

/-- **Every call previews resolved parameters only**. -/
theorem adapterStart_resolved (k : AdapterRequest) :
    Keeps (policyPre env) i (fun _ _ _ => True) (adapterStart d k) [] w :=
  adapterStart_keeps (readsFree_policyPre env) (fun a _ _ _ => confirm_resolved a)
    (fun a _ _ => keeps_of_under (by simp) (cancel_under a))
    (fun a _ _ => keeps_of_under (by simp) (recover_under a trivial))
    (fun _ _ _ _ => adapterPreview_resolved) (fun _ _ _ _ _ _ => adapterModify_resolved)
    (fun k hk => start_resolved k hk) k

end Previews

/-! ## Runs -/

section Runs

variable {d : Deployment} {env : PolicyEnvironment} {c : AdapterCalls}

theorem AdapterReachable.allSafe (h : AdapterReachable env d c) :
    AllSafe protocol handler (pre d.sha) c :=
  (AllSafe.idle inv_initial).reaches (sound d.sha) (adapterStartsSafe d) h.reaches

/-- **Every reply of the resolver is the resolver's.** -/
theorem AdapterReachable.conforms (h : AdapterReachable env d c) {i : ℕ}
    {call : Call AdapterRequest Action Action.Reply Raised AdapterResult}
    (hi : c.calls[i]? = some call) : Conforms env call.log := by
  refine ReachesIf.induction (motive := fun c => ∀ (i : ℕ) call, c.calls[i]? = some call →
    Conforms env call.log) h (fun i call hi => by simp [idle] at hi)
    (fun c ev c' _ hold hok he => ?_) i call hi
  intro j call hj
  rcases call_cases he hj with hj' | ⟨k, -, rfl⟩ |
    ⟨input, k, log, e, next, r, rfl, hj', hact, rfl⟩
  · exact hold j call hj'
  · intro _ _ _ _ _ hmem
    cases hmem
  · intro context operation parameters traceId reply hmem
    rcases List.mem_append.mp hmem with hmem | hmem
    · exact hold j _ hj' context operation parameters traceId reply hmem
    · cases List.mem_singleton.mp hmem
      simp only [meets, awaited_eq hj', Option.all_some] at hok
      cases input <;> simp only [handler, reduceCtorEq, Option.some.injEq, Prod.mk.injEq] at hact
      obtain ⟨rfl, -⟩ := hact
      simpa [policyReplies] using hok

/-- **What a call has read of an interaction is a past fact.** -/
theorem AdapterReachable.read_past (h : AdapterReachable env d c) {i : ℕ}
    {call : Call AdapterRequest Action Action.Reply Raised AdapterResult}
    (hi : c.calls[i]? = some call) : ReadPast call.log c.world := by
  refine ReachesIf.induction (motive := fun c => ∀ (i : ℕ) call, c.calls[i]? = some call →
    ReadPast call.log c.world) h (fun i call hi => by simp [idle] at hi)
    (fun c ev c' hc hold _ he => ?_) i call hi
  intro j call hj
  have hc : AdapterReachable env d c := hc
  have hcommits : c.world.commits <:+ c'.world.commits := by
    rcases step_cases he with ⟨k, -, rfl⟩ | ⟨i, input, k, log, e, next, r, w, -, hi, hact, rfl⟩
    · exact List.suffix_rfl
    · exact ((pre.effect (hc.allSafe.meets_pre hi) hact)).commits
  have hkept : ∀ {log}, ReadPast log c.world → ReadPast log c'.world :=
    fun hlog X ty id x hmem => (hlog X ty id x hmem).mono hcommits
  rcases call_cases he hj with hj' | ⟨k, -, rfl⟩ |
    ⟨input, k, log, e, next, r, rfl, hj', hact, rfl⟩
  · exact hkept (hold j call hj')
  · intro _ _ _ _ hmem
    cases hmem
  · intro X ty id x hmem
    rcases List.mem_append.mp hmem with hmem | hmem
    · exact hkept (hold j _ hj') X ty id x hmem
    · cases List.mem_singleton.mp hmem
      cases input <;> simp only [handler, reduceCtorEq, Option.some.injEq, Prod.mk.injEq] at hact
      have hloaded := hc.allSafe.1.loaded X ty id
      exact (hloaded x hact.1).1.mono hcommits

/-- A commit writes a Preview again with another status, or as that of a `preview`. -/
theorem Legal.preview_written {sha : Sha256} {w : World} {i : ℕ} {cur : Interaction}
    {t : Transition} (h : Legal sha w i cur t) {p : Preview} (hp : .preview p ∈ t.facts) :
    (∃ q, w.Past cur.interactionId (.preview q) ∧ p.SameTerms q) ∨
      t.operation = .preview ∧ p.status = .active := by
  have hagain : ∀ {q : Preview} {s : PreviewStatus}, w.Past cur.interactionId (.preview q) →
      p = q.withStatus s → ∃ q, w.Past cur.interactionId (.preview q) ∧ p.SameTerms q :=
    fun hq heq => ⟨_, hq, heq ▸ Preview.SameTerms.withStatus _ _⟩
  cases h with
  | preview a old previewId now audits hid hactor hrev hstate hold hnone hown =>
    simp only [previewFacts, List.mem_append, List.mem_map, Option.mem_toList,
      List.mem_singleton] at hp
    rcases hp with ⟨q, hq, heq⟩ | heq
    · exact .inl (hagain (hold q hq).1 (Fact.preview.inj heq).symm)
    · obtain rfl := Fact.preview.inj heq
      exact .inr ⟨rfl, rfl⟩
  | confirm a preview confirmationId now audits hid hrev hstate hpast =>
    simp only [List.mem_cons, List.not_mem_nil, or_false, reduceCtorEq, Fact.preview.injEq] at hp
    exact .inl (hagain hpast hp)
  | cancel a preview now audits hid hrev hterminal hstate hload =>
    cases preview with
    | none => cases hp
    | some q =>
      simp only [cancelFacts] at hp
      split at hp
      · simp only [List.mem_singleton, Fact.preview.injEq] at hp
        exact .inl (hagain (hload q rfl).1 hp)
      · cases hp
  | expire a preview now audits hid hrev hstate hpast =>
    simp only [List.mem_singleton, Fact.preview.injEq] at hp
    exact .inl (hagain hpast hp)
  | _ => simp [observedFacts, succeededFacts, unverifiedFacts] at hp

/-- What an action other than a transition leaves of the past. -/
theorem handler_past {i : ℕ} {e : Action} {input : Input} {r : e.Reply} {w w' : World}
    (he : ∀ t, e ≠ .transition t) (hact : handler i e input w = some (r, w')) {X : String}
    {f : Fact} (hf : w'.Past X f) : w.Past X f := by
  cases e with
  | transition t => exact absurd rfl (he t)
  | create r' audit key digest =>
    cases input <;> simp only [handler, reduceCtorEq] at hact
    split at hact
    · obtain ⟨rfl, rfl⟩ : _ ∧ _ := by simpa using hact
      exact hf
    · split at hact
      · obtain ⟨rfl, rfl⟩ : _ ∧ _ := by simpa using hact
        exact hf
      · obtain ⟨rfl, rfl⟩ : _ ∧ _ := by simpa using hact
        obtain ⟨cm, hcm, hX, hmem⟩ := hf
        rcases List.mem_cons.mp hcm with rfl | hcm
        · cases hmem
        · exact ⟨cm, hcm, hX, hmem⟩
  | _ =>
    cases input <;> simp only [handler, World.write, reduceCtorEq] at hact
    all_goals try split at hact
    all_goals
      cases hact
      try exact hf

/-- **Every Preview has the parameters of some plan.** -/
theorem AdapterReachable.resolved (h : AdapterReachable env d c) {X : String} {p : Preview}
    (hp : c.world.Past X (.preview p)) : Resolved env p.normalizedParameters := by
  refine ReachesIf.induction (motive := fun c => ∀ X p, c.world.Past X (.preview p) →
    Resolved env p.normalizedParameters) h
    (fun X p hp => by simp [World.Past, World.initial, idle] at hp)
    (fun c ev c' hc hold hok he => ?_) X p hp
  intro X p hp
  have hc : AdapterReachable env d c := hc
  rcases step_cases he with ⟨k, -, rfl⟩ | ⟨i, input, k, log, e, next, r, w, -, hi, hact, rfl⟩
  · exact hold X p hp
  · have hpolicy : policyPre env i log e c.world :=
      ((Reaches.every (fun _ => True) (sound d.sha) (adapterStartsSafe d) inv_initial
        (fun i k w _ _ => adapterStart_resolved k) (fun _ _ _ _ _ _ _ _ => trivial)
        (fun _ _ _ _ _ _ _ _ => trivial) hc.reaches trivial hi).act hc.allSafe.1).1
    have hresolved := hpolicy (hc.conforms hi)
    by_cases htransition : ∃ t, e = .transition t
    · obtain ⟨t, rfl⟩ := htransition
      cases input <;> simp only [handler, reduceCtorEq] at hact
      split at hact
      · obtain ⟨-, rfl⟩ : _ ∧ _ := by simpa using hact
        exact hold X p hp
      · rename_i db hok
        obtain ⟨-, rfl⟩ : _ ∧ _ := by simpa using hact
        obtain ⟨cm, hcm, hX, hmem⟩ := hp
        rcases List.mem_cons.mp hcm with rfl | hcm
        · obtain ⟨cur, hcur, hscope, hrev⟩ := (Database.transition_ok hok).current
          have hpre : pre d.sha i log (.transition t) c.world := hc.allSafe.meets_pre hi
          obtain ⟨-, hlegal⟩ := hpre cur hcur hscope hrev
          rcases hlegal.preview_written hmem with ⟨q, hq, hterms⟩ | ⟨hop, hactive⟩
          · exact hterms.field Preview.normalizedParameters ▸ hold _ q hq
          · exact hresolved hop p hmem hactive
        · exact hold X p ⟨cm, hcm, hX, hmem⟩
    · exact hold X p (handler_past (fun t ht => htransition ⟨t, ht⟩) hact hp)

end Runs

end Interactions

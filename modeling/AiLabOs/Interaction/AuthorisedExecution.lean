import AiLabOs.Interaction.Authorisation

/-!
# Trusted interactions: authorised executions

When the execution port is about to be asked, whatever the other calls did in between, the request
is that of the latest Preview of its interaction, and the Confirmation and the Approval the Preview
requires were valid when they were checked.

## Main definitions

* `ExecutionAuthorised`: what the tables show when the port is asked
* `checkReadings`: the clock readings at which the Confirmation and the Approval were checked

## Main results

* `execution_authorised`
* `executes_before_expiry`, `executes_after_expiry`: when an execution starts after its Preview
  expired
-/

namespace Interactions

open Process

/-- A past fact is stored under its identifier, in some version. -/
theorem Inv.fact_stored {w : World} (h : Inv w) (hfresh : w.PortIdsFresh) {X : String}
    (ty : FactType) {x : ty.Model} (hx : w.Past X (.of ty x)) :
    ∃ y, w.db.fact X ty (some (Fact.of ty x).factId) = some y ∧ w.Past X (.of ty y) ∧
      (Fact.of ty y).factId = (Fact.of ty x).factId := by
  have hsome := h.fact_isSome hfresh hx
  rw [Fact.type_of] at hsome
  obtain ⟨y, hy⟩ := Option.isSome_iff_exists.mp hsome
  obtain ⟨hpast, hid⟩ := h.loaded X ty (some (Fact.of ty x).factId) y hy
  exact ⟨y, hy, hpast, (Option.some.inj hid).symm⟩

/-- **What the tables show when the port is asked**: the stored record, the Preview it names and
what that Preview requires. -/
structure ExecutionAuthorised (w : World) (log : Log Action Action.Reply) (r : ExecutionRequest)
    (cur : Interaction) (p : Preview) : Prop where
  record : w.db.records r.interactionId = some cur
  current : cur.currentPreviewId = some p.previewId
  preview : w.db.fact r.interactionId .preview cur.currentPreviewId = some p
  parameters : r.normalizedParameters = p.normalizedParameters
  /-- No stored Preview of the interaction has a higher revision, nor another one the same. -/
  latest : ∀ id q, w.db.facts id = some ⟨r.interactionId, .preview q⟩ →
    q.previewId = p.previewId ∨ q.previewRevision < p.previewRevision
  /-- The Confirmation, unexpired at its check. -/
  confirmed : p.requiresConfirmation = true ∨ p.requiresApproval = true →
    ∃ c, w.db.fact r.interactionId .confirmation cur.currentConfirmationId = some c ∧
      p.ConfirmedBy c ∧
      (p.requiresConfirmation = true → ∃ t, (readings log)[1]? = some t ∧ t < c.expiresAt)
  /-- The Approval, unexpired at its check, on evidence that matched the request. -/
  approved : p.requiresApproval = true →
    ∃ a t, w.db.fact r.interactionId .approval cur.currentApprovalId = some a ∧
      p.ApprovedBy w a ∧ (readings log)[if p.requiresConfirmation then 2 else 1]? = some t ∧
      t < a.expiresAt
  /-- No Confirmation of another Preview authorises this one. -/
  only_confirmation : ∀ c,
    w.db.fact r.interactionId .confirmation cur.currentConfirmationId = some c → p.ConfirmedBy c
  /-- No Approval of another Preview authorises this one. -/
  only_approval : ∀ a,
    w.db.fact r.interactionId .approval cur.currentApprovalId = some a → p.ApprovedBy w a

section Authorised

variable {d : Deployment} {c : Calls} {i : ℕ} {k : Request} {log : Log Action Action.Reply}
variable {r : ExecutionRequest} {next : Action.Reply (.execute r) → Prog Result}

/-- The Confirmation a record names is of every version of the Preview it names. -/
theorem Authorisation.confirmedBy {w : World} (h : Authorisation w) {cur : Interaction}
    (hseen : w.Seen cur) {p : Preview} (hp : cur.currentPreviewId = some p.previewId)
    (hpast : w.Past cur.interactionId (.preview p)) {x : Confirmation}
    (hx : w.Past cur.interactionId (.confirmation x))
    (hid : cur.currentConfirmationId = some x.confirmationId) : p.ConfirmedBy x := by
  obtain ⟨q, y, hq, hqpast, hypast, hyid, hby⟩ := h.confirmed hseen hid
  obtain rfl := h.confirmation_once _ _ y x hypast hx hyid
  exact hby.of_sameTerms (h.sameTerms hqpast hpast (Option.some.inj (hq.symm.trans hp)))

/-- The Approval a record names is of every version of the Preview it names. -/
theorem Authorisation.approvedBy {w : World} (h : Authorisation w) {cur : Interaction}
    (hseen : w.Seen cur) {p : Preview} (hp : cur.currentPreviewId = some p.previewId)
    (hpast : w.Past cur.interactionId (.preview p)) {x : Approval}
    (hx : w.Past cur.interactionId (.approval x))
    (hid : cur.currentApprovalId = some x.approvalId) : p.ApprovedBy w x := by
  obtain ⟨q, y, hq, hqpast, hypast, hyid, hby⟩ := h.approved hseen hid
  obtain rfl := h.approval_once _ _ y x hypast hx hyid
  exact hby.of_sameTerms (h.sameTerms hqpast hpast (Option.some.inj (hq.symm.trans hp)))

/-- The Confirmation a record names is stored. -/
theorem Authorisation.confirmation_stored {w : World} (h : Authorisation w) (hinv : Inv w)
    (hfresh : w.PortIdsFresh) {cur : Interaction} (hseen : w.Seen cur)
    (hne : cur.currentConfirmationId ≠ none) :
    ∃ x, w.db.fact cur.interactionId .confirmation cur.currentConfirmationId = some x := by
  obtain ⟨id, hid⟩ := Option.ne_none_iff_exists'.mp hne
  obtain ⟨p, x, -, -, hx, rfl, -⟩ := h.confirmed hseen hid
  obtain ⟨y, hy, -, -⟩ := hinv.fact_stored hfresh .confirmation hx
  exact ⟨y, hid ▸ hy⟩

/-- The Approval a record names is stored. -/
theorem Authorisation.approval_stored {w : World} (h : Authorisation w) (hinv : Inv w)
    (hfresh : w.PortIdsFresh) {cur : Interaction} (hseen : w.Seen cur)
    (hne : cur.currentApprovalId ≠ none) :
    ∃ x, w.db.fact cur.interactionId .approval cur.currentApprovalId = some x := by
  obtain ⟨id, hid⟩ := Option.ne_none_iff_exists'.mp hne
  obtain ⟨p, x, -, -, hx, rfl, -⟩ := h.approved hseen hid
  obtain ⟨y, hy, -, -⟩ := hinv.fact_stored hfresh .approval hx
  exact ⟨y, hid ▸ hy⟩

/-- **An execution is bound to what was authorised.** -/
theorem execution_authorised (h : Reachable d c) (hfresh : c.world.PortIdsFresh)
    (hi : c.calls[i]? = some ⟨k, log, .await (.execute r) next⟩) :
    ∃ cur p, ExecutionAuthorised c.world log r cur p := by
  have hinv := h.inv
  have hauth := h.authorisation
  obtain ⟨a, old, preview, confirmation, approval, executionId, now, cm, hid, hcommit, hrecord,
    hseen, hstate, -, -, hpast, hcurrent, hconfirmation, happroval, hlog⟩ :=
    h.allSafe.meets_pre hi
  -- the intent was committed from `old`, and the stored record keeps what it was authorised by
  have hintent : c.world.Seen (old.executing (newExecution a old executionId now) now) :=
    ⟨cm, hcommit, hrecord⟩
  obtain ⟨cur, hcur, hsame, -⟩ := hinv.seen_stored hintent
  have hkept := h.started hintent hcur rfl
  have hX : cur.interactionId = old.interactionId := hsame.interactionId.symm
  have hcurseen := (hinv.record_seen hcur).2
  -- the Preview it names is stored, as a version of the one that was loaded
  obtain ⟨p, hp, hppast, hpid⟩ := hinv.fact_stored hfresh .preview hpast
  have hpid : p.previewId = preview.previewId := hpid
  have hterms : preview.SameTerms p := hauth.sameTerms hpast hppast hpid.symm
  have hpcur : cur.currentPreviewId = some p.previewId :=
    hkept.preview.trans (hcurrent.trans (congrArg some hpid.symm))
  have hstored : ∀ {ty : FactType} {fid : Option String} {x : ty.Model},
      c.world.db.fact old.interactionId ty fid = some x →
      c.world.Past cur.interactionId (.of ty x) ∧ fid = some (Fact.of ty x).factId :=
    fun hx => hX ▸ hinv.loaded _ _ _ _ hx
  have honlyc : ∀ x, c.world.db.fact old.interactionId .confirmation cur.currentConfirmationId =
      some x → p.ConfirmedBy x := fun x hx =>
    hauth.confirmedBy hcurseen hpcur (hX ▸ hppast) (hstored hx).1 (hstored hx).2
  have honlya : ∀ x, c.world.db.fact old.interactionId .approval cur.currentApprovalId =
      some x → p.ApprovedBy c.world x := fun x hx =>
    hauth.approvedBy hcurseen hpcur (hX ▸ hppast) (hstored hx).1 (hstored hx).2
  obtain ⟨q, hq, hqpast, hneedsc, hneedsa⟩ := hauth.authorised hseen hstate
  have hqterms : q.SameTerms p :=
    hauth.sameTerms hqpast hppast (Option.some.inj (hq.symm.trans (hcurrent.trans
      (congrArg some hpid.symm))))
  refine ⟨cur, p, ?_⟩
  rw [show (executionRequest a old preview (newExecution a old executionId now)) =
    ⟨old.interactionId, executionId, old.operation, preview.normalizedParameters,
      a.idempotencyKey, old.traceId⟩ from by rw [executionRequest, hid]; rfl]
  refine ⟨hcur, hpcur, ?_, hterms.field Preview.normalizedParameters, ?_, ?_, ?_, honlyc, honlya⟩
  · rw [hpcur, hpid]
    exact hp
  · intro id q hq
    obtain ⟨hqid, hqpast⟩ := hinv.fact_past hq
    obtain ⟨p', hp', hp'past, hle⟩ := hauth.latest hfresh (hX ▸ hcur)
      (hX ▸ hqpast)
    have hterms' := hauth.sameTerms hp'past hppast (Option.some.inj (hp'.symm.trans hpcur))
    rw [← hterms'.field Preview.previewId, ← hterms'.field Preview.previewRevision]
    exact hle
  · intro hneeds
    have hne : cur.currentConfirmationId ≠ none := by
      rw [hkept.confirmation]
      exact hneedsc (by rwa [hqterms.field Preview.requiresConfirmation,
        hqterms.field Preview.requiresApproval])
    obtain ⟨x, hx⟩ := hauth.confirmation_stored hinv hfresh hcurseen hne
    rw [hX] at hx
    refine ⟨x, hx, honlyc x hx, fun hrc => ?_⟩
    obtain ⟨y, t, rfl, ht, hlt⟩ := hlog.confirmed
      ((hterms.field Preview.requiresConfirmation).trans hrc)
    obtain ⟨hypast, hyid⟩ := hconfirmation y rfl
    have hid' := (hstored hx).2.symm.trans (hkept.confirmation.trans hyid)
    obtain rfl := hauth.confirmation_once _ _ x y (hstored hx).1 hypast (Option.some.inj hid')
    exact ⟨t, ht, hlt⟩
  · intro hra
    have hne : cur.currentApprovalId ≠ none := by
      rw [hkept.approval]
      exact hneedsa ((hqterms.field Preview.requiresApproval).trans hra)
    obtain ⟨x, hx⟩ := hauth.approval_stored hinv hfresh hcurseen hne
    rw [hX] at hx
    obtain ⟨y, t, rfl, hlt, ht⟩ := hlog.approved
      ((hterms.field Preview.requiresApproval).trans hra)
    obtain ⟨hypast, hyid⟩ := happroval y rfl
    have hid' := (hstored hx).2.symm.trans (hkept.approval.trans hyid)
    obtain rfl := hauth.approval_once _ _ x y (hstored hx).1 hypast (Option.some.inj hid')
    rw [hterms.field Preview.requiresConfirmation] at ht
    exact ⟨x, t, hx, honlya x hx, ht, hlt⟩

end Authorised

namespace Scenario

/-- The call 2 confirms the Preview `prv_1` at the given instant. -/
def confirmed (now : Instant) : List Step :=
  ([.arrive (.confirm
    { workspace := workspace "u", actorId := "u", interactionId := "int_1", previewId := "prv_1"
      previewRevision := 1, expectedRevision := 2, idempotencyKey := "confirm" })] : List Step) ++
        plain 2 3 ++
    ([.act 2 (.instant now), .act 2 (.text "1")] : List Step) ++ audited 2 ["b1"] ++ plain 2 1

/-- What the approval authority answers to the request of the call 3. -/
def authority : ApprovalAuthorizationEvidence :=
  { authorityEvidenceId := "evidence", interactionId := "int_1", previewId := "prv_1"
    previewRevision := 1, scope := ⟨"tenant", "workspace", "default"⟩, approverId := "v"
    authorizedRole := "owner", policyReference := "policy", evidenceDigest := "digest"
    expiresAt := 90 }

/-- The call 3, of another user, approves the confirmed Preview at the given instant. -/
def approved (now : Instant) : List Step :=
  ([.arrive (.approve
    { workspace := workspace "v", actorId := "v", interactionId := "int_1", previewId := "prv_1"
      previewRevision := 1, expectedRevision := 3, approverRole := "owner"
      idempotencyKey := "approve", authorityEvidence := some "signed" })] : List Step) ++
        plain 3 4 ++
    ([.act 3 (.instant now), .act 3 (.authority (.ok (some authority))),
      .act 3 (.text "1")] : List Step) ++
    audited 3 ["b2"] ++ plain 3 1

/-- A Preview that requires both is confirmed, approved and about to be executed. -/
def authorised : List Step :=
  created ++ previewed true true ++ confirmed 1 ++ approved 2 ++ intended 4 "u" 4 3 [4, 5]

/-- A call whose pending request is known waits for the port. -/
theorem pending {c : Calls} {i : ℕ} {r : ExecutionRequest}
    (h : c.calls[i]?.bind pendingExecution = some r) :
    ∃ k log next, c.calls[i]? = some ⟨k, log, .await (.execute r) next⟩ := by
  obtain ⟨call, hi, hr⟩ := Option.bind_eq_some_iff.mp h
  obtain ⟨next, heq⟩ := pendingExecution_eq_some hr
  exact ⟨call.request, call.log, next, heq ▸ hi⟩

end Scenario

/-- The call 4 is about to execute a Preview that was confirmed and approved. -/
theorem execution_authorised_scenario : ∃ (c : Calls) (k : Request)
    (log : Log Action Action.Reply) (r : ExecutionRequest)
    (next : Action.Reply (.execute r) → Prog Result), Reachable Scenario.deployment c ∧
    c.world.PortIdsFresh ∧ c.calls[4]? = some ⟨k, log, .await (.execute r) next⟩ ∧
    ∃ cur p, ExecutionAuthorised c.world log r cur p := by
  have h := Scenario.reachable Scenario.authorised
  have hfresh : (Scenario.after Scenario.authorised).world.PortIdsFresh := by decide +kernel
  have hpending : (Scenario.after Scenario.authorised).calls[4]?.bind pendingExecution =
      some ⟨"int_1", "exe_1", "op", ⟨"{}"⟩, "start1", "trace"⟩ := by decide +kernel
  obtain ⟨k, log, next, hi⟩ := Scenario.pending hpending
  exact ⟨_, k, log, _, next, h, hfresh, hi, execution_authorised h hfresh hi⟩

/-! ## Expired Previews -/

/-- The clock readings at which `start_execution` checked the Confirmation and the Approval. -/
def checkReadings (p : Preview) (log : Log Action Action.Reply) : List Instant :=
  ((readings log).drop 1).take (p.requiresConfirmation.toNat + p.requiresApproval.toNat)

/-- A check reading came before the expiry of the Confirmation or of the Approval. -/
theorem Authorised.check {log : Log Action Action.Reply} {p : Preview}
    {confirmation : Option Confirmation} {approval : Option Approval} {now : Instant}
    (h : Authorised log p confirmation approval now) {t : Instant} (ht : t ∈ checkReadings p log) :
    (∃ c, confirmation = some c ∧ t < c.expiresAt) ∨ ∃ a, approval = some a ∧ t < a.expiresAt := by
  obtain ⟨j, hj⟩ := List.mem_iff_getElem?.mp ht
  rw [checkReadings, List.getElem?_take] at hj
  split at hj
  · rename_i hlt
    rw [List.getElem?_drop] at hj
    by_cases hrc : p.requiresConfirmation = true ∧ j = 0
    · obtain ⟨hrc, rfl⟩ := hrc
      obtain ⟨c, t', hc, ht', hexp⟩ := h.confirmed hrc
      obtain rfl : t = t' := Option.some.inj (hj.symm.trans ht')
      exact .inl ⟨c, hc, hexp⟩
    · -- the last reading of the check is that of the Approval
      obtain ⟨hra, hpos⟩ : p.requiresApproval = true ∧
          1 + j = if p.requiresConfirmation then 2 else 1 := by
        cases hc : p.requiresConfirmation <;> cases ha : p.requiresApproval <;>
          simp [hc, ha] at hlt hrc ⊢ <;> omega
      obtain ⟨a, t', ha, hexp, ht'⟩ := h.approved hra
      rw [← hpos] at ht'
      obtain rfl : t = t' := Option.some.inj (hj.symm.trans ht')
      exact .inr ⟨a, ha, hexp⟩
  · cases hj

/-- A check that passed read the clock once for each thing the Preview requires. -/
theorem Authorised.checkReadings_ne_nil {log : Log Action Action.Reply} {p : Preview}
    {confirmation : Option Confirmation} {approval : Option Approval} {now : Instant}
    (h : Authorised log p confirmation approval now)
    (hneeds : p.requiresConfirmation = true ∨ p.requiresApproval = true) :
    checkReadings p log ≠ [] := by
  obtain ⟨t, ht⟩ : ∃ t, (readings log)[1]? = some t := by
    cases hrc : p.requiresConfirmation with
    | true =>
      obtain ⟨-, t, -, ht, -⟩ := h.confirmed hrc
      exact ⟨t, ht⟩
    | false =>
      obtain ⟨-, t, -, -, ht⟩ := h.approved (by simpa [hrc] using hneeds)
      exact ⟨t, by simpa [hrc] using ht⟩
  refine List.ne_nil_of_mem (List.mem_iff_getElem?.mpr ⟨0, (?_ : _ = some t)⟩)
  rw [checkReadings, List.getElem?_take, List.getElem?_drop]
  rcases hneeds with hn | hn <;> simp [hn, ht]

section Expiry

variable {d : Deployment} {c : Calls} {i : ℕ} {k : Request} {log : Log Action Action.Reply}
variable {r : ExecutionRequest} {next : Action.Reply (.execute r) → Prog Result}

/-- **No execution on an expired Preview**, if the Preview requires a Confirmation or an Approval
and the clock does not step back across its expiry while they are checked. -/
theorem executes_before_expiry (h : Reachable d c)
    (hi : c.calls[i]? = some ⟨k, log, .await (.execute r) next⟩) {cur : Interaction} {p : Preview}
    (hcur : c.world.db.records r.interactionId = some cur)
    (hp : cur.currentPreviewId = some p.previewId)
    (hpast : c.world.Past cur.interactionId (.preview p))
    (hneeds : p.requiresConfirmation = true ∨ p.requiresApproval = true) {now : Instant}
    (_hnow : (readings log)[0]? = some now)
    (hclock : ∀ t ∈ checkReadings p log, p.expiresAt ≤ now → p.expiresAt ≤ t) :
    now < p.expiresAt := by
  have hinv := h.inv
  have hauth := h.authorisation
  obtain ⟨a, old, preview, confirmation, approval, executionId, now', cm, hid, hcommit, hrecord,
    hseen, hstate, -, -, hpast', hcurrent, hconfirmation, happroval, hlog⟩ :=
    h.allSafe.meets_pre hi
  have hintent : c.world.Seen (old.executing (newExecution a old executionId now') now') :=
    ⟨cm, hcommit, hrecord⟩
  have hcur' : c.world.db.records old.interactionId = some cur := hid ▸ hcur
  have hkept := (h.started hintent hcur' rfl).preview
  have hX := (hinv.record_seen hcur').1
  -- the Preview that was checked is a version of the current one
  have hterms : preview.SameTerms p := hauth.sameTerms hpast' (hX ▸ hpast)
    (Option.some.inj (hcurrent.symm.trans (hkept.symm.trans hp)))
  have hrc := hterms.field Preview.requiresConfirmation
  have hra := hterms.field Preview.requiresApproval
  have hexp := hterms.field Preview.expiresAt
  have hreadings : checkReadings preview log = checkReadings p log := by
    rw [checkReadings, checkReadings, hrc, hra]
  obtain ⟨t, ht⟩ := List.exists_mem_of_ne_nil _
    (hlog.checkReadings_ne_nil (by rwa [hrc, hra]))
  have hlive : t < preview.expiresAt := by
    rcases hlog.check ht with ⟨x, rfl, hlt⟩ | ⟨x, rfl, hlt⟩
    · obtain ⟨hxpast, hxid⟩ := hconfirmation x rfl
      have hby := hauth.confirmedBy hseen hcurrent hpast' hxpast hxid
      exact Int.lt_of_lt_of_le hlt hby.expiresAt
    · obtain ⟨hxpast, hxid⟩ := happroval x rfl
      have hby := hauth.approvedBy hseen hcurrent hpast' hxpast hxid
      exact Int.lt_of_lt_of_le hlt hby.expiresAt
  exact Int.not_le.mp fun hle =>
    Int.not_lt.mpr (hclock t (hreadings ▸ ht) hle) (hexp ▸ hlive)

end Expiry

namespace Scenario

/-- A Preview that requires a Confirmation is about to be executed before its expiry. -/
def live : List Step :=
  created ++ previewed true false ++ confirmed 1 ++ intended 3 "u" 3 50 [51]

/-- A Preview that requires nothing is about to be executed after its expiry. -/
def late : List Step := created ++ previewed false false ++ intended 2 "u" 2 200 []

/-- The terms on expiry of the Preview that is current in a configuration. -/
def currentTerms (c : Calls) : Option (Bool × Bool × Instant) := do
  let cur ← c.world.db.records "int_1"
  let p ← c.world.db.fact "int_1" .preview cur.currentPreviewId
  return (p.requiresConfirmation, p.requiresApproval, p.expiresAt)

/-- The record and the Preview a pending execution of `int_1` is about, and its readings. -/
theorem expiring {c : Calls} (h : Reachable deployment c) {i : ℕ} {e : Instant}
    {confirms approves : Bool} {l : List Instant}
    (hterms : currentTerms c = some (confirms, approves, e))
    (hpending : c.calls[i]?.bind pendingExecution =
      some ⟨"int_1", "exe_1", "op", ⟨"{}"⟩, "start1", "trace"⟩)
    (hreadings : c.calls[i]?.map (fun call => readings call.log) = some l) :
    ∃ k log r next cur p, c.calls[i]? = some ⟨k, log, .await (.execute r) next⟩ ∧
      readings log = l ∧ c.world.db.records r.interactionId = some cur ∧
      cur.currentPreviewId = some p.previewId ∧ c.world.Past cur.interactionId (.preview p) ∧
      p.requiresConfirmation = confirms ∧ p.requiresApproval = approves ∧ p.expiresAt = e := by
  obtain ⟨k, log, next, hi⟩ := pending hpending
  obtain ⟨cur, hcur, hterms⟩ := Option.bind_eq_some_iff.mp hterms
  obtain ⟨p, hp, hterms⟩ := Option.bind_eq_some_iff.mp hterms
  obtain ⟨hpast, hid⟩ := h.inv.loaded _ .preview _ p hp
  rw [hi] at hreadings
  obtain ⟨rfl, rfl, rfl⟩ : p.requiresConfirmation = confirms ∧ p.requiresApproval = approves ∧
      p.expiresAt = e := by simpa using hterms
  exact ⟨k, log, _, next, cur, p, hi, Option.some.inj hreadings, hcur, hid,
    (h.inv.record_seen hcur).1 ▸ hpast, rfl, rfl, rfl⟩

end Scenario

/-- A confirmed Preview, executed before its expiry. -/
theorem executes_before_expiry_scenario : ∃ (c : Calls) (k : Request)
    (log : Log Action Action.Reply) (r : ExecutionRequest)
    (next : Action.Reply (.execute r) → Prog Result) (cur : Interaction) (p : Preview),
    Reachable Scenario.deployment c ∧ c.calls[3]? = some ⟨k, log, .await (.execute r) next⟩ ∧
    c.world.db.records r.interactionId = some cur ∧ cur.currentPreviewId = some p.previewId ∧
    p.requiresConfirmation = true ∧ p.expiresAt = 100 ∧ (readings log)[0]? = some 50 ∧
    (50 : Instant) < p.expiresAt := by
  have h := Scenario.reachable Scenario.live
  have hterms : Scenario.currentTerms (Scenario.after Scenario.live) = some (true, false, 100) := by
    decide +kernel
  have hpending : (Scenario.after Scenario.live).calls[3]?.bind pendingExecution =
      some ⟨"int_1", "exe_1", "op", ⟨"{}"⟩, "start1", "trace"⟩ := by decide +kernel
  have hreadings : (Scenario.after Scenario.live).calls[3]?.map (fun call => readings call.log) =
      some [50, 51, 0] := by decide +kernel
  obtain ⟨k, log, r, next, cur, p, hi, hl, hcur, hp, hpast, hrc, -, hexp⟩ :=
    Scenario.expiring h hterms hpending hreadings
  refine ⟨_, k, log, r, next, cur, p, h, hi, hcur, hp, hrc, hexp, by rw [hl]; rfl, ?_⟩
  exact executes_before_expiry h hi hcur hp hpast (.inl hrc) (by rw [hl]; rfl)
    fun t _ hle => absurd (hexp ▸ hle) (by decide)

/-- Without a Confirmation or an Approval nothing holds the expiry of the Preview: the call 2
executes at 200 what expired at 100. -/
theorem executes_after_expiry : ¬ ∀ (d : Deployment) (c : Calls) (i : ℕ) (k : Request)
    (log : Log Action Action.Reply) (r : ExecutionRequest)
    (next : Action.Reply (.execute r) → Prog Result) (cur : Interaction) (p : Preview)
    (now : Instant), Reachable d c → c.calls[i]? = some ⟨k, log, .await (.execute r) next⟩ →
    c.world.db.records r.interactionId = some cur → cur.currentPreviewId = some p.previewId →
    c.world.Past cur.interactionId (.preview p) → (readings log)[0]? = some now →
    now < p.expiresAt := by
  intro hall
  have h := Scenario.reachable Scenario.late
  have hterms : Scenario.currentTerms (Scenario.after Scenario.late) =
      some (false, false, 100) := by decide +kernel
  have hpending : (Scenario.after Scenario.late).calls[2]?.bind pendingExecution =
      some ⟨"int_1", "exe_1", "op", ⟨"{}"⟩, "start1", "trace"⟩ := by decide +kernel
  have hreadings : (Scenario.after Scenario.late).calls[2]?.map (fun call => readings call.log) =
      some [200, 0] := by decide +kernel
  obtain ⟨k, log, r, next, cur, p, hi, hl, hcur, hp, hpast, -, -, hexp⟩ :=
    Scenario.expiring h hterms hpending hreadings
  have hlt := hall _ _ 2 k log r next cur p 200 h hi hcur hp hpast (by rw [hl]; rfl)
  rw [hexp] at hlt
  exact absurd hlt (by decide)

end Interactions

import AiLabOs.Interaction.Effects

/-!
# Trusted interactions: steps

One rule for each step the operations share: what a call knows of the world after the step, and
that everything it knew before still holds. The rules are stated for the step and what follows it,
so that an operation is verified from its first line to its last.

## Main definitions

* `Keeps`: safety with nothing to ensure on an exception
* `ReadsFree`: a precondition that only asks something of actions that write

## Main results

* `keeps_fact`, `keeps_require`, `keeps_idempotent`, `keeps_newId`: the reading steps
* `keeps_transition`: the compare-and-set commit
* `status_keeps`: the projection reads only
-/

namespace Interactions

open Process

/-- The call `i` running `p` meets `pr` before each action, and `post` holds on its return. -/
abbrev Keeps {α : Type} (pr : ℕ → Log Action Action.Reply → Action → World → Prop) (i : ℕ)
    (post : α → Log Action Action.Reply → World → Prop) (p : Prog α)
    (log : Log Action Action.Reply) (w : World) : Prop :=
  Safe protocol handler pr i post (fun _ _ _ => True) p log w

/-- The actions that write a table or call out with an effect. -/
def Action.writes : Action → Bool
  | .create _ _ _ _ | .transition _ | .execute _ | .storeTrustedIngressEvidence _ _ _ _ _
  | .storeConfirmationChallenge _ => true
  | _ => false

/-- A precondition that asks nothing of the other actions. -/
def ReadsFree (pr : ℕ → Log Action Action.Reply → Action → World → Prop) : Prop :=
  ∀ i log e w, e.writes = false → pr i log e w

theorem readsFree_pre (sha : Sha256) : ReadsFree (pre sha) := by
  intro i log e w he
  cases e <;> first | exact trivial | cases he

section Steps

variable {α β : Type} {pr : ℕ → Log Action Action.Reply → Action → World → Prop} {i : ℕ}
variable {post : β → Log Action Action.Reply → World → Prop}
variable {log : Log Action Action.Reply} {w : World}

theorem keeps_raise {x : Raised} : Keeps pr i post (.raise x) log w :=
  Safe.raise trivial

theorem keeps_fail {info : FailureInfo} : Keeps pr i post (fail info) log w :=
  Safe.raise trivial

theorem keeps_failIf {c : Prop} [Decidable c] {info : FailureInfo} {f : Unit → Prog β}
    (h : ¬c → Keeps pr i post (f ()) log w) : Keeps pr i post (failIf c info >>= f) log w := by
  unfold failIf
  split
  · exact keeps_fail
  · exact h ‹_›

theorem keeps_asserted {x : Option α} {f : α → Prog β}
    (h : ∀ a, x = some a → Keeps pr i post (f a) log w) :
    Keeps pr i post (asserted x >>= f) log w := by
  cases x with
  | none => exact keeps_raise
  | some a => exact h a rfl

/-- The workspace is resolved, or a failure raised, from the arguments alone. -/
theorem scopeOf_cases (workspace : WorkspaceKey) (actorId : String) :
    (∃ info, scopeOf workspace actorId = fail info) ∨
      scopeOf workspace actorId = .ret (scopeIn workspace) := by
  unfold scopeOf
  dsimp only
  split
  · exact .inl ⟨_, rfl⟩
  · split
    · exact .inl ⟨_, rfl⟩
    · exact .inr rfl

/-- The workspace and the actor are resolved without looking at the world. -/
theorem keeps_scopeOf {workspace : WorkspaceKey} {actorId : String} {f : Scope → Prog β}
    (h : Keeps pr i post (f (scopeIn workspace)) log w) :
    Keeps pr i post (scopeOf workspace actorId >>= f) log w := by
  rcases scopeOf_cases workspace actorId with ⟨info, hs⟩ | hs <;> rw [hs]
  · exact keeps_fail
  · exact h

/-- An action that leaves the world alone. -/
theorem keeps_act {e : Action} {f : e.Reply → Prog β} (hpr : ReadsFree pr)
    (he : e.writes = false)
    (hread : ∀ {input r w w'}, handler i e input w = some (r, w') → w' = w)
    (h : ∀ input r w', Rely i w w' → Inv w' → handler i e input w' = some (r, w') →
      Keeps pr i post (f r) (log ++ [⟨e, r⟩]) w') :
    Keeps pr i post (act e >>= f) log w := by
  refine Safe.perform fun w' hw hinv => ⟨hpr i log e w' he, fun input r w'' hr => ?_⟩
  obtain rfl := hread hr
  exact h input r w'' hw hinv hr

theorem keeps_now {f : Instant → Prog β} (hpr : ReadsFree pr)
    (h : ∀ t w', Rely i w w' → Keeps pr i post (f t) (log ++ [⟨.now, t⟩]) w') :
    Keeps pr i post (now >>= f) log w := by
  refine keeps_act hpr rfl ?_ fun _ t w' hw _ _ => h t w' hw
  intro input r w w' hr
  cases input <;> simp only [handler, reduceCtorEq, Option.some.injEq, Prod.mk.injEq] at hr
  exact hr.2.symm

/-- **Reading a fact**: what is found is a past fact of the interaction under that identifier. -/
theorem keeps_fact {X : String} {ty : FactType} {fid : Option String}
    {f : Option ty.Model → Prog β} (hpr : ReadsFree pr)
    (h : ∀ x w', Rely i w w' → Inv w' → x = w'.db.fact X ty fid → w'.Loaded X ty fid x →
      Keeps pr i post (f x) (log ++ [⟨.fact X ty fid, x⟩]) w') :
    Keeps pr i post (fact X ty fid >>= f) log w := by
  have hreply : ∀ {input r w w'}, handler i (.fact X ty fid) input w = some (r, w') →
      r = w.db.fact X ty fid ∧ w' = w := by
    intro input r w w' hr
    cases input <;> simp only [handler, reduceCtorEq, Option.some.injEq, Prod.mk.injEq] at hr
    exact ⟨hr.1.symm, hr.2.symm⟩
  refine keeps_act hpr rfl (fun hr => (hreply hr).2) fun _ x w' hw hinv hr => ?_
  obtain ⟨rfl, -⟩ := hreply hr
  exact h _ w' hw hinv rfl (hinv.loaded X ty fid)

/-- **Reading the record**: it is one some commit wrote, of that interaction and workspace. -/
theorem keeps_require {scope : Scope} {X traceId : String} {f : Interaction → Prog β}
    (hpr : ReadsFree pr)
    (h : ∀ cur w' log', Rely i w w' → Inv w' → w'.db.records X = some cur → w'.Seen cur →
      cur.interactionId = X → cur.scope = scope → readings log' = readings log →
      Keeps pr i post (f cur) log' w') :
    Keeps pr i post (require scope X traceId >>= f) log w := by
  have hreply : ∀ {input r w w'}, handler i (.get scope X) input w = some (r, w') →
      r = w.db.get scope X ∧ w' = w := by
    intro input r w w' hr
    cases input <;> simp only [handler, reduceCtorEq, Option.some.injEq, Prod.mk.injEq] at hr
    exact ⟨hr.1.symm, hr.2.symm⟩
  unfold require
  refine Safe.bind (keeps_act hpr rfl (fun hr => (hreply hr).2) fun _ r w' hw hinv hr => ?_)
  obtain ⟨rfl, -⟩ := hreply hr
  split
  · rename_i cur hcur
    obtain ⟨hrec, hscope⟩ := Database.get_eq_some.mp hcur
    obtain ⟨hid, hseen⟩ := hinv.record_seen hrec
    exact Safe.ret (h cur w' _ hw hinv hrec hseen hid hscope (by simp [readings]))
  · exact keeps_fail

/-- **The idempotency check**: nothing is recorded under the key, or an earlier result is
returned. -/
theorem keeps_idempotent {scope : Scope} {op : Operation} {key digest traceId : String}
    {f : Option Interaction → Prog β} (hpr : ReadsFree pr)
    (hnone : ∀ w' log', Rely i w w' → Inv w' → w'.db.idempotency ⟨scope, op, key⟩ = none →
      readings log' = readings log → Keeps pr i post (f none) log' w')
    (hsome : ∀ row w' log', Rely i w w' → Inv w' →
      w'.db.idempotency ⟨scope, op, key⟩ = some row → row.payloadDigest = digest →
      Keeps pr i post (f (some row.result)) log' w') :
    Keeps pr i post (idempotent scope op key digest traceId >>= f) log w := by
  have hreply : ∀ {input r w w'},
      handler i (.idempotentResult ⟨scope, op, key⟩ digest) input w = some (r, w') →
      r = w.db.idempotentResult ⟨scope, op, key⟩ digest ∧ w' = w := by
    intro input r w w' hr
    cases input <;> simp only [handler, reduceCtorEq, Option.some.injEq, Prod.mk.injEq] at hr
    exact ⟨hr.1.symm, hr.2.symm⟩
  unfold idempotent
  refine Safe.bind (keeps_failIf fun _ => ?_)
  refine keeps_act hpr rfl (fun hr => (hreply hr).2) fun _ r w' hw hinv hr => ?_
  obtain ⟨rfl, -⟩ := hreply hr
  simp only [Database.idempotentResult]
  cases hrow : w'.db.idempotency ⟨scope, op, key⟩ with
  | none => exact Safe.ret (hnone w' _ hw hinv hrow (by simp [readings]))
  | some row =>
    dsimp only
    split
    · rename_i prior hok
      split at hok
      · cases hok
      · rename_i hd
        obtain rfl := Except.ok.inj hok
        exact Safe.ret (hsome row w' _ hw hinv hrow (by simpa using hd))
    · exact keeps_fail
    · exact keeps_raise

/-- **A new identifier**: it belongs to the call, and nothing uses it. -/
theorem keeps_newId (ty : FactType) {f : String → Prog β} (hpr : ReadsFree pr)
    (h : ∀ id w', Rely i w w' → w'.Own i ty id → w'.Unexecuted id →
      Keeps pr i post (f id) (log ++ [⟨.newId ty.kind, id⟩]) w') :
    Keeps pr i post (newId ty.kind >>= f) log w := by
  refine Safe.perform fun w' hw hinv => ⟨hpr i log _ w' rfl, fun input r w'' hr => ?_⟩
  cases input <;> simp only [handler, reduceCtorEq] at hr
  rename_i hex
  split at hr
  · cases hr
  · rename_i hnew
    obtain ⟨rfl, rfl⟩ : _ ∧ _ := by simpa using hr
    have hfresh : ∀ j, (ty.kind ++ "_" ++ hex, j) ∉ w'.issued := fun j hj => hnew (by
      simp only [List.any_eq_true, decide_eq_true_eq]
      exact ⟨_, hj, rfl⟩)
    have hstep : Rely i w' { w' with issued := (ty.kind ++ "_" ++ hex, i) :: w'.issued } :=
      Rely.extend rfl (List.suffix_cons ..) List.suffix_rfl List.suffix_rfl List.suffix_rfl
        fun _ _ hu => hu
    refine h _ _ (hw.trans hstep) ⟨List.mem_cons_self, ?_, hex, rfl⟩ fun x hx hid => ?_
    · rintro ⟨c, hc, f, hf, hs, hid⟩
      obtain ⟨⟨j, hj⟩, -⟩ := hinv.fact_named ⟨c, hc, rfl, hf⟩ hs
      exact hfresh j (hid ▸ hj)
    · obtain ⟨j, hj⟩ := hinv.executed_issued hx
      exact hfresh j (hid ▸ hj)

/-- Any other new identifier. -/
theorem keeps_newId_any {kind : String} {f : String → Prog β} (hpr : ReadsFree pr)
    (h : ∀ id w', Rely i w w' → Keeps pr i post (f id) (log ++ [⟨.newId kind, id⟩]) w') :
    Keeps pr i post (newId kind >>= f) log w := by
  refine Safe.perform fun w' hw hinv => ⟨hpr i log _ w' rfl, fun input r w'' hr => ?_⟩
  cases input <;> simp only [handler, reduceCtorEq] at hr
  split at hr
  · cases hr
  · obtain ⟨rfl, rfl⟩ : _ ∧ _ := by simpa using hr
    exact h _ _ (hw.trans (Rely.extend rfl (List.suffix_cons ..) List.suffix_rfl List.suffix_rfl
      List.suffix_rfl fun _ _ hu => hu))

/-- **An audit line** takes a new identifier and one reading of the clock. -/
theorem keeps_line {r : Interaction} {eventType key : String} {from' : Option LifecycleState}
    {references : Dict} {failure : Option FailureInfo} {f : AuditEvidence → Prog β}
    (hpr : ReadsFree pr)
    (h : ∀ id w' log' t, Rely i w w' → readings log' = readings log ++ [t] →
      Keeps pr i post (f (auditOf r eventType from' key references failure id t)) log' w') :
    Keeps pr i post (audit r eventType from' key references failure >>= f) log w := by
  unfold audit
  refine Safe.bind (keeps_newId_any hpr fun id w₁ h₁ => keeps_now hpr fun t w₂ h₂ => ?_)
  exact Safe.ret (h id w₂ _ t (h₁.trans h₂) (by simp [readings]))

theorem keeps_audit {r : Interaction} {eventType key : String} {from' : Option LifecycleState}
    {references : Dict} {failure : Option FailureInfo} {f : AuditEvidence → Prog β}
    (hpr : ReadsFree pr)
    (h : ∀ line w' log' t, Rely i w w' → readings log' = readings log ++ [t] →
      Keeps pr i post (f line) log' w') :
    Keeps pr i post (audit r eventType from' key references failure >>= f) log w :=
  keeps_line hpr fun _ w' log' t hw hlog => h _ w' log' t hw hlog

theorem keeps_verify {request : VerificationRequest}
    {f : Except String VerificationObservation → Prog β} (hpr : ReadsFree pr)
    (h : ∀ r w', Rely i w w' → Keeps pr i post (f r) (log ++ [⟨.verify request, r⟩]) w') :
    Keeps pr i post (act (.verify request) >>= f) log w := by
  refine keeps_act hpr rfl ?_ fun _ r w' hw _ _ => h r w' hw
  intro input r w w' hr
  cases input <;> simp only [handler, reduceCtorEq, Option.some.injEq, Prod.mk.injEq] at hr
  exact hr.2.symm

/-- The canonical commit authority's evidence is supplied for the interaction of the request. -/
theorem keeps_record {request : CanonicalCommitRequest}
    {f : Except String CanonicalCommitEvidence → Prog β} (hpr : ReadsFree pr)
    (h : ∀ r w', Rely i w w' →
      (∀ e, r = .ok e → (e.canonicalCommitEvidenceId, request.interactionId) ∈ w'.supplied) →
      Keeps pr i post (f r) (log ++ [⟨.record request, r⟩]) w') :
    Keeps pr i post (act (.record request) >>= f) log w := by
  refine Safe.perform fun w' hw hinv => ⟨hpr i log _ w' rfl, fun input r w'' hr => ?_⟩
  cases input <;> simp only [handler, reduceCtorEq] at hr
  split at hr
  · obtain ⟨rfl, rfl⟩ : _ ∧ _ := by simpa using hr
    exact h _ _ hw fun e he => by cases he
  · obtain ⟨rfl, rfl⟩ : _ ∧ _ := by simpa using hr
    refine h _ _ (hw.trans (Rely.extend rfl List.suffix_rfl (List.suffix_cons ..)
      List.suffix_rfl List.suffix_rfl fun _ _ hu => hu)) fun e he => ?_
    obtain rfl := Except.ok.inj he
    exact List.mem_cons_self

/-- What the approval authority grants is on record. -/
theorem keeps_authorize {request : ApprovalAuthorizationRequest} {presented : String}
    {f : Except String (Option ApprovalAuthorizationEvidence) → Prog β} (hpr : ReadsFree pr)
    (h : ∀ r w', Rely i w w' → (∀ e, r = .ok (some e) → (request, e) ∈ w'.authorised) →
      Keeps pr i post (f r) (log ++ [⟨.authorize request presented, r⟩]) w') :
    Keeps pr i post (act (.authorize request presented) >>= f) log w := by
  refine Safe.perform fun w' hw hinv => ⟨hpr i log _ w' rfl, fun input r w'' hr => ?_⟩
  cases input <;> simp only [handler, reduceCtorEq] at hr
  split at hr
  · obtain ⟨rfl, rfl⟩ : _ ∧ _ := by simpa using hr
    refine h _ _ (hw.trans (Rely.extend rfl List.suffix_rfl List.suffix_rfl (List.suffix_cons ..)
      List.suffix_rfl fun _ _ hu => hu)) fun e he => ?_
    obtain rfl := Option.some.inj (Except.ok.inj he)
    exact List.mem_cons_self
  · rename_i hne
    obtain ⟨rfl, rfl⟩ : _ ∧ _ := by simpa using hr
    exact h _ _ hw fun e he => absurd he (hne e)

/-- **The projection reads only.** -/
theorem status_keeps {workspace : WorkspaceKey} {actorId X : String} (hpr : ReadsFree pr) :
    Keeps pr i (fun _ _ w' => Rely i w w') (status workspace actorId X) log w := by
  unfold status
  refine keeps_scopeOf ?_
  refine keeps_require hpr fun cur w₁ _ h₁ _ _ _ _ _ _ => ?_
  refine keeps_failIf fun _ => ?_
  refine keeps_fact hpr fun _ w₂ h₂ _ _ _ => ?_
  refine keeps_fact hpr fun _ w₃ h₃ _ _ _ => ?_
  refine keeps_fact hpr fun _ w₄ h₄ _ _ _ => ?_
  refine keeps_fact hpr fun _ w₅ h₅ _ _ _ => ?_
  refine keeps_fact hpr fun _ w₆ h₆ _ _ _ => ?_
  refine keeps_fact hpr fun _ w₇ h₇ _ _ _ => ?_
  refine keeps_fact hpr fun _ w₈ h₈ _ _ _ => ?_
  exact Safe.ret (h₁.trans (h₂.trans (h₃.trans (h₄.trans (h₅.trans (h₆.trans (h₇.trans h₈)))))))

theorem keeps_status {workspace : WorkspaceKey} {actorId X : String}
    {f : InteractionStatus → Prog β} (hpr : ReadsFree pr)
    (h : ∀ s log' w', Rely i w w' → Keeps pr i post (f s) log' w') :
    Keeps pr i post (status workspace actorId X >>= f) log w :=
  Safe.bind ((status_keeps hpr).mono (fun s log' w' hw => h s log' w' hw) fun _ _ _ _ => trivial)

end Steps

/-! ## The writing steps -/

section Writes

variable {α β : Type} {sha : Sha256} {i : ℕ}
variable {post : β → Log Action Action.Reply → World → Prop}
variable {log : Log Action Action.Reply} {w : World}

/-- **The commit**: a record seen before, still stored at its revision, makes the transition
legal; on success the history has its commit. -/
theorem transition_keeps {t : Transition} {cur : Interaction}
    {post : Unit → Log Action Action.Reply → World → Prop}
    (hseen : w.Seen cur) (hid : t.interaction.interactionId = cur.interactionId)
    (hrev : t.expectedRevision = cur.revision)
    (hlegal : ∀ w', Rely i w w' → Inv w' → w'.db.records cur.interactionId = some cur →
      Legal sha w' i cur t)
    (h : ∀ w' w'' log', Rely i w w' → w'.commits <:+ w''.commits → w'.issued <:+ w''.issued →
      (∀ id, w'.Unexecuted id → w''.Unexecuted id) → t.commit ∈ w''.commits →
      readings log' = readings log → post () log' w'') :
    Keeps (pre sha) i post (transition t) log w := by
  unfold transition
  refine Safe.perform fun w' hw hinv => ?_
  have hpre : pre sha i log (.transition t) w' := by
    intro cur' hcur' hscope hrev'
    rw [hid] at hcur'
    obtain rfl : cur = cur' := hinv.current_eq (hw.seen hseen) hcur' (hrev.symm.trans hrev'.symm)
    exact ⟨hid.symm, hlegal w' hw hinv hcur'⟩
  refine ⟨hpre, fun input r w'' hr => ?_⟩
  cases input <;> simp only [handler, reduceCtorEq] at hr
  split at hr
  · rename_i e _
    obtain ⟨rfl, rfl⟩ : _ ∧ _ := by simpa using hr
    cases e <;> exact keeps_raise
  · obtain ⟨rfl, rfl⟩ : _ ∧ _ := by simpa using hr
    exact Safe.ret (h w' _ _ hw (List.suffix_cons ..) List.suffix_rfl (fun _ hu => hu)
      List.mem_cons_self (by simp [readings]))

/-- The commit and what follows it. -/
theorem keeps_transition {t : Transition} {cur : Interaction} {f : Unit → Prog β}
    (hseen : w.Seen cur) (hid : t.interaction.interactionId = cur.interactionId)
    (hrev : t.expectedRevision = cur.revision)
    (hlegal : ∀ w', Rely i w w' → Inv w' → w'.db.records cur.interactionId = some cur →
      Legal sha w' i cur t)
    (h : ∀ w' w'' log', Rely i w w' → w'.commits <:+ w''.commits → w'.issued <:+ w''.issued →
      (∀ id, w'.Unexecuted id → w''.Unexecuted id) → t.commit ∈ w''.commits →
      readings log' = readings log → Keeps (pre sha) i post (f ()) log' w'') :
    Keeps (pre sha) i post (transition t >>= f) log w :=
  Safe.bind (transition_keeps hseen hid hrev hlegal h)

/-- **The call of the execution port**: only the list of requests changes. -/
theorem keeps_execute {request : ExecutionRequest}
    {f : Except String ExecutionObservation → Prog β}
    (hgrant : ∀ w', Rely i w w' → Granted w' i log request)
    (h : ∀ r w' w'' log', Rely i w w' → w''.commits = w'.commits →
      Keeps (pre sha) i post (f r) log' w'') :
    Keeps (pre sha) i post (act (.execute request) >>= f) log w := by
  refine Safe.perform fun w' hw hinv => ⟨hgrant w' hw, fun input r w'' hr => ?_⟩
  cases input <;> simp only [handler, reduceCtorEq] at hr
  obtain ⟨rfl, rfl⟩ : _ ∧ _ := by simpa using hr
  exact h _ w' _ _ hw rfl

end Writes

end Interactions

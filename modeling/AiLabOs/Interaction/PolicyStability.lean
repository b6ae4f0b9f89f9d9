import AiLabOs.Interaction.Adapter
import AiLabOs.Interaction.Lifecycle

/-!
# Trusted interactions: the policy refuses its own output

The resolver returns parameters with a field it does not accept. The adapter's `recover` asks it
again about the parameters of the current Preview, so in every run a recovery that gets as far as
the policy is refused by it, and so is a modification that submits the parameters of a Preview
again.

## Main definitions

* `AsksPolicy`: the call has asked the resolver
* `AdapterResponse.RefusedByPolicy`: the response is a failure of the resolver

## Main results

* `resolution_unstable`: no plan resolves again, and no recovery passes the policy
-/

namespace Interactions

open Process Process.Program

/-- The call has asked the resolver. -/
def AsksPolicy (log : Log Action Action.Reply) : Prop :=
  ∃ context operation parameters traceId r,
    (⟨.resolvePolicy context operation parameters traceId, r⟩ : Σ e : Action, e.Reply) ∈ log

/-- The response is a failure of the resolver. -/
def AdapterResponse.RefusedByPolicy (r : AdapterResponse) : Prop :=
  ∃ info, r.failure = some info ∧ info.component = "pilot_001_authority"

/-- The program comes to the answer to the question whether the document resolves: where it is a
failure, the program raises it. -/
def Decided (log : Log Action Action.Reply) (doc : JsonDoc) (q : Prog AdapterResponse) : Prop :=
  ∃ context operation traceId r,
    (⟨.resolvePolicy context operation doc traceId, r⟩ : Σ e : Action, e.Reply) ∈ log ∧
      ∀ info, r = .error (.failure info) → q = .raise (.failure info)

/-! ## What the adapter asks -/

section Paths

variable {log log' : Log Action Action.Reply} {q : Prog AdapterResponse} {doc : JsonDoc}

/-- The actions other than a question to the resolver. -/
def Action.NotPolicy : Action → Prop
  | .resolvePolicy _ _ _ _ => False
  | _ => True

theorem not_asks {entries : Log Action Action.Reply}
    (h : ∀ entry ∈ entries, entry.1.NotPolicy) : ¬AsksPolicy entries :=
  fun ⟨_, _, _, _, _, hmem⟩ => h _ hmem

theorem AsksPolicy.of_append (h : AsksPolicy (log ++ log')) (hlog : ¬AsksPolicy log) :
    AsksPolicy log' := by
  obtain ⟨context, operation, parameters, traceId, r, hmem⟩ := h
  rcases List.mem_append.mp hmem with hmem | hmem
  · exact absurd ⟨context, operation, parameters, traceId, r, hmem⟩ hlog
  · exact ⟨context, operation, parameters, traceId, r, hmem⟩

theorem Decided.of_append (h : Decided log' doc q) : Decided (log ++ log') doc q := by
  obtain ⟨context, operation, traceId, r, hmem, hq⟩ := h
  exact ⟨context, operation, traceId, r, List.mem_append_right _ hmem, hq⟩

theorem resolve_all (assertion : ShellAssertion) : (resolve assertion).All Action.NotPolicy := by
  refine .bind (.perform trivial) fun reply => ?_
  cases reply <;> trivial

theorem failIf_all (p : Prop) [Decidable p] (info : FailureInfo) :
    (failIf p info).All Action.NotPolicy := by
  unfold failIf
  split <;> trivial

theorem require_all (scope : Scope) (X traceId : String) :
    (require scope X traceId).All Action.NotPolicy := by
  refine .bind (.perform trivial) fun reply => ?_
  cases reply <;> trivial

theorem fact_all {β : Type} {X : String} {ty : FactType} {id : Option String}
    {f : Option ty.Model → Prog β} (h : ∀ fact, (f fact).All Action.NotPolicy) :
    (fact X ty id >>= f).All Action.NotPolicy :=
  .bind (.perform trivial) h

-- The programs below are taken apart by the rules above only.
attribute [local irreducible] Program.All scopeOf status

theorem scopeOf_all (workspace : WorkspaceKey) (actorId : String) :
    (scopeOf workspace actorId).All Action.NotPolicy := by
  rcases scopeOf_cases workspace actorId with ⟨info, h⟩ | h
  · rw [h]
    exact .raise _
  · rw [h]
    exact .ret _

theorem status_all (workspace : WorkspaceKey) (actorId X : String) :
    (status workspace actorId X).All Action.NotPolicy := by
  unfold status
  refine .bind (scopeOf_all ..) fun scope => ?_
  refine .bind (require_all ..) fun current => ?_
  refine .bind (failIf_all ..) fun _ => ?_
  iterate 7 refine fact_all fun _ => ?_
  exact .ret _

/-- A fact that is read first is on the log. -/
theorem leads_fact {β : Type} {X : String} {ty : FactType} {id : Option String}
    {f : Option ty.Model → Prog β} {q : Prog β} (h : Leads (fact X ty id >>= f) log q)
    (hq : q.Ended) :
    ∃ found rest, log = (⟨.fact X ty id, found⟩ : Σ e : Action, e.Reply) :: rest ∧
      Leads (f found) rest q :=
  Leads.of_perform h hq

/-- The status of an interaction has the Preview the call has read. -/
theorem status_read {workspace : WorkspaceKey} {actorId X : String} {s : InteractionStatus}
    (h : Leads (status workspace actorId X) log (.ret s)) :
    ∃ id, (⟨.fact X .preview id, s.preview⟩ : Σ e : Action, e.Reply) ∈ log := by
  unfold status at h
  have hend : (.ret s : Prog InteractionStatus).Ended := trivial
  rcases h.of_bind hend with ⟨_, -, hraise⟩ | ⟨scope, log₁, rest₁, rfl, -, h₁⟩
  · cases hraise
  rcases h₁.of_bind hend with ⟨_, -, hraise⟩ | ⟨current, log₂, rest₂, rfl, -, h₂⟩
  · cases hraise
  rcases h₂.of_bind hend with ⟨_, -, hraise⟩ | ⟨_, log₃, rest₃, rfl, -, h₃⟩
  · cases hraise
  obtain ⟨preview, rest, rfl, h₄⟩ := leads_fact h₃ hend
  obtain ⟨_, _, rfl, h₅⟩ := leads_fact h₄ hend
  obtain ⟨_, _, rfl, h₆⟩ := leads_fact h₅ hend
  obtain ⟨_, _, rfl, h₇⟩ := leads_fact h₆ hend
  obtain ⟨_, _, rfl, h₈⟩ := leads_fact h₇ hend
  obtain ⟨_, _, rfl, h₉⟩ := leads_fact h₈ hend
  obtain ⟨_, _, rfl, h₁₀⟩ := leads_fact h₉ hend
  obtain ⟨-, hs⟩ := h₁₀.of_ret
  obtain rfl := Program.ret.inj hs
  refine ⟨current.currentPreviewId, ?_⟩
  simp

/-- A program that asks first comes to the answer. -/
theorem decided_of_asks {context : ResolvedShellContext} {operation traceId : String}
    {f : ResolvedOperationPlan → Prog AdapterResponse}
    (h : Leads (act (.resolvePolicy context operation doc traceId) >>= fun r => orRaise r >>= f)
      log q) (hq : q.Ended) : Decided log doc q := by
  obtain ⟨r, rest, rfl, hrest⟩ := Leads.of_perform h hq
  refine ⟨context, operation, traceId, r, List.mem_cons_self, ?_⟩
  rintro info rfl
  exact (Leads.of_raise (show Leads (.raise (.failure info)) rest q from hrest)).2

/-- **A guarded operation** that decides by the policy returns its failure. -/
theorem guarded_decided {assertion : ShellAssertion}
    {operation : ResolvedShellContext → String → String → Prog AdapterResponse}
    {response : AdapterResponse} {D : JsonDoc → Log Action Action.Reply → Prop}
    (h : Leads (guarded assertion operation) log (.ret response)) (hasks : AsksPolicy log)
    (hgrow : ∀ doc log log', D doc log' → D doc (log ++ log'))
    (hop : ∀ context requestId traceId log q, Leads (operation context requestId traceId) log q →
      q.Ended → AsksPolicy log → ∃ doc, D doc log ∧ Decided log doc q) :
    ∃ doc, D doc log ∧ ∃ context operation traceId r,
      (⟨.resolvePolicy context operation doc traceId, r⟩ : Σ e : Action, e.Reply) ∈ log ∧
        ∀ info, r = .error (.failure info) → response.failure = some info := by
  have hbody : ∀ requestId traceId log q, Leads (resolve assertion >>= fun context =>
      operation context requestId traceId) log q → q.Ended →
      AsksPolicy log → ∃ doc, D doc log ∧ Decided log doc q := by
    intro requestId traceId log q h hq hasks
    rcases h.of_bind hq with ⟨x, hraise, -⟩ | ⟨context, log₁, log₂, rfl, hret, hrest⟩
    · exact absurd hasks (not_asks ((resolve_all assertion).of_leads hraise))
    · have hasks' := hasks.of_append (not_asks ((resolve_all assertion).of_leads hret))
      obtain ⟨doc, hdoc, hdecided⟩ := hop context requestId traceId log₂ q hrest hq hasks'
      exact ⟨doc, hgrow doc log₁ log₂ hdoc, hdecided.of_append⟩
  unfold guarded at h
  rcases h.of_tryCatch trivial with ⟨a, hret, heq⟩ | ⟨x, log₁, log₂, rfl, hraise, hrest⟩
  · obtain ⟨doc, hdoc, context, op, traceId, r, hmem, hq⟩ := hbody _ _ _ _ hret trivial hasks
    exact ⟨doc, hdoc, context, op, traceId, r, hmem, fun info hr => nomatch hq info hr⟩
  · have hnil : log₂ = [] ∧ ∀ info, x = .failure info → response.failure = some info := by
      cases x with
      | failure info =>
        obtain ⟨hnil, hret⟩ := hrest.of_ret
        refine ⟨hnil, fun info' hinfo => ?_⟩
        rw [Program.ret.inj hret, Raised.failure.inj hinfo]
        rfl
      | _ => exact ⟨hrest.of_ret.1, fun _ hinfo => nomatch hinfo⟩
    obtain ⟨rfl, hfailure⟩ := hnil
    rw [List.append_nil] at hasks ⊢
    obtain ⟨doc, hdoc, context, op, traceId, r, hmem, hq⟩ := hbody _ _ _ _ hraise trivial hasks
    refine ⟨doc, hdoc, context, op, traceId, r, hmem, fun info hr => hfailure info ?_⟩
    exact Program.raise.inj (hq info hr)

/-- The document is that of a Preview the call has read. -/
def ReadDoc (doc : JsonDoc) (log : Log Action Action.Reply) : Prop :=
  ∃ X id p, (⟨.fact X .preview id, some p⟩ : Σ e : Action, e.Reply) ∈ log ∧
    doc = p.normalizedParameters

/-- **A recovery** that asks is decided by the parameters of the Preview it has read. -/
theorem recover_decided {sha : Sha256} {assertion : ShellAssertion} {X key : String}
    {revision : Int} {response : AdapterResponse}
    (h : Leads (adapterRecover sha assertion X revision key) log (.ret response))
    (hasks : AsksPolicy log) :
    ∃ doc, ReadDoc doc log ∧ ∃ context operation traceId r,
      (⟨.resolvePolicy context operation doc traceId, r⟩ : Σ e : Action, e.Reply) ∈ log ∧
        ∀ info, r = .error (.failure info) → response.failure = some info := by
  refine guarded_decided h hasks (fun doc log log' ⟨Y, id, p, hmem, hdoc⟩ =>
    ⟨Y, id, p, List.mem_append_right _ hmem, hdoc⟩) ?_
  intro context requestId traceId log q hpath hq hasks
  rcases hpath.of_bind hq with ⟨x, hraise, -⟩ | ⟨current, log₁, log₂, rfl, hret, hrest⟩
  · exact absurd hasks (not_asks ((status_all ..).of_leads hraise))
  have hasks' := hasks.of_append (not_asks ((status_all ..).of_leads hret))
  obtain ⟨id, hread⟩ := status_read hret
  cases hpreview : current.preview with
  | none =>
    rw [hpreview] at hrest
    obtain ⟨rfl, -⟩ := Leads.of_raise hrest
    obtain ⟨_, _, _, _, _, hmem⟩ := hasks'
    cases hmem
  | some p =>
    rw [hpreview] at hrest hread
    exact ⟨p.normalizedParameters, ⟨X, id, p, List.mem_append_left _ hread, rfl⟩,
      (decided_of_asks hrest hq).of_append⟩

/-- **A modification** that asks is decided by the parameters it submits. -/
theorem modify_decided {sha : Sha256} {assertion : ShellAssertion} {X operation key : String}
    {revision : Int} {response : AdapterResponse}
    (h : Leads (adapterModify sha assertion X revision operation doc key) log (.ret response))
    (hasks : AsksPolicy log) : ∃ context operation traceId r,
      (⟨.resolvePolicy context operation doc traceId, r⟩ : Σ e : Action, e.Reply) ∈ log ∧
        ∀ info, r = .error (.failure info) → response.failure = some info := by
  obtain ⟨_, rfl, hdecided⟩ := guarded_decided (D := fun doc' _ => doc' = doc) h hasks
    (fun _ _ _ hdoc => hdoc) fun context requestId traceId log q hpath hq _ =>
      ⟨doc, rfl, decided_of_asks hpath hq⟩
  exact hdecided

end Paths

/-! ## The policy in runs -/

/-- A response under `some`, of the adapter. -/
theorem leads_response {p : Prog AdapterResponse} {log : Log Action Action.Reply}
    {r : AdapterResponse} (h : Leads (AdapterResult.response <$> p) log (.ret (.response r))) :
    Leads p log (.ret r) := by
  have hbind : Leads (p >>= fun a => (.ret (.response a) : Prog AdapterResult)) log
      (.ret (.response r)) := h
  rcases hbind.of_bind trivial with ⟨_, -, hraise⟩ | ⟨a, log₁, log₂, rfl, hret, hrest⟩
  · cases hraise
  · obtain ⟨rfl, heq⟩ := hrest.of_ret
    cases heq
    rwa [List.append_nil]

/-- **A resolved document is refused** whenever the resolver is asked about it. -/
theorem refused_of_resolved {env : PolicyEnvironment} {d : Deployment} {c : AdapterCalls}
    (h : AdapterReachable env d c) {i : ℕ} {k : AdapterRequest} {log : Log Action Action.Reply}
    {q : Prog AdapterResult} (hi : c.calls[i]? = some ⟨k, log, q⟩) {doc : JsonDoc}
    (hdoc : Resolved env doc) {response : AdapterResponse}
    (hdecided : ∃ context operation traceId r,
      (⟨.resolvePolicy context operation doc traceId, r⟩ : Σ e : Action, e.Reply) ∈ log ∧
        ∀ info, r = .error (.failure info) → response.failure = some info) :
    response.RefusedByPolicy := by
  obtain ⟨context, operation, traceId, r, hmem, hresponse⟩ := hdecided
  have hreply := h.conforms hi context operation doc traceId r hmem
  rcases hdoc.refused context operation traceId with hrefused | hrefused
  · exact ⟨_, hresponse _ (hreply.trans hrefused), rfl⟩
  · exact ⟨_, hresponse _ (hreply.trans hrefused), rfl⟩

/-- **Policy resolution is not stable under its own output.** No plan's parameters resolve again,
and in every run every recovery, and every modification that submits the parameters of a Preview,
that gets as far as the policy is refused by it. -/
theorem resolution_unstable (env : PolicyEnvironment) (d : Deployment) :
    (∀ context operation parameters traceId plan,
      resolveOperation env context operation parameters traceId = .ok plan →
        ∀ context' traceId', resolveOperation env context' plan.canonicalOperation
            (JsonText.fieldsOf plan.normalizedParameters) traceId' =
          .error (.failure (authorityFieldDenied traceId'))) ∧
    ∀ c, AdapterReachable env d c → ∀ (i : ℕ) log response, AsksPolicy log →
      (∀ assertion X revision key,
        c.calls[i]? = some ⟨.recover assertion X revision key, log, .ret (.response response)⟩ →
          response.RefusedByPolicy) ∧
      (∀ assertion X revision operation key Y p, c.world.Past Y (.preview p) →
        c.calls[i]? = some ⟨.modify assertion X revision operation p.normalizedParameters key, log,
          .ret (.response response)⟩ → response.RefusedByPolicy) := by
  refine ⟨fun _ _ _ _ plan hok context' traceId' => ?_, fun c h i log response hasks =>
    ⟨fun assertion X revision key hi => ?_, fun assertion X revision operation key Y p hp hi => ?_⟩⟩
  · obtain ⟨task, rfl⟩ := resolveOperation_ok hok
    exact resolveOperation_normalized task
  · have hpath : Leads (adapterRecover d.sha assertion X revision key) log (.ret response) :=
      leads_response (h.reaches.leads hi)
    obtain ⟨_, ⟨Y, id, p, hread, rfl⟩, hdecided⟩ := recover_decided hpath hasks
    exact refused_of_resolved h hi (h.resolved (h.read_past hi Y .preview id p hread)) hdecided
  · have hpath : Leads (adapterModify d.sha assertion X revision operation p.normalizedParameters
        key) log (.ret response) := leads_response (h.reaches.leads hi)
    exact refused_of_resolved h hi (h.resolved hp) (modify_decided hpath hasks)

namespace Scenario

/-- One zone and one due text. -/
def pilotEnvironment : PolicyEnvironment where
  zoneInfo key := if key = "Asia/Shanghai" then .found else .rejected
  fromIsoformat text :=
    if text = "2026-08-13T15:00:00+08:00" then
      some (.utc ⟨2026, 8, 13, 7, 0, 0, 0, by decide⟩)
    else none
  unicode := .ascii

/-- What the shell binding resolves to. -/
def owner : ResolvedShellContext := ⟨workspace "u", "u", "binding", "evidence"⟩

/-- The fields of one task, as a shell submits them. -/
def taskFields : List (String × String) :=
  [("title", " Quote "), ("description", "5000 boxes"), ("priority", "HIGH"),
    ("due_at", "2026-08-13T15:00:00+08:00"), ("timezone", "Asia/Shanghai")]

/-- What they resolve to. -/
def pilotPlan : ResolvedOperationPlan :=
  planOf ⟨"Quote", "5000 boxes", .high, ⟨2026, 8, 13, 7, 0, 0, 0, by decide⟩, "Asia/Shanghai"⟩

theorem pilotPlan_resolved : resolveOperation pilotEnvironment owner "user_task.create"
    (JsonText.fieldsOf (JsonText.ofTexts taskFields)) "trace" = .ok pilotPlan := by
  have hop : Text.strip "user_task.create" = allowedOperation := by decide +kernel
  have hknown : ¬∃ name ∈ (JsonText.fieldsOf (JsonText.ofTexts taskFields)).map Prod.fst,
      name ∉ parameterFields := by
    rw [JsonText.fieldsOf_ofTexts]
    decide +kernel
  have hcomplete : ¬∃ name ∈ parameterFields,
      name ∉ (JsonText.fieldsOf (JsonText.ofTexts taskFields)).map Prod.fst := by
    rw [JsonText.fieldsOf_ofTexts]
    decide +kernel
  have htext : textFields (JsonText.fieldsOf (JsonText.ofTexts taskFields)) =
      some ⟨" Quote ", "5000 boxes", "HIGH", "2026-08-13T15:00:00+08:00", "Asia/Shanghai"⟩ := by
    rw [JsonText.fieldsOf_ofTexts]
    decide +kernel
  have htask : canonicalTask pilotEnvironment
      ⟨" Quote ", "5000 boxes", "HIGH", "2026-08-13T15:00:00+08:00", "Asia/Shanghai"⟩ =
        .ok ⟨"Quote", "5000 boxes", .high, ⟨2026, 8, 13, 7, 0, 0, 0, by decide⟩,
          "Asia/Shanghai"⟩ := by
    decide +kernel
  rw [resolveOperation, if_neg (not_not.mpr hop), if_neg hknown, if_neg hcomplete, resolveFields,
    htext]
  simp only [htask]
  rfl

/-- The owner's shell. -/
def shell (messageId : String) : ShellAssertion :=
  { channel := "wecom", shell := "hermes", shellSessionId := "session", channelIdentity := "owner"
    messageId, correlation := [("trace_id", "trace")] }

/-- The call `i` performs its next actions on these inputs. -/
def inputs (i : ℕ) (supplied : List Input) : List (Event AdapterRequest Input) :=
  supplied.map (.act i)

/-- The shell previews a task, asks for its recovery, and submits its parameters again. -/
def resubmitted : List (Event AdapterRequest Input) :=
  let denied : Except Raised ResolvedOperationPlan :=
    .error (.failure (authorityFieldDenied "trace"))
  ([.arrive (.preview (shell "m1") "user_task.create" (JsonText.ofTexts taskFields) "key")] :
      List (Event AdapterRequest Input)) ++
    inputs 0 [.binding (.ok owner), .plan (.ok pilotPlan), .instant 0, .text "1", .text "a0",
      .instant 0, .none, .none, .none, .instant 50, .none, .text "1", .text "a1", .instant 0,
      .text "a2", .instant 0, .text "a3", .instant 0, .text "a4", .instant 0] ++
    inputs 0 (List.replicate 17 Input.none) ++
    ([.arrive (.recover (shell "m2") "int_1" 2 "recover")] : List (Event AdapterRequest Input)) ++
    inputs 1 (([.binding (.ok owner)] : List Input) ++ List.replicate 8 Input.none ++
      ([.plan denied] : List Input)) ++
    ([.arrive (.modify (shell "m3") "int_1" 2 "user_task.create" pilotPlan.normalizedParameters
      "modify")] : List (Event AdapterRequest Input)) ++
    inputs 2 [.binding (.ok owner), .plan denied]

/-- The configuration the events lead to. -/
def resubmission : AdapterCalls :=
  (runIf handler (adapterStart deployment) (meets (policyReplies pilotEnvironment))
    (idle World.initial) resubmitted).getD (idle World.initial)

theorem resubmission_reachable : AdapterReachable pilotEnvironment deployment resubmission := by
  unfold resubmission
  cases h : runIf handler (adapterStart deployment) (meets (policyReplies pilotEnvironment))
      (idle World.initial) resubmitted with
  | none => exact .refl _
  | some c => exact ⟨resubmitted, h⟩

/-- The failure code of the response of a call. -/
def refusal (c : AdapterCalls) (i : ℕ) : Option String :=
  match c.calls[i]? with
  | some ⟨_, _, .ret (.response r)⟩ => r.failure.map FailureInfo.code
  | _ => none

/-- The parameters the call `i` asks the resolver about. -/
def questioned : ℕ → JsonDoc
  | 0 => JsonText.ofTexts taskFields
  | _ => pilotPlan.normalizedParameters

/-- What the resolver answers. -/
def policyAnswer : ℕ → Except Raised ResolvedOperationPlan
  | 0 => .ok pilotPlan
  | _ => .error (.failure (authorityFieldDenied "trace"))

theorem policyAnswer_eq (i : ℕ) (context : ResolvedShellContext) :
    policyAnswer i = resolveOperation pilotEnvironment context allowedOperation
      (JsonText.fieldsOf (questioned i)) "trace" := by
  cases i with
  | zero => exact pilotPlan_resolved.symm
  | succ n => exact (resolveOperation_normalized _).symm

/-- A call asks the resolver about these parameters. -/
def asksOwn : ℕ → Action → Input → World → Bool
  | i, .resolvePolicy _ operation parameters traceId, .plan _, _ =>
    operation = allowedOperation && traceId = "trace" && parameters = questioned i
  | _, _, _, _ => true

/-- A reply of the resolver is the answer to them. -/
def AnswersOwn : Event AdapterRequest Input → Prop
  | .act i (.plan r) => r = policyAnswer i
  | _ => True

theorem resubmitted_answers : ∀ ev ∈ resubmitted, AnswersOwn ev := by
  simp [resubmitted, inputs, AnswersOwn, policyAnswer]

/-- The reply to such a question is the resolver's. -/
theorem policyReplies_of_asksOwn {ev : Event AdapterRequest Input} (hev : AnswersOwn ev)
    {c : AdapterCalls} (h : meets asksOwn c ev = true) :
    meets (policyReplies pilotEnvironment) c ev = true := by
  cases ev with
  | arrive k => rfl
  | act i input =>
    simp only [meets, Option.all_eq_true] at h ⊢
    intro e he
    have hasks := h e he
    cases e <;> try rfl
    rename_i context operation parameters traceId
    cases input <;> try rfl
    rename_i r
    simp only [asksOwn, Bool.and_eq_true, decide_eq_true_eq] at hasks
    obtain ⟨⟨rfl, rfl⟩, rfl⟩ := hasks
    simp only [policyReplies, decide_eq_true_eq]
    exact hev.trans (policyAnswer_eq i context)

/-- Both questions that follow the Preview are refused. -/
theorem resubmission_refusals :
    refusal resubmission 1 = some "pilot_001.authority_field_denied" ∧
      refusal resubmission 2 = some "pilot_001.authority_field_denied" := by
  have hown : ((runIf handler (adapterStart deployment) (meets asksOwn) (idle World.initial)
      resubmitted).map fun c => (refusal c 1, refusal c 2)) =
        some (some "pilot_001.authority_field_denied",
          some "pilot_001.authority_field_denied") := by
    decide +kernel
  obtain ⟨c, hc, hrefusals⟩ := Option.map_eq_some_iff.mp hown
  -- the replies of this run are the resolver's, so it is a run of the deployment
  have hrun := runIf_mono (fun ev hev _ => policyReplies_of_asksOwn (resubmitted_answers ev hev)) hc
  rw [resubmission, hrun]
  exact Prod.ext_iff.mp hrefusals

end Scenario

/-- A plan whose parameters do not resolve again; and a run in which the recovery of the previewed
interaction and the resubmission of its parameters are refused by the policy. -/
theorem resubmission_refused :
    resolveOperation Scenario.pilotEnvironment Scenario.owner "user_task.create"
        (JsonText.fieldsOf (JsonText.ofTexts Scenario.taskFields)) "trace" =
      .ok Scenario.pilotPlan ∧
    (∀ plan, resolveOperation Scenario.pilotEnvironment Scenario.owner
        Scenario.pilotPlan.canonicalOperation
        (JsonText.fieldsOf Scenario.pilotPlan.normalizedParameters) "trace" ≠ .ok plan) ∧
    AdapterReachable Scenario.pilotEnvironment Scenario.deployment Scenario.resubmission ∧
    Scenario.refusal Scenario.resubmission 1 = some "pilot_001.authority_field_denied" ∧
    Scenario.refusal Scenario.resubmission 2 = some "pilot_001.authority_field_denied" := by
  refine ⟨Scenario.pilotPlan_resolved, fun plan hplan => ?_, Scenario.resubmission_reachable,
    Scenario.resubmission_refusals⟩
  rw [show Scenario.pilotPlan = planOf _ from rfl, resolveOperation_normalized] at hplan
  cases hplan

/-- One plan that does not resolve again. -/
theorem resolution_unstable_plan :
    resolveOperation Scenario.pilotEnvironment Scenario.owner Scenario.pilotPlan.canonicalOperation
        (JsonText.fieldsOf Scenario.pilotPlan.normalizedParameters) "again" =
      .error (.failure (authorityFieldDenied "again")) :=
  (resolution_unstable Scenario.pilotEnvironment Scenario.deployment).1 _ _ _ _ _
    Scenario.pilotPlan_resolved _ _

end Interactions

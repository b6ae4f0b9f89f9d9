import AiLabOs.Interaction.Lifecycle

/-!
# Trusted interactions: what an execution was authorised by

A commit writes a Preview, a Confirmation or an Approval under an identifier of its own, or repeats
a Preview with another status, so an identifier stands for one content. A record names the latest
Preview and the Confirmation and the Approval of that Preview only. When the execution port is
asked, both are therefore those of the Preview whose parameters it is sent.

## Main definitions

* `Preview.ConfirmedBy`, `Preview.ApprovedBy`: a Confirmation, or an Approval, of a Preview
* `Authorises`: what a commit does to the authorisation of its record
* `Authorisation`: the invariant that ties records, Previews, Confirmations and Approvals together

## Main results

* `Reachable.authorisation`
* `execution_authorised`: what the port is asked was previewed, confirmed and approved
* `executes_before_expiry`: when no execution starts after its Preview expired
-/

namespace Interactions

open Process

/-- A Confirmation of a Preview, by the actor of the Preview. -/
structure Preview.ConfirmedBy (p : Preview) (c : Confirmation) : Prop where
  previewId : c.previewId = p.previewId
  previewRevision : c.previewRevision = p.previewRevision
  actorId : c.actorId = p.actorId
  expiresAt : c.expiresAt ≤ p.expiresAt

/-- An Approval on evidence that matched every field of the request made for it. -/
structure Approval.Granted (w : World) (a : Approval)
    (request : ApprovalAuthorizationRequest) (evidence : ApprovalAuthorizationEvidence) : Prop where
  answered : (request, evidence) ∈ w.authorised
  matched : approvalAuthorityMatches request evidence a.createdAt
  requested : request.interactionId = a.interactionId ∧ request.previewId = a.previewId ∧
    request.previewRevision = a.previewRevision ∧ request.scope = a.scope ∧
    request.approverId = a.approverId ∧ request.requestedRole = a.approverRole ∧
    request.policyReference = a.policyReference
  recorded : a.authorityEvidenceId = evidence.authorityEvidenceId ∧
    a.authorityEvidenceDigest = evidence.evidenceDigest

/-- An Approval of a Preview, granted by the approval authority. -/
structure Preview.ApprovedBy (w : World) (p : Preview) (a : Approval) : Prop where
  previewId : a.previewId = p.previewId
  previewRevision : a.previewRevision = p.previewRevision
  expiresAt : a.expiresAt ≤ p.expiresAt
  granted : ∃ request evidence, a.Granted w request evidence

theorem Preview.ApprovedBy.mono {w w' : World} (h : w.authorised <:+ w'.authorised) {p : Preview}
    {a : Approval} (ha : p.ApprovedBy w a) : p.ApprovedBy w' a := by
  obtain ⟨h₁, h₂, h₃, request, evidence, hg⟩ := ha
  exact ⟨h₁, h₂, h₃, request, evidence, h.mem hg.answered, hg.matched, hg.requested, hg.recorded⟩

/-! ## Versions of a Preview -/

/-- Two versions of one Preview: they differ in their status at most. -/
def Preview.SameTerms (p q : Preview) : Prop := p.withStatus .active = q.withStatus .active

namespace Preview.SameTerms

variable {p q : Preview}

theorem refl (p : Preview) : p.SameTerms p := rfl

theorem symm (h : p.SameTerms q) : q.SameTerms p := Eq.symm h

theorem trans {r : Preview} (h : p.SameTerms q) (h' : q.SameTerms r) : p.SameTerms r :=
  Eq.trans h h'

theorem withStatus (p : Preview) (s : PreviewStatus) : (p.withStatus s).SameTerms p := rfl

/-- Two versions agree in every field but the status. -/
theorem field {β : Type} (h : p.SameTerms q) (f : Preview → β)
    (hf : ∀ p s, f (p.withStatus s) = f p := by intros; rfl) : f p = f q := by
  rw [← hf p .active, ← hf q .active, show p.withStatus .active = q.withStatus .active from h]

end Preview.SameTerms

/-! ## What a commit does to the authorisation -/

/-- **What a commit does to the authorisation of its record**: it replaces the Preview and drops
the rest, adds a Confirmation or an Approval of the Preview, or leaves all three alone and does
not authorise. -/
inductive Authorises (w : World) (i : ℕ) (cur : Interaction) (t : Transition) : Prop
  | preview (p : Preview) (old : Option Preview) (hmem : .preview p ∈ t.facts)
      (hcurrent : t.interaction.currentPreviewId = some p.previewId)
      (hconfirmation : t.interaction.currentConfirmationId = none)
      (happroval : t.interaction.currentApprovalId = none)
      (hstate : t.interaction.lifecycleState = .authorized →
        p.requiresConfirmation = false ∧ p.requiresApproval = false)
      (hold : w.Loaded cur.interactionId .preview cur.currentPreviewId old)
      (hnone : old = none → w.PortIdsFresh → cur.currentPreviewId = none)
      (hrev : ∀ o, old = some o → p.previewRevision = o.previewRevision + 1)
  | confirm (p : Preview) (c : Confirmation) (hpast : w.Past cur.interactionId (.preview p))
      (hmem : .confirmation c ∈ t.facts)
      (hcurrent : cur.currentPreviewId = some p.previewId)
      (hkeep : t.interaction.currentPreviewId = cur.currentPreviewId)
      (hconfirmation : t.interaction.currentConfirmationId = some c.confirmationId)
      (happroval : t.interaction.currentApprovalId = cur.currentApprovalId)
      (hby : p.ConfirmedBy c)
      (hstate : t.interaction.lifecycleState = .authorized → p.requiresApproval = false)
  | approve (p : Preview) (a : Approval) (hpast : w.Past cur.interactionId (.preview p))
      (hmem : .approval a ∈ t.facts)
      (hcurrent : cur.currentPreviewId = some p.previewId)
      (hkeep : t.interaction.currentPreviewId = cur.currentPreviewId)
      (hconfirmed : cur.currentConfirmationId ≠ none)
      (hconfirmation : t.interaction.currentConfirmationId = cur.currentConfirmationId)
      (happroval : t.interaction.currentApprovalId = some a.approvalId) (hby : p.ApprovedBy w a)
  | keeps (hkeep : t.interaction.currentPreviewId = cur.currentPreviewId)
      (hconfirmation : t.interaction.currentConfirmationId = cur.currentConfirmationId)
      (happroval : t.interaction.currentApprovalId = cur.currentApprovalId)
      (hstate : t.interaction.lifecycleState ≠ .authorized)

section Legal

variable {sha : Sha256} {w : World} {i : ℕ} {cur : Interaction} {t : Transition}

theorem Legal.authorises (h : Legal sha w i cur t) : Authorises w i cur t := by
  cases h with
  | preview a old previewId now audits hid hactor hrev hstate hold hnone hown =>
    refine .preview (newPreview sha a cur old previewId now) old (by simp [previewFacts]) rfl rfl
      rfl ?_ hold hnone ?_
    · intro hauth
      simpa [Interaction.previewed, newPreview] using hauth
    · rintro o rfl
      rfl
  | confirm a preview confirmationId now audits hid hrev hstate hpast hpid hprev hcurrent hactor
      hlive hconsume hown =>
    refine .confirm preview (newConfirmation a cur preview confirmationId now) hpast (by simp)
      hcurrent rfl rfl rfl ⟨hpid, hprev.symm, hactor.symm, Int.min_le_left ..⟩ ?_
    intro hauth
    simpa [Interaction.confirmed] using hauth
  | approve a preview confirmation authority approvalId now audits hid hrev hstate hpast hpid hprev
      hcurrent hneeds hconfirmation hconfirmed hgrant hmatch hown =>
    refine .approve preview (newApproval a cur preview authority approvalId now) hpast (by simp)
      hcurrent rfl (by simp [hconfirmed]) rfl rfl ⟨hpid, hprev.symm, ?_, _, _, hgrant, hmatch, ?_,
        rfl, rfl⟩
    · exact Int.le_trans (Int.min_le_left ..) (Int.min_le_left ..)
    · exact ⟨rfl, rfl, rfl, rfl, rfl, hmatch.2.2.2.2.2.1.symm, rfl⟩
  | observe a execution o recovery finished =>
    refine .keeps rfl rfl rfl ?_
    simp only [Interaction.observed]
    split
    · simp
    · split <;> simp
  | _ => exact .keeps rfl rfl rfl (by simp [Interaction.cancelled, Interaction.lapsed,
      Interaction.executing, Interaction.succeeded, Interaction.unverified,
      Interaction.reconciled])

/-- **A commit writes a Preview** again with another status, or under an identifier of its own as
the current one. -/
theorem Legal.preview_mem (h : Legal sha w i cur t) {p : Preview} (hp : .preview p ∈ t.facts) :
    (∃ q, w.Past cur.interactionId (.preview q) ∧ p.SameTerms q) ∨
      (w.Own i .preview p.previewId ∧ t.interaction.currentPreviewId = some p.previewId ∧
        ∀ q, .preview q ∈ t.facts → q.previewId = p.previewId → q = p) := by
  have hagain : ∀ {q : Preview} {s : PreviewStatus}, w.Past cur.interactionId (.preview q) →
      p = q.withStatus s → ∃ q, w.Past cur.interactionId (.preview q) ∧ p.SameTerms q :=
    fun hq heq => ⟨_, hq, heq ▸ Preview.SameTerms.withStatus _ _⟩
  cases h with
  | preview a old previewId now audits hid hactor hrev hstate hold hnone hown =>
    simp only [previewFacts, List.mem_append, List.mem_map, Option.mem_toList,
      List.mem_singleton] at hp
    rcases hp with ⟨q, hq, heq⟩ | heq
    · exact .inl (hagain (hold q hq).1 (Fact.preview.inj heq).symm)
    · obtain rfl := Fact.preview.inj heq
      refine .inr ⟨hown, rfl, fun q hq hid => ?_⟩
      simp only [previewFacts, List.mem_append, List.mem_map, Option.mem_toList,
        List.mem_singleton, Fact.preview.injEq] at hq
      rcases hq with ⟨o, ho, rfl⟩ | rfl
      · have hused := (hold o ho).1.used (Fact.not_supplied (by simp [Fact.type, Fact.of]))
        have hsame : o.previewId = previewId := hid
        exact absurd (hsame ▸ hused) hown.2.1
      · rfl
  | confirm a preview confirmationId now audits hid hrev hstate hpast =>
    simp only [List.mem_cons, List.not_mem_nil, or_false, reduceCtorEq, Fact.preview.injEq] at hp
    exact .inl (hagain hpast hp)
  | cancel a preview now audits hid hrev hterminal hstate hload =>
    cases preview with
    | none => cases hp
    | some q =>
      simp only [cancelFacts] at hp
      split at hp
      · simp only [List.mem_singleton, Fact.preview.injEq] at hp
        exact .inl (hagain (hload q rfl).1 hp)
      · cases hp
  | expire a preview now audits hid hrev hstate hpast =>
    simp only [List.mem_singleton, Fact.preview.injEq] at hp
    exact .inl (hagain hpast hp)
  | _ => simp [observedFacts, succeededFacts, unverifiedFacts] at hp

/-- A commit writes a Confirmation under an identifier of its own. -/
theorem Legal.confirmation_mem (h : Legal sha w i cur t) {c : Confirmation}
    (hc : .confirmation c ∈ t.facts) : w.Own i .confirmation c.confirmationId ∧
      ∀ c', .confirmation c' ∈ t.facts → c' = c := by
  cases h with
  | confirm a preview confirmationId now audits hid hrev hstate hpast hpid hprev hcurrent hactor
      hlive hconsume hown =>
    simp only [List.mem_cons, List.not_mem_nil, or_false, reduceCtorEq, false_or,
      Fact.confirmation.injEq] at hc ⊢
    subst hc
    exact ⟨hown, fun _ => id⟩
  | cancel a preview =>
    cases preview with
    | none => cases hc
    | some q =>
      simp only [cancelFacts] at hc
      split at hc <;> simp at hc
  | _ => simp [previewFacts, observedFacts, succeededFacts, unverifiedFacts] at hc

/-- A commit writes an Approval under an identifier of its own. -/
theorem Legal.approval_mem (h : Legal sha w i cur t) {a : Approval}
    (ha : .approval a ∈ t.facts) : w.Own i .approval a.approvalId ∧
      ∀ a', .approval a' ∈ t.facts → a' = a := by
  cases h with
  | approve a preview confirmation authority approvalId now audits hid hrev hstate hpast hpid hprev
      hcurrent hneeds hconfirmation hconfirmed hgrant hmatch hown =>
    simp only [List.mem_singleton, Fact.approval.injEq] at ha ⊢
    subst ha
    exact ⟨hown, fun _ => id⟩
  | cancel a preview =>
    cases preview with
    | none => cases ha
    | some q =>
      simp only [cancelFacts] at ha
      split at ha <;> simp at ha
  | _ => simp [previewFacts, observedFacts, succeededFacts, unverifiedFacts] at ha

end Legal

/-! ## The invariant -/

/-- An identifier of this kind stands for one fact, which is never written again. -/
def World.WrittenOnce (w : World) (ty : FactType) : Prop :=
  ∀ (X Y : String) (x y : ty.Model), w.Past X (.of ty x) → w.Past Y (.of ty y) →
    (Fact.of ty x).factId = (Fact.of ty y).factId → x = y

theorem World.WrittenOnce.commit {w : World} {ty : FactType} {i : ℕ} {db : Database}
    {t : Transition} (h : w.WrittenOnce ty) (hns : ∀ x, ¬(Fact.of ty x).supplied)
    (hmem : ∀ {x}, Fact.of ty x ∈ t.facts → w.Own i ty (Fact.of ty x).factId ∧
      ∀ y, Fact.of ty y ∈ t.facts → y = x) : (w.commit db t.commit).WrittenOnce ty := by
  intro X Y x y hx hy hid
  rcases World.commit_past.mp hx with ⟨-, hx⟩ | hx <;>
    rcases World.commit_past.mp hy with ⟨-, hy⟩ | hy
  · exact (hmem hy).2 x hx
  · exact absurd (hid ▸ hy.used (hns y)) (hmem hx).1.2.1
  · exact absurd (hid ▸ hx.used (hns x)) (hmem hy).1.2.1
  · exact h X Y x y hx hy hid

/-- A record names the Preview `q`, or a later one of its interaction. -/
def World.NamesLatest (w : World) (r : Interaction) (q : Preview) : Prop :=
  ∃ p : Preview, r.currentPreviewId = some p.previewId ∧
    w.Past r.interactionId (.preview p) ∧
    (q.previewId = p.previewId ∨ q.previewRevision < p.previewRevision)

/-- **What ties records, Previews, Confirmations and Approvals together.** -/
structure Authorisation (w : World) : Prop where
  /-- An identifier of a Preview stands for one content. -/
  sameTerms : ∀ {X Y p q}, w.Past X (.preview p) → w.Past Y (.preview q) →
    p.previewId = q.previewId → p.SameTerms q
  confirmation_once : w.WrittenOnce .confirmation
  approval_once : w.WrittenOnce .approval
  /-- The Confirmation a record names is of the Preview it names. -/
  confirmed : ∀ {r id}, w.Seen r → r.currentConfirmationId = some id →
    ∃ (p : Preview) (c : Confirmation), r.currentPreviewId = some p.previewId ∧
      w.Past r.interactionId (.preview p) ∧ w.Past r.interactionId (.confirmation c) ∧
      c.confirmationId = id ∧ p.ConfirmedBy c
  /-- The Approval a record names is of the Preview it names. -/
  approved : ∀ {r id}, w.Seen r → r.currentApprovalId = some id →
    ∃ (p : Preview) (a : Approval), r.currentPreviewId = some p.previewId ∧
      w.Past r.interactionId (.preview p) ∧ w.Past r.interactionId (.approval a) ∧
      a.approvalId = id ∧ p.ApprovedBy w a
  /-- An authorised record has the Confirmation and the Approval its Preview requires. -/
  authorised : ∀ {r}, w.Seen r → r.lifecycleState = .authorized →
    ∃ p : Preview, r.currentPreviewId = some p.previewId ∧ w.Past r.interactionId (.preview p) ∧
      (p.requiresConfirmation = true ∨ p.requiresApproval = true →
        r.currentConfirmationId ≠ none) ∧
      (p.requiresApproval = true → r.currentApprovalId ≠ none)
  /-- Under fresh port identifiers the Preview a stored record names is the latest. -/
  latest : w.PortIdsFresh → ∀ {r q}, w.db.records r.interactionId = some r →
    w.Past r.interactionId (.preview q) → w.NamesLatest r q

theorem Preview.ConfirmedBy.of_sameTerms {p q : Preview} {c : Confirmation} (h : p.ConfirmedBy c)
    (hpq : p.SameTerms q) : q.ConfirmedBy c where
  previewId := h.previewId.trans (hpq.field Preview.previewId)
  previewRevision := h.previewRevision.trans (hpq.field Preview.previewRevision)
  actorId := h.actorId.trans (hpq.field Preview.actorId)
  expiresAt := hpq.field Preview.expiresAt ▸ h.expiresAt

theorem Preview.ApprovedBy.of_sameTerms {w : World} {p q : Preview} {a : Approval}
    (h : p.ApprovedBy w a) (hpq : p.SameTerms q) : q.ApprovedBy w a where
  previewId := h.previewId.trans (hpq.field Preview.previewId)
  previewRevision := h.previewRevision.trans (hpq.field Preview.previewRevision)
  expiresAt := hpq.field Preview.expiresAt ▸ h.expiresAt
  granted := h.granted

section Commit

variable {sha : Sha256} {w : World} {i : ℕ} {cur : Interaction} {t : Transition} {db : Database}

theorem Fact.preview_not_supplied (p : Preview) : ¬(Fact.preview p).supplied := id

/-- A commit keeps one content for each identifier of a Preview. -/
theorem Legal.sameTerms (hl : Legal sha w i cur t)
    (h : ∀ {X Y p q}, w.Past X (.preview p) → w.Past Y (.preview q) →
      p.previewId = q.previewId → p.SameTerms q) {X Y : String} {p q : Preview}
    (hp : (w.commit db t.commit).Past X (.preview p))
    (hq : (w.commit db t.commit).Past Y (.preview q)) (hid : p.previewId = q.previewId) :
    p.SameTerms q := by
  -- a Preview a commit writes again is a version of a past one, a new one has an unused identifier
  have hnew : ∀ {p q : Preview}, .preview p ∈ t.facts → w.Past Y (.preview q) ∨
      w.Past X (.preview q) ∨ w.Past cur.interactionId (.preview q) →
      p.previewId = q.previewId → p.SameTerms q := by
    intro p q hp hq hid
    rcases hl.preview_mem hp with ⟨p', hp', hterms⟩ | ⟨hown, -, -⟩
    · have hid' := (hterms.field Preview.previewId).symm.trans hid
      rcases hq with hq | hq | hq <;> exact hterms.trans (h hp' hq hid')
    · rcases hq with hq | hq | hq <;>
        exact absurd (hid ▸ hq.used (Fact.preview_not_supplied q)) hown.2.1
  rcases World.commit_past.mp hp with ⟨-, hp⟩ | hp <;>
    rcases World.commit_past.mp hq with ⟨-, hq⟩ | hq
  · rcases hl.preview_mem hp with ⟨p', hp', hterms⟩ | ⟨-, -, hunique⟩
    · have hid' := (hterms.field Preview.previewId).symm.trans hid
      exact hterms.trans (hnew hq (.inr (.inr hp')) hid'.symm).symm
    · exact hunique q hq hid.symm ▸ .refl p
  · exact hnew hp (.inl hq) hid
  · exact (hnew hq (.inr (.inl hp)) hid.symm).symm
  · exact h hp hq hid

/-- A commit keeps the Preview its record names the latest. -/
theorem Legal.latest (hl : Legal sha w i cur t) (h : Authorisation w)
    (hfresh : w.PortIdsFresh) (hcur : w.db.records cur.interactionId = some cur) {q : Preview}
    (hq : (w.commit db t.commit).Past cur.interactionId (.preview q)) :
    (w.commit db t.commit).NamesLatest t.interaction q := by
  have hX := hl.interactionId
  -- a Preview written again is no later than the past one it is a version of
  have hagain : ∀ {q₀ : Preview}, w.Past cur.interactionId (.preview q₀) → q.SameTerms q₀ →
      (w.commit db t.commit).NamesLatest t.interaction q := by
    intro q₀ hq₀ hterms
    obtain ⟨p₀, hp₀, hpast, hle⟩ := h.latest hfresh hcur hq₀
    rw [← hterms.field Preview.previewId, ← hterms.field Preview.previewRevision] at hle
    have hkeep (hk : t.interaction.currentPreviewId = cur.currentPreviewId) :
        (w.commit db t.commit).NamesLatest t.interaction q :=
      ⟨p₀, hk.trans hp₀, World.commit_past.mpr (.inr (hX ▸ hpast)), hle⟩
    cases hl.authorises with
    | preview p old hmem hcurrent hconfirmation happroval hstate hload hnone hrev =>
      refine ⟨p, hcurrent, World.commit_past.mpr (.inl ⟨rfl, hmem⟩), .inr ?_⟩
      cases old with
      | none => simp [hnone rfl hfresh] at hp₀
      | some o =>
        obtain ⟨ho, hoid⟩ := hload o rfl
        have hrev₀ := (h.sameTerms hpast ho (Option.some.inj (hp₀.symm.trans hoid))).field
          Preview.previewRevision
        have hrevo := hrev o rfl
        rcases hle with hid | hlt
        · have hrevq := (h.sameTerms hq₀ hpast
            ((hterms.field Preview.previewId).symm.trans hid)).field Preview.previewRevision
          have hrevq' := hterms.field Preview.previewRevision
          omega
        · omega
    | confirm p c hpast' hmem hcurrent hk => exact hkeep hk
    | approve p a hpast' hmem hcurrent hk => exact hkeep hk
    | keeps hk => exact hkeep hk
  rcases World.commit_past.mp hq with ⟨-, hmem⟩ | hpast
  · rcases hl.preview_mem hmem with ⟨q₀, hq₀, hterms⟩ | ⟨-, hcurrent, -⟩
    · exact hagain hq₀ hterms
    · exact ⟨q, hcurrent, hX.symm ▸ hq, .inl rfl⟩
  · exact hagain hpast (.refl q)

/-- **A commit keeps the authorisation invariant.** -/
theorem Authorisation.commit (h : Authorisation w) (hinv : Inv w)
    (hcur : w.db.records cur.interactionId = some cur) (hl : Legal sha w i cur t)
    (hc : w.db.Committed t db) : Authorisation (w.commit db t.commit) := by
  have hX := hl.interactionId
  have hseen := (hinv.record_seen hcur).2
  have hpast : ∀ {X f}, w.Past X f → (w.commit db t.commit).Past X f :=
    fun hf => World.commit_past.mpr (.inr hf)
  have hmem : ∀ {f}, f ∈ t.facts → (w.commit db t.commit).Past t.interaction.interactionId f :=
    fun hf => World.commit_past.mpr (.inl ⟨rfl, hf⟩)
  have happroved : ∀ {p : Preview} {a}, p.ApprovedBy w a →
      p.ApprovedBy (w.commit db t.commit) a :=
    fun ha => ha.mono (by exact List.suffix_rfl)
  refine ⟨hl.sameTerms h.sameTerms, h.confirmation_once.commit (fun _ => id) hl.confirmation_mem,
    h.approval_once.commit (fun _ => id) hl.approval_mem, ?_, ?_, ?_, ?_⟩
  · -- the Confirmation of the record
    have hold : ∀ {r id}, w.Seen r → r.currentConfirmationId = some id →
        ∃ (p : Preview) (c : Confirmation), r.currentPreviewId = some p.previewId ∧
          (w.commit db t.commit).Past r.interactionId (.preview p) ∧
          (w.commit db t.commit).Past r.interactionId (.confirmation c) ∧
          c.confirmationId = id ∧ p.ConfirmedBy c := by
      intro r id hr hid
      obtain ⟨p, c, hp, hpp, hcp, hcid, hby⟩ := h.confirmed hr hid
      exact ⟨p, c, hp, hpast hpp, hpast hcp, hcid, hby⟩
    intro r id hr hid
    rcases World.commit_seen.mp hr with rfl | hr
    · have hkeep (hk : t.interaction.currentPreviewId = cur.currentPreviewId)
          (hk' : t.interaction.currentConfirmationId = cur.currentConfirmationId) :=
        hk ▸ hX ▸ hold hseen (hk'.symm.trans hid)
      cases hl.authorises with
      | preview p old hm hcurrent hconf => exact absurd (hconf.symm.trans hid) (by simp)
      | confirm p c hp hm hcurrent hk hconf happr hby =>
        exact ⟨p, c, hk.trans hcurrent, hpast (hX.symm ▸ hp), hmem hm,
          Option.some.inj (hconf.symm.trans hid), hby⟩
      | approve p a hp hm hcurrent hk hconfirmed hconf => exact hkeep hk hconf
      | keeps hk hconf => exact hkeep hk hconf
    · exact hold hr hid
  · -- the Approval of the record
    have hold : ∀ {r id}, w.Seen r → r.currentApprovalId = some id →
        ∃ (p : Preview) (a : Approval), r.currentPreviewId = some p.previewId ∧
          (w.commit db t.commit).Past r.interactionId (.preview p) ∧
          (w.commit db t.commit).Past r.interactionId (.approval a) ∧
          a.approvalId = id ∧ p.ApprovedBy (w.commit db t.commit) a := by
      intro r id hr hid
      obtain ⟨p, a, hp, hpp, hap, haid, hby⟩ := h.approved hr hid
      exact ⟨p, a, hp, hpast hpp, hpast hap, haid, happroved hby⟩
    intro r id hr hid
    rcases World.commit_seen.mp hr with rfl | hr
    · have hkeep (hk : t.interaction.currentPreviewId = cur.currentPreviewId)
          (hk' : t.interaction.currentApprovalId = cur.currentApprovalId) :=
        hk ▸ hX ▸ hold hseen (hk'.symm.trans hid)
      cases hl.authorises with
      | preview p old hm hcurrent hconf happr => exact absurd (happr.symm.trans hid) (by simp)
      | confirm p c hp hm hcurrent hk hconf happr => exact hkeep hk happr
      | approve p a hp hm hcurrent hk hconfirmed hconf happr hby =>
        exact ⟨p, a, hk.trans hcurrent, hpast (hX.symm ▸ hp), hmem hm,
          Option.some.inj (happr.symm.trans hid), happroved hby⟩
      | keeps hk hconf happr => exact hkeep hk happr
    · exact hold hr hid
  · -- an authorised record
    intro r hr hauth
    rcases World.commit_seen.mp hr with rfl | hr
    · cases hl.authorises with
      | preview p old hm hcurrent hconf happr hstate =>
        obtain ⟨hrc, hra⟩ := hstate hauth
        exact ⟨p, hcurrent, hmem hm, by simp [hrc, hra], by simp [hra]⟩
      | confirm p c hp hm hcurrent hk hconf happr hby hstate =>
        refine ⟨p, hk.trans hcurrent, hpast (hX.symm ▸ hp), fun _ => ?_, fun hra => ?_⟩
        · simp [Transition.commit, hconf]
        · exact absurd (hstate hauth) (by simp [hra])
      | approve p a hp hm hcurrent hk hconfirmed hconf happr hby =>
        refine ⟨p, hk.trans hcurrent, hpast (hX.symm ▸ hp), fun _ => ?_, fun _ => ?_⟩
        · simpa [Transition.commit, hconf] using hconfirmed
        · simp [Transition.commit, happr]
      | keeps hk hconf happr hstate => exact absurd hauth hstate
    · obtain ⟨p, hp, hpp, hconf, happr⟩ := h.authorised hr hauth
      exact ⟨p, hp, hpast hpp, hconf, happr⟩
  · -- the latest Preview
    intro hfresh r q hr hq
    have hfresh' := World.commit_portIdsFresh.mp hfresh
    rw [World.commit_db, hc.records, hX] at hr
    by_cases hid : r.interactionId = cur.interactionId
    · obtain rfl : t.interaction = r := by simpa [hid] using hr
      exact hl.latest h hfresh' hcur (hX ▸ hq)
    · rw [Function.update_of_ne hid] at hr
      rcases World.commit_past.mp hq with ⟨hX', -⟩ | hq
      · exact absurd (hX'.symm.trans hX) hid
      · obtain ⟨p, hp, hpp, hle⟩ := h.latest hfresh' hr hq
        exact ⟨p, hp, hpast hpp, hle⟩

end Commit

/-- A creation keeps the authorisation invariant. -/
theorem Authorisation.create {w : World} (h : Authorisation w) (hinv : Inv w) {a : CreateArgs}
    {r : Interaction} {id key digest : String} {now : Instant} {audit : AuditEvidence}
    (hshape : r = a.interaction r.scope id now) (hnew : w.db.records r.interactionId = none) :
    Authorisation (w.commit (w.db.created r audit key digest) (r.creation key digest)) := by
  have hpast : ∀ {X f}, (w.commit (w.db.created r audit key digest)
      (r.creation key digest)).Past X f ↔ w.Past X f := by
    simp [World.commit_past, Interaction.creation]
  have hseen : ∀ {s}, (w.commit (w.db.created r audit key digest) (r.creation key digest)).Seen s →
      s = r ∨ w.Seen s := World.commit_seen.mp
  have hnone : r.currentPreviewId = none ∧ r.currentConfirmationId = none ∧
      r.currentApprovalId = none ∧ r.lifecycleState = .requested := by
    rw [hshape]
    exact ⟨rfl, rfl, rfl, rfl⟩
  refine ⟨fun hp hq => h.sameTerms (hpast.mp hp) (hpast.mp hq),
    fun X Y x y hx hy => h.confirmation_once X Y x y (hpast.mp hx) (hpast.mp hy),
    fun X Y x y hx hy => h.approval_once X Y x y (hpast.mp hx) (hpast.mp hy), ?_, ?_, ?_, ?_⟩
  · intro s id hs hid
    rcases hseen hs with rfl | hs
    · simp [hnone] at hid
    · obtain ⟨p, c, hp, hpp, hcp, hcid, hby⟩ := h.confirmed hs hid
      exact ⟨p, c, hp, hpast.mpr hpp, hpast.mpr hcp, hcid, hby⟩
  · intro s id hs hid
    rcases hseen hs with rfl | hs
    · simp [hnone] at hid
    · obtain ⟨p, a, hp, hpp, hap, haid, hby⟩ := h.approved hs hid
      exact ⟨p, a, hp, hpast.mpr hpp, hpast.mpr hap, haid, hby.mono (by exact List.suffix_rfl)⟩
  · intro s hs hauth
    rcases hseen hs with rfl | hs
    · simp [hnone] at hauth
    · obtain ⟨p, hp, hpp, hrest⟩ := h.authorised hs hauth
      exact ⟨p, hp, hpast.mpr hpp, hrest⟩
  · intro hfresh s q hs hq
    by_cases hid : s.interactionId = r.interactionId
    · obtain ⟨c, hc, hX, -⟩ := hpast.mp hq
      obtain ⟨r', hr', -⟩ := hinv.current c hc
      simp [hX, hid, hnew] at hr'
    · simp only [World.commit_db, Database.created, Function.update_of_ne hid] at hs
      obtain ⟨p, hp, hpp, hle⟩ := h.latest (World.commit_portIdsFresh.mp hfresh) hs (hpast.mp hq)
      exact ⟨p, hp, hpast.mpr hpp, hle⟩

/-- **The authorisation invariant of every reachable configuration.** -/
theorem Reachable.authorisation {d : Deployment} {c : Calls} (h : Reachable d c) :
    Authorisation c.world := by
  refine h.aggregate ?_ (fun hc hj hcur hl hcm => hj.commit hc.inv hcur hl hcm)
    (fun hc hj hshape hnew _ => hj.create hc.inv hshape hnew) ?_
  · refine ⟨?_, ?_, ?_, ?_, ?_, ?_, ?_⟩ <;>
      simp [World.WrittenOnce, World.Past, World.Seen, World.initial, Database.empty]
  · intro w w' hj hs
    refine ⟨?_, ?_, ?_, ?_, ?_, ?_, ?_⟩
    · simp only [hs.past]
      exact hj.sameTerms
    · simpa only [World.WrittenOnce, hs.past] using hj.confirmation_once
    · simpa only [World.WrittenOnce, hs.past] using hj.approval_once
    · simp only [hs.past, hs.seen]
      exact hj.confirmed
    · intro r id hr hid
      obtain ⟨p, a, hp, hpp, hap, haid, hby⟩ := hj.approved (hs.seen.mp hr) hid
      exact ⟨p, a, hp, hs.past.mpr hpp, hs.past.mpr hap, haid, hby.mono hs.authorised⟩
    · simp only [hs.past, hs.seen]
      exact hj.authorised
    · simp only [World.NamesLatest, hs.past, hs.records]
      exact fun hf => hj.latest (hs.portIdsFresh hf)

end Interactions

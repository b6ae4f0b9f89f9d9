import AiLabOs.Interaction.Steps

/-!
# Trusted interactions: the operations are safe

Every operation commits legal transitions only, sends granted execution requests only, and keeps
what the others rely on, whatever happens between its awaits.

## Main results

* `createInteraction_keeps`, `preview_keeps`, `confirm_keeps`, `approve_keeps`, `cancel_keeps`,
  `expirePreview_keeps`: the operations before the execution
-/

namespace Interactions

open Process

section Operations

variable {sha : Sha256} {i : ℕ} {log : Log Action Action.Reply} {w : World}

theorem createInteraction_keeps (a : CreateArgs) :
    Keeps (pre sha) i (fun _ _ _ => True) (createInteraction sha a) log w := by
  have hr := readsFree_pre sha
  unfold createInteraction
  refine keeps_scopeOf ?_
  refine keeps_failIf fun _ => ?_
  refine keeps_failIf fun _ => ?_
  refine keeps_now hr fun now w₁ _ => ?_
  refine keeps_newId_any hr fun id w₂ _ => ?_
  refine keeps_audit hr fun line w₃ _ _ _ _ => ?_
  refine Safe.perform fun w₄ _ _ => ⟨⟨a, id, now, rfl, rfl, rfl⟩, fun _ r _ _ => ?_⟩
  rcases r with (_ | _) | _
  · exact keeps_fail
  · exact keeps_raise
  · exact Safe.ret trivial

theorem preview_keeps (a : PreviewArgs) :
    Keeps (pre sha) i (fun _ _ _ => True) (preview sha a) log w := by
  have hr := readsFree_pre sha
  unfold preview
  refine keeps_scopeOf ?_
  refine keeps_idempotent hr (fun w₁ _ _ _ _ _ => ?_) fun row w₁ _ _ _ _ _ => ?_
  · refine keeps_require hr fun cur w₂ _ _ _ _ hseen hid _ _ => ?_
    refine keeps_failIf fun hactor => ?_
    refine keeps_failIf fun hrev => ?_
    refine keeps_failIf fun hstate => ?_
    refine keeps_now hr fun now w₃ h₃ => ?_
    refine keeps_failIf fun _ => ?_
    refine keeps_fact hr fun old w₄ h₄ hinv hold hload => ?_
    refine keeps_newId .preview hr fun previewId w₅ h₅ hown _ => ?_
    refine keeps_audit hr fun resolving w₆ _ _ h₆ _ => ?_
    refine keeps_audit hr fun resolved w₇ _ _ h₇ _ => ?_
    refine keeps_audit hr fun previewed w₈ _ _ h₈ _ => ?_
    refine keeps_audit hr fun final w₉ _ _ h₉ _ => ?_
    have h₅₉ := h₆.trans (h₇.trans (h₈.trans h₉))
    have hseen₄ := (h₃.trans h₄).seen hseen
    rw [← hid] at hold hload
    refine keeps_transition ((h₅.trans h₅₉).seen hseen₄) rfl rfl (fun w' hw _ _ => ?_)
      fun _ _ _ _ _ _ _ _ _ => Safe.ret trivial
    have h₄' := h₅.trans (h₅₉.trans hw)
    refine .preview a old previewId now _ hid.symm (not_not.mp hactor) (not_not.mp hrev)
      (not_not.mp hstate) (h₄'.loaded hload) (fun hnone hfresh => ?_) ((h₅₉.trans hw).own hown)
    exact hinv.preview_none (h₄'.portIdsFresh hfresh) hseen₄ (hold ▸ hnone)
  · refine keeps_fact hr fun stored w₂ _ _ _ _ => ?_
    cases stored with
    | none => exact keeps_raise
    | some p => exact Safe.ret trivial

/-- A confirmation that consumes trusted evidence consumes it for the Preview it confirms. -/
def ConfirmArgs.Consistent (a : ConfirmArgs) : Prop :=
  ∀ c, a.consumption = some c → c.previewId = a.previewId ∧ c.previewRevision = a.previewRevision

theorem confirm_keeps (a : ConfirmArgs) (ha : a.Consistent) :
    Keeps (pre sha) i (fun _ _ _ => True) (confirm sha a) log w := by
  have hr := readsFree_pre sha
  unfold confirm
  refine keeps_scopeOf ?_
  refine keeps_idempotent hr (fun w₁ _ _ _ _ _ => ?_) fun row w₁ _ _ _ _ _ => ?_
  · refine keeps_require hr fun cur w₂ _ _ _ _ hseen hid hscope _ => ?_
    refine keeps_failIf fun hrev => ?_
    refine keeps_failIf fun hstate => ?_
    refine keeps_fact hr fun loaded w₃ h₃ _ _ hload => ?_
    refine keeps_now hr fun now w₄ h₄ => ?_
    cases loaded with
    | none => exact keeps_fail
    | some preview =>
      refine keeps_failIf fun hstale => ?_
      refine keeps_failIf fun hactor => ?_
      refine keeps_failIf fun hlive => ?_
      refine keeps_failIf fun _ => ?_
      refine keeps_newId .confirmation hr fun confirmationId w₅ h₅ hown _ => ?_
      refine keeps_audit hr fun line w₆ _ _ h₆ _ => ?_
      simp only [not_or, not_not] at hstale hactor
      obtain ⟨hpast, hpid⟩ := hload preview rfl
      have hpid : a.previewId = preview.previewId := Option.some.inj hpid
      rw [← hid] at hpast
      rw [← hscope]
      have h₃₆ := h₄.trans (h₅.trans h₆)
      refine keeps_transition ((h₃.trans h₃₆).seen hseen) rfl rfl (fun w' hw _ _ => ?_)
        fun _ _ _ _ _ _ _ _ _ => Safe.ret trivial
      refine .confirm a preview confirmationId now _ hid.symm (not_not.mp hrev)
        (not_not.mp hstate) ((h₃₆.trans hw).past hpast) hpid hstale.2.1 hstale.2.2.symm hactor.1
        (Int.not_le.mp hlive) (fun c hc => ?_) ((h₆.trans hw).own hown)
      obtain ⟨hcid, hcrev⟩ := ha c hc
      exact ⟨hcid.trans hpid, hcrev.trans hstale.2.1.symm⟩
  · refine keeps_fact hr fun stored w₂ _ _ _ _ => ?_
    cases stored with
    | none => exact keeps_raise
    | some p => exact Safe.ret trivial

/-- The authority's answer and the commit of an approval. -/
theorem grantApproval_keeps (a : ApproveArgs) {cur : Interaction} {preview : Preview}
    {confirmation : Confirmation} {now : Instant} (hseen : w.Seen cur)
    (hid : a.interactionId = cur.interactionId) (hrev : cur.revision = a.expectedRevision)
    (hstate : cur.lifecycleState = .awaitingConfirmation)
    (hpast : w.Past cur.interactionId (.preview preview))
    (hpid : a.previewId = preview.previewId)
    (hprev : preview.previewRevision = a.previewRevision)
    (hcurrent : cur.currentPreviewId = some preview.previewId)
    (hneeds : preview.requiresApproval = true)
    (hconfirmation : w.Past cur.interactionId (.confirmation confirmation))
    (hconfirmed : cur.currentConfirmationId = some confirmation.confirmationId) :
    Keeps (pre sha) i (fun _ _ _ => True)
      (grantApproval a (sha.hexdigest (approvePayload sha a)) cur preview now) log w := by
  have hr := readsFree_pre sha
  unfold grantApproval
  refine keeps_authorize hr fun answer w₁ h₁ hgrant => ?_
  rcases answer with _ | _ | authority
  · exact keeps_fail
  · exact keeps_fail
  · refine keeps_failIf fun hmatch => ?_
    refine keeps_newId .approval hr fun approvalId w₂ h₂ hown _ => ?_
    refine keeps_audit hr fun line w₃ _ _ h₃ _ => ?_
    refine keeps_transition ((h₁.trans (h₂.trans h₃)).seen hseen) rfl rfl (fun w' hw _ _ => ?_)
      fun _ _ _ _ _ _ _ _ _ => Safe.ret trivial
    have h₁' := h₂.trans (h₃.trans hw)
    have h' := h₁.trans h₁'
    exact .approve a preview confirmation authority approvalId now _ hid hrev hstate
      (h'.past hpast) hpid hprev hcurrent hneeds (h'.past hconfirmation) hconfirmed
      (h₁'.authorised.mem (hgrant authority rfl)) (not_not.mp hmatch) ((h₃.trans hw).own hown)

theorem approve_keeps (a : ApproveArgs) :
    Keeps (pre sha) i (fun _ _ _ => True) (approve sha a) log w := by
  have hr := readsFree_pre sha
  unfold approve
  refine keeps_scopeOf ?_
  refine keeps_idempotent hr (fun w₁ _ _ _ _ _ => ?_) fun row w₁ _ _ _ _ _ => ?_
  · refine keeps_require hr fun cur w₂ _ _ _ _ hseen hid _ _ => ?_
    refine keeps_failIf fun hrev => ?_
    refine keeps_failIf fun hstate => ?_
    refine keeps_fact hr fun loaded w₃ h₃ _ _ hload => ?_
    refine keeps_fact hr fun confirmation w₄ h₄ _ _ hloadc => ?_
    refine keeps_now hr fun now w₅ h₅ => ?_
    rcases loaded with _ | preview
    · exact keeps_fail
    rcases confirmation with _ | confirmation
    · exact keeps_fail
    refine keeps_failIf fun hconflict => ?_
    refine keeps_failIf fun _ => ?_
    refine keeps_failIf fun _ => ?_
    simp only [not_or, not_not] at hconflict hstate
    obtain ⟨hpast, hpid⟩ := hload preview rfl
    obtain ⟨hpastc, hcid⟩ := hloadc confirmation rfl
    rw [← hid] at hpast hpastc
    have h₃₅ := h₄.trans h₅
    exact grantApproval_keeps a ((h₃.trans h₃₅).seen hseen) hid.symm (not_not.mp hrev) hstate.1
      (h₃₅.past hpast) (Option.some.inj hpid) hconflict.2.2.1 hconflict.2.1.symm
      (by simpa using hconflict.1) (h₅.past hpastc) hcid
  · refine keeps_fact hr fun stored w₂ _ _ _ _ => ?_
    cases stored with
    | none => exact keeps_raise
    | some p => exact Safe.ret trivial

theorem cancel_keeps (a : RevisionArgs) :
    Keeps (pre sha) i (fun _ _ _ => True) (cancel sha a) log w := by
  have hr := readsFree_pre sha
  unfold cancel
  refine keeps_scopeOf ?_
  refine keeps_idempotent hr (fun w₁ _ _ _ _ _ => ?_) fun row w₁ _ _ _ _ _ => Safe.ret trivial
  refine keeps_require hr fun cur w₂ _ _ _ _ hseen hid _ _ => ?_
  refine keeps_failIf fun hrev => ?_
  refine keeps_failIf fun hterminal => ?_
  refine keeps_failIf fun hstate => ?_
  refine keeps_now hr fun now w₃ h₃ => ?_
  refine keeps_fact hr fun preview w₄ h₄ _ _ hload => ?_
  refine keeps_audit hr fun line w₅ _ _ h₅ _ => ?_
  rw [← hid] at hload
  refine keeps_transition ((h₃.trans (h₄.trans h₅)).seen hseen) rfl rfl (fun w' hw _ _ => ?_)
    fun _ _ _ _ _ _ _ _ _ => Safe.ret trivial
  exact .cancel a preview now _ hid.symm (not_not.mp hrev) (by simpa using hterminal)
    (not_or.mp hstate).1 ((h₅.trans hw).loaded hload)

theorem expirePreview_keeps (a : RevisionArgs) :
    Keeps (pre sha) i (fun _ _ _ => True) (expirePreview sha a) log w := by
  have hr := readsFree_pre sha
  unfold expirePreview
  refine keeps_scopeOf ?_
  refine keeps_idempotent hr (fun w₁ _ _ _ _ _ => ?_) fun row w₁ _ _ _ _ _ => Safe.ret trivial
  refine keeps_require hr fun cur w₂ _ _ _ _ hseen hid _ _ => ?_
  refine keeps_failIf fun hrev => ?_
  refine keeps_failIf fun hstate => ?_
  refine keeps_fact hr fun loaded w₃ h₃ _ _ hload => ?_
  refine keeps_now hr fun now w₄ h₄ => ?_
  cases loaded with
  | none => exact keeps_fail
  | some preview =>
    refine keeps_failIf fun hexpired => ?_
    refine keeps_audit hr fun line w₅ _ _ h₅ _ => ?_
    obtain ⟨hpast, -⟩ := hload preview rfl
    rw [← hid] at hpast
    have h₃₅ := h₄.trans h₅
    refine keeps_transition ((h₃.trans h₃₅).seen hseen) rfl rfl (fun w' hw _ _ => ?_)
      fun _ _ _ _ _ _ _ _ _ => Safe.ret trivial
    exact .expire a preview now _ hid.symm (not_not.mp hrev) (not_not.mp hstate)
      ((h₃₅.trans hw).past hpast) (Int.not_lt.mp hexpired)

end Operations

end Interactions

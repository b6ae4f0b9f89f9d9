import AiLabOs.Inbox.Service
import AiLabOs.Process.Frames

/-!
# Inbox: items and claims stay consistent

Every transaction keeps an item and its claim in step: a claim is completed together with its item,
and neither is touched afterwards. This holds of calls of the service and of calls of the
repository's methods for claims that go past it, in any order.

## Main definitions

* `Database.Sound`: the joint invariant of the tables
* `Database.Later`: what all transactions keep of the rows
* `Method`, `startAny`: calls of the service and of the repository

## Main results

* `Database.Move.sound`, `Database.Move.later`: what one transaction keeps
* `items_and_claims_consistent`
-/

namespace Inbox

open Process

namespace Database

/-! ## Rows by identifier -/

section Rows

variable {db : Database} {itemId : String} {row : InboxItem}

theorem item_id (h : db.item itemId = some row) : row.id = itemId := by
  simpa using List.find?_some h

theorem item_mem (h : db.item itemId = some row) : row ∈ db.items := List.mem_of_find?_eq_some h

theorem item_save {item : InboxItem} (hnew : ∀ row ∈ db.items, row.id ≠ item.id) (k : String) :
    Database.item { db with items := db.items ++ [item] } k =
      if k = item.id then some item else db.item k := by
  unfold Database.item
  rw [List.find?_append]
  by_cases hk : k = item.id
  · have hnone : db.items.find? (fun row => row.id = k) = none :=
      List.find?_eq_none.mpr fun row hrow => by simpa [hk] using hnew row hrow
    rw [hnone, if_pos hk]
    simp [hk]
  · rw [if_neg hk]
    simp [Ne.symm hk]

/-- The row that is completed, and the others. -/
theorem item_update {updated : InboxItem} {claims : String → Option InboxResolutionClaim}
    (hrow : db.item row.id = some row) (hpending : row.status = .pending)
    (hid : updated.id = row.id) (k : String) :
    item ⟨Table.update (matching row.workspace row.id row.revision)
      (fun row => { updated with id := row.id }) db.items, claims⟩ k =
      if k = row.id then some updated else db.item k := by
  have hfind := @Table.find?_update InboxItem String _ InboxItem.id db.items
    (matching row.workspace row.id row.revision) (fun row => { updated with id := row.id })
    (fun _ => rfl) k
  unfold Database.item at hrow ⊢
  rw [hfind]
  by_cases hk : k = row.id
  · subst hk
    rw [hrow, if_pos rfl, Option.map_some, if_pos (by simp [matching, hpending]), ← hid]
  · rw [if_neg hk]
    cases hother : db.items.find? fun row => row.id = k with
    | none => rfl
    | some other =>
      have hkey : other.id = k := by simpa using List.find?_some hother
      rw [Option.map_some, if_neg]
      simp [matching, hkey, hk]

end Rows

/-! ## The invariant -/

/-- A resolution that is completed: the item says what its claim says. -/
structure Settled (item : InboxItem) (claim : InboxResolutionClaim) : Prop where
  state : claim.state = .completed
  status : item.status = finalStatus claim.resolvedType
  type : item.resolvedType = some claim.resolvedType
  target : item.resolvedTargetId = claim.targetId

/-- **The joint invariant of the tables.** -/
structure Sound (db : Database) : Prop where
  unique : Table.Unique InboxItem.id db.items
  readable : db.Readable
  /-- A claim is of an item of its workspace. -/
  claimed : ∀ itemId claim, db.claims itemId = some claim → claim.inboxItemId = itemId ∧
    ∃ item, db.item itemId = some item ∧ item.workspace = claim.workspace
  /-- A pending item has no completed claim. -/
  pending : ∀ itemId item claim, db.item itemId = some item → item.status = .pending →
    db.claims itemId = some claim → claim.state ≠ .completed
  /-- Another item has a claim that is completed with it. -/
  settled : ∀ itemId item, db.item itemId = some item → item.status ≠ .pending →
    ∃ claim, db.claims itemId = some claim ∧ Settled item claim

end Database

/-! ## What becomes of a row -/

/-- **A claim later on**: what it was made for stays. Once its target is recorded that stays, and
once it is completed all of it does. -/
structure InboxResolutionClaim.Later (claim claim' : InboxResolutionClaim) : Prop where
  itemId : claim'.inboxItemId = claim.inboxItemId
  workspace : claim'.workspace = claim.workspace
  type : claim'.resolvedType = claim.resolvedType
  key : claim'.targetKey = claim.targetKey
  createdAt : claim'.createdAt = claim.createdAt
  advanced : claim.state ≠ .claimed → claim'.state ≠ .claimed
  target : claim.state ≠ .claimed → claim'.targetId = claim.targetId
  completed : claim.state = .completed → claim' = claim

/-- **An item later on**: once it is resolved or dismissed all of it stays. -/
structure InboxItem.Later (item item' : InboxItem) : Prop where
  workspace : item'.workspace = item.workspace
  content : item'.content = item.content
  source : item'.source = item.source
  createdAt : item'.createdAt = item.createdAt
  final : item.status ≠ .pending → item' = item

theorem InboxResolutionClaim.Later.refl (claim : InboxResolutionClaim) : claim.Later claim :=
  ⟨rfl, rfl, rfl, rfl, rfl, id, fun _ => rfl, fun _ => rfl⟩

theorem InboxItem.Later.refl (item : InboxItem) : item.Later item :=
  ⟨rfl, rfl, rfl, rfl, fun _ => rfl⟩

theorem InboxResolutionClaim.Later.trans {a b c : InboxResolutionClaim} (h : a.Later b)
    (h' : b.Later c) : a.Later c where
  itemId := h'.itemId.trans h.itemId
  workspace := h'.workspace.trans h.workspace
  type := h'.type.trans h.type
  key := h'.key.trans h.key
  createdAt := h'.createdAt.trans h.createdAt
  advanced hstate := h'.advanced (h.advanced hstate)
  target hstate := (h'.target (h.advanced hstate)).trans (h.target hstate)
  completed hstate := by
    have hab := h.completed hstate
    subst hab
    exact h'.completed hstate

theorem InboxItem.Later.trans {a b c : InboxItem} (h : a.Later b) (h' : b.Later c) :
    a.Later c where
  workspace := h'.workspace.trans h.workspace
  content := h'.content.trans h.content
  source := h'.source.trans h.source
  createdAt := h'.createdAt.trans h.createdAt
  final hstatus := by
    have hab := h.final hstatus
    subst hab
    exact h'.final hstatus

namespace Database

/-- **The tables later on**: every row is there, and has become what it can become. -/
structure Later (db db' : Database) : Prop where
  items : ∀ itemId item, db.item itemId = some item →
    ∃ item', db'.item itemId = some item' ∧ item.Later item'
  claims : ∀ itemId claim, db.claims itemId = some claim →
    ∃ claim', db'.claims itemId = some claim' ∧ claim.Later claim'

theorem Later.refl (db : Database) : db.Later db :=
  ⟨fun _ item h => ⟨item, h, .refl item⟩, fun _ claim h => ⟨claim, h, .refl claim⟩⟩

theorem Later.trans {a b c : Database} (h : a.Later b) (h' : b.Later c) : a.Later c where
  items itemId item hitem := by
    obtain ⟨item', hitem', hlater⟩ := h.items itemId item hitem
    obtain ⟨item'', hitem'', hlater'⟩ := h'.items itemId item' hitem'
    exact ⟨item'', hitem'', hlater.trans hlater'⟩
  claims itemId claim hclaim := by
    obtain ⟨claim', hclaim', hlater⟩ := h.claims itemId claim hclaim
    obtain ⟨claim'', hclaim'', hlater'⟩ := h'.claims itemId claim' hclaim'
    exact ⟨claim'', hclaim'', hlater.trans hlater'⟩

/-- A change of one claim. -/
theorem Later.claim {db : Database} {itemId : String} {claim claim' : InboxResolutionClaim}
    (hclaim : db.claims itemId = some claim) (h : claim.Later claim') :
    db.Later { db with claims := Function.update db.claims itemId (some claim') } where
  items _ item hitem := ⟨item, hitem, .refl item⟩
  claims k other hother := by
    by_cases hk : k = itemId
    · subst hk
      obtain rfl : claim = other := Option.some.inj (hclaim.symm.trans hother)
      exact ⟨claim', Function.update_self .., h⟩
    · exact ⟨other, (Function.update_of_ne hk ..).trans hother, .refl other⟩

theorem sound_empty : Sound empty where
  unique := List.nodup_nil
  readable row hrow := by simp [empty] at hrow
  claimed itemId claim h := by simp [empty] at h
  pending itemId item claim h := by simp [Database.item, empty] at h
  settled itemId item h := by simp [Database.item, empty] at h

section Moves

variable {db db' : Database}

/-- **What a transaction keeps of the rows.** -/
theorem Move.later (h : db.Move db') (hs : db.Sound) : db.Later db' := by
  cases h with
  | same => exact .refl db
  | save item hnew hvalid hpending =>
    refine ⟨fun k other hother => ?_, fun _ claim hclaim => ⟨claim, hclaim, .refl claim⟩⟩
    refine ⟨other, ?_, .refl other⟩
    rw [item_save hnew, if_neg, hother]
    rintro rfl
    exact hnew other (item_mem hother) (item_id hother)
  | claim row ty key target now hrow hpending hnone hvalid =>
    refine ⟨fun k item hitem => ⟨item, hitem, .refl item⟩, fun k claim hclaim => ?_⟩
    have hk : k ≠ row.id := by
      rintro rfl
      rw [hnone] at hclaim
      cases hclaim
    exact ⟨claim, (Function.update_of_ne hk ..).trans hclaim, .refl claim⟩
  | target itemId target claim now hclaim hvalid hstate =>
    refine .claim hclaim ⟨rfl, rfl, rfl, rfl, rfl, ?_, ?_, ?_⟩
    · exact fun h => absurd hstate h
    · exact fun h => absurd hstate h
    · exact fun h => by rw [hstate] at h; cases h
  | complete row updated claim now hrow hclaim hvalid hready hpending hupdated hreadable =>
    have hid : updated.id = row.id := by rw [hupdated]; rfl
    have hstate := hs.pending _ _ _ hrow hpending hclaim
    rw [if_neg hstate]
    have hlater : claim.Later (completedClaim claim now) :=
      ⟨rfl, rfl, rfl, rfl, rfl, fun _ => nofun, fun _ => rfl, fun h => absurd h hstate⟩
    have hclaims := Later.claim hclaim hlater
    refine ⟨fun k item hitem => ?_, hclaims.claims⟩
    rw [item_update hrow hpending hid]
    by_cases hk : k = row.id
    · subst hk
      obtain rfl : row = item := Option.some.inj (hrow.symm.trans hitem)
      refine ⟨updated, if_pos rfl, ?_⟩
      rw [hupdated]
      exact ⟨rfl, rfl, rfl, rfl, fun h => absurd hpending h⟩
    · exact ⟨item, by rw [if_neg hk, hitem], .refl item⟩
  | settle row claim now hrow hclaim hvalid hstate hdone =>
    refine .claim hclaim ⟨rfl, rfl, rfl, rfl, rfl, fun _ => nofun, fun _ => rfl, ?_⟩
    exact fun h => absurd h hstate

/-- A claim of a pending item that is not completed may be put in the place of another. -/
theorem Sound.setClaim (hs : db.Sound) {item : InboxItem} {claim : InboxResolutionClaim}
    (hitem : db.item item.id = some item) (hpending : item.status = .pending)
    (hid : claim.inboxItemId = item.id) (hscope : item.workspace = claim.workspace)
    (hstate : claim.state ≠ .completed) :
    Sound { db with claims := Function.update db.claims item.id (some claim) } where
  unique := hs.unique
  readable := hs.readable
  claimed k other hother := by
    by_cases hk : k = item.id
    · subst hk
      obtain rfl : claim = other := by simpa using hother
      exact ⟨hid, item, hitem, hscope⟩
    · exact hs.claimed k other ((Function.update_of_ne hk ..).symm.trans hother)
  pending k other claim' hother hstatus hclaim := by
    by_cases hk : k = item.id
    · subst hk
      obtain rfl : claim = claim' := by simpa using hclaim
      exact hstate
    · have hclaim := (Function.update_of_ne hk ..).symm.trans hclaim
      exact hs.pending k other claim' hother hstatus hclaim
  settled k other hother hstatus := by
    have hk : k ≠ item.id := by
      rintro rfl
      obtain rfl : item = other := Option.some.inj (hitem.symm.trans hother)
      exact hstatus hpending
    obtain ⟨claim', hclaim, hsettled⟩ := hs.settled k other hother hstatus
    exact ⟨claim', (Function.update_of_ne hk ..).trans hclaim, hsettled⟩

/-- A claim that is not completed is of a pending item. -/
theorem Sound.unsettled (hs : db.Sound) {itemId : String} {claim : InboxResolutionClaim}
    (hclaim : db.claims itemId = some claim) (hstate : claim.state ≠ .completed) :
    ∃ item, db.item itemId = some item ∧ item.id = itemId ∧ item.workspace = claim.workspace ∧
      item.status = .pending := by
  obtain ⟨-, item, hitem, hscope⟩ := hs.claimed itemId claim hclaim
  refine ⟨item, hitem, item_id hitem, hscope, by_contra fun hstatus => ?_⟩
  obtain ⟨claim', hclaim', hsettled⟩ := hs.settled itemId item hitem hstatus
  obtain rfl : claim = claim' := Option.some.inj (hclaim.symm.trans hclaim')
  exact hstate hsettled.state

/-- **What a transaction keeps of the invariant.** -/
theorem Move.sound (h : db.Move db') (hs : db.Sound) : db'.Sound := by
  cases h with
  | same => exact hs
  | save item hnew hvalid hpending =>
    have hitem := item_save hnew
    refine ⟨hs.unique.insert hnew, ?_, ?_, ?_, ?_⟩
    · intro row hrow
      rcases List.mem_append.mp hrow with hrow | hrow
      · exact hs.readable row hrow
      · exact List.mem_singleton.mp hrow ▸ hvalid
    · intro k claim hclaim
      obtain ⟨hid, other, hother, hscope⟩ := hs.claimed k claim hclaim
      refine ⟨hid, other, ?_, hscope⟩
      rw [hitem, if_neg, hother]
      rintro rfl
      exact hnew other (item_mem hother) (item_id hother)
    · intro k other claim hother hstatus hclaim
      rw [hitem] at hother
      by_cases hk : k = item.id
      · -- an item that was not there has no claim
        obtain ⟨-, row, hrow, -⟩ := hs.claimed k claim hclaim
        exact absurd ((item_id hrow).trans hk) (hnew row (item_mem hrow))
      · rw [if_neg hk] at hother
        exact hs.pending k other claim hother hstatus hclaim
    · intro k other hother hstatus
      rw [hitem] at hother
      by_cases hk : k = item.id
      · rw [if_pos hk] at hother
        obtain rfl := Option.some.inj hother
        exact absurd hpending hstatus
      · rw [if_neg hk] at hother
        exact hs.settled k other hother hstatus
  | claim row ty key target now hrow hpending hnone hvalid =>
    exact hs.setClaim hrow hpending rfl rfl nofun
  | target itemId target claim now hclaim hvalid hstate =>
    obtain ⟨item, hitem, rfl, hscope, hpending⟩ :=
      hs.unsettled hclaim fun h => by rw [hstate] at h; cases h
    exact hs.setClaim hitem hpending (hs.claimed _ claim hclaim).1 hscope nofun
  | complete row updated claim now hrow hclaim hvalid hready hpending hupdated hreadable =>
    have hid : updated.id = row.id := by rw [hupdated]; rfl
    have hitem := fun claims => @item_update _ _ updated claims hrow hpending hid
    have hstate := hs.pending _ _ _ hrow hpending hclaim
    obtain ⟨hclaimId, other, hother, hscope⟩ := hs.claimed _ claim hclaim
    obtain rfl : row = other := Option.some.inj (hrow.symm.trans hother)
    rw [if_neg hstate]
    refine ⟨hs.unique.update fun _ => rfl, ?_, ?_, ?_, ?_⟩
    · intro other hother
      obtain ⟨old, hold, rfl⟩ := Table.mem_update.mp hother
      split
      · rename_i hmatch
        have hkey : old.id = row.id := by
          simp only [matching, Bool.and_eq_true, decide_eq_true_eq] at hmatch
          exact hmatch.1.1.1
        rw [hkey, ← hid]
        exact hreadable
      · exact hs.readable old hold
    · intro k claim' hclaim'
      rw [hitem]
      by_cases hk : k = row.id
      · subst hk
        obtain rfl : completedClaim claim now = claim' := by simpa using hclaim'
        exact ⟨hclaimId, updated, if_pos rfl, by rw [hupdated]; exact hscope⟩
      · rw [if_neg hk]
        exact hs.claimed k claim' ((Function.update_of_ne hk ..).symm.trans hclaim')
    · intro k other claim' hother hstatus hclaim'
      rw [hitem] at hother
      by_cases hk : k = row.id
      · rw [if_pos hk] at hother
        obtain rfl := Option.some.inj hother
        rw [hupdated] at hstatus
        revert hstatus
        simp only [completedItem, finalStatus]
        split <;> nofun
      · rw [if_neg hk] at hother
        have hclaim' := (Function.update_of_ne hk ..).symm.trans hclaim'
        exact hs.pending k other claim' hother hstatus hclaim'
    · intro k other hother hstatus
      rw [hitem] at hother
      by_cases hk : k = row.id
      · subst hk
        rw [if_pos rfl] at hother
        obtain rfl := Option.some.inj hother
        refine ⟨completedClaim claim now, Function.update_self .., rfl, ?_, ?_, ?_⟩ <;>
          rw [hupdated] <;> rfl
      · rw [if_neg hk] at hother
        obtain ⟨claim', hclaim', hsettled⟩ := hs.settled k other hother hstatus
        exact ⟨claim', (Function.update_of_ne hk ..).trans hclaim', hsettled⟩
  | settle row claim now hrow hclaim hvalid hstate hdone =>
    obtain ⟨item, hitem, -, -, hpending⟩ := hs.unsettled hclaim hstate
    obtain rfl : row = item := Option.some.inj (hrow.symm.trans hitem)
    rw [hpending] at hdone
    revert hdone
    simp only [finalStatus]
    split <;> simp

end Moves

end Database

/-! ## Calls -/

/-- What is saved is a pending item that is read back as it is. -/
def SavesValid : Action → Prop
  | .save item => item.Valid ∧ item.status = .pending
  | _ => True

section Programs

variable {env : Environment} {workspaceKey : WorkspaceKey} {itemId : String}

theorem clockNow_saves : clockNow.All SavesValid := .perform trivial

theorem get_saves : (get workspaceKey itemId).All SavesValid := by
  refine .bind (.perform trivial) fun reply => ?_
  split <;> trivial

theorem resolutionClaim_saves : (resolutionClaim workspaceKey itemId).All SavesValid := by
  refine .bind (.perform trivial) fun reply => ?_
  split <;> trivial

theorem failed_saves {a : ResolveArgs} {claim : InboxResolutionClaim} {exn : Exn} :
    (failed a claim exn).All SavesValid := by
  have hconflict : ∀ f : InboxResolutionClaim → Prog InboxItem, (∀ c, (f c).All SavesValid) →
      (resolutionClaim a.workspaceKey a.itemId >>= f).All SavesValid :=
    fun f hf => .bind resolutionClaim_saves hf
  unfold failed
  split
  · split <;> trivial
  · exact hconflict _ fun c => by split <;> trivial
  · exact hconflict _ fun c => by split <;> trivial
  · trivial
  · trivial
  · trivial
  · trivial

theorem finish_saves {a : ResolveArgs} {claim : InboxResolutionClaim} :
    (finish a claim).All SavesValid := by
  refine .bind clockNow_saves fun now => .bind (.perform trivial) fun reply => ?_
  split
  · trivial
  · exact failed_saves

theorem record_saves {a : ResolveArgs} {claim : InboxResolutionClaim} {targetId : String} :
    (record a claim targetId).All SavesValid := by
  refine .bind clockNow_saves fun now => .bind (.perform trivial) fun reply => ?_
  split
  · exact finish_saves
  · exact failed_saves

/-- The saga saves what the creation of its target saves. -/
theorem resolve_saves {a : ResolveArgs} {createTarget : Option CreateTarget}
    (hcreate : ∀ create ∈ createTarget, ∀ item claim, (create item claim).All SavesValid) :
    (resolve a createTarget).All SavesValid := by
  refine .bind clockNow_saves fun now => .bind (.perform trivial) fun reply => ?_
  split
  · unfold resolveClaimed
    split
    · trivial
    · split
      · exact .bind get_saves fun item => by split <;> trivial
      · refine .bind get_saves fun item => ?_
        split
        · exact .bind resolutionClaim_saves fun c => trivial
        · refine .bind (.perform trivial) fun reply => ?_
          split
          · exact failed_saves
          · split
            · exact finish_saves
            · rename_i create
              split
              · refine .bind (.tryCatch (.bind (hcreate create rfl _ _) fun _ => trivial)
                  fun _ => trivial) fun result => ?_
                split
                · exact record_saves
                · exact failed_saves
              · exact finish_saves
  · trivial
  · trivial
  · exact .bind get_saves fun item => trivial
  · trivial

theorem createOrFetch_saves {draft : TargetDraft} {id : String} {own : Target → Bool}
    {foreign : Target → Exn → Exn} :
    (createOrFetch draft workspaceKey id own foreign).All SavesValid := by
  refine .bind (.perform trivial) fun reply => ?_
  split
  · trivial
  · split
    · trivial
    · refine .bind (.perform trivial) fun found => .bind ?_ fun existing => ?_
      · cases found <;> trivial
      · split <;> trivial
  · trivial

theorem claimedKey_saves {claim : InboxResolutionClaim} {missing : String} :
    (claimedKey claim missing).All SavesValid := by
  unfold claimedKey
  split
  · split <;> trivial
  · trivial

theorem orRaise_saves {α : Type} {reply : Except Exn α} : (orRaise reply).All SavesValid := by
  cases reply <;> trivial

/-- **Every call of the service** saves pending items only. -/
theorem start_saves (k : Request) : (start env k).All SavesValid := by
  cases k with
  | capture workspaceKey content source metadata suggestedType =>
    refine .bind clockNow_saves fun now => .bind (.perform trivial) fun id => ?_
    dsimp only
    split
    · trivial
    · rename_i item hitem
      have hsame := (validateItem_iff.mp hitem).2.2.2.2.2.2.2.2
      refine .bind (.perform ⟨validateItem_valid hitem, ?_⟩) fun reply => ?_
      · rw [hsame]
      · split <;> trivial
  | toTask workspaceKey itemId payload =>
    refine resolve_saves fun create hcreate item claim => ?_
    obtain rfl := Option.some.inj hcreate
    unfold createTask
    split
    · trivial
    · exact .bind claimedKey_saves fun _ => .bind clockNow_saves fun _ => createOrFetch_saves
  | toReminder workspaceKey itemId payload =>
    refine resolve_saves fun create hcreate item claim => ?_
    obtain rfl := Option.some.inj hcreate
    unfold createReminder
    split
    · trivial
    · exact .bind (.perform trivial) fun _ => orRaise_saves
  | toWorkLog workspaceKey itemId title description =>
    refine resolve_saves fun create hcreate item claim => ?_
    obtain rfl := Option.some.inj hcreate
    unfold createWorkLog
    split
    · trivial
    · exact .bind claimedKey_saves fun _ => .bind (.perform trivial) fun _ =>
        .bind orRaise_saves fun _ => trivial
  | toWaitingFor workspaceKey itemId payload =>
    change (resolveToWaitingFor env workspaceKey itemId payload).All SavesValid
    unfold resolveToWaitingFor
    split
    · exact .raise _
    · refine resolve_saves fun create hcreate item claim => ?_
      obtain rfl := Option.some.inj hcreate
      unfold createWaitingFor
      exact createOrFetch_saves
  | asNote workspaceKey itemId => exact resolve_saves fun _ hcreate => nomatch hcreate
  | dismiss workspaceKey itemId => exact resolve_saves fun _ hcreate => nomatch hcreate

end Programs

/-- A method of the repository that writes a claim, called past the service. Left out are `update`,
`resolve` and `dismiss` of the repository: they write an item alone, and the service calls none. -/
inductive Method where
  | claimResolution (workspace : Workspace) (itemId : String) (resolvedType : InboxResolvedType)
      (targetKey targetId : Option String) (now : DateTime)
  | recordTargetCreated (workspace : Workspace) (itemId : String)
      (resolvedType : InboxResolvedType) (targetId : String) (now : DateTime)
  | completeResolution (workspace : Workspace) (itemId : String)
      (resolvedType : InboxResolvedType) (now : DateTime)
deriving DecidableEq

/-- The action of such a call. -/
def Method.action : Method → Action
  | .claimResolution workspace itemId resolvedType targetKey targetId now =>
    .claimResolution workspace itemId resolvedType targetKey targetId now
  | .recordTargetCreated workspace itemId resolvedType targetId now =>
    .recordTargetCreated workspace itemId resolvedType targetId now
  | .completeResolution workspace itemId resolvedType now =>
    .completeResolution workspace itemId resolvedType now

/-- The program of a call of the service or of the repository. -/
def startAny (env : Environment) : Request ⊕ Method → Prog Unit
  | .inl k => start env k >>= fun _ => .ret ()
  | .inr method => Program.perform method.action >>= fun _ => .ret ()

theorem startAny_saves (env : Environment) (k : Request ⊕ Method) :
    (startAny env k).All SavesValid := by
  cases k with
  | inl k => exact .bind (start_saves k) fun _ => trivial
  | inr method => cases method <;> exact .bind (.perform trivial) fun _ => trivial

/-- **Every action is a transaction of the tables.** -/
theorem handler_move {env : Environment} {i : ℕ} {e : Action} {input : Input} {r : e.Reply}
    {w w' : World} (hs : w.db.Sound) (hsaves : SavesValid e)
    (hr : handler env i e input w = some (r, w')) : w.db.Move w'.db := by
  cases e with
  | save item =>
    cases input <;> simp only [handler, reduceCtorEq, Option.some.injEq, Prod.mk.injEq] at hr
    · obtain ⟨hvalid, hpending⟩ := hsaves
      cases hsave : w.db.save item with
      | error e =>
        rw [hsave] at hr
        exact congrArg World.db (congrArg Prod.snd hr) ▸ .same
      | ok db =>
        rw [hsave] at hr
        exact congrArg World.db (congrArg Prod.snd hr) ▸ Database.save_move hvalid hpending hsave
    · exact hr.2 ▸ .same
  | claimResolution workspace itemId ty key target now =>
    cases input <;> simp only [handler, reduceCtorEq, Option.some.injEq, Prod.mk.injEq] at hr
    · cases hclaim : w.db.claimResolution workspace itemId ty key target now with
      | error e =>
        rw [hclaim] at hr
        exact congrArg World.db (congrArg Prod.snd hr) ▸ .same
      | ok p =>
        rw [hclaim] at hr
        exact congrArg World.db (congrArg Prod.snd hr) ▸
          Database.claimResolution_move hs.readable hclaim
    · exact hr.2 ▸ .same
  | recordTargetCreated workspace itemId ty targetId now =>
    cases input <;> simp only [handler, reduceCtorEq, Option.some.injEq, Prod.mk.injEq] at hr
    · exact congrArg World.db (congrArg Prod.snd hr) ▸ Database.recordTargetCreated_move
    · exact hr.2 ▸ .same
  | completeResolution workspace itemId ty now =>
    cases input <;> simp only [handler, reduceCtorEq, Option.some.injEq, Prod.mk.injEq] at hr
    · exact congrArg World.db (congrArg Prod.snd hr) ▸ Database.completeResolution_move hs.readable
    · exact hr.2 ▸ .same
  | createTarget draft =>
    cases input <;> simp only [handler, reduceCtorEq, Option.ite_none_right_eq_some,
      Option.some.injEq, Prod.mk.injEq] at hr
    · rw [← hr.2.2, World.create_db]
      exact .same
    · rw [← hr.2.2, World.create_db]
      exact .same
    · exact hr.2 ▸ .same
  | getTarget kind workspaceKey id =>
    cases input <;> simp only [handler, reduceCtorEq, Option.map_eq_some_iff, Option.some.injEq,
      Prod.mk.injEq] at hr
    · obtain ⟨target, -, -, rfl⟩ := hr
      exact .same
    · exact hr.2 ▸ .same
  | _ =>
    cases input <;> simp only [handler, reduceCtorEq, Option.some.injEq, Prod.mk.injEq] at hr <;>
      exact hr.2 ▸ .same

/-- **The protocol of the tables.** -/
def tables : Protocol World where
  Inv w := w.db.Sound
  Rely _ w w' := w.db.Later w'.db
  refl _ w := .refl w.db
  trans h h' := h.trans h'

/-- What the tables ask of an action. -/
def saving (_ : ℕ) (_ : Log Action Action.Reply) (e : Action) (_ : World) : Prop := SavesValid e

theorem tables_sound (env : Environment) : Process.Sound tables (handler env) saving := by
  intro i log e input r w w' hs hsaves hr
  have hmove := handler_move hs hsaves hr
  exact ⟨hmove.sound hs, fun _ _ => hmove.later hs⟩

/-- Calls of the service and of the repository in flight over the world. -/
abbrev AnyCalls := Config (Request ⊕ Method) Action Action.Reply Exn Unit World

/-- Some run of such calls leads from the initial world to `c`. -/
def AnyReachable (env : Environment) (c : AnyCalls) : Prop :=
  Reaches (handler env) (startAny env) (idle World.initial) c

section Reachable

variable {env : Environment} {c c' : AnyCalls}

theorem startsAny_safe (env : Environment) :
    StartsSafe tables (handler env) saving (startAny env) :=
  fun _ k _ _ => Safe.of_all (startAny_saves env k) fun _ _ _ h => h

theorem AnyReachable.allSafe (h : AnyReachable env c) :
    AllSafe tables (handler env) saving c :=
  (AllSafe.idle Database.sound_empty).reaches (tables_sound env) (startsAny_safe env) h

/-- **The joint invariant** of every reachable configuration. -/
theorem AnyReachable.sound (h : AnyReachable env c) : c.world.db.Sound := h.allSafe.1

/-- Every event is a transaction of the tables. -/
theorem AnyReachable.move (h : AnyReachable env c) {ev : Event (Request ⊕ Method) Input}
    (he : step (handler env) (startAny env) c ev = some c') : c.world.db.Move c'.world.db := by
  rcases step_cases he with ⟨k, -, rfl⟩ | ⟨i, input, k, log, e, next, r, w, -, hi, hact, rfl⟩
  · exact .same
  · exact handler_move h.sound (h.allSafe.meets_pre hi) hact

theorem AnyReachable.later (h : AnyReachable env c)
    (hr : Reaches (handler env) (startAny env) c c') : c.world.db.Later c'.world.db :=
  h.allSafe.relation (tables_sound env) (startsAny_safe env) hr (T := fun w w' => w.db.Later w'.db)
    (fun w => .refl w.db) (fun _ _ _ => Database.Later.trans)
    fun _ _ _ _ _ _ _ hs _ hsaves hact => (handler_move hs hsaves hact).later hs

end Reachable

/-! ## The law -/

/-- **Items and claims agree**: an item is resolved or dismissed with a completed claim of such a
type, which has the same type and target. -/
structure Database.Agree (db : Database) : Prop where
  resolved : ∀ itemId item, db.item itemId = some item → (item.status = .resolved ↔
    ∃ claim, db.claims itemId = some claim ∧ claim.state = .completed ∧
      claim.resolvedType ≠ .dismissed ∧ item.resolvedType = some claim.resolvedType ∧
      item.resolvedTargetId = claim.targetId)
  dismissed : ∀ itemId item, db.item itemId = some item → (item.status = .dismissed ↔
    ∃ claim, db.claims itemId = some claim ∧ claim.state = .completed ∧
      claim.resolvedType = .dismissed ∧ item.resolvedType = some claim.resolvedType ∧
      item.resolvedTargetId = claim.targetId)

theorem Database.Sound.agree {db : Database} (hs : db.Sound) : db.Agree := by
  have hcompleted : ∀ {itemId item claim}, db.item itemId = some item →
      db.claims itemId = some claim → claim.state = .completed →
      item.status = finalStatus claim.resolvedType := by
    intro itemId item claim hitem hclaim hstate
    have hstatus : item.status ≠ .pending :=
      fun h => hs.pending itemId item claim hitem h hclaim hstate
    obtain ⟨claim', hclaim', hsettled⟩ := hs.settled itemId item hitem hstatus
    obtain rfl : claim = claim' := Option.some.inj (hclaim.symm.trans hclaim')
    exact hsettled.status
  refine ⟨fun itemId item hitem => ⟨fun hstatus => ?_, ?_⟩,
    fun itemId item hitem => ⟨fun hstatus => ?_, ?_⟩⟩
  · obtain ⟨claim, hclaim, hsettled⟩ := hs.settled itemId item hitem (by rw [hstatus]; nofun)
    refine ⟨claim, hclaim, hsettled.state, fun htype => ?_, hsettled.type, hsettled.target⟩
    have h := hsettled.status
    rw [hstatus, finalStatus, if_pos htype] at h
    cases h
  · rintro ⟨claim, hclaim, hstate, htype, -, -⟩
    rw [hcompleted hitem hclaim hstate, finalStatus, if_neg htype]
  · obtain ⟨claim, hclaim, hsettled⟩ := hs.settled itemId item hitem (by rw [hstatus]; nofun)
    refine ⟨claim, hclaim, hsettled.state, by_contra fun htype => ?_, hsettled.type,
      hsettled.target⟩
    have h := hsettled.status
    rw [hstatus, finalStatus, if_neg htype] at h
    cases h
  · rintro ⟨claim, hclaim, hstate, htype, -, -⟩
    rw [hcompleted hitem hclaim hstate, finalStatus, if_pos htype]

/-- **A claim becomes completed** from a recorded target, if its target lies in another store. -/
theorem Database.Move.completes {db db' : Database} (h : db.Move db') (hs : db.Sound)
    {itemId : String} {claim' : InboxResolutionClaim} (hclaim' : db'.claims itemId = some claim')
    (hstate' : claim'.state = .completed) (hexternal : claim'.resolvedType.external = true) :
    ∃ claim, db.claims itemId = some claim ∧
      (claim.state = .targetCreated ∨ claim.state = .completed) := by
  have hready : ∀ claim : InboxResolutionClaim, claim.state ≠ .claimed →
      claim.state = .targetCreated ∨ claim.state = .completed := by
    intro claim hne
    cases h : claim.state with
    | claimed => exact absurd h hne
    | targetCreated => exact .inl rfl
    | completed => exact .inr rfl
  have hkept : ∀ {k : String} {claim : InboxResolutionClaim}, claim.state ≠ .completed →
      Function.update db.claims k (some claim) itemId = some claim' →
      db.claims itemId = some claim' := by
    intro k claim hne hupdate
    by_cases hk : itemId = k
    · subst hk
      obtain rfl : claim = claim' := by simpa using hupdate
      exact absurd hstate' hne
    · rwa [Function.update_of_ne hk] at hupdate
  cases h with
  | same => exact ⟨claim', hclaim', .inr hstate'⟩
  | save item hnew hvalid hpending => exact ⟨claim', hclaim', .inr hstate'⟩
  | claim row ty key target now hrow hpending hnone hvalid =>
    have hne : (newClaim row.workspace row.id ty key target now).state ≠ .completed := nofun
    exact ⟨claim', hkept hne hclaim', .inr hstate'⟩
  | target k target claim now hclaim hvalid hstate =>
    have hne : (targetCreated claim target now).state ≠ .completed := nofun
    exact ⟨claim', hkept hne hclaim', .inr hstate'⟩
  | complete row updated claim now hrow hclaim hvalid hready' hpending hupdated hreadable =>
    rw [if_neg (hs.pending _ _ _ hrow hpending hclaim)] at hclaim'
    by_cases hk : itemId = row.id
    · subst hk
      obtain rfl : completedClaim claim now = claim' := by simpa using hclaim'
      exact ⟨claim, hclaim, hready claim (hready' hexternal)⟩
    · exact ⟨claim', (Function.update_of_ne hk ..).symm.trans hclaim', .inr hstate'⟩
  | settle row claim now hrow hclaim hvalid hstate hdone =>
    obtain ⟨item, hitem, -, -, hpending⟩ := hs.unsettled hclaim hstate
    obtain rfl : row = item := Option.some.inj (hrow.symm.trans hitem)
    rw [hpending] at hdone
    revert hdone
    simp only [finalStatus]
    split <;> simp

/-- **Items and claims stay consistent**, whatever calls of the service and of the repository are
made and however they interleave: they agree, every row becomes only what it can become, and an
external claim is completed from its recorded target only. -/
theorem items_and_claims_consistent (env : Environment) (c : AnyCalls) (h : AnyReachable env c) :
    c.world.db.Agree ∧
    (∀ c', Reaches (handler env) (startAny env) c c' → c.world.db.Later c'.world.db) ∧
    ∀ ev c', step (handler env) (startAny env) c ev = some c' → ∀ itemId claim',
      c'.world.db.claims itemId = some claim' → claim'.state = .completed →
      claim'.resolvedType.external = true → ∃ claim, c.world.db.claims itemId = some claim ∧
        (claim.state = .targetCreated ∨ claim.state = .completed) :=
  ⟨h.sound.agree, fun _ hr => h.later hr, fun _ _ he _ _ hclaim' hstate' hexternal =>
    (h.move he).completes h.sound hclaim' hstate' hexternal⟩

namespace Scenario

/-- An hour of one day. -/
def hour (n : Fin 24) : DateTime :=
  ⟨2026, 7, 22, n, 0, 0, 0, by
    refine ⟨?_, ?_, ?_, n.isLt, ?_, ?_, ?_⟩
    all_goals decide⟩

/-- Every service is configured. -/
def env : Environment := ⟨fun text => text, fun _ => true, "UTC", true, true, true, true⟩

/-- An item is captured. -/
def captured : List (Event Request Input) := [
  .arrive (.capture {} "call back" "cli" {} .unknown), .act 0 (.clock (hour 8)), .act 0 (.text "1"),
  .act 0 .reached]

/-- The item is dismissed. -/
def dismissed : List (Event Request Input) := captured ++ ([
  .arrive (.dismiss {} "inbox_1"), .act 1 (.clock (hour 9)), .act 1 .reached, .act 1 .reached,
  .act 1 .reached, .act 1 (.clock (hour 9)), .act 1 .reached] : List (Event Request Input))

/-- An event of calls of the service, among calls of both kinds. -/
def anyEvent : Event Request Input → Event (Request ⊕ Method) Input
  | .arrive k => .arrive (.inl k)
  | .act i input => .act i input

/-- The configuration events lead to, of calls of both kinds. -/
def afterAny (events : List (Event Request Input)) : AnyCalls :=
  (run (handler env) (startAny env) (idle World.initial) (events.map anyEvent)).getD
    (idle World.initial)

theorem anyReachable (events : List (Event Request Input)) :
    AnyReachable env (afterAny events) := by
  unfold afterAny
  cases h : run (handler env) (startAny env) (idle World.initial) (events.map anyEvent) with
  | none => exact .refl _
  | some c => exact ⟨_, h⟩

end Scenario

/-- The item and the claim of a dismissal: both are completed, with the same type and target. -/
theorem items_and_claims_consistent_scenario :
    (Scenario.afterAny Scenario.dismissed).world.db.Agree ∧
    ((Scenario.afterAny Scenario.dismissed).world.db.item "inbox_1").map InboxItem.status =
      some .dismissed :=
  ⟨(items_and_claims_consistent Scenario.env _ (Scenario.anyReachable _)).1, by decide +kernel⟩

/-- A completed claim of the same type and target is not of resolved items only: a dismissed item
has one too. -/
theorem dismissed_item_has_claim : ¬ ∀ (env : Environment) (c : AnyCalls), AnyReachable env c →
    ∀ itemId item, c.world.db.item itemId = some item → (item.status = .resolved ↔
      ∃ claim, c.world.db.claims itemId = some claim ∧ claim.state = .completed ∧
        item.resolvedType = some claim.resolvedType ∧ item.resolvedTargetId = claim.targetId) := by
  intro hall
  have h := hall _ _ (Scenario.anyReachable Scenario.dismissed)
  have hrow : ((Scenario.afterAny Scenario.dismissed).world.db.item "inbox_1").map
      InboxItem.status = some .dismissed := by decide +kernel
  obtain ⟨item, hitem, hstatus⟩ := Option.map_eq_some_iff.mp hrow
  obtain ⟨claim, hclaim, hsettled⟩ :=
    (Scenario.anyReachable Scenario.dismissed).sound.settled _ item hitem (by rw [hstatus]; nofun)
  have hresolved := (h _ item hitem).mpr
    ⟨claim, hclaim, hsettled.state, hsettled.type, hsettled.target⟩
  rw [hstatus] at hresolved
  cases hresolved

end Inbox

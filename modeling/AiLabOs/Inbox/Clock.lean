import AiLabOs.Inbox.Consistency

/-!
# Inbox: clocks that step back

`record_target_created` and `complete_resolution` commit the row of a claim before they check it.
The check compares `updated_at`, the clock of this call, with `created_at`, the clock of the call
that made the claim. So a call at an earlier instant raises with its row committed, and the row is
refused whenever it is read.

## Main definitions

* `Write`, `Write.run`: the calls of the repository that write, one transaction each
* `Write.Kept`: a call that raises changes nothing, and leaves rows that decode
* `Write.Meets`: when a call is within what its claim admits
* `Along`: a property of every call of a run

## Main results

* `Write.kept_iff`: one call is kept exactly when it meets the condition
* `writes_kept_iff`: so is every call of a run
-/

namespace Inbox

open Database

namespace Database

/-! ## The tables -/

/-- Every row passes the validators of its model. -/
structure Decodes (db : Database) : Prop where
  items : ∀ row ∈ db.items, ∃ item, validateItem row = .ok item
  claims : ∀ itemId row, db.claims itemId = some row → ∃ claim, validateClaim row = .ok claim

/-- **Stored rows**: identifiers are different, and each row is read back as it is. -/
structure Stored (db : Database) : Prop where
  unique : Table.Unique InboxItem.id db.items
  readable : db.Readable
  claims : ∀ itemId claim, db.claims itemId = some claim → claim.Valid

/-- `UPDATE inbox_items … WHERE id=? AND revision=?`, within a workspace. -/
def ofRevision (item : InboxItem) (expectedRevision : ℕ) (row : InboxItem) : Bool :=
  row.id = item.id && row.revision = expectedRevision && row.workspace = item.workspace

/-- `update`, which is `resolve` and `dismiss` as well. -/
def update (db : Database) (item : InboxItem) (expectedRevision : ℕ) :
    Except RepositoryError (InboxItem × Database) :=
  let updated := { item with revision := expectedRevision + 1 }
  if db.items.countP (ofRevision item expectedRevision) = 1 then
    .ok (updated, { db with
      items := Table.update (ofRevision item expectedRevision)
        (fun row => { updated with id := row.id }) db.items })
  else if db.items.any fun row => row.id = item.id then
    .error (.revisionConflict "Inbox item was modified concurrently")
  else .error .itemNotFound

section Rows

variable {db : Database}

theorem stored_empty : Stored empty :=
  ⟨List.nodup_nil, fun row hrow => by simp [empty] at hrow, fun k claim h => by simp [empty] at h⟩

theorem Stored.decodes (h : db.Stored) : db.Decodes where
  items row hrow := ⟨row, h.readable row hrow⟩
  claims k row hrow := ⟨row, validateClaim_iff.mpr ⟨rfl, h.claims k row hrow⟩⟩

/-- A claim that is accepted may be written. -/
theorem Stored.setClaim (h : db.Stored) {itemId : String} {claim : InboxResolutionClaim}
    (hvalid : claim.Valid) :
    Stored { db with claims := Function.update db.claims itemId (some claim) } where
  unique := h.unique
  readable := h.readable
  claims k other hother := by
    by_cases hk : k = itemId
    · subst hk
      obtain rfl : claim = other := by simpa using hother
      exact hvalid
    · exact h.claims k other ((Function.update_of_ne hk ..).symm.trans hother)

/-- An item that is read back may be written over the rows of its identifier. -/
theorem Stored.setItem (h : db.Stored) {p : InboxItem → Bool} {updated : InboxItem}
    (hkey : ∀ row, p row = true → row.id = updated.id) (hvalid : updated.Valid) :
    Stored { db with
      items := Table.update p (fun row => { updated with id := row.id }) db.items } where
  unique := h.unique.update fun _ => rfl
  readable row hrow := by
    obtain ⟨old, hold, rfl⟩ := Table.mem_update.mp hrow
    split
    · rename_i hmatch
      rw [hkey old hmatch]
      exact hvalid
    · exact h.readable old hold
  claims := h.claims

/-- A new item that is read back may be added. -/
theorem Stored.addItem (h : db.Stored) {item : InboxItem} (hvalid : item.Valid)
    (hnew : ∀ row ∈ db.items, row.id ≠ item.id) :
    Stored { db with items := db.items ++ [item] } where
  unique := h.unique.insert hnew
  readable row hrow := by
    rcases List.mem_append.mp hrow with hrow | hrow
    · exact h.readable row hrow
    · exact List.mem_singleton.mp hrow ▸ hvalid
  claims := h.claims

/-- A claim that is not accepted does not decode. -/
theorem Decodes.valid (h : db.Decodes) {itemId : String} {claim : InboxResolutionClaim}
    (hclaim : db.claims itemId = some claim) : claim.Valid := by
  obtain ⟨accepted, haccepted⟩ := h.claims itemId claim hclaim
  exact (validateClaim_iff.mp haccepted).2

end Rows

end Database

/-! ## Calls -/

/-- An item as its model makes it. -/
abbrev BuiltItem := { item : InboxItem // item.Valid }

/-- The calls of the repository that write. -/
inductive Write where
  | save (item : BuiltItem)
  | claimResolution (workspace : Workspace) (itemId : String) (resolvedType : InboxResolvedType)
      (targetKey targetId : Option String) (now : DateTime)
  | recordTargetCreated (workspace : Workspace) (itemId : String)
      (resolvedType : InboxResolvedType) (targetId : String) (now : DateTime)
  | completeResolution (workspace : Workspace) (itemId : String)
      (resolvedType : InboxResolvedType) (now : DateTime)
  | update (item : BuiltItem) (expectedRevision : ℕ)

/-- What a reply raises. -/
def raised {α : Type} : Except RepositoryError α → Option RepositoryError
  | .error e => some e
  | .ok _ => none

/-- The tables after a transaction, which is rolled back where it raises. -/
def rolledBack {α : Type} (db : Database) :
    Except RepositoryError (α × Database) → Option RepositoryError × Database
  | .error e => (some e, db)
  | .ok (_, db') => (none, db')

/-- What a call that is kept leaves: the tables it found where it raises, and stored rows. -/
structure LeavesBy (db : Database) (after : Option RepositoryError × Database) : Prop where
  atomic : after.1 ≠ none → after.2 = db
  stored : after.2.Stored

/-- What a call raises, and the tables it leaves. -/
def Write.run (db : Database) : Write → Option RepositoryError × Database
  | .save item => rolledBack db (db.save item.1 >>= fun db' => .ok (item.1, db'))
  | .claimResolution workspace itemId ty targetKey targetId now =>
    rolledBack db (db.claimResolution workspace itemId ty targetKey targetId now)
  | .recordTargetCreated workspace itemId ty targetId now =>
    let reply := db.recordTargetCreated workspace itemId ty targetId now
    (raised reply.1, reply.2)
  | .completeResolution workspace itemId ty now =>
    let reply := db.completeResolution workspace itemId ty now
    (raised reply.1, reply.2)
  | .update item expectedRevision => rolledBack db (db.update item.1 expectedRevision)

/-- **A call is kept**: where it raises nothing has changed, and the rows decode after it. -/
structure Write.Kept (db : Database) (call : Write) : Prop where
  atomic : (call.run db).1 ≠ none → (call.run db).2 = db
  decodes : (call.run db).2.Decodes

/-- A claim that `record_target_created` writes. -/
def Records (workspace : Workspace) (ty : InboxResolvedType) (claim : InboxResolutionClaim) :
    Prop :=
  claim.workspace = workspace ∧ claim.resolvedType = ty ∧ claim.state = .claimed

instance (workspace : Workspace) (ty : InboxResolvedType) (claim : InboxResolutionClaim) :
    Decidable (Records workspace ty claim) := by
  unfold Records
  infer_instance

/-- An item that `complete_resolution` leaves resolved by a claim: it is pending, and not from a
later instant, or it was resolved this way before. -/
def Resolves (workspace : Workspace) (ty : InboxResolvedType) (now : DateTime)
    (claim : InboxResolutionClaim) (item : InboxItem) : Prop :=
  item.workspace = workspace ∧ (item.status = .pending ∧ item.createdAt ≤ now ∨
    item.status = finalStatus ty ∧ item.resolvedType = some ty ∧
      item.resolvedTargetId = claim.targetId)

/-- A claim that `complete_resolution` writes. -/
def Completes (workspace : Workspace) (ty : InboxResolvedType) (now : DateTime)
    (item : Option InboxItem) (claim : InboxResolutionClaim) : Prop :=
  claim.workspace = workspace ∧ claim.resolvedType = ty ∧ claim.state ≠ .completed ∧
    (ty.external = true → claim.state ≠ .claimed) ∧
    ∃ row ∈ item, Resolves workspace ty now claim row

/-- **What its claim admits of a call**: the clock has not stepped back behind a claim that is
written, and a target that is recorded is one that its type can have. -/
def Write.Meets (db : Database) : Write → Prop
  | .recordTargetCreated workspace itemId ty targetId now =>
    ∀ claim ∈ db.claims itemId, Records workspace ty claim →
      claim.createdAt ≤ now ∧ ty.external = true ∧ targetId ≠ "" ∧ targetId.length ≤ 160
  | .completeResolution workspace itemId ty now =>
    ∀ claim ∈ db.claims itemId, Completes workspace ty now (db.item itemId) claim →
      claim.createdAt ≤ now
  | _ => True

instance (workspace : Workspace) (ty : InboxResolvedType) (now : DateTime)
    (item : Option InboxItem) (claim : InboxResolutionClaim) :
    Decidable (Completes workspace ty now item claim) := by
  unfold Completes Resolves
  infer_instance

instance (db : Database) (call : Write) : Decidable (call.Meets db) := by
  cases call <;> unfold Write.Meets <;> infer_instance

/-- A property of every call of a run. -/
def Along (p : Database → Write → Prop) : Database → List Write → Prop
  | _, [] => True
  | db, call :: calls => p db call ∧ Along p (call.run db).2 calls

/-! ## The rows that are written -/

section Claims

variable {claim : InboxResolutionClaim} {now : DateTime}

/-- **When a recorded target is accepted.** -/
theorem targetCreated_valid_iff (h : claim.Valid) {targetId : String} :
    (targetCreated claim targetId now).Valid ↔ claim.createdAt ≤ now ∧
      claim.resolvedType.external = true ∧ targetId ≠ "" ∧ targetId.length ≤ 160 := by
  constructor
  · intro hvalid
    have hexternal : claim.resolvedType.external = true := by
      by_contra hno
      have hnone := (hvalid.noTarget (Bool.eq_false_iff.mpr hno)).2
      exact Option.some_ne_none _ hnone
    have htext : hasText (some targetId) = true := hvalid.target nofun hexternal
    have hlength : targetId.length ≤ 160 := hvalid.targetLength targetId rfl
    exact ⟨hvalid.times, hexternal, by simpa [hasText] using htext, hlength⟩
  · rintro ⟨htimes, hexternal, htext, hlength⟩
    refine ⟨h.itemId, h.keyLength, ?_, Nat.le_add_left 1 _, htimes, h.key, ?_, fun _ _ => ?_⟩
    · intro target htarget
      obtain rfl := Option.some.inj htarget
      exact hlength
    · intro hno
      rw [show (targetCreated claim targetId now).resolvedType = claim.resolvedType from rfl,
        hexternal] at hno
      cases hno
    · simpa [targetCreated, hasText] using htext

/-- **When a completed claim is accepted.** -/
theorem completedClaim_valid_iff (h : claim.Valid)
    (hready : claim.resolvedType.external = true → claim.state ≠ .claimed) :
    (completedClaim claim now).Valid ↔ claim.createdAt ≤ now := by
  constructor
  · exact fun hvalid => hvalid.times
  · intro htimes
    exact ⟨h.itemId, h.keyLength, h.targetLength, Nat.le_add_left 1 _, htimes, h.key, h.noTarget,
      fun _ hexternal => h.target (hready hexternal) hexternal⟩

/-- A pending item is accepted with the resolution of a claim that may complete it. -/
theorem validateItem_completed {item : InboxItem} (hitem : item.Valid)
    (h : claim.Valid) (hready : claim.resolvedType.external = true → claim.state ≠ .claimed)
    (htimes : item.createdAt ≤ now) :
    InboxItem.Valid (completedItem item claim.resolvedType claim.targetId now) := by
  obtain ⟨hid, hcontent, hsource, -, hsens, hser, hrev, -, -⟩ := validateItem_iff.mp hitem
  refine validateItem_iff.mpr ⟨hid, hcontent, hsource, h.targetLength, hsens, hser, hrev, ?_, rfl⟩
  have hstatus : (completedItem item claim.resolvedType claim.targetId now).status ≠ .pending := by
    simp only [completedItem, finalStatus]
    split <;> rintro ⟨⟩
  unfold validateState
  rw [if_neg hstatus, check_eq_ok (by exact htimes), check_eq_ok ⟨rfl, rfl⟩,
    check_eq_ok fun t ht => Option.some.inj ht ▸ htimes]
  have hkind := h.noTarget
  have htarget := fun hexternal => h.target (hready hexternal) hexternal
  cases hty : claim.resolvedType <;> rw [hty] at hkind htarget <;>
    simp only [InboxResolvedType.external, completedItem, finalStatus] at hkind htarget ⊢
  case note => simp [check, (hkind trivial).2]; rfl
  case dismissed => simp [check, (hkind trivial).2]; rfl
  all_goals simp [check, htarget trivial]; rfl

end Claims

/-! ## One call -/

section Calls

variable {db : Database} {workspace : Workspace} {itemId : String} {ty : InboxResolvedType}
variable {now : DateTime}

theorem scopedClaimRow_eq {claim : InboxResolutionClaim} (hclaim : db.claims itemId = some claim) :
    db.scopedClaimRow claim.workspace itemId = .ok claim := by
  unfold scopedClaimRow
  rw [hclaim]
  exact if_pos rfl

theorem scopedItemRow_eq {item : InboxItem} (hitem : db.item itemId = some item) :
    db.scopedItemRow item.workspace itemId = .ok item := by
  unfold scopedItemRow
  rw [hitem]
  exact if_pos rfl

/-- **A claim without a target has it written**, whatever the clock and the target. -/
theorem recordTarget_records (h : db.Stored) (targetId : String) (now : DateTime)
    {claim : InboxResolutionClaim} (hclaim : db.claims itemId = some claim)
    (hrecords : Records workspace ty claim) :
    db.recordTarget workspace itemId ty targetId now =
      .ok (targetCreated claim targetId now, ⟨db.items,
        Function.update db.claims itemId (some (targetCreated claim targetId now))⟩) := by
  obtain ⟨rfl, rfl, hstate⟩ := hrecords
  have haccepted : accepted "Inbox target claim update failed" (validateClaim claim) =
      .ok claim := by
    rw [validateClaim_iff.mpr ⟨rfl, h.claims itemId claim hclaim⟩]
    rfl
  have hupdate : db.updateClaim claim.workspace itemId
      (fun row => row.revision = claim.revision && row.state = .claimed)
      (targetCreated claim targetId now) = .ok { db with
        claims := Function.update db.claims itemId (some (targetCreated claim targetId now)) } := by
    unfold updateClaim
    rw [hclaim]
    exact if_pos ⟨rfl, by simp [hstate]⟩
  refine Except.bind_ok_iff.mpr ⟨claim, scopedClaimRow_eq hclaim, ?_⟩
  refine Except.bind_ok_iff.mpr ⟨claim, haccepted, ?_⟩
  rw [if_neg (by simp), if_neg (by simp [hstate])]
  exact Except.bind_ok_iff.mpr ⟨_, hupdate, rfl⟩

/-- A read row passes its validators inside a method. -/
theorem Database.Stored.accepts (h : db.Stored) {message : String} {item : InboxItem}
    (hitem : db.item itemId = some item) : accepted message (validateItem item) = .ok item := by
  rw [show validateItem item = .ok item from h.readable item (item_mem hitem)]
  rfl

/-- The row count of the update that resolves a pending item. -/
theorem Database.Stored.countP_matching (h : db.Stored) {item : InboxItem}
    (hitem : db.item itemId = some item) (hpending : item.status = .pending) :
    db.items.countP (matching item.workspace item.id item.revision) = 1 := by
  refine Table.countP_eq_one (List.Nodup.of_map _ h.unique) (item_mem hitem)
    (by simp [matching, hpending]) ?_
  intro other hother hmatch
  refine h.unique.eq hother (item_mem hitem) ?_
  simp only [matching, Bool.and_eq_true, decide_eq_true_eq] at hmatch
  exact hmatch.1.1.1

/-- The item of a completion is resolved by a claim that may complete it. -/
theorem completeItem_resolves (h : db.Stored) {claim : InboxResolutionClaim} {item : InboxItem}
    (hitem : db.item itemId = some item) (hclaim : claim.Valid)
    (hready : claim.resolvedType.external = true → claim.state ≠ .claimed)
    (hresolves : Resolves item.workspace claim.resolvedType now claim item) :
    ∃ item' items', db.completeItem item.workspace item claim claim.resolvedType now =
      .ok (item', { db with items := items' }) := by
  unfold completeItem
  obtain ⟨-, ⟨hpending, htimes⟩ | hdone⟩ := hresolves
  · rw [if_pos hpending]
    have hread := h.readable item (item_mem hitem)
    have hcompleted := validateItem_completed hread hclaim hready htimes
    have haccepted : accepted "Inbox resolution completion failed"
        (validateItem (completedItem item claim.resolvedType claim.targetId now)) =
          .ok (completedItem item claim.resolvedType claim.targetId now) := by
      rw [show validateItem _ = .ok _ from hcompleted]
      rfl
    have hupdate : ∀ updated : InboxItem,
        db.updateItem item.workspace item.id item.revision updated = .ok { db with
          items := Table.update (matching item.workspace item.id item.revision)
            (fun row => { updated with id := row.id }) db.items } :=
      fun updated => if_pos (h.countP_matching hitem hpending)
    rw [haccepted]
    exact ⟨_, _, Except.bind_ok_iff.mpr ⟨_, rfl, Except.bind_ok_iff.mpr ⟨_, hupdate _, rfl⟩⟩⟩
  · have hpending : item.status ≠ .pending := by
      rw [hdone.1, finalStatus]
      split <;> rintro ⟨⟩
    rw [if_neg hpending, if_pos hdone]
    exact ⟨item, db.items, rfl⟩

/-- **A claim that owns its item is completed**, if the item is not from a later instant. -/
theorem complete_completes (h : db.Stored) {claim : InboxResolutionClaim}
    (hclaim : db.claims itemId = some claim)
    (hcompletes : Completes workspace ty now (db.item itemId) claim) :
    ∃ item' db',
      db.complete workspace itemId ty now = .ok ((item', completedClaim claim now), db') ∧
      db'.claims itemId = some (completedClaim claim now) := by
  obtain ⟨rfl, rfl, hstate, hready, item, hitem, hresolves⟩ := hcompletes
  have hscope := hresolves.1
  rw [← hscope] at hresolves
  have hvalid := h.claims itemId claim hclaim
  obtain ⟨item', items', hcompleteItem⟩ := completeItem_resolves h hitem hvalid hready hresolves
  rw [hscope] at hcompleteItem
  have hitemRow : db.scopedItemRow item.workspace itemId = .ok item := scopedItemRow_eq hitem
  rw [hscope] at hitemRow
  have hvalidate : accepted "Inbox resolution completion failed" (validateClaim claim) =
      .ok claim := by
    rw [validateClaim_iff.mpr ⟨rfl, hvalid⟩]
    rfl
  have hupdate : updateClaim { db with items := items' } claim.workspace itemId
      (fun row => row.revision = claim.revision) (completedClaim claim now) = .ok
        ⟨items', Function.update db.claims itemId (some (completedClaim claim now))⟩ := by
    simp [updateClaim, hclaim]
  refine ⟨item', ⟨items', Function.update db.claims itemId (some (completedClaim claim now))⟩, ?_,
    Function.update_self ..⟩
  refine Except.bind_ok_iff.mpr ⟨item, hitemRow, ?_⟩
  refine Except.bind_ok_iff.mpr ⟨item, h.accepts hitem, ?_⟩
  refine Except.bind_ok_iff.mpr ⟨claim, scopedClaimRow_eq hclaim, ?_⟩
  refine Except.bind_ok_iff.mpr ⟨claim, hvalidate, ?_⟩
  rw [if_neg (by simp), if_neg fun hclaimed => hready hclaimed.1 hclaimed.2]
  refine Except.bind_ok_iff.mpr ⟨_, hcompleteItem, ?_⟩
  refine Except.bind_ok_iff.mpr ⟨(completedClaim claim now, _), ?_, rfl⟩
  unfold completeClaim
  rw [if_neg hstate]
  exact Except.bind_ok_iff.mpr ⟨_, hupdate, rfl⟩

theorem LeavesBy.same {after : Option RepositoryError × Database} (h : db.Stored)
    (hsame : after.2 = db) : LeavesBy db after := ⟨fun _ => hsame, hsame ▸ h⟩

/-- A transaction that is rolled back where it raises. -/
theorem rolledBack_leaves {α : Type} {db : Database} (h : db.Stored)
    {x : Except RepositoryError (α × Database)} (hx : ∀ a db', x = .ok (a, db') → db'.Stored) :
    LeavesBy db (rolledBack db x) := by
  cases x with
  | error e => exact ⟨fun _ => rfl, h⟩
  | ok p => exact ⟨fun hne => absurd rfl hne, hx p.1 p.2 rfl⟩

theorem save_stored (h : db.Stored) {item : InboxItem} (hitem : item.Valid) {db' : Database}
    (hsave : db.save item = .ok db') : db'.Stored := by
  unfold save at hsave
  split at hsave
  · cases hsave
  · rename_i hnew
    obtain rfl := Except.ok.inj hsave
    exact h.addItem hitem (by simpa using hnew)

theorem claimResolution_stored (h : db.Stored) {targetKey targetId : Option String}
    {claim : InboxResolutionClaim} {db' : Database}
    (hclaim : db.claimResolution workspace itemId ty targetKey targetId now = .ok (claim, db')) :
    db'.Stored := by
  obtain ⟨row, -, -, -, hvalid, -, ⟨-, rfl⟩ | ⟨-, -, -, rfl⟩⟩ :=
    claimResolution_ok h.readable hclaim
  · exact h
  · exact h.setClaim hvalid

theorem update_stored (h : db.Stored) {item item' : InboxItem} (hitem : item.Valid)
    {expectedRevision : ℕ} {db' : Database}
    (hupdate : db.update item expectedRevision = .ok (item', db')) : db'.Stored := by
  unfold Database.update at hupdate
  split at hupdate
  · obtain ⟨-, rfl⟩ := Prod.mk.inj (Except.ok.inj hupdate)
    refine h.setItem ?_ (hitem.setRevision (Nat.le_add_left 1 _))
    intro row hrow
    simp only [ofRevision, Bool.and_eq_true, decide_eq_true_eq] at hrow
    exact hrow.1.1
  · split at hupdate <;> cases hupdate

/-- What `record_target_created` leaves, where it does not write a claim. -/
theorem recordTargetCreated_unwritten {targetId : String}
    (hnone : ∀ claim ∈ db.claims itemId, ¬Records workspace ty claim) :
    (db.recordTargetCreated workspace itemId ty targetId now).2 = db := by
  unfold recordTargetCreated
  cases hrecord : db.recordTarget workspace itemId ty targetId now with
  | error e => rfl
  | ok p =>
    obtain ⟨current, hclaim, hscope, -, hty, ⟨-, -, -, hdb'⟩ | ⟨hstate, -, -⟩⟩ :=
      recordTarget_ok hrecord
    · exact hdb'
    · exact absurd ⟨hscope, hty, hstate⟩ (hnone current hclaim)

/-- **A target that its claim admits is recorded**, and nothing raises after the commit. -/
theorem recordTargetCreated_meets (h : db.Stored) {targetId : String}
    (hmeets : (Write.recordTargetCreated workspace itemId ty targetId now).Meets db) :
    LeavesBy db ((Write.recordTargetCreated workspace itemId ty targetId now).run db) := by
  by_cases hwrites : ∃ claim ∈ db.claims itemId, Records workspace ty claim
  · obtain ⟨claim, hclaim, hrecords⟩ := hwrites
    have hrun := recordTarget_records h targetId now hclaim hrecords
    obtain ⟨htimes, hexternal, htext⟩ := hmeets claim hclaim hrecords
    have hnew := (targetCreated_valid_iff (h.claims itemId claim hclaim)).mpr
      ⟨htimes, hrecords.2.1.symm ▸ hexternal, htext⟩
    refine ⟨fun hraised => absurd ?_ hraised, ?_⟩
    · simp only [Write.run, recordTargetCreated, hrun, committed]
      rw [validateClaim_iff.mpr ⟨rfl, hnew⟩]
      rfl
    · simp only [Write.run, recordTargetCreated, hrun, committed]
      exact h.setClaim hnew
  · simp only [not_exists, not_and] at hwrites
    exact .same h (recordTargetCreated_unwritten hwrites)

/-- A target that its claim does not admit leaves a row that does not decode. -/
theorem recordTargetCreated_decodes (h : db.Stored) {targetId : String}
    (hdecodes : ((Write.recordTargetCreated workspace itemId ty targetId now).run db).2.Decodes) :
    (Write.recordTargetCreated workspace itemId ty targetId now).Meets db := by
  intro claim hclaim hrecords
  have hrun := recordTarget_records h targetId now hclaim hrecords
  simp only [Write.run, recordTargetCreated, hrun, committed] at hdecodes
  obtain ⟨htimes, hexternal, htext⟩ := (targetCreated_valid_iff (h.claims itemId claim hclaim)).mp
    (hdecodes.valid (Function.update_self ..))
  exact ⟨htimes, hrecords.2.1 ▸ hexternal, htext⟩

/-- The item of a completion is stored as it is returned. -/
theorem completeItem_stored (h : db.Stored) {claim : InboxResolutionClaim} {item item' : InboxItem}
    (hitem : db.item itemId = some item) {db' : Database}
    (hcomplete : db.completeItem workspace item claim ty now = .ok (item', db')) :
    db'.Stored ∧ item'.Valid := by
  have hread := h.readable item (item_mem hitem)
  rcases completeItem_ok hread hcomplete with ⟨-, hmade, hvalid, rfl⟩ | ⟨-, -, -, -, rfl, rfl⟩
  · refine ⟨h.setItem (fun row hrow => ?_) hvalid, hvalid⟩
    simp only [matching, Bool.and_eq_true, decide_eq_true_eq] at hrow
    rw [hmade]
    exact hrow.1.1.1
  · exact ⟨h, hread⟩

/-- The item of a completion that got through can be resolved. -/
theorem completeItem_resolved {claim : InboxResolutionClaim} {item item' : InboxItem}
    (hread : item.Valid) {db' : Database}
    (hcomplete : db.completeItem item.workspace item claim ty now = .ok (item', db')) :
    Resolves item.workspace ty now claim item := by
  rcases completeItem_ok hread hcomplete with ⟨hpending, hmade, hvalid, -⟩ |
    ⟨-, hstatus, htype, htarget, -, -⟩
  · refine ⟨rfl, .inl ⟨hpending, ?_⟩⟩
    obtain ⟨-, -, -, -, -, -, -, hstate, -⟩ := validateItem_iff.mp hvalid
    have htimes := check_iff.mp (Except.unit_bind_ok_iff.mp hstate).1
    rw [hmade] at htimes
    exact htimes
  · exact ⟨rfl, .inr ⟨hstatus, htype, htarget⟩⟩

/-- **A completion at an instant that its claim admits**: nothing raises after the commit. -/
theorem completeResolution_meets (h : db.Stored)
    (hmeets : (Write.completeResolution workspace itemId ty now).Meets db) :
    LeavesBy db ((Write.completeResolution workspace itemId ty now).run db) := by
  cases hrun : db.complete workspace itemId ty now with
  | error e =>
    refine .same h ?_
    simp only [Write.run, completeResolution, hrun, committed]
  | ok p =>
    obtain ⟨⟨item', claim'⟩, db'⟩ := p
    obtain ⟨item, claim, db₁, hitem, rfl, rfl, hread, hclaim, hscope, hvalid, rfl, hready,
      hcompleteItem, hcompleteClaim⟩ := complete_ok h.readable hrun
    obtain ⟨rfl, rfl⟩ := completeClaim_ok hcompleteClaim
    obtain ⟨hstored, hitemValid⟩ := completeItem_stored h hitem hcompleteItem
    have hresolves := completeItem_resolved hread hcompleteItem
    -- the claim that is returned is the one stored before, or the one written now
    have hreturned : (if claim.state = .completed then claim
        else completedClaim claim now).Valid := by
      split
      · exact hvalid
      · rename_i hstate
        have hcompletes : Completes item.workspace claim.resolvedType now (db.item item.id) claim :=
          ⟨hscope, rfl, hstate, hready, item, hitem, hresolves⟩
        exact (completedClaim_valid_iff hvalid hready).mpr (hmeets claim hclaim hcompletes)
    refine ⟨fun hraised => absurd ?_ hraised, ?_⟩
    · simp only [Write.run, completeResolution, hrun, committed, acceptedBoth]
      rw [show validateItem item' = .ok item' from hitemValid,
        validateClaim_iff.mpr ⟨rfl, hreturned⟩]
      rfl
    · simp only [Write.run, completeResolution, hrun, committed]
      split at hreturned
      · rename_i hstate
        rw [if_pos hstate]
        exact hstored
      · rename_i hstate
        rw [if_neg hstate]
        exact hstored.setClaim hreturned

/-- A completion before its claim leaves a row that does not decode. -/
theorem completeResolution_decodes (h : db.Stored)
    (hdecodes : ((Write.completeResolution workspace itemId ty now).run db).2.Decodes) :
    (Write.completeResolution workspace itemId ty now).Meets db := by
  intro claim hclaim hcompletes
  obtain ⟨item', db', hrun, hwritten⟩ := complete_completes h hclaim hcompletes
  simp only [Write.run, completeResolution, hrun, committed] at hdecodes
  obtain ⟨-, rfl, -, hready, -⟩ := hcompletes
  exact (completedClaim_valid_iff (h.claims itemId claim hclaim) hready).mp
    (hdecodes.valid hwritten)

/-- **What one call does that meets the condition.** -/
theorem Write.leaves {call : Write} (h : db.Stored) (hmeets : call.Meets db) :
    LeavesBy db (call.run db) := by
  cases call with
  | save item =>
    refine rolledBack_leaves h fun a db' hsave => ?_
    obtain ⟨db₁, hdb₁, hsave⟩ := Except.of_bind_ok hsave
    obtain ⟨-, rfl⟩ := Prod.mk.inj (Except.ok.inj hsave)
    exact save_stored h item.2 hdb₁
  | claimResolution workspace itemId ty targetKey targetId now =>
    exact rolledBack_leaves h fun _ _ hclaim => claimResolution_stored h hclaim
  | recordTargetCreated workspace itemId ty targetId now => exact recordTargetCreated_meets h hmeets
  | completeResolution workspace itemId ty now => exact completeResolution_meets h hmeets
  | update item expectedRevision =>
    exact rolledBack_leaves h fun _ _ hupdate => update_stored h item.2 hupdate

/-- **One call is kept** exactly when it meets the condition. -/
theorem Write.kept_iff {call : Write} (h : db.Stored) : call.Kept db ↔ call.Meets db := by
  constructor
  · intro hkept
    cases call with
    | recordTargetCreated workspace itemId ty targetId now =>
      exact recordTargetCreated_decodes h hkept.decodes
    | completeResolution workspace itemId ty now =>
      exact completeResolution_decodes h hkept.decodes
    | save item => trivial
    | claimResolution workspace itemId ty targetKey targetId now => trivial
    | update item expectedRevision => trivial
  · intro hmeets
    have hleaves := call.leaves h hmeets
    exact ⟨hleaves.atomic, hleaves.stored.decodes⟩

end Calls

/-! ## A run of calls -/

/-- **Writes are atomic and readable** exactly in the runs where every call meets the condition: no
claim is written at an instant before it was made, nor with a target that its type cannot have. -/
theorem writes_kept_iff {db : Database} (h : db.Stored) (calls : List Write) :
    Along Write.Kept db calls ↔ Along Write.Meets db calls := by
  induction calls generalizing db with
  | nil => exact Iff.rfl
  | cons call calls ih =>
    have hcall : call.Kept db ↔ call.Meets db := Write.kept_iff h
    constructor
    · intro ⟨hkept, hrest⟩
      have hmeets := hcall.mp hkept
      exact ⟨hmeets, (ih (call.leaves h hmeets).stored).mp hrest⟩
    · intro ⟨hmeets, hrest⟩
      exact ⟨hcall.mpr hmeets, (ih (call.leaves h hmeets).stored).mpr hrest⟩

namespace Scenario

theorem valid_pending : InboxItem.Valid ⟨"inbox_1", .default, "call back", "cli", .pending,
    .unknown, hour 8, hour 8, none, none, none, {}, 1⟩ := by
  rw [InboxItem.Valid]
  decide +kernel

/-- An item of eight o'clock. -/
def stored : BuiltItem :=
  ⟨⟨"inbox_1", .default, "call back", "cli", .pending, .unknown, hour 8, hour 8, none, none, none,
    {}, 1⟩, valid_pending⟩

/-- The item is made a task: the claim is of ten o'clock, and its target is recorded at the given
hour. -/
def recordedAt (now : DateTime) : List Write := [
  .save stored,
  .claimResolution .default "inbox_1" .userTask (some "inbox:inbox_1") none (hour 10),
  .recordTargetCreated .default "inbox_1" .userTask "task_1" now]

/-- The item is made a note: the claim is of ten o'clock, and it is completed at the given hour. -/
def completedAt (now : DateTime) : List Write := [
  .save stored,
  .claimResolution .default "inbox_1" .note none none (hour 10),
  .completeResolution .default "inbox_1" .note now]

/-- The tables with the claim of ten o'clock. -/
def claimed (calls : List Write) : Database :=
  (calls.take 2).foldl (fun db call => (call.run db).2) .empty

end Scenario

/-- In the order of the clock the target is recorded and the resolution completed. -/
theorem writes_kept_in_order : Along Write.Kept .empty
    (Scenario.recordedAt (Scenario.hour 11) ++
      [.completeResolution .default "inbox_1" .userTask (Scenario.hour 12)]) :=
  (writes_kept_iff stored_empty _).mpr
    ⟨trivial, trivial, by decide +kernel, by decide +kernel, trivial⟩

/-- **The clock steps back** by an hour after the claim: both methods raise with the claim written,
and its row does not decode. -/
theorem stepped_back_written :
    ¬ Along Write.Kept .empty (Scenario.recordedAt (Scenario.hour 9)) ∧
    ¬ Along Write.Kept .empty (Scenario.completedAt (Scenario.hour 9)) := by
  constructor
  · rintro ⟨-, -, hkept, -⟩
    have hraised : (Write.run (Scenario.claimed (Scenario.recordedAt (Scenario.hour 9)))
        (.recordTargetCreated .default "inbox_1" .userTask "task_1" (Scenario.hour 9))).1 ≠
          none := by decide +kernel
    have hsame := congrArg (fun db => (db.claims "inbox_1").map InboxResolutionClaim.state)
      (hkept.atomic hraised)
    revert hsame
    decide +kernel
  · rintro ⟨-, -, hkept, -⟩
    have hraised : (Write.run (Scenario.claimed (Scenario.completedAt (Scenario.hour 9)))
        (.completeResolution .default "inbox_1" .note (Scenario.hour 9))).1 ≠ none := by
      decide +kernel
    have hsame := congrArg (fun db => (db.claims "inbox_1").map InboxResolutionClaim.state)
      (hkept.atomic hraised)
    revert hsame
    decide +kernel

end Inbox

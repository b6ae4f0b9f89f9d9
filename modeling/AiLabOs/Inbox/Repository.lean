import AiLabOs.Base.Table
import AiLabOs.Inbox.Models
import Mathlib.Logic.Function.Basic

/-!
# Inbox: repository

Two tables: the items, and at most one claim for an item. Each method is one transaction. The
methods that write a claim check what they return once more after the commit, so that they can
raise and have written.

## Main definitions

* `Database`: the tables
* `Database.save`, `get`, `claimResolution`, `getResolutionClaim`, `recordTargetCreated`,
  `completeResolution`: the methods

## Main results

* `Database.claimResolution_ok`, `recordTargetCreated_cases`, `completeResolution_cases`: what a
  method can write
-/

namespace Inbox

/-- What a method raises. -/
inductive RepositoryError where
  | itemNotFound
  | workspaceMismatch (message : String)
  | revisionConflict (message : String)
  | claimNotFound
  | claimConflict (message : String)
  | failed (message : String)
  /-- The `ValidationError` of a row that is read outside of a transaction. -/
  | validation
deriving DecidableEq, Repr

/-- The tables. -/
structure Database where
  items : List InboxItem
  claims : String → Option InboxResolutionClaim

namespace Database

/-- The tables after `initialize`. -/
def empty : Database := ⟨[], fun _ => none⟩

/-- The item of an identifier. -/
def item (db : Database) (itemId : String) : Option InboxItem :=
  db.items.find? fun item => item.id = itemId

/-- `_scoped_item_row`. -/
def scopedItemRow (db : Database) (workspace : Workspace) (itemId : String) :
    Except RepositoryError InboxItem :=
  match db.item itemId with
  | none => .error .itemNotFound
  | some row =>
    if row.workspace = workspace then .ok row
    else .error (.workspaceMismatch "Inbox item belongs to another workspace")

/-- `_scoped_claim_row`. -/
def scopedClaimRow (db : Database) (workspace : Workspace) (itemId : String) :
    Except RepositoryError InboxResolutionClaim :=
  match db.claims itemId with
  | none => .error .claimNotFound
  | some row =>
    if row.workspace = workspace then .ok row
    else .error (.workspaceMismatch "Inbox claim belongs to another workspace")

/-- What a model accepts inside a method, which wraps every other exception. -/
def accepted {α : Type} (message : String) : Except Invalid α → Except RepositoryError α
  | .ok a => .ok a
  | .error _ => .error (.failed message)

/-- `save`. -/
def save (db : Database) (item : InboxItem) : Except RepositoryError Database :=
  if db.items.any fun row => row.id = item.id then
    .error (.revisionConflict "Inbox item already exists")
  else .ok { db with items := db.items ++ [item] }

/-- `get`. -/
def get (db : Database) (workspace : Workspace) (itemId : String) :
    Except RepositoryError InboxItem :=
  match db.scopedItemRow workspace itemId with
  | .error e => .error e
  | .ok row =>
    match validateItem row with
    | .ok item => .ok item
    | .error _ => .error .validation

/-- `get_resolution_claim`. -/
def getResolutionClaim (db : Database) (workspace : Workspace) (itemId : String) :
    Except RepositoryError InboxResolutionClaim := do
  let row ← db.scopedClaimRow workspace itemId
  accepted "Inbox resolution claim query failed" (validateClaim row)

/-- The claim a resolution begins with. -/
def newClaim (workspace : Workspace) (itemId : String) (resolvedType : InboxResolvedType)
    (targetKey targetId : Option String) (now : DateTime) : InboxResolutionClaim where
  inboxItemId := itemId
  workspace := workspace
  resolvedType := resolvedType
  targetKey := targetKey
  targetId := targetId
  createdAt := now
  updatedAt := now

/-- `claim_resolution`. -/
def claimResolution (db : Database) (workspace : Workspace) (itemId : String)
    (resolvedType : InboxResolvedType) (targetKey targetId : Option String) (now : DateTime) :
    Except RepositoryError (InboxResolutionClaim × Database) := do
  let row ← db.scopedItemRow workspace itemId
  let item ← accepted "Inbox resolution claim failed" (validateItem row)
  match db.claims itemId with
  | none =>
    if item.status ≠ .pending then
      .error (.revisionConflict "Resolved Inbox item has no recoverable claim")
    else do
      let claim ← accepted "Inbox resolution claim failed"
        (validateClaim (newClaim workspace itemId resolvedType targetKey targetId now))
      return (claim, { db with claims := Function.update db.claims itemId (some claim) })
  | some claimRow => do
    let claim ← accepted "Inbox resolution claim failed" (validateClaim claimRow)
    if claim.workspace ≠ workspace then
      .error (.workspaceMismatch "Inbox claim belongs to another workspace")
    else return (claim, db)

/-- `UPDATE inbox_resolution_claims … WHERE …`, of one row, or a conflict. -/
def updateClaim (db : Database) (workspace : Workspace) (itemId : String)
    (matching : InboxResolutionClaim → Bool) (updated : InboxResolutionClaim) :
    Except RepositoryError Database :=
  match db.claims itemId with
  | some row =>
    if row.workspace = workspace ∧ matching row = true then
      .ok { db with claims := Function.update db.claims itemId (some updated) }
    else .error (.claimConflict "Inbox claim was modified concurrently")
  | none => .error (.claimConflict "Inbox claim was modified concurrently")

/-- The claim with its target recorded. -/
def targetCreated (current : InboxResolutionClaim) (targetId : String) (now : DateTime) :
    InboxResolutionClaim :=
  { current with
    targetId := some targetId
    state := .targetCreated
    updatedAt := now
    revision := current.revision + 1 }

/-- The transaction of `record_target_created`. -/
def recordTarget (db : Database) (workspace : Workspace) (itemId : String)
    (resolvedType : InboxResolvedType) (targetId : String) (now : DateTime) :
    Except RepositoryError (InboxResolutionClaim × Database) := do
  let row ← db.scopedClaimRow workspace itemId
  let current ← accepted "Inbox target claim update failed" (validateClaim row)
  if current.resolvedType ≠ resolvedType then
    .error (.claimConflict "Inbox resolution type does not own this claim")
  else if current.state = .targetCreated ∨ current.state = .completed then
    if current.targetId ≠ some targetId then
      .error (.claimConflict "Inbox claim already records another target")
    else return (current, db)
  else do
    let updated := targetCreated current targetId now
    let db ← db.updateClaim workspace itemId
      (fun row => row.revision = current.revision && row.state = .claimed) updated
    return (updated, db)

/-- The reply of a method whose transaction has committed, and the tables. -/
def committed {α : Type} (db : Database) (check : α → Except RepositoryError α) :
    Except RepositoryError (α × Database) → Except RepositoryError α × Database
  | .error e => (.error e, db)
  | .ok (a, db') => (check a, db')

/-- `record_target_created`. -/
def recordTargetCreated (db : Database) (workspace : Workspace) (itemId : String)
    (resolvedType : InboxResolvedType) (targetId : String) (now : DateTime) :
    Except RepositoryError InboxResolutionClaim × Database :=
  committed db (fun claim => accepted "Inbox target claim update failed" (validateClaim claim))
    (db.recordTarget workspace itemId resolvedType targetId now)

/-- The status a resolution leads to. -/
def finalStatus (resolvedType : InboxResolvedType) : InboxStatus :=
  if resolvedType = .dismissed then .dismissed else .resolved

/-- The item with its resolution. -/
def completedItem (item : InboxItem) (resolvedType : InboxResolvedType) (targetId : Option String)
    (now : DateTime) : InboxItem :=
  { item with
    status := finalStatus resolvedType
    updatedAt := now
    resolvedAt := some now
    resolvedType := some resolvedType
    resolvedTargetId := targetId }

/-- The item `UPDATE inbox_items` changes: of this revision, and pending. -/
def matching (workspace : Workspace) (itemId : String) (revision : ℕ) (row : InboxItem) : Bool :=
  row.id = itemId && row.workspace = workspace && row.revision = revision && row.status = .pending

/-- `UPDATE inbox_items`, of every column but the identifier, of one row, or a conflict. -/
def updateItem (db : Database) (workspace : Workspace) (itemId : String) (revision : ℕ)
    (updated : InboxItem) : Except RepositoryError Database :=
  if db.items.countP (matching workspace itemId revision) = 1 then
    .ok { db with
      items := Table.update (matching workspace itemId revision)
        (fun row => { updated with id := row.id }) db.items }
  else .error (.revisionConflict "Inbox item was modified concurrently")

/-- The item of a completion: resolved now, or resolved the same way before. -/
def completeItem (db : Database) (workspace : Workspace) (item : InboxItem)
    (claim : InboxResolutionClaim) (resolvedType : InboxResolvedType) (now : DateTime) :
    Except RepositoryError (InboxItem × Database) :=
  if item.status = .pending then do
    let completed ← accepted "Inbox resolution completion failed"
      (validateItem (completedItem item resolvedType claim.targetId now))
    let completed := { completed with revision := item.revision + 1 }
    let db ← db.updateItem workspace item.id item.revision completed
    return (completed, db)
  else if item.status = finalStatus resolvedType ∧ item.resolvedType = some resolvedType ∧
      item.resolvedTargetId = claim.targetId then
    .ok (item, db)
  else .error (.claimConflict "Inbox item was completed by another resolution")

/-- The claim with its resolution completed. -/
def completedClaim (claim : InboxResolutionClaim) (now : DateTime) : InboxResolutionClaim :=
  { claim with state := .completed, updatedAt := now, revision := claim.revision + 1 }

/-- The claim of a completion. -/
def completeClaim (db : Database) (workspace : Workspace) (itemId : String)
    (claim : InboxResolutionClaim) (now : DateTime) :
    Except RepositoryError (InboxResolutionClaim × Database) :=
  if claim.state = .completed then .ok (claim, db)
  else do
    let db ← db.updateClaim workspace itemId (fun row => row.revision = claim.revision)
      (completedClaim claim now)
    return (completedClaim claim now, db)

/-- The transaction of `complete_resolution`. -/
def complete (db : Database) (workspace : Workspace) (itemId : String)
    (resolvedType : InboxResolvedType) (now : DateTime) :
    Except RepositoryError ((InboxItem × InboxResolutionClaim) × Database) := do
  let itemRow ← db.scopedItemRow workspace itemId
  let item ← accepted "Inbox resolution completion failed" (validateItem itemRow)
  let claimRow ← db.scopedClaimRow workspace itemId
  let claim ← accepted "Inbox resolution completion failed" (validateClaim claimRow)
  if claim.resolvedType ≠ resolvedType then
    .error (.claimConflict "Inbox resolution type does not own this claim")
  else if resolvedType.external = true ∧ claim.state = .claimed then
    .error (.claimConflict "Inbox target has not been durably recorded")
  else do
    let (item, db) ← db.completeItem workspace item claim resolvedType now
    let (claim, db) ← db.completeClaim workspace itemId claim now
    return ((item, claim), db)

/-- The check of what `complete_resolution` returns. -/
def acceptedBoth (p : InboxItem × InboxResolutionClaim) :
    Except RepositoryError (InboxItem × InboxResolutionClaim) := do
  let item ← accepted "Inbox resolution completion failed" (validateItem p.1)
  let claim ← accepted "Inbox resolution completion failed" (validateClaim p.2)
  return (item, claim)

/-- `complete_resolution`. -/
def completeResolution (db : Database) (workspace : Workspace) (itemId : String)
    (resolvedType : InboxResolvedType) (now : DateTime) :
    Except RepositoryError (InboxItem × InboxResolutionClaim) × Database :=
  committed db acceptedBoth (db.complete workspace itemId resolvedType now)

/-! ## What a method can write -/

/-- Every row is read back as it is. -/
def Readable (db : Database) : Prop := ∀ row ∈ db.items, row.Valid

/-- **What a transaction can do**: nothing, or save a pending item, claim it, record its target, or
complete its resolution. -/
inductive Move (db : Database) : Database → Prop
  | same : Move db db
  | save (item : InboxItem) (hnew : ∀ row ∈ db.items, row.id ≠ item.id) (hvalid : item.Valid)
      (hpending : item.status = .pending) : Move db { db with items := db.items ++ [item] }
  | claim (row : InboxItem) (resolvedType : InboxResolvedType) (targetKey targetId : Option String)
      (now : DateTime) (hrow : db.item row.id = some row) (hpending : row.status = .pending)
      (hnone : db.claims row.id = none)
      (hvalid : (newClaim row.workspace row.id resolvedType targetKey targetId now).Valid) :
      Move db { db with
        claims := Function.update db.claims row.id
          (some (newClaim row.workspace row.id resolvedType targetKey targetId now)) }
  | target (itemId targetId : String) (claim : InboxResolutionClaim) (now : DateTime)
      (hclaim : db.claims itemId = some claim) (hvalid : claim.Valid)
      (hstate : claim.state = .claimed) :
      Move db { db with
        claims := Function.update db.claims itemId (some (targetCreated claim targetId now)) }
  | complete (row updated : InboxItem) (claim : InboxResolutionClaim) (now : DateTime)
      (hrow : db.item row.id = some row) (hclaim : db.claims row.id = some claim)
      (hvalid : claim.Valid)
      (hready : claim.resolvedType.external = true → claim.state ≠ .claimed)
      (hpending : row.status = .pending)
      (hupdated : updated = { completedItem row claim.resolvedType claim.targetId now with
        revision := row.revision + 1 }) (hreadable : updated.Valid) :
      Move db ⟨Table.update (matching row.workspace row.id row.revision)
          (fun row => { updated with id := row.id }) db.items,
        if claim.state = .completed then db.claims
        else Function.update db.claims row.id (some (completedClaim claim now))⟩
  | settle (row : InboxItem) (claim : InboxResolutionClaim) (now : DateTime)
      (hrow : db.item row.id = some row) (hclaim : db.claims row.id = some claim)
      (hvalid : claim.Valid) (hstate : claim.state ≠ .completed)
      (hdone : row.status = finalStatus claim.resolvedType ∧
        row.resolvedType = some claim.resolvedType ∧ row.resolvedTargetId = claim.targetId) :
      Move db { db with
        claims := Function.update db.claims row.id (some (completedClaim claim now)) }

section Moves

variable {db db' : Database} {workspace : Workspace} {itemId : String} {ty : InboxResolvedType}
variable {now : DateTime}

theorem scopedItemRow_ok {row : InboxItem} (h : db.scopedItemRow workspace itemId = .ok row) :
    db.item itemId = some row ∧ row.workspace = workspace ∧ row.id = itemId := by
  unfold scopedItemRow at h
  split at h
  · cases h
  · rename_i row' hrow
    split at h
    · obtain rfl := Except.ok.inj h
      exact ⟨hrow, ‹_›, by simpa using List.find?_some hrow⟩
    · cases h

theorem scopedClaimRow_ok {row : InboxResolutionClaim}
    (h : db.scopedClaimRow workspace itemId = .ok row) :
    db.claims itemId = some row ∧ row.workspace = workspace := by
  unfold scopedClaimRow at h
  split at h
  · cases h
  · rename_i row' hrow
    split at h
    · obtain rfl := Except.ok.inj h
      exact ⟨hrow, ‹_›⟩
    · cases h

theorem accepted_ok {α : Type} {message : String} {x : Except Invalid α} {a : α}
    (h : accepted message x = .ok a) : x = .ok a := by
  cases x with
  | ok b => rw [Except.ok.inj h]
  | error e => cases h

/-- A readable row is read as it is. -/
theorem Readable.read (hdb : db.Readable) {row item : InboxItem} {message : String}
    (hrow : db.item itemId = some row) (h : accepted message (validateItem row) = .ok item) :
    item = row := by
  have hvalid := hdb row (List.mem_of_find?_eq_some hrow)
  rw [hvalid] at h
  exact (Except.ok.inj h).symm

theorem save_move {item : InboxItem} (hvalid : item.Valid) (hpending : item.status = .pending)
    (h : db.save item = .ok db') : db.Move db' := by
  unfold save at h
  split at h
  · cases h
  · rename_i hnew
    obtain rfl := Except.ok.inj h
    exact .save item (by simpa using hnew) hvalid hpending

/-- **A claim** is the one already there, or a new one of a pending item. -/
theorem claimResolution_ok {targetKey targetId : Option String} {claim : InboxResolutionClaim}
    (hdb : db.Readable)
    (h : db.claimResolution workspace itemId ty targetKey targetId now = .ok (claim, db')) :
    ∃ row, db.item itemId = some row ∧ row.workspace = workspace ∧ row.id = itemId ∧ claim.Valid ∧
      claim.workspace = workspace ∧
      (db.claims itemId = some claim ∧ db' = db ∨
        db.claims itemId = none ∧ row.status = .pending ∧
        claim = newClaim workspace itemId ty targetKey targetId now ∧
        db' = { db with claims := Function.update db.claims itemId (some claim) }) := by
  obtain ⟨row, hrow, h₁⟩ := Except.of_bind_ok h
  obtain ⟨item, hitem, h₂⟩ := Except.of_bind_ok h₁
  obtain ⟨hfind, hscope, hid⟩ := scopedItemRow_ok hrow
  obtain rfl := hdb.read hfind hitem
  refine ⟨item, hfind, hscope, hid, ?_⟩
  split at h₂
  · rename_i hnone
    split at h₂
    · cases h₂
    · rename_i hpending
      obtain ⟨c, hc, h₃⟩ := Except.of_bind_ok h₂
      obtain ⟨rfl, rfl⟩ : c = claim ∧ _ = db' := by simpa [pure, Except.pure] using h₃
      obtain ⟨rfl, hvalid⟩ := validateClaim_iff.mp (accepted_ok hc)
      exact ⟨hvalid, rfl, .inr ⟨hnone, by simpa using hpending, rfl, rfl⟩⟩
  · rename_i claimRow hclaim
    obtain ⟨c, hc, h₃⟩ := Except.of_bind_ok h₂
    obtain ⟨rfl, hvalid⟩ := validateClaim_iff.mp (accepted_ok hc)
    split at h₃
    · cases h₃
    · rename_i hsame
      obtain ⟨rfl, rfl⟩ : c = claim ∧ db = db' := by simpa [pure, Except.pure] using h₃
      exact ⟨hvalid, by simpa using hsame, .inl ⟨hclaim, rfl⟩⟩

theorem claimResolution_move {targetKey targetId : Option String} {claim : InboxResolutionClaim}
    (hdb : db.Readable)
    (h : db.claimResolution workspace itemId ty targetKey targetId now = .ok (claim, db')) :
    db.Move db' := by
  obtain ⟨row, hrow, rfl, rfl, hvalid, -, ⟨-, rfl⟩ | ⟨hnone, hpending, rfl, rfl⟩⟩ :=
    claimResolution_ok hdb h
  · exact .same
  · exact .claim row ty targetKey targetId now hrow hpending hnone hvalid

theorem updateClaim_ok {matching : InboxResolutionClaim → Bool} {updated : InboxResolutionClaim}
    (h : db.updateClaim workspace itemId matching updated = .ok db') :
    db' = { db with claims := Function.update db.claims itemId (some updated) } := by
  unfold updateClaim at h
  split at h
  · split at h
    · exact (Except.ok.inj h).symm
    · cases h
  · cases h

/-- **A target** is the one already recorded, or it is recorded now. -/
theorem recordTarget_ok {targetId : String} {claim : InboxResolutionClaim}
    (h : db.recordTarget workspace itemId ty targetId now = .ok (claim, db')) :
    ∃ current, db.claims itemId = some current ∧ current.workspace = workspace ∧ current.Valid ∧
      current.resolvedType = ty ∧
      (current.state ≠ .claimed ∧ current.targetId = some targetId ∧ claim = current ∧ db' = db ∨
        current.state = .claimed ∧ claim = targetCreated current targetId now ∧
        db' = { db with claims := Function.update db.claims itemId (some claim) }) := by
  obtain ⟨row, hrow, h₁⟩ := Except.of_bind_ok h
  obtain ⟨current, hcurrent, h₂⟩ := Except.of_bind_ok h₁
  obtain ⟨hclaim, hscope⟩ := scopedClaimRow_ok hrow
  obtain ⟨rfl, hvalid⟩ := validateClaim_iff.mp (accepted_ok hcurrent)
  refine ⟨current, hclaim, hscope, hvalid, ?_⟩
  split at h₂
  · cases h₂
  · rename_i hty
    refine ⟨by simpa using hty, ?_⟩
    split at h₂
    · rename_i hstate
      split at h₂
      · cases h₂
      · rename_i htarget
        obtain ⟨rfl, rfl⟩ : current = claim ∧ db = db' := by simpa [pure, Except.pure] using h₂
        refine .inl ⟨?_, by simpa using htarget, rfl, rfl⟩
        rcases hstate with hstate | hstate <;> simp [hstate]
    · rename_i hstate
      obtain ⟨db₁, hdb₁, h₃⟩ := Except.of_bind_ok h₂
      obtain ⟨rfl, rfl⟩ : _ = claim ∧ db₁ = db' := by simpa [pure, Except.pure] using h₃
      refine .inr ⟨?_, rfl, updateClaim_ok hdb₁⟩
      cases hc : current.state <;> simp [hc] at hstate ⊢

theorem recordTargetCreated_move {targetId : String} :
    db.Move (db.recordTargetCreated workspace itemId ty targetId now).2 := by
  unfold recordTargetCreated
  cases h : db.recordTarget workspace itemId ty targetId now with
  | error e => exact .same
  | ok p =>
    obtain ⟨claim, db'⟩ := p
    obtain ⟨current, hclaim, -, hvalid, -, ⟨-, -, -, rfl⟩ | ⟨hstate, rfl, rfl⟩⟩ := recordTarget_ok h
    · exact .same
    · exact .target itemId targetId current now hclaim hvalid hstate

/-- The item of a completion, where it was read back as it is. -/
theorem completeItem_ok {item item' : InboxItem} {claim : InboxResolutionClaim}
    (hvalid : item.Valid) (h : db.completeItem workspace item claim ty now = .ok (item', db')) :
    item.status = .pending ∧
      item' = { completedItem item ty claim.targetId now with revision := item.revision + 1 } ∧
      item'.Valid ∧ db' = { db with
        items := Table.update (matching workspace item.id item.revision)
          (fun row => { item' with id := row.id }) db.items } ∨
    item.status ≠ .pending ∧ item.status = finalStatus ty ∧ item.resolvedType = some ty ∧
      item.resolvedTargetId = claim.targetId ∧ item' = item ∧ db' = db := by
  unfold completeItem at h
  split at h
  · rename_i hpending
    obtain ⟨completed, hcompleted, h₁⟩ := Except.of_bind_ok h
    obtain ⟨db₁, hdb₁, h₂⟩ := Except.of_bind_ok h₁
    obtain ⟨rfl, rfl⟩ : _ = item' ∧ db₁ = db' := by simpa [pure, Except.pure] using h₂
    have haccepted := accepted_ok hcompleted
    have hsame : completed = completedItem item ty claim.targetId now :=
      hvalid.accepted_eq rfl rfl haccepted
    subst hsame
    refine .inl ⟨hpending, rfl, InboxItem.Valid.setRevision haccepted (Nat.le_add_left 1 _), ?_⟩
    unfold updateItem at hdb₁
    split at hdb₁
    · exact (Except.ok.inj hdb₁).symm
    · cases hdb₁
  · rename_i hpending
    split at h
    · rename_i hdone
      obtain ⟨rfl, rfl⟩ : item = item' ∧ db = db' := by simpa using h
      exact .inr ⟨hpending, hdone.1, hdone.2.1, hdone.2.2, rfl, rfl⟩
    · cases h

theorem completeClaim_ok {claim claim' : InboxResolutionClaim}
    (h : db.completeClaim workspace itemId claim now = .ok (claim', db')) :
    claim' = (if claim.state = .completed then claim else completedClaim claim now) ∧
      db' = { db with
        claims := if claim.state = .completed then db.claims
          else Function.update db.claims itemId (some (completedClaim claim now)) } := by
  unfold completeClaim at h
  split at h
  · rename_i hstate
    obtain ⟨rfl, rfl⟩ : claim = claim' ∧ db = db' := by simpa using h
    simp [hstate]
  · rename_i hstate
    obtain ⟨db₁, hdb₁, h₁⟩ := Except.of_bind_ok h
    obtain ⟨rfl, rfl⟩ : _ = claim' ∧ db₁ = db' := by simpa [pure, Except.pure] using h₁
    exact ⟨by rw [if_neg hstate], by rw [if_neg hstate]; exact updateClaim_ok hdb₁⟩

/-- **A completion** reads an item and a claim that owns it. -/
theorem complete_ok {item' : InboxItem} {claim' : InboxResolutionClaim} (hdb : db.Readable)
    (h : db.complete workspace itemId ty now = .ok ((item', claim'), db')) :
    ∃ item claim db₁, db.item itemId = some item ∧ item.workspace = workspace ∧
      item.id = itemId ∧ item.Valid ∧ db.claims itemId = some claim ∧ claim.workspace = workspace ∧
      claim.Valid ∧ claim.resolvedType = ty ∧ (ty.external = true → claim.state ≠ .claimed) ∧
      db.completeItem workspace item claim ty now = .ok (item', db₁) ∧
      db₁.completeClaim workspace itemId claim now = .ok (claim', db') := by
  obtain ⟨row, hrow, h₁⟩ := Except.of_bind_ok h
  obtain ⟨item, hitem, h₂⟩ := Except.of_bind_ok h₁
  obtain ⟨claimRow, hclaimRow, h₃⟩ := Except.of_bind_ok h₂
  obtain ⟨claim, hclaim, h₄⟩ := Except.of_bind_ok h₃
  obtain ⟨hfind, hscope, hid⟩ := scopedItemRow_ok hrow
  obtain rfl := hdb.read hfind hitem
  obtain ⟨hfindClaim, hclaimScope⟩ := scopedClaimRow_ok hclaimRow
  obtain ⟨rfl, hvalid⟩ := validateClaim_iff.mp (accepted_ok hclaim)
  split at h₄
  · cases h₄
  · rename_i hty
    split at h₄
    · cases h₄
    · rename_i hready
      obtain ⟨⟨item₁, db₁⟩, hitem₁, h₅⟩ := Except.of_bind_ok h₄
      obtain ⟨⟨claim₁, db₂⟩, hclaim₁, h₆⟩ := Except.of_bind_ok h₅
      obtain ⟨⟨rfl, rfl⟩, rfl⟩ : (item₁ = item' ∧ claim₁ = claim') ∧ db₂ = db' := by
        simpa [pure, Except.pure] using h₆
      exact ⟨item, claim, db₁, hfind, hscope, hid, hdb item (List.mem_of_find?_eq_some hfind),
        hfindClaim, hclaimScope, hvalid, by simpa using hty, fun hext hst => hready ⟨hext, hst⟩,
        hitem₁, hclaim₁⟩

theorem completeResolution_move (hdb : db.Readable) :
    db.Move (db.completeResolution workspace itemId ty now).2 := by
  unfold completeResolution
  cases h : db.complete workspace itemId ty now with
  | error e => exact .same
  | ok p =>
    obtain ⟨⟨item', claim'⟩, db'⟩ := p
    obtain ⟨item, claim, db₁, hitem, rfl, rfl, hread, hclaim, -, hvalid, rfl, hready, hcompleteItem,
      hcompleteClaim⟩ := complete_ok hdb h
    obtain ⟨-, rfl⟩ := completeClaim_ok hcompleteClaim
    rcases completeItem_ok hread hcompleteItem with ⟨hpending, rfl, hreadable, rfl⟩ |
      ⟨hpending, hstatus, htype, htarget, rfl, rfl⟩
    · exact .complete item _ claim now hitem hclaim hvalid hready hpending rfl hreadable
    · by_cases hstate : claim.state = .completed
      · simp only [committed, hstate, if_true]
        exact .same
      · simp only [committed, if_neg hstate]
        exact .settle item' claim now hitem hclaim hvalid hstate ⟨hstatus, htype, htarget⟩

end Moves

end Database

end Inbox

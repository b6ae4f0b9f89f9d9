import AiLabOs.Interaction.Models
import Mathlib.Logic.Function.Basic

/-!
# Trusted interactions: repository

The tables of `SQLiteInteractionRepository` and its methods. Each method is one transaction: it
returns the next tables, or an error that leaves the tables as they were.

## Main definitions

* `Database`: the tables
* `Database.transition`: the compare-and-set commit of one state change
* `Database.create`, `Database.idempotentResult`, `Database.get`, `Database.fact`: the other
  methods on the aggregate
* `Database.storeTrustedIngressEvidence`, `Database.storeConfirmationChallenge`: the tables of the
  ingress bridge

## Main results

* `Database.transition_ok`: when a transition commits, and what it writes
* `Database.create_ok`: the same for the creation of an interaction
-/

namespace Interactions

/-- The operation names idempotency keys are recorded under. -/
inductive Operation where
  | create
  | preview
  | confirm
  | approve
  | cancel
  | expire
  | execute
  | verify
  | recover
  | reconcileExecution
deriving DecidableEq, Repr

/-- The text of an operation name. -/
def Operation.name : Operation → String
  | .create => "create"
  | .preview => "preview"
  | .confirm => "confirm"
  | .approve => "approve"
  | .cancel => "cancel"
  | .expire => "expire"
  | .execute => "execute"
  | .verify => "verify"
  | .recover => "recover"
  | .reconcileExecution => "reconcile_execution"

/-- A row of `interaction_facts`. -/
structure FactRow where
  interactionId : String
  fact : Fact
deriving DecidableEq, Repr

/-- The primary key of `interaction_idempotency`. -/
structure IdempotencyKey where
  scope : Scope
  operation : Operation
  key : String
deriving DecidableEq, Repr

/-- The other columns of `interaction_idempotency`. -/
structure IdempotencyRow where
  payloadDigest : String
  interactionId : String
  result : Interaction
deriving DecidableEq, Repr

inductive ConsumptionStatus where
  | unused
  | consumed
deriving DecidableEq, Repr

/-- A row of `trusted_ingress_evidence`. -/
structure EvidenceRow where
  payload : String
  payloadDigest : String
  acceptedAt : Instant
  verificationKeyId : String
  consumptionStatus : ConsumptionStatus := .unused
  revision : Int := 1
  consumedAt : Option Instant := none
  consumedInteractionId : Option String := none
  consumedPreviewId : Option String := none
  consumedPreviewRevision : Option Int := none
deriving DecidableEq, Repr

inductive ChallengeStatus where
  | active
  | consumed
deriving DecidableEq, Repr

/-- A row of `interaction_confirmation_challenges`. -/
structure ChallengeRow where
  challengeId : String
  interactionId : String
  previewId : String
  previewRevision : Int
  interactionRevision : Int
  challengeDigest : String
  createdAt : Instant
  expiresAt : Instant
  status : ChallengeStatus := .active
  consumedAt : Option Instant := none
deriving DecidableEq, Repr

/-- `trusted_evidence_consumption`. -/
structure TrustedEvidenceConsumption where
  evidenceId : String
  evidenceRevision : Int
  challengeId : String
  previewId : String
  previewRevision : Int
  consumedAt : Instant
deriving DecidableEq, Repr

/-- The arguments of `transition`. -/
structure Transition where
  interaction : Interaction
  expectedRevision : Int
  facts : List Fact
  audits : List AuditEvidence
  operation : Operation
  idempotencyKey : String
  payloadDigest : String
  consumption : Option TrustedEvidenceConsumption := none
deriving DecidableEq, Repr

/-- What a repository method can raise. -/
inductive RepositoryError where
  | valueError (message : String)
  | integrityError
deriving DecidableEq, Repr

/-- The tables. Of the columns that repeat a field of the stored payload only the payload is
kept. -/
structure Database where
  records : String → Option Interaction
  facts : String → Option FactRow
  idempotency : IdempotencyKey → Option IdempotencyRow
  audit : List AuditEvidence
  evidence : String → Option EvidenceRow
  challenges : List ChallengeRow

/-- The key a transition is recorded under. -/
def Transition.key (t : Transition) : IdempotencyKey :=
  ⟨t.interaction.scope, t.operation, t.idempotencyKey⟩

namespace Database

/-- The tables after `initialize`. -/
def empty : Database := ⟨fun _ => none, fun _ => none, fun _ => none, [], fun _ => none, []⟩

/-- `get`: the record of an interaction, in its own workspace only. -/
def get (db : Database) (scope : Scope) (interactionId : String) : Option Interaction :=
  (db.records interactionId).filter fun r => r.scope = scope

/-- `fact`. -/
def fact (db : Database) (interactionId : String) (ty : FactType) (factId : Option String) :
    Option ty.Model :=
  factId.bind fun id => (db.facts id).bind fun row =>
    if row.interactionId = interactionId then row.fact.as ty else none

/-- `idempotent_result`. -/
def idempotentResult (db : Database) (key : IdempotencyKey) (digest : String) :
    Except RepositoryError (Option Interaction) :=
  match db.idempotency key with
  | none => .ok none
  | some row =>
    if row.payloadDigest ≠ digest then .error (.valueError "idempotency conflict")
    else .ok (some row.result)

/-- `_insert_audit`. -/
def insertAudit (db : Database) (audit : AuditEvidence) : Except RepositoryError Database :=
  if db.audit.any fun a => a.auditId = audit.auditId then .error .integrityError
  else .ok { db with audit := db.audit ++ [audit] }

/-- `create`, with the interaction it returns. -/
def create (db : Database) (interaction : Interaction) (audit : AuditEvidence)
    (idempotencyKey payloadDigest : String) : Except RepositoryError (Interaction × Database) :=
  let key : IdempotencyKey := ⟨interaction.scope, .create, idempotencyKey⟩
  match db.idempotency key with
  | some row =>
    if row.payloadDigest ≠ payloadDigest then .error (.valueError "idempotency conflict")
    else .ok (row.result, db)
  | none =>
    if (db.records interaction.interactionId).isSome then .error .integrityError
    else do
      let db ← insertAudit
        { db with
          idempotency := Function.update db.idempotency key
            (some ⟨payloadDigest, interaction.interactionId, interaction⟩)
          records := Function.update db.records interaction.interactionId (some interaction) }
        audit
      return (interaction, db)

/-- The evidence row after its consumption by a transition. -/
def consumedEvidence (row : EvidenceRow) (t : Transition) (c : TrustedEvidenceConsumption) :
    EvidenceRow :=
  { row with
    consumptionStatus := .consumed
    revision := row.revision + 1
    consumedAt := some c.consumedAt
    consumedInteractionId := some t.interaction.interactionId
    consumedPreviewId := some c.previewId
    consumedPreviewRevision := some c.previewRevision }

/-- The challenge a consumption asks for, still active. -/
def challengeMatches (t : Transition) (c : TrustedEvidenceConsumption) (row : ChallengeRow) :
    Bool :=
  row.challengeId = c.challengeId && row.interactionId = t.interaction.interactionId &&
    row.previewId = c.previewId && row.previewRevision = c.previewRevision &&
    row.interactionRevision = t.expectedRevision && row.status = .active

/-- The first two updates of `transition`: the evidence and the challenge, both or none. -/
def consumeTrustedEvidence (db : Database) (t : Transition) : Except RepositoryError Database :=
  match t.consumption with
  | none => .ok db
  | some c =>
  match db.evidence c.evidenceId with
  | some row =>
    if row.consumptionStatus = .unused ∧ row.revision = c.evidenceRevision ∧
        db.challenges.countP (challengeMatches t c) = 1 then
      .ok { db with
        evidence := Function.update db.evidence c.evidenceId (some (consumedEvidence row t c))
        challenges := db.challenges.map fun ch =>
          if challengeMatches t c ch then
            { ch with status := .consumed, consumedAt := some c.consumedAt }
          else ch }
    else .error (.valueError "trusted evidence consumption conflict")
  | none => .error (.valueError "trusted evidence consumption conflict")

/-- The compare-and-set of `transition`. -/
def updateRecord (db : Database) (interaction : Interaction) (expectedRevision : Int) :
    Except RepositoryError Database :=
  match db.get interaction.scope interaction.interactionId with
  | some r =>
    if r.revision = expectedRevision then
      .ok { db with
        records := Function.update db.records interaction.interactionId (some interaction) }
    else .error (.valueError "revision or workspace conflict")
  | none => .error (.valueError "revision or workspace conflict")

/-- `INSERT OR REPLACE INTO interaction_facts`. -/
def putFact (interactionId : String) (db : Database) (fact : Fact) : Database :=
  { db with facts := Function.update db.facts fact.factId (some ⟨interactionId, fact⟩) }

/-- `_insert_idempotency`. -/
def insertIdempotency (db : Database) (key : IdempotencyKey) (interaction : Interaction)
    (digest : String) : Except RepositoryError Database :=
  let inserted : Database :=
    { db with
      idempotency := Function.update db.idempotency key
        (some ⟨digest, interaction.interactionId, interaction⟩) }
  match db.idempotency key with
  | none => .ok inserted
  | some row =>
    if row.payloadDigest ≠ digest ∨ row.interactionId ≠ interaction.interactionId then
      .error (.valueError "idempotency conflict")
    else .ok inserted

/-- `transition`. -/
def transition (db : Database) (t : Transition) : Except RepositoryError Database := do
  let db ← db.consumeTrustedEvidence t
  let db ← db.updateRecord t.interaction t.expectedRevision
  let db := t.facts.foldl (putFact t.interaction.interactionId) db
  let db ← t.audits.foldlM insertAudit db
  db.insertIdempotency t.key t.interaction t.payloadDigest

/-- `store_trusted_ingress_evidence`: a row already there stays. -/
def storeTrustedIngressEvidence (db : Database) (evidenceId payload payloadDigest : String)
    (acceptedAt : Instant) (verificationKeyId : String) : Except RepositoryError Database :=
  match db.evidence evidenceId with
  | none =>
    .ok { db with
      evidence := Function.update db.evidence evidenceId
        (some ⟨payload, payloadDigest, acceptedAt, verificationKeyId, .unused, 1, none, none, none,
          none⟩) }
  | some row =>
    if row.payloadDigest ≠ payloadDigest then
      .error (.valueError "trusted evidence identity conflict")
    else .ok db

/-- `store_confirmation_challenge`: a challenge is stored active. -/
def storeConfirmationChallenge (db : Database) (challenge : ChallengeRow) :
    Except RepositoryError Database :=
  if db.challenges.any fun ch => ch.challengeId = challenge.challengeId then
    .error .integrityError
  else .ok { db with
    challenges := db.challenges ++ [{ challenge with status := .active, consumedAt := none }] }

/-- A row `confirmation_challenge` may return: of this preview, none of which is later. -/
def LatestChallenge (db : Database) (interactionId previewId : String) (row : ChallengeRow) :
    Prop :=
  row ∈ db.challenges ∧ row.interactionId = interactionId ∧ row.previewId = previewId ∧
    ∀ ch ∈ db.challenges, ch.interactionId = interactionId → ch.previewId = previewId →
      ch.createdAt ≤ row.createdAt

instance (db : Database) (interactionId previewId : String) (row : ChallengeRow) :
    Decidable (db.LatestChallenge interactionId previewId row) :=
  inferInstanceAs (Decidable (_ ∧ _ ∧ _ ∧ _))

/-! ## What a commit writes -/

/-- The fact rows after the facts of a transition are put. -/
def putFacts (interactionId : String) (facts : String → Option FactRow) (l : List Fact) :
    String → Option FactRow :=
  l.foldl (fun m f => Function.update m f.factId (some ⟨interactionId, f⟩)) facts

/-- The conditions under which a transition commits, and the tables it leaves. -/
structure Committed (db : Database) (t : Transition) (db' : Database) : Prop where
  current : ∃ cur, db.records t.interaction.interactionId = some cur ∧
    cur.scope = t.interaction.scope ∧ cur.revision = t.expectedRevision
  unclaimed : ∀ row, db.idempotency t.key = some row →
    row.payloadDigest = t.payloadDigest ∧ row.interactionId = t.interaction.interactionId
  consumes : ∀ c, t.consumption = some c → ∃ row, db.evidence c.evidenceId = some row ∧
    row.consumptionStatus = .unused ∧ row.revision = c.evidenceRevision ∧
    db.challenges.countP (challengeMatches t c) = 1 ∧
    db'.evidence = Function.update db.evidence c.evidenceId (some (consumedEvidence row t c)) ∧
    db'.challenges = db.challenges.map fun ch =>
      if challengeMatches t c ch then
        { ch with status := .consumed, consumedAt := some c.consumedAt }
      else ch
  keeps : t.consumption = none → db'.evidence = db.evidence ∧ db'.challenges = db.challenges
  records : db'.records =
    Function.update db.records t.interaction.interactionId (some t.interaction)
  facts : db'.facts = putFacts t.interaction.interactionId db.facts t.facts
  audit : db'.audit = db.audit ++ t.audits
  idempotency : db'.idempotency = Function.update db.idempotency t.key
    (some ⟨t.payloadDigest, t.interaction.interactionId, t.interaction⟩)

theorem get_eq_some {db : Database} {scope : Scope} {id : String} {r : Interaction} :
    db.get scope id = some r ↔ db.records id = some r ∧ r.scope = scope := by
  simp [get, Option.filter_eq_some_iff]

theorem foldl_putFact (id : String) (l : List Fact) (db : Database) :
    l.foldl (putFact id) db = { db with facts := putFacts id db.facts l } := by
  induction l generalizing db with
  | nil => rfl
  | cons f l ih => rw [List.foldl_cons, ih]; rfl

theorem foldlM_insertAudit {l : List AuditEvidence} {db db' : Database}
    (h : l.foldlM insertAudit db = .ok db') : db' = { db with audit := db.audit ++ l } := by
  induction l generalizing db with
  | nil =>
    obtain rfl : db = db' := by simpa [pure, Except.pure] using h
    simp
  | cons a l ih =>
    simp only [List.foldlM_cons, insertAudit] at h
    split at h
    · simp [bind, Except.bind] at h
    · rw [ih h]
      simp

theorem updateRecord_ok {db db' : Database} {interaction : Interaction} {rev : Int}
    (h : db.updateRecord interaction rev = .ok db') :
    (∃ cur, db.records interaction.interactionId = some cur ∧ cur.scope = interaction.scope ∧
      cur.revision = rev) ∧
    db' = { db with
      records := Function.update db.records interaction.interactionId (some interaction) } := by
  unfold updateRecord at h
  split at h
  · rename_i r hr
    obtain ⟨hrec, hscope⟩ := get_eq_some.mp hr
    split at h
    · exact ⟨⟨r, hrec, hscope, ‹_›⟩, (Except.ok.inj h).symm⟩
    · cases h
  · cases h

theorem insertIdempotency_ok {db db' : Database} {key : IdempotencyKey}
    {interaction : Interaction} {digest : String}
    (h : db.insertIdempotency key interaction digest = .ok db') :
    (∀ row, db.idempotency key = some row →
      row.payloadDigest = digest ∧ row.interactionId = interaction.interactionId) ∧
    db' = { db with
      idempotency := Function.update db.idempotency key
        (some ⟨digest, interaction.interactionId, interaction⟩) } := by
  unfold insertIdempotency at h
  split at h
  · rename_i hnone
    exact ⟨fun row hrow => by simp [hnone] at hrow, (Except.ok.inj h).symm⟩
  · rename_i row hrow
    split at h
    · cases h
    · rename_i hsame
      refine ⟨fun row' hrow' => ?_, (Except.ok.inj h).symm⟩
      obtain rfl : row = row' := by simpa [hrow] using hrow'
      simpa [not_or] using hsame

theorem consumeTrustedEvidence_ok {db db' : Database} {t : Transition}
    {c : TrustedEvidenceConsumption} (hc : t.consumption = some c)
    (h : db.consumeTrustedEvidence t = .ok db') :
    ∃ row, db.evidence c.evidenceId = some row ∧ row.consumptionStatus = .unused ∧
      row.revision = c.evidenceRevision ∧ db.challenges.countP (challengeMatches t c) = 1 ∧
      db' = { db with
        evidence := Function.update db.evidence c.evidenceId (some (consumedEvidence row t c))
        challenges := db.challenges.map fun ch =>
          if challengeMatches t c ch then
            { ch with status := .consumed, consumedAt := some c.consumedAt }
          else ch } := by
  simp only [consumeTrustedEvidence, hc] at h
  split at h
  · rename_i row hrow
    split at h
    · rename_i hguard
      exact ⟨row, hrow, hguard.1, hguard.2.1, hguard.2.2, (Except.ok.inj h).symm⟩
    · cases h
  · cases h

/-- Peels one transaction step off a commit. -/
theorem bind_ok {α β : Type} {x : Except RepositoryError α} {f : α → Except RepositoryError β}
    {b : β} (h : x >>= f = .ok b) : ∃ a, x = .ok a ∧ f a = .ok b := by
  cases x with
  | error e => simp [bind, Except.bind] at h
  | ok a => exact ⟨a, rfl, h⟩

/-- **A committed transition** met every guard and wrote every table. -/
theorem transition_ok {db db' : Database} {t : Transition} (h : db.transition t = .ok db') :
    db.Committed t db' := by
  unfold transition at h
  obtain ⟨db₁, h₁, h⟩ := bind_ok h
  obtain ⟨db₂, h₂, h⟩ := bind_ok h
  obtain ⟨db₃, h₃, h₄⟩ := bind_ok h
  obtain ⟨hcur, rfl⟩ := updateRecord_ok h₂
  rw [foldl_putFact] at h₃
  obtain rfl := foldlM_insertAudit h₃
  obtain ⟨hclaim, rfl⟩ := insertIdempotency_ok h₄
  cases hc : t.consumption with
  | none =>
    simp only [consumeTrustedEvidence, hc] at h₁
    obtain rfl := Except.ok.inj h₁
    exact ⟨hcur, hclaim, by simp [hc], fun _ => ⟨rfl, rfl⟩, rfl, rfl, rfl, rfl⟩
  | some c =>
    obtain ⟨row, hrow, hunused, hrev, hcount, rfl⟩ := consumeTrustedEvidence_ok hc h₁
    refine ⟨hcur, hclaim, fun c' hc' => ?_, by simp [hc], rfl, rfl, rfl, rfl⟩
    obtain rfl : c = c' := by simpa [hc] using hc'
    exact ⟨row, hrow, hunused, hrev, hcount, rfl, rfl⟩

/-- **A creation** returns the interaction recorded under its key, or records a new one. -/
theorem create_ok {db db' : Database} {interaction r : Interaction} {audit : AuditEvidence}
    {idempotencyKey digest : String}
    (h : db.create interaction audit idempotencyKey digest = .ok (r, db')) :
    (∃ row, db.idempotency ⟨interaction.scope, .create, idempotencyKey⟩ = some row ∧
      row.payloadDigest = digest ∧ r = row.result ∧ db' = db) ∨
    (db.idempotency ⟨interaction.scope, .create, idempotencyKey⟩ = none ∧
      db.records interaction.interactionId = none ∧ r = interaction ∧
      db' = { db with
        idempotency := Function.update db.idempotency
          ⟨interaction.scope, .create, idempotencyKey⟩
          (some ⟨digest, interaction.interactionId, interaction⟩)
        records := Function.update db.records interaction.interactionId (some interaction)
        audit := db.audit ++ [audit] }) := by
  unfold create at h
  dsimp only at h
  split at h
  · rename_i row hrow
    split at h
    · cases h
    · rename_i hd
      obtain ⟨rfl, rfl⟩ : row.result = r ∧ db = db' := by simpa using h
      exact .inl ⟨row, hrow, by simpa using hd, rfl, rfl⟩
  · rename_i hnone
    split at h
    · cases h
    · rename_i hrec
      obtain ⟨db₁, h₁, h⟩ := bind_ok h
      obtain ⟨rfl, rfl⟩ : interaction = r ∧ db₁ = db' := by simpa [pure, Except.pure] using h
      unfold insertAudit at h₁
      split at h₁
      · cases h₁
      · exact .inr ⟨hnone, by simpa using hrec, rfl, (Except.ok.inj h₁).symm⟩

theorem storeTrustedIngressEvidence_ok {db db' : Database} {id payload digest keyId : String}
    {acceptedAt : Instant}
    (h : db.storeTrustedIngressEvidence id payload digest acceptedAt keyId = .ok db') :
    (db.evidence id = none ∧ db' = { db with
      evidence := Function.update db.evidence id
        (some ⟨payload, digest, acceptedAt, keyId, .unused, 1, none, none, none, none⟩) }) ∨
    (∃ row, db.evidence id = some row ∧ row.payloadDigest = digest ∧ db' = db) := by
  unfold storeTrustedIngressEvidence at h
  split at h
  · exact .inl ⟨‹_›, (Except.ok.inj h).symm⟩
  · rename_i row hrow
    split at h
    · cases h
    · rename_i hd
      exact .inr ⟨row, hrow, by simpa using hd, (Except.ok.inj h).symm⟩

theorem storeConfirmationChallenge_ok {db db' : Database} {challenge : ChallengeRow}
    (h : db.storeConfirmationChallenge challenge = .ok db') :
    (∀ ch ∈ db.challenges, ch.challengeId ≠ challenge.challengeId) ∧
      db' = { db with
        challenges :=
          db.challenges ++ [{ challenge with status := .active, consumedAt := none }] } := by
  unfold storeConfirmationChallenge at h
  split at h
  · cases h
  · rename_i hnew
    exact ⟨by simpa using hnew, (Except.ok.inj h).symm⟩

/-- A put fact is found under its id; every other row stays. -/
theorem putFacts_apply (id : String) (m : String → Option FactRow) (l : List Fact) (fid : String) :
    (∃ f ∈ l, f.factId = fid ∧ putFacts id m l fid = some ⟨id, f⟩) ∨
      ((∀ f ∈ l, f.factId ≠ fid) ∧ putFacts id m l fid = m fid) := by
  induction l generalizing m with
  | nil => exact .inr ⟨by simp, rfl⟩
  | cons g l ih =>
    rcases ih (Function.update m g.factId (some ⟨id, g⟩)) with ⟨f, hf, hid, h⟩ | ⟨hne, h⟩
    · exact .inl ⟨f, List.mem_cons_of_mem _ hf, hid, h⟩
    · by_cases hg : g.factId = fid
      · refine .inl ⟨g, List.mem_cons_self, hg, ?_⟩
        rw [putFacts, List.foldl_cons]
        exact h.trans (by rw [← hg, Function.update_self])
      · refine .inr ⟨by simpa [hg] using hne, ?_⟩
        rw [putFacts, List.foldl_cons]
        exact h.trans (Function.update_of_ne (Ne.symm hg) _ _)

end Database

end Interactions

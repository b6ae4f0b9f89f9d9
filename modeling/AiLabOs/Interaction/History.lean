import AiLabOs.Interaction.System

/-!
# Trusted interactions: history

What the history of a run says about its tables, and what a call may rely on while others act: the
history only grows, and the identifiers handed out to a call stay its own until it uses them.

## Main definitions

* `World.Past`, `World.Seen`: a fact, or a record, of some commit
* `World.Own`: an identifier handed out to a call and not used yet
* `World.PortIdsFresh`: the canonical commit authority chooses fresh identifiers
* `Inv`, `Rely`, `protocol`: the protocol of the service

## Main results

* `Inv.current_eq`: a record seen before whose revision is still the stored one is the stored one
* `Inv.stored`: under fresh port identifiers every past fact is still stored
-/

namespace Interactions

open Process

/-- A fact whose identifier comes from outside, the canonical commit authority's evidence. -/
def Fact.supplied : Fact → Prop
  | .canonicalCommitEvidence e => e.commitRequired = true
  | _ => False

/-- The prefix of the identifiers handed out for a kind of fact. -/
def FactType.kind : FactType → String
  | .preview => "prv"
  | .confirmation => "cnf"
  | .approval => "apr"
  | .execution => "exe"
  | .verifiedResult => "vrs"
  | .canonicalCommitEvidence => "cce"
  | .recovery => "rcv"

/-- An identifier with the prefix of a kind of fact. -/
def FactType.Names (ty : FactType) (id : String) : Prop := ∃ hex, id = ty.kind ++ "_" ++ hex

/-- The prefix of an identifier tells the kind of fact. -/
theorem FactType.Names.unique {ty ty' : FactType} {id : String} (h : ty.Names id)
    (h' : ty'.Names id) : ty = ty' := by
  obtain ⟨hex, rfl⟩ := h
  obtain ⟨hex', h'⟩ := h'
  have hkind : ∀ (ty : FactType) (hex : String),
      (ty.kind ++ "_" ++ hex).toList.take 3 = ty.kind.toList := by
    intro ty hex
    cases ty <;> simp [kind]
  have htake : ty.kind.toList = ty'.kind.toList := by rw [← hkind ty hex, h', hkind]
  revert htake
  cases ty <;> cases ty' <;> decide

namespace World

/-- A fact that some commit of the interaction wrote. -/
def Past (w : World) (interactionId : String) (f : Fact) : Prop :=
  ∃ c ∈ w.commits, c.interaction.interactionId = interactionId ∧ f ∈ c.facts

/-- A record that some commit wrote. -/
def Seen (w : World) (r : Interaction) : Prop := ∃ c ∈ w.commits, c.interaction = r

/-- An identifier of a fact that the service named. -/
def Used (w : World) (id : String) : Prop :=
  ∃ c ∈ w.commits, ∃ f ∈ c.facts, ¬f.supplied ∧ f.factId = id

/-- An identifier handed out to the call `i` for a kind of fact, and not used yet. -/
def Own (w : World) (i : ℕ) (ty : FactType) (id : String) : Prop :=
  (id, i) ∈ w.issued ∧ ¬w.Used id ∧ ty.Names id

/-- The execution port has not been asked to carry out this execution. -/
def Unexecuted (w : World) (executionId : String) : Prop :=
  ∀ r ∈ w.executions, r.executionId ≠ executionId

/-- The reply to a request for a fact: a past fact of that identifier, if any. -/
def Loaded (w : World) (interactionId : String) (ty : FactType) (factId : Option String)
    (x : Option ty.Model) : Prop :=
  ∀ y, x = some y → w.Past interactionId (.of ty y) ∧ factId = some (Fact.of ty y).factId

/-- The identifiers the canonical commit authority chose are its own, and it never chose one for
two interactions. -/
structure PortIdsFresh (w : World) : Prop where
  not_issued : ∀ {id X i}, (id, X) ∈ w.supplied → (id, i) ∉ w.issued
  one_interaction : ∀ {id X Y}, (id, X) ∈ w.supplied → (id, Y) ∈ w.supplied → X = Y

/-- What fresh identifiers mean for the two lists. -/
theorem portIdsFresh_iff {w : World} : w.PortIdsFresh ↔
    (∀ s ∈ w.supplied, ∀ p ∈ w.issued, p.1 ≠ s.1) ∧
      ∀ s ∈ w.supplied, ∀ s' ∈ w.supplied, s.1 = s'.1 → s.2 = s'.2 := by
  constructor
  · refine fun h => ⟨?_, ?_⟩
    · rintro ⟨id, X⟩ hs ⟨id', i⟩ hp rfl
      exact h.not_issued hs hp
    · rintro ⟨id, X⟩ hs ⟨id', Y⟩ hs' rfl
      exact h.one_interaction hs hs'
  · rintro ⟨hissued, hone⟩
    exact ⟨fun hs hi => hissued _ hs _ hi rfl, fun hs hs' => hone _ hs _ hs' rfl⟩

instance (w : World) : Decidable w.PortIdsFresh := decidable_of_iff _ portIdsFresh_iff.symm

variable {w w' : World}

theorem Past.mono (h : w.commits <:+ w'.commits) {X : String} {f : Fact} (hf : w.Past X f) :
    w'.Past X f := by
  obtain ⟨c, hc, hX, hf⟩ := hf
  exact ⟨c, h.mem hc, hX, hf⟩

theorem Seen.mono (h : w.commits <:+ w'.commits) {r : Interaction} (hr : w.Seen r) :
    w'.Seen r := by
  obtain ⟨c, hc, rfl⟩ := hr
  exact ⟨c, h.mem hc, rfl⟩

theorem Loaded.mono (h : w.commits <:+ w'.commits) {X : String} {ty : FactType}
    {fid : Option String} {x : Option ty.Model} (hx : w.Loaded X ty fid x) :
    w'.Loaded X ty fid x :=
  fun y hy => ⟨(hx y hy).1.mono h, (hx y hy).2⟩

end World

/-! ## What a call may rely on -/

/-- How the world may change while others than the call `i` act. -/
structure Rely (i : ℕ) (w w' : World) : Prop where
  commits : w.commits <:+ w'.commits
  issued : w.issued <:+ w'.issued
  supplied : w.supplied <:+ w'.supplied
  authorised : w.authorised <:+ w'.authorised
  executions : w.executions <:+ w'.executions
  unused : ∀ id, (id, i) ∈ w.issued → ¬w.Used id → ¬w'.Used id
  unexecuted : ∀ id, (id, i) ∈ w.issued → w.Unexecuted id → w'.Unexecuted id

namespace Rely

variable {i : ℕ} {u v w w' : World}

theorem refl (i : ℕ) (w : World) : Rely i w w :=
  ⟨List.suffix_rfl, List.suffix_rfl, List.suffix_rfl, List.suffix_rfl, List.suffix_rfl,
    fun _ _ h => h, fun _ _ h => h⟩

theorem trans (h : Rely i u v) (h' : Rely i v w) : Rely i u w where
  commits := h.commits.trans h'.commits
  issued := h.issued.trans h'.issued
  supplied := h.supplied.trans h'.supplied
  authorised := h.authorised.trans h'.authorised
  executions := h.executions.trans h'.executions
  unused id hid hu := h'.unused id (h.issued.mem hid) (h.unused id hid hu)
  unexecuted id hid hu := h'.unexecuted id (h.issued.mem hid) (h.unexecuted id hid hu)

theorem past (h : Rely i w w') {X : String} {f : Fact} (hf : w.Past X f) : w'.Past X f :=
  hf.mono h.commits

theorem seen (h : Rely i w w') {r : Interaction} (hr : w.Seen r) : w'.Seen r := hr.mono h.commits

theorem own (h : Rely i w w') {ty : FactType} {id : String} (ho : w.Own i ty id) :
    w'.Own i ty id :=
  ⟨h.issued.mem ho.1, h.unused id ho.1 ho.2.1, ho.2.2⟩

theorem loaded (h : Rely i w w') {X : String} {ty : FactType} {fid : Option String}
    {x : Option ty.Model} (hx : w.Loaded X ty fid x) : w'.Loaded X ty fid x := hx.mono h.commits

theorem portIdsFresh (h : Rely i w w') (hf : w'.PortIdsFresh) : w.PortIdsFresh where
  not_issued hs hi := hf.not_issued (h.supplied.mem hs) (h.issued.mem hi)
  one_interaction hX hY := hf.one_interaction (h.supplied.mem hX) (h.supplied.mem hY)

end Rely

/-! ## The invariant -/

/-- A record keeps what identifies it. -/
structure Interaction.SameIdentity (r r' : Interaction) : Prop where
  interactionId : r.interactionId = r'.interactionId
  scope : r.scope = r'.scope
  actorId : r.actorId = r'.actorId

/-- A later commit of one interaction has a higher revision. -/
def Commit.Later (c c' : Commit) : Prop :=
  c.interaction.interactionId = c'.interaction.interactionId →
    c'.interaction.revision < c.interaction.revision

/-- The tables agree with the history, and identifiers name one thing each. -/
structure Inv (w : World) : Prop where
  /-- An identifier is handed out to one call. -/
  issued_once : ∀ {id i j}, (id, i) ∈ w.issued → (id, j) ∈ w.issued → i = j
  /-- An execution the port was asked for has an identifier that was handed out. -/
  executed_issued : ∀ {r}, r ∈ w.executions → ∃ i, (r.executionId, i) ∈ w.issued
  /-- A stored record is one that some commit wrote. -/
  record_seen : ∀ {X r}, w.db.records X = some r → r.interactionId = X ∧ w.Seen r
  /-- The stored record is the last one committed, and keeps its identity. -/
  current : ∀ c ∈ w.commits, ∃ r, w.db.records c.interaction.interactionId = some r ∧
    c.interaction.SameIdentity r ∧ c.interaction.revision ≤ r.revision ∧
    (c.interaction.revision = r.revision → c.interaction = r)
  /-- The commits of one interaction have ascending revisions. -/
  ascending : w.commits.Pairwise Commit.Later
  /-- A stored fact is one that some commit of its interaction wrote. -/
  fact_past : ∀ {id row}, w.db.facts id = some row →
    row.fact.factId = id ∧ w.Past row.interactionId row.fact
  /-- An identifier the service named was handed out, for that kind of fact. -/
  fact_named : ∀ {X f}, w.Past X f → ¬f.supplied →
    (∃ i, (f.factId, i) ∈ w.issued) ∧ f.type.Names f.factId
  /-- An identifier it did not name was supplied for that interaction. -/
  fact_supplied : ∀ {X f}, w.Past X f → f.supplied → (f.factId, X) ∈ w.supplied
  /-- An identifier the service named belongs to one interaction. -/
  fact_owner : ∀ {X Y f g}, w.Past X f → w.Past Y g → ¬f.supplied → ¬g.supplied →
    f.factId = g.factId → X = Y
  /-- The row of an idempotency key is the last commit under it. -/
  row_commit : ∀ {key row}, w.db.idempotency key = some row → ∃ c ∈ w.commits, c.key = key ∧
    c.payloadDigest = row.payloadDigest ∧ c.interaction = row.result ∧
    row.interactionId = row.result.interactionId
  /-- Every commit under a key agrees with its row. -/
  commit_row : ∀ c ∈ w.commits, ∃ row, w.db.idempotency c.key = some row ∧
    row.payloadDigest = c.payloadDigest ∧ row.interactionId = c.interaction.interactionId
  /-- The Preview a record names is a past fact of it. -/
  preview_past : ∀ {r id}, w.Seen r → r.currentPreviewId = some id →
    ∃ p : Preview, p.previewId = id ∧ w.Past r.interactionId (.preview p)
  /-- The Recovery a record names is a past fact of it. -/
  recovery_past : ∀ {r id}, w.Seen r → r.recoveryId = some id →
    ∃ v : Recovery, v.recoveryId = id ∧ w.Past r.interactionId (.recovery v)
  /-- Under fresh port identifiers a past fact is still stored, in its latest version. -/
  stored : w.PortIdsFresh → ∀ {X f}, w.Past X f → ∃ row, w.db.facts f.factId = some row ∧
    row.interactionId = X ∧ row.fact.type = f.type

namespace Inv

variable {w : World} {r cur : Interaction}

/-- **The compare-and-set rule**: a record seen before whose revision is still the stored one is
the stored one. -/
theorem current_eq (h : Inv w) (hr : w.Seen r) (hcur : w.db.records r.interactionId = some cur)
    (hrev : r.revision = cur.revision) : r = cur := by
  obtain ⟨c, hc, rfl⟩ := hr
  obtain ⟨r, hr, -, -, heq⟩ := h.current c hc
  obtain rfl : r = cur := by simpa [hr] using hcur
  exact heq hrev

/-- A record seen before is stored, at the same revision or a later one. -/
theorem seen_stored (h : Inv w) (hr : w.Seen r) :
    ∃ cur, w.db.records r.interactionId = some cur ∧ r.SameIdentity cur ∧
      r.revision ≤ cur.revision := by
  obtain ⟨c, hc, rfl⟩ := hr
  obtain ⟨r, hr, hid, hle, -⟩ := h.current c hc
  exact ⟨r, hr, hid, hle⟩

/-- What a request for a fact finds is a past fact of that identifier. -/
theorem loaded (h : Inv w) (X : String) (ty : FactType) (fid : Option String) :
    w.Loaded X ty fid (w.db.fact X ty fid) := by
  intro y hy
  simp only [Database.fact, Option.bind_eq_some_iff] at hy
  obtain ⟨id, rfl, row, hrow, hy⟩ := hy
  split at hy
  · rename_i hX
    obtain ⟨hid, hpast⟩ := h.fact_past hrow
    rw [Fact.as_eq_some] at hy
    rw [hX, hy] at hpast
    exact ⟨hpast, by rw [← hid, hy]⟩
  · cases hy

/-- Under fresh port identifiers a request for a past fact finds one of its kind. -/
theorem fact_isSome (h : Inv w) (hfresh : w.PortIdsFresh) {X : String} {f : Fact}
    (hf : w.Past X f) : (w.db.fact X f.type (some f.factId)).isSome := by
  obtain ⟨row, hrow, rfl, hty⟩ := h.stored hfresh hf
  simp only [Database.fact, Option.bind_some, hrow, if_true]
  rw [← hty]
  cases row.fact <;> rfl

/-- Every commit of an interaction is at most at the stored revision. -/
theorem le_current (h : Inv w) {X : String} (hcur : w.db.records X = some cur) {c : Commit}
    (hc : c ∈ w.commits) (hX : c.interaction.interactionId = X) :
    c.interaction.revision ≤ cur.revision := by
  obtain ⟨r, hr, -, hle, -⟩ := h.current c hc
  obtain rfl : r = cur := by simpa [hX, hcur] using hr.symm
  exact hle

/-- **The key rule**: when a key was unrecorded while a record was already there, and the record
is still the stored one, no commit of its interaction is under that key. -/
theorem still_unrecorded (h : Inv w) {w' : World} (h' : Inv w')
    (hsuffix : w.commits <:+ w'.commits) {key : IdempotencyKey}
    (hkey : w.db.idempotency key = none) (hr : w.Seen r)
    (hcur : w'.db.records r.interactionId = some cur) (hrev : cur.revision = r.revision)
    {c : Commit} (hc : c ∈ w'.commits) (hck : c.key = key) :
    c.interaction.interactionId ≠ r.interactionId := by
  intro hX
  have hle := h'.le_current hcur hc hX
  obtain ⟨cr, hcr, rfl⟩ := hr
  obtain ⟨new, heq⟩ := hsuffix
  have hasc := h'.ascending
  rw [← heq] at hasc hc
  rcases List.mem_append.mp hc with hnew | hold
  · have hlt := (List.pairwise_append.mp hasc).2.2 c hnew cr hcr hX
    omega
  · obtain ⟨row, hrow, -⟩ := h.commit_row c hold
    simp [hck, hkey] at hrow

/-- Under fresh port identifiers a record without a stored Preview names none. -/
theorem preview_none (h : Inv w) (hfresh : w.PortIdsFresh) (hr : w.Seen r)
    (hnone : w.db.fact r.interactionId .preview r.currentPreviewId = none) :
    r.currentPreviewId = none := by
  cases hid : r.currentPreviewId with
  | none => rfl
  | some id =>
    obtain ⟨p, rfl, hpast⟩ := h.preview_past hr hid
    have hsome := h.fact_isSome hfresh hpast
    rw [hid] at hnone
    simp [Fact.type, Fact.factId, hnone] at hsome

end Inv

theorem inv_initial : Inv World.initial where
  issued_once h := by simp [World.initial] at h
  executed_issued h := by simp [World.initial] at h
  record_seen h := by simp [World.initial, Database.empty] at h
  current c h := by simp [World.initial] at h
  ascending := List.Pairwise.nil
  fact_past h := by simp [World.initial, Database.empty] at h
  fact_named h := by simp [World.Past, World.initial] at h
  fact_supplied h := by simp [World.Past, World.initial] at h
  fact_owner h := by simp [World.Past, World.initial] at h
  row_commit h := by simp [World.initial, Database.empty] at h
  commit_row c h := by simp [World.initial] at h
  preview_past h := by simp [World.Seen, World.initial] at h
  recovery_past h := by simp [World.Seen, World.initial] at h
  stored _ _ _ h := by simp [World.Past, World.initial] at h

/-- **The protocol of the service.** -/
def protocol : Protocol World where
  Inv := Inv
  Rely := Rely
  refl := Rely.refl
  trans := Rely.trans

end Interactions

import AiLabOs.Base.Assoc
import AiLabOs.Memory.Models
import AiLabOs.Process.Conditioned

/-!
# Memory: decisions stay as they are written

The decision store saves an item in place of the one with its identifier, whatever that was, and
the outcome of a decision is updated by reading its item in one transaction and saving the changed
item in another. So a decision stays as it is written only as long as identifiers are not used
again, and nothing else is written between the two transactions of an update.

## Main definitions

* `save`, `batchSave`, `DecisionItem.outcomeUpdated`: the operations of the store
* `DecisionItem.Continues`: what may become of a decision
* `AppendOnly`: every decision has become one that continues it
* `Action.meets`: the transactions that do no harm

## Main results

* `sound`: such transactions leave every decision as it is written
* `append_only`: so do runs of them, and the notes of the updates stay
-/

namespace Memories

open Process

namespace Decisions

/-! ## The store -/

/-- A `MemoryItem` of the decision memory. -/
structure DecisionItem where
  id : String
  memoryType : MemoryType := .decision
  content : List (String × Json) := []
  importance : Importance
  timestamp : Timestamp
  metadata : List (String × Json) := []
deriving DecidableEq

/-- The table `decision_memories`, by its primary key. -/
abbrev DecisionTable := String → Option DecisionItem

inductive Exn where
  /-- The store only accepts decisions. -/
  | valueError (got : MemoryType)
  /-- The notes are no list, and have no `append`. -/
  | attributeError
deriving DecidableEq

variable (table : DecisionTable)

/-- `save`: the item takes the place of the one with its identifier. -/
def save (item : DecisionItem) : Except Exn DecisionTable :=
  if item.memoryType = .decision then .ok (Function.update table item.id (some item))
  else .error (.valueError item.memoryType)

/-- `batch_save`, in one transaction: the identifiers, and the table. -/
def batchSave : DecisionTable → List DecisionItem → Except Exn (List String × DecisionTable)
  | table, [] => .ok ([], table)
  | table, item :: items =>
    match save table item with
    | .error e => .error e
    | .ok table' =>
      match batchSave table' items with
      | .error e => .error e
      | .ok (ids, table'') => .ok (item.id :: ids, table'')

/-- A note with its time. -/
def noteAt (time note : String) : Json := .object [("time", .text time), ("note", .text note)]

namespace DecisionItem

/-- `content.get("outcome")`. -/
def outcome (item : DecisionItem) : Option Json := Assoc.get item.content "outcome"

/-- `content.get("outcome_notes", [])`, when it is a list. -/
def notes? (item : DecisionItem) : Option (List Json) :=
  match Assoc.get item.content "outcome_notes" with
  | none => some []
  | some (.array notes) => some notes
  | some _ => none

/-- The notes of the outcome. -/
def notes (item : DecisionItem) : List Json := item.notes?.getD []

/-- The item as `update_outcome` changes it. -/
def outcomeUpdated (item : DecisionItem) (outcome note time : String) :
    Except Exn DecisionItem :=
  let content := Assoc.set item.content "outcome" (.text outcome)
  let metadata := Assoc.set item.metadata "action" (.text "outcome_updated")
  if note = "" then .ok { item with content, metadata }
  else match item.notes? with
    | none => .error .attributeError
    | some notes => .ok { item with
        content := Assoc.set content "outcome_notes" (.array (notes ++ [noteAt time note]))
        metadata }

end DecisionItem

/-! ## The calls -/

/-- Each action is one transaction. -/
inductive Action where
  | get (id : String)
  | save (item : DecisionItem)
  | batchSave (items : List DecisionItem)
  /-- The item that `update_outcome` has read is changed and saved. -/
  | saveOutcome (read : DecisionItem) (outcome note : String)

abbrev Action.Reply : Action → Type
  | .get _ => Option DecisionItem
  | .save _ => Except Exn Unit
  | .batchSave _ => Except Exn (List String)
  | .saveOutcome _ _ _ => Except Exn Unit

/-- The transaction of `save`: an exception rolls it back. -/
def saveItem (item : DecisionItem) : Except Exn Unit × DecisionTable :=
  match save table item with
  | .ok table' => (.ok (), table')
  | .error e => (.error e, table)

/-- The transaction of `batch_save`. -/
def saveItems (items : List DecisionItem) : Except Exn (List String) × DecisionTable :=
  match batchSave table items with
  | .ok (ids, table') => (.ok ids, table')
  | .error e => (.error e, table)

/-- The end of `update_outcome`: the item is changed, and saved in a transaction. -/
def saveOutcome (read : DecisionItem) (outcome note time : String) :
    Except Exn Unit × DecisionTable :=
  match read.outcomeUpdated outcome note time with
  | .ok item => saveItem table item
  | .error e => (.error e, table)

/-- What a transaction does. The input is the time of the clock. -/
def handler : Handler Action Action.Reply String DecisionTable
  | _, .get id, _, table => some (table id, table)
  | _, .save item, _, table => some (saveItem table item)
  | _, .batchSave items, _, table => some (saveItems table items)
  | _, .saveOutcome read outcome note, time, table =>
    some (saveOutcome table read outcome note time)

inductive Request where
  | save (item : DecisionItem)
  | batchSave (items : List DecisionItem)
  | updateOutcome (decisionId outcome note : String)

inductive Answer where
  | id (id : String)
  | ids (ids : List String)
  | updated (found : Bool)
deriving DecidableEq

abbrev Prog (α : Type) := Program Action Action.Reply Exn α

/-- The value of a reply, or its exception. -/
def orRaise {α : Type} : Except Exn α → Prog α
  | .ok a => .ret a
  | .error e => .raise e

/-- `update_outcome`, of the item that was found. -/
def updateFound (outcome note : String) : Option DecisionItem → Prog Answer
  | none => .ret (.updated false)
  | some item => do
    orRaise (← Program.perform (.saveOutcome item outcome note))
    pure (.updated true)

def start : Request → Prog Answer
  | .save item => do
    orRaise (← Program.perform (.save item))
    pure (.id item.id)
  | .batchSave items => do
    let ids ← Program.perform (.batchSave items) >>= orRaise
    pure (.ids ids)
  | .updateOutcome decisionId outcome note =>
    Program.perform (.get decisionId) >>= updateFound outcome note

abbrev Calls := Config Request Action Action.Reply Exn Answer DecisionTable

abbrev noDecisions : DecisionTable := fun _ => none

/-! ## What may become of a decision -/

/-- What a decision was taken on. -/
def writtenKeys : List String := ["trigger", "alternatives", "reasoning_chain", "chosen"]

/-- An outcome stays, or a pending one is settled. -/
def OutcomeMoves (old new : Option Json) : Prop :=
  new = old ∨ old = some (.text "PENDING") ∧
    (new = some (.text "SUCCESS") ∨ new = some (.text "FAILURE"))

instance (old new : Option Json) : Decidable (OutcomeMoves old new) := by
  unfold OutcomeMoves
  infer_instance

/-- **A decision continues another**: it is as it was written, its outcome has stayed or was
settled, and no note is lost. -/
structure DecisionItem.Continues (old new : DecisionItem) : Prop where
  written : ∀ key ∈ writtenKeys, Assoc.get new.content key = Assoc.get old.content key
  importance : new.importance = old.importance
  timestamp : new.timestamp = old.timestamp
  outcome : OutcomeMoves old.outcome new.outcome
  notes : old.notes <+: new.notes

instance (old new : DecisionItem) : Decidable (old.Continues new) :=
  decidable_of_iff ((∀ key ∈ writtenKeys, Assoc.get new.content key = Assoc.get old.content key) ∧
    new.importance = old.importance ∧ new.timestamp = old.timestamp ∧
    OutcomeMoves old.outcome new.outcome ∧ old.notes <+: new.notes)
    ⟨fun ⟨h₁, h₂, h₃, h₄, h₅⟩ => ⟨h₁, h₂, h₃, h₄, h₅⟩, fun h => ⟨h.1, h.2, h.3, h.4, h.5⟩⟩

/-- **Append-only**: every decision that was stored has become one that continues it. -/
def AppendOnly (table table' : DecisionTable) : Prop :=
  ∀ id old, table id = some old → ∃ new, table' id = some new ∧ old.Continues new

/-! ## The condition -/

/-- The last item of a batch with an identifier. -/
def lastOf (items : List DecisionItem) (id : String) : Option DecisionItem :=
  items.reverse.find? fun item => item.id = id

/-- The outcome that an update asks for is the one that was read, or settles it: `PENDING` becomes
`SUCCESS` or `FAILURE`. -/
def DecisionItem.settledBy (read : DecisionItem) (outcome : String) : Bool :=
  read.outcome = some (.text outcome) ||
    read.outcome = some (.text "PENDING") && (outcome = "SUCCESS" || outcome = "FAILURE")

/-- **A transaction that does no harm**: a saved item has an identifier that is not used yet, or is
the stored item; the stored item is still the one that an update has read, and the update settles
it. A transaction that raises saves nothing. -/
def Action.meets (table : DecisionTable) : Action → Bool
  | .get _ => true
  | .save item => item.memoryType ≠ .decision || (table item.id).all fun old => item = old
  | .batchSave items => items.any (fun item => item.memoryType ≠ .decision) ||
    items.all fun item => (table item.id).all fun old => item = old
  | .saveOutcome read outcome note => note ≠ "" && read.notes?.isNone ||
    table read.id = some read && read.settledBy outcome

/-- A run whose transactions do no harm leads from `c` to `c'`. -/
abbrev LeadsTo (c c' : Calls) : Prop :=
  ReachesIf handler start (meets fun _ e _ table => e.meets table) c c'

/-! ## Decisions that continue others -/

section Items

variable {item old new : DecisionItem} {table table' table'' : DecisionTable}

theorem OutcomeMoves.trans {a b c : Option Json} (h : OutcomeMoves a b) (h' : OutcomeMoves b c) :
    OutcomeMoves a c := by
  rcases h with rfl | ⟨rfl, hb⟩
  · exact h'
  · rcases h' with rfl | ⟨rfl, -⟩
    · exact .inr ⟨rfl, hb⟩
    · rcases hb with hb | hb <;> exact absurd hb (by decide)

namespace DecisionItem

theorem Continues.refl (item : DecisionItem) : item.Continues item :=
  ⟨fun _ _ => rfl, rfl, rfl, .inl rfl, List.prefix_rfl⟩

theorem Continues.trans (h : item.Continues old) (h' : old.Continues new) : item.Continues new where
  written key hkey := (h'.written key hkey).trans (h.written key hkey)
  importance := h'.importance.trans h.importance
  timestamp := h'.timestamp.trans h.timestamp
  outcome := h.outcome.trans h'.outcome
  notes := h.notes.trans h'.notes

theorem notes?_eq {notes : List Json}
    (h : Assoc.get item.content "outcome_notes" = some (.array notes)) :
    item.notes? = some notes := by
  unfold notes?
  rw [h]

theorem notes?_congr (h : Assoc.get new.content "outcome_notes" =
    Assoc.get item.content "outcome_notes") : new.notes? = item.notes? := by
  unfold notes?
  rw [h]

/-- **What an update leaves of an item**: all that the decision was taken on. -/
theorem outcomeUpdated_ok {outcome note time : String}
    (h : item.outcomeUpdated outcome note time = .ok new) :
    new.id = item.id ∧ new.importance = item.importance ∧ new.timestamp = item.timestamp ∧
      (∀ key ∈ writtenKeys, Assoc.get new.content key = Assoc.get item.content key) ∧
      new.outcome = some (.text outcome) ∧
      new.notes = item.notes ++ (if note = "" then [] else [noteAt time note]) := by
  unfold outcomeUpdated at h
  by_cases hnote : note = ""
  · rw [if_pos hnote] at h
    obtain rfl := Except.ok.inj h
    refine ⟨rfl, rfl, rfl, fun key hkey => ?_, Assoc.get_set_self .., ?_⟩
    · refine Assoc.get_set_of_ne ?_
      rintro rfl
      exact absurd hkey (by decide)
    · rw [if_pos hnote, List.append_nil]
      exact congrArg (Option.getD · []) (notes?_congr (Assoc.get_set_of_ne (by decide)))
  · rw [if_neg hnote] at h
    cases hnotes : item.notes? with
    | none =>
      rw [hnotes] at h
      cases h
    | some notes =>
      rw [hnotes] at h
      obtain rfl := Except.ok.inj h
      refine ⟨rfl, rfl, rfl, fun key hkey => ?_, ?_, ?_⟩
      · refine (Assoc.get_set_of_ne ?_).trans (Assoc.get_set_of_ne ?_)
        · rintro rfl
          exact absurd hkey (by decide)
        · rintro rfl
          exact absurd hkey (by decide)
      · exact (Assoc.get_set_of_ne (by decide)).trans (Assoc.get_set_self ..)
      · rw [if_neg hnote, DecisionItem.notes, DecisionItem.notes, hnotes,
          notes?_eq (Assoc.get_set_self ..)]
        rfl

/-- **An update continues the item that it has read**, if it settles it. -/
theorem outcomeUpdated_continues {outcome note time : String} (hsettles : item.settledBy outcome)
    (h : item.outcomeUpdated outcome note time = .ok new) : item.Continues new := by
  obtain ⟨-, himportance, htimestamp, hwritten, houtcome, hnew⟩ := outcomeUpdated_ok h
  refine ⟨hwritten, himportance, htimestamp, ?_, hnew ▸ List.prefix_append ..⟩
  rw [houtcome]
  simp only [settledBy, Bool.or_eq_true, Bool.and_eq_true, decide_eq_true_eq] at hsettles
  rcases hsettles with hsame | ⟨hpending, hsuccess | hfailure⟩
  · exact .inl hsame.symm
  · exact .inr ⟨hpending, .inl (by rw [hsuccess])⟩
  · exact .inr ⟨hpending, .inr (by rw [hfailure])⟩

end DecisionItem

/-! ## Tables -/

theorem AppendOnly.refl (table : DecisionTable) : AppendOnly table table :=
  fun _ old hold => ⟨old, hold, .refl old⟩

theorem AppendOnly.trans (h : AppendOnly table table') (h' : AppendOnly table' table'') :
    AppendOnly table table'' := by
  intro id old hold
  obtain ⟨mid, hmid, hcontinues⟩ := h id old hold
  obtain ⟨new, hnew, hcontinues'⟩ := h' id mid hmid
  exact ⟨new, hnew, hcontinues.trans hcontinues'⟩

/-- Every item is filed under its identifier. -/
def Filed (table : DecisionTable) : Prop := ∀ id item, table id = some item → item.id = id

theorem save_ok (h : save table item = .ok table') :
    item.memoryType = .decision ∧ table' = Function.update table item.id (some item) := by
  unfold save at h
  split at h
  · exact ⟨‹_›, (Except.ok.inj h).symm⟩
  · cases h

theorem Filed.update (h : Filed table) (item : DecisionItem) :
    Filed (Function.update table item.id (some item)) := by
  intro id found hfound
  by_cases hid : id = item.id
  · subst hid
    rw [Function.update_self] at hfound
    rw [Option.some.inj hfound]
  · rw [Function.update_of_ne hid] at hfound
    exact h id found hfound

theorem AppendOnly.update (h : ∀ old, table item.id = some old → old.Continues item) :
    AppendOnly table (Function.update table item.id (some item)) := by
  intro id old hold
  by_cases hid : id = item.id
  · subst hid
    exact ⟨item, Function.update_self .., h old hold⟩
  · exact ⟨old, by rwa [Function.update_of_ne hid], .refl old⟩

theorem lastOf_cons (item : DecisionItem) (items : List DecisionItem) (id : String) :
    lastOf (item :: items) id =
      (lastOf items id).or (if item.id = id then some item else none) := by
  unfold lastOf
  rw [List.reverse_cons, List.find?_append]
  by_cases hid : item.id = id <;> simp [hid]

/-- **A batch** leaves the last item of each identifier. -/
theorem batchSave_ok {items : List DecisionItem} {ids : List String}
    (h : batchSave table items = .ok (ids, table')) :
    (∀ item ∈ items, item.memoryType = .decision) ∧
      ∀ id, table' id = (lastOf items id).or (table id) := by
  induction items generalizing table ids with
  | nil =>
    obtain ⟨-, rfl⟩ := Prod.mk.inj (Except.ok.inj h)
    exact ⟨fun _ hitem => absurd hitem List.not_mem_nil, fun _ => rfl⟩
  | cons item items ih =>
    unfold batchSave at h
    cases hsave : save table item with
    | error e =>
      rw [hsave] at h
      cases h
    | ok table₁ =>
      rw [hsave] at h
      dsimp only at h
      cases hrest : batchSave table₁ items with
      | error e =>
        rw [hrest] at h
        cases h
      | ok saved =>
        rw [hrest] at h
        obtain ⟨-, rfl⟩ := Prod.mk.inj (Except.ok.inj h)
        obtain ⟨hitem, rfl⟩ := save_ok hsave
        obtain ⟨hitems, hget⟩ := ih hrest
        refine ⟨List.forall_mem_cons.mpr ⟨hitem, hitems⟩, fun id => ?_⟩
        rw [hget, lastOf_cons, Option.or_assoc]
        by_cases hid : item.id = id
        · subst hid
          rw [Function.update_self, if_pos rfl, Option.some_or]
        · rw [Function.update_of_ne (fun h => hid h.symm), if_neg hid, Option.none_or]

theorem lastOf_mem {items : List DecisionItem} {id : String} (h : lastOf items id = some item) :
    item ∈ items ∧ item.id = id := by
  refine ⟨List.mem_reverse.mp (List.mem_of_find?_eq_some h), ?_⟩
  simpa using List.find?_some h

end Items

/-! ## The protocol -/

/-- Every decision is filed, and stays as it is written while the others act. -/
def protocol : Protocol DecisionTable where
  Inv := Filed
  Rely _ := AppendOnly
  refl _ := AppendOnly.refl
  trans := AppendOnly.trans

/-- No call owes anything before an action. -/
abbrev pre : ℕ → Log Action Action.Reply → Action → DecisionTable → Prop := fun _ _ _ _ => True

/-- The condition of every action. -/
abbrev condition : ℕ → Action → String → DecisionTable → Bool := fun _ e _ table => e.meets table

section Runs

variable {item : DecisionItem} {table table' : DecisionTable} {i : ℕ}

/-- What a transaction does that does no harm. -/
abbrev Grows (table table' : DecisionTable) : Prop := Filed table' ∧ AppendOnly table table'

/-- A save that the stored item allows. -/
theorem saveItem_grows (hfiled : Filed table)
    (h : item.memoryType = .decision → ∀ old, table item.id = some old → old.Continues item) :
    Grows table (saveItem table item).2 := by
  unfold saveItem
  cases hsave : save table item with
  | error e => exact ⟨hfiled, .refl table⟩
  | ok table' =>
    obtain ⟨htype, rfl⟩ := save_ok hsave
    exact ⟨hfiled.update item, .update (h htype)⟩

/-- A batch whose last items the stored ones allow. -/
theorem saveItems_grows {items : List DecisionItem} (hfiled : Filed table)
    (h : (∀ item ∈ items, item.memoryType = .decision) → ∀ item ∈ items, ∀ old,
      table item.id = some old → ∀ new, lastOf items item.id = some new → old.Continues new) :
    Grows table (saveItems table items).2 := by
  unfold saveItems
  cases hsave : batchSave table items with
  | error e => exact ⟨hfiled, .refl table⟩
  | ok saved =>
    obtain ⟨ids, table'⟩ := saved
    obtain ⟨htypes, hget⟩ := batchSave_ok hsave
    show Grows table table'
    constructor
    · intro id found hfound
      rw [hget] at hfound
      cases hlast : lastOf items id with
      | none => exact hfiled id found (by simpa [hlast] using hfound)
      | some new =>
        obtain rfl : new = found := by simpa [hlast] using hfound
        exact (lastOf_mem hlast).2
    · intro id old hold
      cases hlast : lastOf items id with
      | none => exact ⟨old, by rw [hget, hlast, hold]; rfl, .refl old⟩
      | some new =>
        obtain ⟨hmem, rfl⟩ := lastOf_mem hlast
        exact ⟨new, by rw [hget, hlast]; rfl, h htypes new hmem old hold new hlast⟩

/-- **The step lemma**: a transaction that does no harm leaves every decision as it is written. -/
theorem step_grows {e : Action} {time : String} {r : e.Reply} (hfiled : Filed table)
    (hmeets : e.meets table = true) (hr : handler i e time table = some (r, table')) :
    Grows table table' := by
  cases e with
  | get id =>
    obtain ⟨-, rfl⟩ := Prod.mk.inj (Option.some.inj hr)
    exact ⟨hfiled, .refl _⟩
  | save item =>
    obtain rfl : (saveItem table item).2 = table' := congrArg Prod.snd (Option.some.inj hr)
    refine saveItem_grows hfiled fun htype old hold => ?_
    obtain rfl : item = old := by simpa [Action.meets, htype, hold] using hmeets
    exact .refl item
  | batchSave items =>
    obtain rfl : (saveItems table items).2 = table' := congrArg Prod.snd (Option.some.inj hr)
    refine saveItems_grows hfiled fun htypes item hitem old hold new hnew => ?_
    have hnone : items.any (fun item => item.memoryType ≠ .decision) = false := by
      simpa using htypes
    simp only [Action.meets, hnone, Bool.false_or, List.all_eq_true] at hmeets
    obtain ⟨hmem, hid⟩ := lastOf_mem hnew
    obtain rfl : new = old := by simpa [hid, hold] using hmeets new hmem
    exact .refl new
  | saveOutcome read outcome note =>
    obtain rfl : (saveOutcome table read outcome note time).2 = table' :=
      congrArg Prod.snd (Option.some.inj hr)
    unfold saveOutcome
    cases hupdated : read.outcomeUpdated outcome note time with
    | error e => exact ⟨hfiled, .refl table⟩
    | ok item =>
      have hlist : ¬(note ≠ "" ∧ read.notes? = none) := by
        rintro ⟨hnote, hnone⟩
        unfold DecisionItem.outcomeUpdated at hupdated
        rw [if_neg hnote, hnone] at hupdated
        cases hupdated
      have hboth : table read.id = some read ∧ read.settledBy outcome = true := by
        simp only [Action.meets, Bool.or_eq_true, Bool.and_eq_true, decide_eq_true_eq,
          Option.isNone_iff_eq_none] at hmeets
        exact hmeets.resolve_left hlist
      refine saveItem_grows hfiled fun _ stored hstored => ?_
      rw [(DecisionItem.outcomeUpdated_ok hupdated).1, hboth.1] at hstored
      rw [← Option.some.inj hstored]
      exact DecisionItem.outcomeUpdated_continues hboth.2 hupdated

theorem sound : Sound protocol (guarded handler condition) pre := by
  intro i log e input r w w' hinv _ hr
  obtain ⟨hmeets, hr⟩ := guarded_eq_some.mp hr
  obtain ⟨hfiled, happend⟩ := step_grows hinv hmeets hr
  exact ⟨hfiled, fun _ _ => happend⟩

/-! ## The calls -/

/-- What a call has left: the note of an update is one of the notes. -/
def Request.Left : Request → Answer → DecisionTable → Prop
  | .updateOutcome decisionId _ note, .updated true, table => note ≠ "" →
    ∃ item time, table decisionId = some item ∧ noteAt time note ∈ item.notes
  | _, _, _ => True

theorem Request.Left.append {k : Request} {a : Answer} (h : k.Left a table)
    (happend : AppendOnly table table') : k.Left a table' := by
  cases k with
  | save item => trivial
  | batchSave items => trivial
  | updateOutcome decisionId outcome note =>
    cases a with
    | id id => trivial
    | ids ids => trivial
    | updated found =>
      cases found with
      | false => trivial
      | true =>
        intro hnote
        obtain ⟨item, time, hitem, hmem⟩ := h hnote
        obtain ⟨new, hnew, hcontinues⟩ := happend decisionId item hitem
        exact ⟨new, time, hnew, hcontinues.notes.subset hmem⟩

/-- The note of an update that is saved is one of the notes. -/
theorem saveOutcome_note {read : DecisionItem} {outcome note time : String}
    (h : saveOutcome table read outcome note time = (.ok (), table')) (hnote : note ≠ "") :
    ∃ item, table' read.id = some item ∧ noteAt time note ∈ item.notes := by
  unfold saveOutcome at h
  cases hupdated : read.outcomeUpdated outcome note time with
  | error e =>
    rw [hupdated] at h
    cases h
  | ok item =>
    obtain ⟨hid, -, -, -, -, hnotes⟩ := DecisionItem.outcomeUpdated_ok hupdated
    rw [hupdated] at h
    dsimp only [saveItem] at h
    cases hsave : save table item with
    | error e =>
      rw [hsave] at h
      cases h
    | ok saved =>
      rw [hsave] at h
      obtain ⟨-, rfl⟩ := Prod.mk.inj h
      obtain ⟨-, rfl⟩ := save_ok hsave
      refine ⟨item, hid ▸ Function.update_self .., ?_⟩
      rw [hnotes, if_neg hnote]
      exact List.mem_append_right _ (List.mem_singleton_self _)

/-- **Every call is safe**: an update saves what it has read, changed. -/
theorem start_safe (k : Request) (i : ℕ) (table : DecisionTable) :
    Safe protocol (guarded handler condition) pre i (fun a _ w => k.Left a w)
      (fun _ _ _ => True) (start k) [] table := by
  cases k with
  | save item =>
    refine .perform fun w _ _ => ⟨trivial, fun input r w' _ => ?_⟩
    cases r with
    | ok _ => exact .ret trivial
    | error e => exact .raise trivial
  | batchSave items =>
    refine .perform fun w _ _ => ⟨trivial, fun input r w' _ => ?_⟩
    cases r with
    | ok ids => exact .ret trivial
    | error e => exact .raise trivial
  | updateOutcome decisionId outcome note =>
    refine .perform fun w _ hinv => ⟨trivial, fun input r w' hr => ?_⟩
    obtain ⟨-, hr⟩ := guarded_eq_some.mp hr
    obtain ⟨rfl, rfl⟩ := Prod.mk.inj (Option.some.inj hr)
    cases hfound : w decisionId with
    | none => exact .ret trivial
    | some item =>
      have hid : item.id = decisionId := hinv _ _ hfound
      -- the save is an action of its own, and others may come between
      refine .perform fun w' _ _ => ⟨trivial, fun time r w'' hr => ?_⟩
      obtain ⟨-, hr⟩ := guarded_eq_some.mp hr
      have hsaved : saveOutcome w' item outcome note time = (r, w'') := Option.some.inj hr
      cases r with
      | error e => exact .raise trivial
      | ok _ =>
        refine .ret fun hnote => ?_
        obtain ⟨new, hnew, hmem⟩ := saveOutcome_note hsaved hnote
        exact ⟨new, time, hid ▸ hnew, hmem⟩

theorem starts_safe : StartsSafe protocol (guarded handler condition) pre start :=
  fun i k w _ => (start_safe k i w).mono (fun _ _ _ _ => trivial) fun _ _ _ _ => trivial

end Runs

/-! ## Runs -/

/-- **The decision memory is append-only** over the runs whose transactions do no harm: from any
point of such a run on every decision that is stored stays as it is written, and the note of every
update that has returned is one of the notes. -/
theorem append_only {c c' : Calls} (h : LeadsTo (idle noDecisions) c) (h' : LeadsTo c c') :
    AppendOnly c.world c'.world ∧
      ∀ (i : ℕ) (decisionId outcome note : String) (log : Log Action Action.Reply),
        c'.calls[i]? =
          some ⟨.updateOutcome decisionId outcome note, log, .ret (.updated true)⟩ →
        note ≠ "" → ∃ item time, c'.world decisionId = some item ∧
          noteAt time note ∈ item.notes := by
  have hfiled : Filed noDecisions := nofun
  have hall : AllSafe protocol (guarded handler condition) pre c :=
    (AllSafe.idle hfiled).reaches sound starts_safe h.guarded
  constructor
  · refine hall.relation sound starts_safe h'.guarded AppendOnly.refl
      (fun _ _ _ => AppendOnly.trans) fun i log e time r w w' hinv _ _ hr => ?_
    obtain ⟨hmeets, hr⟩ := guarded_eq_some.mp hr
    exact (step_grows hinv hmeets hr).2
  · intro i decisionId outcome note log hi hnote
    have hstart : ∀ j k w, k = Request.updateOutcome decisionId outcome note → protocol.Inv w →
        Safe protocol (guarded handler condition) pre j
          (fun a _ w => (Request.updateOutcome decisionId outcome note).Left a w)
          (fun _ _ _ => True) (start k) [] w := by
      rintro j k w rfl -
      exact start_safe _ j w
    have hsafe := Reaches.every _ sound starts_safe hfiled hstart
      (fun _ _ _ _ _ hrely _ hleft => Request.Left.append hleft hrely)
      (fun _ _ _ _ _ _ _ _ => trivial) (h.trans h').guarded rfl hi
    exact hsafe.of_ret hnote

/-! ## A note that is lost -/

/-- A pending decision. -/
def pending : DecisionItem where
  id := "dec_001"
  content := [("trigger", .text "market drop"), ("alternatives", .array [.text "A", .text "B"]),
    ("reasoning_chain", .array [.text "risk is low"]), ("chosen", .text "A"),
    ("outcome", .text "PENDING")]
  importance := ⟨1, within_one⟩
  timestamp := { wall := ⟨2026, 1, 5, 0, 0, 0, 0, by decide⟩ }

/-- The calls after some events. -/
def after (c : Calls) (events : List (Event Request String)) : Calls :=
  (run handler start c events).getD c

theorem leadsTo_after {c : Calls} {events : List (Event Request String)}
    (h : (runIf handler start (meets condition) c events).isSome = true) :
    LeadsTo c (after c events) := by
  obtain ⟨c', hc⟩ := Option.isSome_iff_exists.mp h
  refine ⟨events, ?_⟩
  rw [after, run_of_runIf hc]
  exact hc

theorem reaches_after {c : Calls} {events : List (Event Request String)}
    (h : (run handler start c events).isSome = true) :
    Reaches handler start c (after c events) := by
  obtain ⟨c', hc⟩ := Option.isSome_iff_exists.mp h
  refine ⟨events, ?_⟩
  rw [after, hc]
  rfl

/-- The decision is stored. -/
def stored : Calls := after (idle noDecisions) [.arrive (.save pending), .act 0 "09:00"]

/-- An update settles it. -/
def settled : Calls :=
  after stored [.arrive (.updateOutcome "dec_001" "SUCCESS" "target reached"), .act 1 "10:00",
    .act 1 "10:00"]

/-- Two updates have read it, and the second one settles it. -/
def overtaken : Calls :=
  after stored [.arrive (.updateOutcome "dec_001" "SUCCESS" "target reached"), .act 1 "10:00",
    .arrive (.updateOutcome "dec_001" "FAILURE" "loss in March"), .act 2 "10:01", .act 2 "10:01"]

/-- The first one settles it as well. -/
def overwritten : Calls := after overtaken [.act 1 "10:02"]

theorem append_only_settled : AppendOnly stored.world settled.world :=
  (append_only (leadsTo_after (by decide +kernel)) (leadsTo_after (by decide +kernel))).1

/-- The note of the second update is lost, and the outcome goes from failure to success. -/
theorem overwritten_lost : ¬ ∀ c c' : Calls, Reaches handler start (idle noDecisions) c →
    Reaches handler start c c' → AppendOnly c.world c'.world := by
  intro h
  have hovertaken : Reaches handler start (idle noDecisions) overtaken :=
    Reaches.trans (reaches_after (by decide +kernel)) (reaches_after (by decide +kernel))
  have happend := h overtaken overwritten hovertaken (reaches_after (by decide +kernel))
  obtain ⟨old, hold, hlost⟩ : ∃ old, overtaken.world "dec_001" = some old ∧
      (overwritten.world "dec_001").all (fun new => old.Continues new) = false :=
    ⟨(overtaken.world "dec_001").getD pending, by decide +kernel, by decide +kernel⟩
  obtain ⟨new, hnew, hcontinues⟩ := happend "dec_001" old hold
  rw [hnew, Option.all_some, decide_eq_true hcontinues] at hlost
  cases hlost

end Decisions

end Memories

import AiLabOs.Base.Table
import AiLabOs.Memory.Models

/-!
# Memory: stores

Three stores answer memory queries. Two of them write the query as SQL over their table; the
session memory filters a dictionary.

## Main definitions

* `EpisodicStore`, `SessionMemory`, `DecisionStore`: the stores, by the items they hold
* `EpisodicStore.query`, `SessionMemory.query`, `DecisionStore.query`: their answers
-/

namespace Memories

variable (py : Platform)

/-- `importance DESC`. -/
def moreImportant (a b : MemoryItem) : Prop := b.importance ≤ a.importance

instance : DecidableRel moreImportant := fun a b =>
  inferInstanceAs (Decidable (b.importance ≤ a.importance))

instance : Std.Total moreImportant where
  total a b := le_total b.importance a.importance

instance : IsTrans MemoryItem moreImportant where
  trans _ _ _ hab hbc := le_trans hbc hab

/-! ## Conditions in SQL -/

/-- `json_extract(content, '$.key')`, when it is a text. The text comes with its NULs, at which some
versions of SQLite end it. -/
def jsonExtract (content : Json) (key : String) : Option String :=
  match content.field? key with
  | some (.text s) => some s
  | some (.array items) => some (py.jsonText (.array items))
  | some (.object fields) => some (py.jsonText (.object fields))
  | _ => none

/-- The conditions both SQL stores add to the one on the type: the importance when one is given, the
texts of the timestamps, and the filters whose keys the store knows. -/
def sqlConditions (keys : List String) (spec : MemoryQuery) (item : MemoryItem) : Bool :=
  (decide (spec.minImportance.1 ≤ 0) || decide (spec.minImportance ≤ item.importance)) &&
  spec.timeRange.all (fun range =>
    range.1.isoformat ≤ item.timestamp.isoformat &&
      item.timestamp.isoformat ≤ range.2.isoformat) &&
  spec.filters.all fun filter =>
    filter.1 ∉ keys || jsonExtract py item.content filter.1 = some (py.str filter.2)

/-! ## The episodic store -/

/-- `SQLiteEpisodicStore`: it accepts items of its type only. -/
structure EpisodicStore where
  items : List MemoryItem
  unique : Table.Unique MemoryItem.id items
  typed : ∀ item ∈ items, item.memoryType = .episodic

/-- The filters `SQLiteEpisodicStore.query` knows. -/
def episodicKeys : List String := ["agent_id", "session_id", "source"]

/-- The `WHERE` clause of `SQLiteEpisodicStore.query`. -/
def episodicAccepts (spec : MemoryQuery) (item : MemoryItem) : Bool :=
  decide (item.memoryType = spec.memoryType.getD .episodic) &&
    sqlConditions py episodicKeys spec item

/-- `SQLiteEpisodicStore.query`, over the rows in the order the database comes upon them. -/
def EpisodicStore.query (spec : MemoryQuery) (scan : List MemoryItem) : List MemoryItem :=
  ((scan.filter (episodicAccepts py spec)).insertionSort moreImportant).take spec.topK

/-! ## The decision store -/

/-- `SQLiteDecisionStore`: it accepts items of its type only. -/
structure DecisionStore where
  items : List MemoryItem
  unique : Table.Unique MemoryItem.id items
  typed : ∀ item ∈ items, item.memoryType = .decision

/-- The filters `SQLiteDecisionStore.query` knows. -/
def decisionKeys : List String := ["outcome", "agent_id", "session_id", "decision_type"]

/-- The `WHERE` clause of `SQLiteDecisionStore.query`. -/
def decisionAccepts (spec : MemoryQuery) (item : MemoryItem) : Bool :=
  decide (item.memoryType = .decision) && sqlConditions py decisionKeys spec item

/-- `importance DESC, timestamp DESC, id ASC`. -/
def decisionKey (item : MemoryItem) : Importanceᵒᵈ ×ₗ Stringᵒᵈ ×ₗ String :=
  toLex (OrderDual.toDual item.importance,
    toLex (OrderDual.toDual item.timestamp.isoformat, item.id))

/-- The order of `SQLiteDecisionStore.query`. -/
def decisionOrder (a b : MemoryItem) : Prop := decisionKey a ≤ decisionKey b

instance : DecidableRel decisionOrder := fun a b =>
  inferInstanceAs (Decidable (decisionKey a ≤ decisionKey b))

instance : Std.Total decisionOrder where
  total a b := le_total (decisionKey a) (decisionKey b)

instance : IsTrans MemoryItem decisionOrder where
  trans _ _ _ hab hbc := le_trans hab hbc

/-- `SQLiteDecisionStore.query`, over the rows in the order the database comes upon them. -/
def DecisionStore.query (spec : MemoryQuery) (scan : List MemoryItem) : List MemoryItem :=
  Query.page spec.topK spec.offset
    ((scan.filter (decisionAccepts py spec)).insertionSort decisionOrder)

/-! ## The session memory -/

/-- `SessionMemory`: its dictionary, in the order of insertion, and when each entry expires. -/
structure SessionMemory where
  items : List MemoryItem
  unique : Table.Unique MemoryItem.id items
  expireAt : String → ℤ

/-- `_evict_expired`, at a time. -/
def SessionMemory.evictExpired (memory : SessionMemory) (now : ℤ) : SessionMemory where
  items := memory.items.filter fun item => now ≤ memory.expireAt item.id
  unique := memory.unique.filter _
  expireAt := memory.expireAt

/-- The condition of `SessionMemory.query`. -/
def sessionAccepts (spec : MemoryQuery) (item : MemoryItem) : Bool :=
  decide (spec.minImportance.1 ≤ 0) || decide (spec.minImportance ≤ item.importance)

/-- `SessionMemory.query`, at a time. -/
def SessionMemory.query (memory : SessionMemory) (now : ℤ) (spec : MemoryQuery) : List MemoryItem :=
  (((memory.evictExpired now).items.filter (sessionAccepts spec)).insertionSort
    moreImportant).take spec.topK

end Memories

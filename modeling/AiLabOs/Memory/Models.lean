import AiLabOs.Base.Json
import AiLabOs.Base.Ranking
import AiLabOs.Base.TimeDelta
import Mathlib.Algebra.Order.Ring.Rat

/-!
# Memory: models

Memory items and the queries over them. A query asks for the items that meet its conditions, in an
order by one key, which leaves items of the same key in any order.

## Main definitions

* `Timestamp`: a `datetime`, naive or with an offset
* `MemoryItem`, `MemoryQuery`: the models
* `MemoryQuery.wants`, `MemoryQuery.before`: the conditions of a query and its order
* `MemoryQuery.Answers`: the lists that answer a query
-/

namespace Memories

/-! ## Timestamps -/

/-- A `datetime`: a clock reading, and the offset of its zone from UTC in microseconds, unless it is
naive. -/
structure Timestamp where
  wall : DateTime
  offset : Option ℤ := none
deriving DecidableEq

/-- The text of an offset: `±HH:MM`, with seconds and microseconds where there are any. -/
def offsetText (offset : ℤ) : List Char :=
  let us := offset.natAbs
  let seconds := us / 1000000
  (if offset < 0 then '-' else '+') :: TextOrder.padded 2 (seconds / 3600) ++
    ':' :: TextOrder.padded 2 (seconds / 60 % 60) ++
    (if seconds % 60 = 0 ∧ us % 1000000 = 0 then []
      else ':' :: TextOrder.padded 2 (seconds % 60)) ++
    (if us % 1000000 = 0 then [] else '.' :: TextOrder.padded 6 (us % 1000000))

/-- `isoformat()`. -/
def Timestamp.isoformat (t : Timestamp) : String :=
  String.ofList (DateTime.clockText t.wall
    (DateTime.fractionText t.wall.microsecond ((t.offset.map offsetText).getD [])))

/-! ## Items and queries -/

inductive MemoryType where
  | session
  | episodic
  | semantic
  | decision
deriving DecidableEq, Repr

/-- A number between 0 and 1. -/
abbrev Importance := {q : ℚ // 0 ≤ q ∧ q ≤ 1}

theorem within_zero : (0 : ℚ) ≤ 0 ∧ (0 : ℚ) ≤ 1 := ⟨le_rfl, zero_le_one⟩

theorem within_one : (0 : ℚ) ≤ 1 ∧ (1 : ℚ) ≤ 1 := ⟨zero_le_one, le_rfl⟩

structure MemoryItem where
  id : String
  memoryType : MemoryType
  content : Json
  importance : Importance
  timestamp : Timestamp

inductive SortKey where
  | importance
  | timestamp
deriving DecidableEq, Repr

structure MemoryQuery where
  memoryType : Option MemoryType := none
  filters : List (String × Json) := []
  timeRange : Option (Timestamp × Timestamp) := none
  topK : ℕ := 10
  offset : ℕ := 0
  minImportance : Importance := ⟨0, within_zero⟩
  sortBy : Option SortKey := none
  sortDesc : Bool := true

/-- What the stores take from their platform. -/
structure Platform where
  /-- The offset from UTC that naive times are taken in. -/
  localOffset : DateTime → ℤ
  /-- `==` of values. -/
  same : Json → Json → Bool
  /-- `str` of a value. -/
  str : Json → String
  /-- The text SQL has for a value. -/
  jsonText : Json → String

variable (py : Platform)

/-- The instant of a time, in microseconds. -/
def Timestamp.instant (t : Timestamp) : ℤ :=
  t.wall.microseconds - t.offset.getD (py.localOffset t.wall)

/-! ## What a query asks for -/

/-- The key `x` may come before the key `y`. -/
def inDirection {β : Type} [LinearOrder β] (desc : Bool) (x y : β) : Prop :=
  if desc then y ≤ x else x ≤ y

section Direction

variable {β : Type} [LinearOrder β] {desc : Bool} {x y z : β}

instance : Decidable (inDirection desc x y) := by
  unfold inDirection
  infer_instance

theorem inDirection_total (desc : Bool) (x y : β) :
    inDirection desc x y ∨ inDirection desc y x := by
  cases desc with
  | false => exact le_total x y
  | true => exact le_total y x

theorem inDirection_trans (hxy : inDirection desc x y) (hyz : inDirection desc y z) :
    inDirection desc x z := by
  cases desc with
  | false => exact le_trans (α := β) hxy hyz
  | true => exact le_trans (α := β) hyz hxy

end Direction

namespace MemoryQuery

variable (spec : MemoryQuery)

/-- The item meets the conditions. -/
def wants (item : MemoryItem) : Bool :=
  spec.memoryType.all (item.memoryType = ·) &&
  decide (spec.minImportance ≤ item.importance) &&
  spec.timeRange.all (fun range =>
    range.1.instant py ≤ item.timestamp.instant py &&
      item.timestamp.instant py ≤ range.2.instant py) &&
  spec.filters.all fun filter =>
    py.same ((item.content.field? filter.1).getD .null) filter.2

/-- The order allows `a` before `b`. -/
def before (a b : MemoryItem) : Prop :=
  match spec.sortBy with
  | none => True
  | some .importance => inDirection spec.sortDesc a.importance b.importance
  | some .timestamp =>
    inDirection spec.sortDesc (a.timestamp.instant py) (b.timestamp.instant py)

instance : DecidableRel (spec.before py) := fun a b => by
  unfold before
  split <;> infer_instance

instance : Std.Total (spec.before py) where
  total a b := by
    unfold before
    split
    · exact .inl True.intro
    · exact inDirection_total ..
    · exact inDirection_total ..

instance : IsTrans MemoryItem (spec.before py) where
  trans a b c hab hbc := by
    unfold before at hab hbc ⊢
    cases hsort : spec.sortBy with
    | none => exact True.intro
    | some key =>
      rw [hsort] at hab hbc
      cases key with
      | importance => exact inDirection_trans hab hbc
      | timestamp => exact inDirection_trans hab hbc

/-- **The list answers the query** over these items: their wanted ones, in an order by the key,
without the first `offset` and at most `top_k`. -/
def Answers (items result : List MemoryItem) : Prop :=
  Ranking.IsWindow (spec.before py) (items.filter (spec.wants py)) spec.topK spec.offset result

end MemoryQuery

end Memories

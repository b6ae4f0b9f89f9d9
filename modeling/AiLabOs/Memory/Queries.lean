import AiLabOs.Base.Calendar
import AiLabOs.Memory.Stores
import Mathlib.Data.List.Pairwise

/-!
# Memory: what the stores answer

A store honours a query when its answers are those the query asks for, on pages of every size. The
stores depart from the query in four ways: a condition that is left out or decided on texts, an
order that is always by importance, and an offset that is left out.

## Main definitions

* `EpisodicStore.Honours`, `SessionMemory.Honours`, `DecisionStore.Honours`: a query is honoured
* `Condition`: a condition of a query, `StoreKind.LetsIn` and `StoreKind.LeavesOut`: what a store
  makes of it wrongly
* `Serves`, `OrderServes`: the conditions, the offset and the order are served
* `PlainQuery`: a query that asks for nothing the store leaves out

## Main results

* `isoformat_le_iff`: the texts of timestamps are compared by the clocks they show
* `stores_honour_iff`: exactly when each of the stores honours a query, as it does a plain one
-/

namespace Memories

variable (py : Platform)

/-- **The accepted items are the wanted ones but the first `offset`**: all of them are wanted, so
many wanted ones are left out, and these may come first. -/
structure Covers (spec : MemoryQuery) (items : List MemoryItem) (accepts : MemoryItem → Bool) :
    Prop where
  sound : ∀ item ∈ items, accepts item = true → spec.wants py item = true
  leftOut : (items.filter fun item => spec.wants py item && !accepts item).length =
    min spec.offset (items.filter (spec.wants py)).length
  first : ∀ a ∈ items, spec.wants py a = true → accepts a = false →
    ∀ b ∈ items, accepts b = true → spec.before py a b

/-- Every two accepted items may come in the order of the store. -/
def Ordered (spec : MemoryQuery) (items : List MemoryItem) (accepts : MemoryItem → Bool)
    (sortBy : MemoryItem → MemoryItem → Prop) : Prop :=
  ∀ a ∈ items, ∀ b ∈ items, accepts a = true → accepts b = true → a ≠ b → sortBy a b →
    spec.before py a b

/-- Every two accepted items may come in the order of a stable sort. -/
def StablyOrdered (spec : MemoryQuery) (items : List MemoryItem) (accepts : MemoryItem → Bool)
    (sortBy : MemoryItem → MemoryItem → Prop) : Prop :=
  (items.filter accepts).Pairwise fun a b =>
    (sortBy a b → spec.before py a b) ∧ (¬sortBy a b → spec.before py b a)

section Lists

variable {py} {spec : MemoryQuery} {items : List MemoryItem} {accepts : MemoryItem → Bool}

/-- Without an offset nothing may be left out. -/
theorem covers_zero (hoffset : spec.offset = 0) :
    Covers py spec items accepts ↔ ∀ item ∈ items, accepts item = spec.wants py item := by
  constructor
  · intro h item hitem
    have hnone := h.leftOut
    rw [hoffset, Nat.zero_min, List.length_eq_zero_iff, List.filter_eq_nil_iff] at hnone
    have hmissing := hnone item hitem
    have hsound := h.sound item hitem
    cases haccepts : accepts item <;> cases hwants : spec.wants py item <;> simp_all
  · intro h
    constructor
    · intro item hitem haccepts
      rw [← h item hitem]
      exact haccepts
    · rw [hoffset, Nat.zero_min, List.length_eq_zero_iff, List.filter_eq_nil_iff]
      intro item hitem
      rw [h item hitem]
      simp
    · intro a ha hwants haccepts
      rw [h a ha, hwants] at haccepts
      cases haccepts

/-- What a sorted list of the accepted items must meet to answer the query. -/
theorem isTail_iff_covers {sortBy : MemoryItem → MemoryItem → Prop} [DecidableRel sortBy]
    {scan : List MemoryItem} (hitems : items.Nodup) (hscan : scan.Perm items) :
    Ranking.IsTail (spec.before py) (items.filter (spec.wants py)) spec.offset
        ((scan.filter accepts).insertionSort sortBy) ↔
      Covers py spec items accepts ∧
        ((scan.filter accepts).insertionSort sortBy).Pairwise (spec.before py) := by
  classical
  have hperm : ((scan.filter accepts).insertionSort sortBy).Perm (items.filter accepts) :=
    (List.perm_insertionSort ..).trans (hscan.filter accepts)
  have hmem : ∀ a, a ∈ (scan.filter accepts).insertionSort sortBy ↔
      a ∈ items ∧ accepts a = true := fun a => hperm.mem_iff.trans List.mem_filter
  have hmissing : ((items.filter (spec.wants py)).filter
      (· ∉ (scan.filter accepts).insertionSort sortBy)) =
        items.filter fun item => spec.wants py item && !accepts item := by
    rw [List.filter_filter]
    refine List.filter_congr fun a ha => ?_
    rw [Bool.and_comm]
    congr 1
    cases haccepts : accepts a <;> simp [hmem, ha, haccepts]
  rw [Ranking.isTail_iff (hitems.filter _) (hperm.nodup_iff.mpr (hitems.filter _)), hmissing]
  constructor
  · rintro ⟨hsound, hpairwise, hleft, hfirst⟩
    refine ⟨⟨fun a ha haccepts => ?_, hleft, fun a ha hwants haccepts b hb hbaccepts => ?_⟩,
      hpairwise⟩
    · exact (List.mem_filter.mp (hsound a ((hmem a).mpr ⟨ha, haccepts⟩))).2
    · refine hfirst a (List.mem_filter.mpr ⟨ha, hwants⟩) ?_ b ((hmem b).mpr ⟨hb, hbaccepts⟩)
      rw [hmem, haccepts]
      simp
  · rintro ⟨hcovers, hpairwise⟩
    refine ⟨fun a ha => ?_, hpairwise, hcovers.leftOut, fun a ha hnot b hb => ?_⟩
    · obtain ⟨hitem, haccepts⟩ := (hmem a).mp ha
      exact List.mem_filter.mpr ⟨hitem, hcovers.sound a hitem haccepts⟩
    · obtain ⟨hitem, hwants⟩ := List.mem_filter.mp ha
      obtain ⟨hbitem, hbaccepts⟩ := (hmem b).mp hb
      refine hcovers.first a hitem hwants ?_ b hbitem hbaccepts
      rw [hmem] at hnot
      exact Bool.eq_false_iff.mpr fun haccepts => hnot ⟨hitem, haccepts⟩

/-- Sorting what is accepted of the items, however they are come upon. -/
theorem forall_scan_pairwise_iff {sortBy : MemoryItem → MemoryItem → Prop} [DecidableRel sortBy]
    [Std.Total sortBy] [IsTrans MemoryItem sortBy] (hitems : items.Nodup) :
    (∀ scan : List MemoryItem, scan.Perm items →
        ((scan.filter accepts).insertionSort sortBy).Pairwise (spec.before py)) ↔
      Ordered py spec items accepts sortBy := by
  have hfilter : (∀ scan : List MemoryItem, scan.Perm items →
        ((scan.filter accepts).insertionSort sortBy).Pairwise (spec.before py)) ↔
      ∀ scan : List MemoryItem, scan.Perm (items.filter accepts) →
        (scan.insertionSort sortBy).Pairwise (spec.before py) := by
    constructor
    · intro h scan hscan
      have hall : scan.filter accepts = scan :=
        List.filter_eq_self.mpr fun a ha => (List.mem_filter.mp (hscan.mem_iff.mp ha)).2
      have hrest : (items.filter fun a => !accepts a).filter accepts = [] := by
        rw [List.filter_filter, List.filter_eq_nil_iff]
        simp
      have hlist := h (scan ++ items.filter fun a => !accepts a)
        ((hscan.append_right _).trans (List.filter_append_perm accepts items))
      rw [List.filter_append, hall, hrest, List.append_nil] at hlist
      exact hlist
    · intro h scan hscan
      exact h _ (hscan.filter accepts)
  rw [hfilter, Ranking.forall_perm_pairwise_iff (hitems.filter _)]
  unfold Ordered
  simp only [List.mem_filter]
  constructor
  · intro h a ha b hb haccepts hbaccepts
    exact h a ⟨ha, haccepts⟩ b ⟨hb, hbaccepts⟩
  · rintro h a ⟨ha, haccepts⟩ b ⟨hb, hbaccepts⟩
    exact h a ha b hb haccepts hbaccepts

end Lists

/-! ## Honoured queries -/

/-- The episodic store answers the query with pages of every size, however its rows are come
upon. -/
def EpisodicStore.Honours (store : EpisodicStore) (spec : MemoryQuery) : Prop :=
  ∀ scan : List MemoryItem, scan.Perm store.items → ∀ topK, 1 ≤ topK →
    { spec with topK }.Answers py store.items (EpisodicStore.query py { spec with topK } scan)

/-- The session memory answers the query at a time with pages of every size. -/
def SessionMemory.Honours (memory : SessionMemory) (now : ℤ) (spec : MemoryQuery) : Prop :=
  ∀ topK, 1 ≤ topK → { spec with topK }.Answers py (memory.evictExpired now).items
    (memory.query now { spec with topK })

/-- The decision store answers the query with every page of every size. -/
def DecisionStore.Honours (store : DecisionStore) (spec : MemoryQuery) : Prop :=
  ∀ scan : List MemoryItem, scan.Perm store.items → ∀ offset topK, 1 ≤ topK →
    { spec with topK, offset }.Answers py store.items
      (DecisionStore.query py { spec with topK, offset } scan)

variable {py} {spec : MemoryQuery}

theorem nodup_of_unique {items : List MemoryItem} (h : Table.Unique MemoryItem.id items) :
    items.Nodup :=
  List.Nodup.of_map _ h

theorem EpisodicStore.honours_iff (store : EpisodicStore) :
    store.Honours py spec ↔ Covers py spec store.items (episodicAccepts py spec) ∧
      Ordered py spec store.items (episodicAccepts py spec) moreImportant := by
  have hitems := nodup_of_unique store.unique
  have htail : store.Honours py spec ↔ ∀ scan : List MemoryItem, scan.Perm store.items →
      Ranking.IsTail (spec.before py) (store.items.filter (spec.wants py)) spec.offset
        ((scan.filter (episodicAccepts py spec)).insertionSort moreImportant) := by
    refine forall₂_congr fun scan _ => ?_
    rw [← Ranking.forall_isWindow_iff]
    rfl
  rw [htail, ← forall_scan_pairwise_iff hitems]
  constructor
  · intro h
    exact ⟨((isTail_iff_covers hitems (List.Perm.refl _)).mp (h _ (List.Perm.refl _))).1,
      fun scan hscan => ((isTail_iff_covers hitems hscan).mp (h scan hscan)).2⟩
  · rintro ⟨hcovers, hordered⟩ scan hscan
    exact (isTail_iff_covers hitems hscan).mpr ⟨hcovers, hordered scan hscan⟩

theorem SessionMemory.honours_iff (memory : SessionMemory) (now : ℤ) :
    memory.Honours py now spec ↔
      Covers py spec (memory.evictExpired now).items (sessionAccepts spec) ∧
      StablyOrdered py spec (memory.evictExpired now).items (sessionAccepts spec)
        moreImportant := by
  have hitems := nodup_of_unique (memory.evictExpired now).unique
  have htail : memory.Honours py now spec ↔
      Ranking.IsTail (spec.before py) ((memory.evictExpired now).items.filter (spec.wants py))
        spec.offset (((memory.evictExpired now).items.filter (sessionAccepts spec)).insertionSort
          moreImportant) := by
    rw [← Ranking.forall_isWindow_iff]
    rfl
  rw [htail, isTail_iff_covers hitems (List.Perm.refl _),
    Ranking.pairwise_insertionSort_iff (hitems.filter _)]
  rfl

theorem DecisionStore.honours_iff (store : DecisionStore) :
    store.Honours py spec ↔
      (∀ item ∈ store.items, decisionAccepts py spec item = spec.wants py item) ∧
      Ordered py spec store.items (decisionAccepts py spec) decisionOrder := by
  have hitems := nodup_of_unique store.unique
  rw [← forall_scan_pairwise_iff hitems]
  constructor
  · intro h
    have htail : ∀ scan : List MemoryItem, scan.Perm store.items →
        Ranking.IsTail (spec.before py) (store.items.filter (spec.wants py)) 0
          ((scan.filter (decisionAccepts py spec)).insertionSort decisionOrder) := by
      intro scan hscan
      exact Ranking.forall_isWindow_iff.mp fun topK htop => h scan hscan 0 topK htop
    have hcovers : ∀ scan : List MemoryItem, scan.Perm store.items →
        Covers py { spec with offset := 0 } store.items (decisionAccepts py spec) ∧
          ((scan.filter (decisionAccepts py spec)).insertionSort decisionOrder).Pairwise
            (spec.before py) := by
      intro scan hscan
      exact (isTail_iff_covers hitems hscan).mp (htail scan hscan)
    refine ⟨?_, fun scan hscan => (hcovers scan hscan).2⟩
    have hzero : { spec with offset := 0 }.offset = 0 := rfl
    exact (covers_zero hzero).mp (hcovers _ (List.Perm.refl _)).1
  · rintro ⟨haccepts, hordered⟩ scan hscan offset topK -
    have hfilter : (scan.filter (decisionAccepts py spec)).Perm
        (store.items.filter (spec.wants py)) := by
      rw [← List.filter_congr haccepts]
      exact hscan.filter _
    exact ⟨_, (List.perm_insertionSort ..).trans hfilter, hordered scan hscan, rfl⟩

theorem minImportance_eq (item : MemoryItem) :
    (decide (spec.minImportance.1 ≤ 0) || decide (spec.minImportance ≤ item.importance)) =
      decide (spec.minImportance ≤ item.importance) := by
  rw [Bool.eq_iff_iff, Bool.or_eq_true, decide_eq_true_eq, decide_eq_true_eq, or_iff_right_iff_imp]
  intro hzero
  exact hzero.trans item.importance.2.1

/-! ## Texts of timestamps -/

/-- What follows the clock reading in the text of a timestamp. -/
def Timestamp.zoneText (t : Timestamp) : List Char := (t.offset.map offsetText).getD []

/-- **The text of `t` comes before that of `u`, or is the same**: its clock shows less, or it shows
the same and the offset is written no later. -/
def ReadsBefore (t u : Timestamp) : Prop :=
  t.wall < u.wall ∨ t.wall = u.wall ∧ ¬u.zoneText < t.zoneText

/-- Every character of an offset comes before the point of a fraction. -/
theorem zoneText_lt_point (t : Timestamp) (rest : List Char) : t.zoneText < '.' :: rest := by
  unfold Timestamp.zoneText
  cases t.offset with
  | none => simp
  | some offset =>
    rw [Option.map_some, Option.getD_some]
    show (if offset < 0 then '-' else '+') :: _ < _
    rw [List.cons_lt_cons_iff]
    left
    split <;> decide

/-- Fractions compare as numbers, and then what follows them decides. -/
theorem fractionText_zoneText_lt {m n : ℕ} (hm : m < 1000000) (hn : n < 1000000)
    (t u : Timestamp) :
    DateTime.fractionText m t.zoneText < DateTime.fractionText n u.zoneText ↔
      m < n ∨ m = n ∧ t.zoneText < u.zoneText := by
  unfold DateTime.fractionText
  by_cases hzero : m = 0 <;> by_cases hzero' : n = 0
  · rw [if_pos hzero, if_pos hzero']
    simp [hzero, hzero']
  · rw [if_pos hzero, if_neg hzero']
    exact iff_of_true (zoneText_lt_point ..) (.inl (by omega))
  · rw [if_neg hzero, if_pos hzero']
    exact iff_of_false (zoneText_lt_point ..).asymm (by omega)
  · rw [if_neg hzero, if_neg hzero', TextOrder.cons_lt_cons_self,
      TextOrder.padded_append_lt (by omega) (by omega)]

/-- **Texts of timestamps** compare by the clock readings first. -/
theorem isoformat_le_iff {t u : Timestamp} : t.isoformat ≤ u.isoformat ↔ ReadsBefore t u := by
  obtain ⟨-, -, -, -, -, -, ht⟩ := t.wall.valid
  obtain ⟨-, -, -, -, -, -, hu⟩ := u.wall.valid
  have hlt : u.isoformat < t.isoformat ↔
      u.wall < t.wall ∨ u.wall = t.wall ∧ u.zoneText < t.zoneText := by
    rw [Timestamp.isoformat, Timestamp.isoformat, String.lt_iff_toList_lt, String.toList_ofList,
      String.toList_ofList, DateTime.clockText_lt]
    show _ ∨ _ ∧ DateTime.fractionText _ u.zoneText < DateTime.fractionText _ t.zoneText ↔ _
    rw [fractionText_zoneText_lt hu ht, DateTime.lt_iff, DateTime.eq_iff]
    tauto
  rw [← not_lt, hlt, ReadsBefore]
  rcases lt_trichotomy t.wall u.wall with h | h | h
  · simp [h, h.not_gt, h.ne']
  · simp [h]
  · simp [h, h.not_gt, h.ne']

/-- With one offset, the texts come in the order of the instants. -/
theorem readsBefore_iff_instant (py : Platform) {t u : Timestamp} {offset : ℤ}
    (ht : t.offset = some offset)
    (hu : u.offset = some offset) : ReadsBefore t u ↔ t.instant py ≤ u.instant py := by
  have hzone : t.zoneText = u.zoneText := by
    unfold Timestamp.zoneText
    rw [ht, hu]
  have hinstant : t.instant py ≤ u.instant py ↔ t.wall ≤ u.wall := by
    unfold Timestamp.instant
    rw [ht, hu, ← DateTime.microseconds_le]
    simp
  rw [hinstant, ReadsBefore, hzone, le_iff_lt_or_eq]
  simp

/-! ## What the stores make of a condition -/

/-- A condition of a query, besides the least importance. -/
inductive Condition where
  | memoryType (type : MemoryType)
  | notBefore (bound : Timestamp)
  | notAfter (bound : Timestamp)
  | filter (key : String) (value : Json)

/-- The conditions of a query. -/
def MemoryQuery.conditions (spec : MemoryQuery) : List Condition :=
  spec.memoryType.toList.map .memoryType ++
    (spec.timeRange.toList.flatMap fun range => [.notBefore range.1, .notAfter range.2]) ++
    spec.filters.map fun filter => .filter filter.1 filter.2

inductive StoreKind where
  | episodic
  | session
  | decision
deriving DecidableEq

/-- The filters a store knows. -/
def StoreKind.keys : StoreKind → List String
  | .episodic => episodicKeys
  | .session => []
  | .decision => decisionKeys

/-- The type of the items that a store accepts. -/
def StoreKind.type : StoreKind → Option MemoryType
  | .episodic => some .episodic
  | .session => none
  | .decision => some .decision

section Conditions

variable (py) (kind : StoreKind) (spec : MemoryQuery) (item : MemoryItem)

/-- The item meets a condition. -/
def Condition.Holds : Condition → Prop
  | .memoryType type => item.memoryType = type
  | .notBefore bound => bound.instant py ≤ item.timestamp.instant py
  | .notAfter bound => item.timestamp.instant py ≤ bound.instant py
  | .filter key value => py.same ((item.content.field? key).getD .null) value = true

/-- **A store lets in** an item that does not meet a condition. The session memory leaves out every
condition, and the decision store the one on the type. The SQL stores leave out the filters whose
keys they do not know, compare the field of another with the value's text, and compare the texts of
timestamps: the clock of an earlier instant may show more, in another zone. -/
def StoreKind.LetsIn : Condition → Prop
  | .memoryType type => kind ≠ .episodic ∧ item.memoryType ≠ type
  | .notBefore bound => item.timestamp.instant py < bound.instant py ∧
      (kind = .session ∨ ReadsBefore bound item.timestamp)
  | .notAfter bound => bound.instant py < item.timestamp.instant py ∧
      (kind = .session ∨ ReadsBefore item.timestamp bound)
  | .filter key value => py.same ((item.content.field? key).getD .null) value = false ∧
      (key ∉ kind.keys ∨ jsonExtract py item.content key = some (py.str value))

/-- **A store leaves out** an item that meets a condition: an SQL store, where the field is the
value but not its text, or where the clock of a later instant shows less. -/
def StoreKind.LeavesOut : Condition → Prop
  | .memoryType _ => False
  | .notBefore bound => bound.instant py ≤ item.timestamp.instant py ∧
      kind ≠ .session ∧ ¬ReadsBefore bound item.timestamp
  | .notAfter bound => item.timestamp.instant py ≤ bound.instant py ∧
      kind ≠ .session ∧ ¬ReadsBefore item.timestamp bound
  | .filter key value => py.same ((item.content.field? key).getD .null) value = true ∧
      key ∈ kind.keys ∧ jsonExtract py item.content key ≠ some (py.str value)

/-- The store lets the item in by the condition, or the item meets it and is not left out. -/
def StoreKind.Accepts (c : Condition) : Prop :=
  kind.LetsIn py item c ∨ c.Holds py item ∧ ¬kind.LeavesOut py item c

/-- The item is not what the query is for, and is let in: it fails a condition, and the store lets
it in by each that it fails. -/
def LetIn : Prop :=
  spec.minImportance ≤ item.importance ∧ (∀ c ∈ spec.conditions, kind.Accepts py item c) ∧
    ∃ c ∈ spec.conditions, kind.LetsIn py item c

/-- The item is what the query is for, and is left out by one of the conditions. -/
def LeftOut : Prop :=
  spec.minImportance ≤ item.importance ∧ (∀ c ∈ spec.conditions, c.Holds py item) ∧
    ∃ c ∈ spec.conditions, kind.LeavesOut py item c

/-- The item is what the query is for, and is shown. -/
def Shown : Prop := spec.wants py item = true ∧ ¬LeftOut py kind spec item

end Conditions

section Readings

variable {kind : StoreKind} {item : MemoryItem}

theorem forall_conditions {P : Condition → Prop} : (∀ c ∈ spec.conditions, P c) ↔
    (∀ type ∈ spec.memoryType, P (.memoryType type)) ∧
      (∀ range ∈ spec.timeRange, P (.notBefore range.1) ∧ P (.notAfter range.2)) ∧
      ∀ filter ∈ spec.filters, P (.filter filter.1 filter.2) := by
  have htypes : (∀ c ∈ spec.memoryType.toList.map Condition.memoryType, P c) ↔
      ∀ type ∈ spec.memoryType, P (.memoryType type) := by
    rw [List.forall_mem_map]
    simp
  have hranges : (∀ c ∈ spec.timeRange.toList.flatMap fun range =>
        [Condition.notBefore range.1, .notAfter range.2], P c) ↔
      ∀ range ∈ spec.timeRange, P (.notBefore range.1) ∧ P (.notAfter range.2) := by
    cases spec.timeRange <;> simp
  unfold MemoryQuery.conditions
  rw [List.forall_mem_append, List.forall_mem_append, htypes, hranges, List.forall_mem_map,
    and_assoc]

theorem not_holds_of_letsIn {c : Condition} (h : kind.LetsIn py item c) : ¬c.Holds py item := by
  cases c with
  | memoryType type => exact h.2
  | notBefore bound => exact not_le.mpr h.1
  | notAfter bound => exact not_le.mpr h.1
  | filter key value => exact Bool.eq_false_iff.mp h.1

theorem accepts_session (c : Condition) : StoreKind.session.Accepts py item c := by
  unfold StoreKind.Accepts
  cases c with
  | memoryType type =>
    by_cases h : item.memoryType = type
    · exact .inr ⟨h, not_false⟩
    · exact .inl ⟨by decide, h⟩
  | notBefore bound =>
    rcases lt_or_ge (item.timestamp.instant py) (bound.instant py) with h | h
    · exact .inl ⟨h, .inl rfl⟩
    · exact .inr ⟨h, fun hleft => hleft.2.1 rfl⟩
  | notAfter bound =>
    rcases lt_or_ge (bound.instant py) (item.timestamp.instant py) with h | h
    · exact .inl ⟨h, .inl rfl⟩
    · exact .inr ⟨h, fun hleft => hleft.2.1 rfl⟩
  | filter key value =>
    cases h : py.same ((item.content.field? key).getD .null) value with
    | false => exact .inl ⟨h, .inl List.not_mem_nil⟩
    | true => exact .inr ⟨h, fun hleft => List.not_mem_nil hleft.2.1⟩

theorem accepts_notBefore (hkind : kind ≠ .session) {bound : Timestamp} :
    kind.Accepts py item (.notBefore bound) ↔ ReadsBefore bound item.timestamp := by
  simp only [StoreKind.Accepts, StoreKind.LetsIn, StoreKind.LeavesOut, Condition.Holds, hkind,
    false_or, ne_eq, not_false_eq_true, true_and]
  rcases lt_or_ge (item.timestamp.instant py) (bound.instant py) with h | h
  · simp [h, h.not_ge]
  · simp [h, h.not_gt]

theorem accepts_notAfter (hkind : kind ≠ .session) {bound : Timestamp} :
    kind.Accepts py item (.notAfter bound) ↔ ReadsBefore item.timestamp bound := by
  simp only [StoreKind.Accepts, StoreKind.LetsIn, StoreKind.LeavesOut, Condition.Holds, hkind,
    false_or, ne_eq, not_false_eq_true, true_and]
  rcases lt_or_ge (bound.instant py) (item.timestamp.instant py) with h | h
  · simp [h, h.not_ge]
  · simp [h, h.not_gt]

theorem accepts_filter {key : String} {value : Json} : kind.Accepts py item (.filter key value) ↔
    key ∉ kind.keys ∨ jsonExtract py item.content key = some (py.str value) := by
  simp only [StoreKind.Accepts, StoreKind.LetsIn, StoreKind.LeavesOut, Condition.Holds]
  cases py.same ((item.content.field? key).getD .null) value <;> simp
  tauto

theorem wants_iff : spec.wants py item = true ↔
    spec.minImportance ≤ item.importance ∧ ∀ c ∈ spec.conditions, c.Holds py item := by
  rw [forall_conditions]
  unfold MemoryQuery.wants Condition.Holds
  cases spec.memoryType <;> cases spec.timeRange <;> simp [and_assoc, and_left_comm]

/-- **The condition in SQL** is the least importance and the readings of the others. -/
theorem sqlConditions_iff (hkind : kind ≠ .session) : sqlConditions py kind.keys spec item = true ↔
    spec.minImportance ≤ item.importance ∧
      (∀ range ∈ spec.timeRange, kind.Accepts py item (.notBefore range.1) ∧
        kind.Accepts py item (.notAfter range.2)) ∧
      ∀ filter ∈ spec.filters, kind.Accepts py item (.filter filter.1 filter.2) := by
  unfold sqlConditions
  rw [minImportance_eq]
  simp only [accepts_notBefore hkind, accepts_notAfter hkind, accepts_filter, ← isoformat_le_iff]
  cases spec.timeRange <;> simp [and_assoc]

theorem episodicAccepts_iff (htype : item.memoryType = .episodic) :
    episodicAccepts py spec item = true ↔ spec.minImportance ≤ item.importance ∧
      ∀ c ∈ spec.conditions, StoreKind.episodic.Accepts py item c := by
  have hmemory : item.memoryType = spec.memoryType.getD .episodic ↔
      ∀ type ∈ spec.memoryType, StoreKind.episodic.Accepts py item (.memoryType type) := by
    rw [htype]
    unfold StoreKind.Accepts StoreKind.LetsIn StoreKind.LeavesOut Condition.Holds
    cases spec.memoryType <;> simp [htype]
  have hsql : sqlConditions py episodicKeys spec item = true ↔ _ :=
    sqlConditions_iff (by decide : StoreKind.episodic ≠ .session)
  unfold episodicAccepts
  rw [Bool.and_eq_true, decide_eq_true_eq, hmemory, forall_conditions, hsql]
  tauto

theorem decisionAccepts_iff (htype : item.memoryType = .decision) :
    decisionAccepts py spec item = true ↔ spec.minImportance ≤ item.importance ∧
      ∀ c ∈ spec.conditions, StoreKind.decision.Accepts py item c := by
  have hmemory : ∀ type ∈ spec.memoryType,
      StoreKind.decision.Accepts py item (.memoryType type) := by
    intro type _
    by_cases h : item.memoryType = type
    · exact .inr ⟨h, not_false⟩
    · exact .inl ⟨by decide, h⟩
  have hsql : sqlConditions py decisionKeys spec item = true ↔ _ :=
    sqlConditions_iff (by decide : StoreKind.decision ≠ .session)
  unfold decisionAccepts
  rw [Bool.and_eq_true, decide_eq_true_eq, forall_conditions, hsql]
  tauto

theorem sessionAccepts_iff : sessionAccepts spec item = true ↔
    spec.minImportance ≤ item.importance ∧
      ∀ c ∈ spec.conditions, StoreKind.session.Accepts py item c := by
  unfold sessionAccepts
  rw [minImportance_eq, decide_eq_true_eq, and_iff_left fun c _ => accepts_session c]

variable {accepts : MemoryItem → Bool}

/-- **Let in** is what is accepted and not wanted. -/
theorem letIn_iff (h : accepts item = true ↔ spec.minImportance ≤ item.importance ∧
      ∀ c ∈ spec.conditions, kind.Accepts py item c) :
    LetIn py kind spec item ↔ accepts item = true ∧ ¬spec.wants py item = true := by
  rw [h, wants_iff]
  constructor
  · rintro ⟨himportance, hall, c, hc, hin⟩
    exact ⟨⟨himportance, hall⟩, fun hwants => not_holds_of_letsIn hin (hwants.2 c hc)⟩
  · rintro ⟨⟨himportance, hall⟩, hnot⟩
    obtain ⟨c, hc, hfails⟩ : ∃ c ∈ spec.conditions, ¬c.Holds py item := by
      by_contra hnone
      push Not at hnone
      exact hnot ⟨himportance, hnone⟩
    exact ⟨himportance, hall, c, hc, (hall c hc).resolve_right fun hholds => hfails hholds.1⟩

/-- **Left out** is what is wanted and not accepted. -/
theorem leftOut_iff (h : accepts item = true ↔ spec.minImportance ≤ item.importance ∧
      ∀ c ∈ spec.conditions, kind.Accepts py item c) :
    LeftOut py kind spec item ↔ spec.wants py item = true ∧ ¬accepts item = true := by
  rw [h, wants_iff]
  constructor
  · rintro ⟨himportance, hall, c, hc, hout⟩
    refine ⟨⟨himportance, hall⟩, fun haccepts => ?_⟩
    rcases haccepts.2 c hc with hin | ⟨-, hkept⟩
    · exact not_holds_of_letsIn hin (hall c hc)
    · exact hkept hout
  · rintro ⟨⟨himportance, hall⟩, hnot⟩
    obtain ⟨c, hc, hrefused⟩ : ∃ c ∈ spec.conditions, ¬kind.Accepts py item c := by
      by_contra hnone
      push Not at hnone
      exact hnot ⟨himportance, hnone⟩
    refine ⟨himportance, hall, c, hc, ?_⟩
    by_contra hkept
    exact hrefused (.inr ⟨hall c hc, hkept⟩)

end Readings

/-! ## When a query is served -/

/-- Texts are compared as texts are, and `str` of a text is the text. -/
structure Platform.Lawful (py : Platform) : Prop where
  same_text : ∀ a b, py.same (.text a) (.text b) = decide (a = b)
  same_null : ∀ b, py.same .null (.text b) = false
  str_text : ∀ a, py.str (.text a) = a

/-- The filter names a key the store knows and a text, and the item has a text there or nothing. -/
def PlainFilter (keys : List String) (item : MemoryItem) (filter : String × Json) : Prop :=
  filter.1 ∈ keys ∧ (∃ s, filter.2 = .text s) ∧
    (item.content.field? filter.1 = none ∨ ∃ s, item.content.field? filter.1 = some (.text s))

section Serving

variable (py) (kind : StoreKind) (spec : MemoryQuery) (items : List MemoryItem)

open Classical in
/-- **The conditions and the offset are served**: nothing is let in, and so many of the items that
the query is for are left out as it passes over, which may come first. Without an offset none is
left out. -/
structure Serves : Prop where
  letIn : ∀ item ∈ items, ¬LetIn py kind spec item
  leftOut : (items.filter fun item => LeftOut py kind spec item).length =
    min spec.offset (items.filter (spec.wants py)).length
  first : ∀ a ∈ items, LeftOut py kind spec a → ∀ b ∈ items, Shown py kind spec b →
    spec.before py a b

/-- **The order is served**, by a store that may put `a` before `b` where `mayPrecede a b`: no key
is asked for, or the importance is and the most important items come first or all that are shown are
as important, or the time is and it agrees. -/
def OrderServes (mayPrecede : MemoryItem → MemoryItem → Prop) : Prop :=
  match spec.sortBy with
  | none => True
  | some .importance => spec.sortDesc = true ∨
      ∀ a ∈ items, ∀ b ∈ items, Shown py kind spec a → Shown py kind spec b →
        a.importance = b.importance
  | some .timestamp => ∀ a ∈ items, ∀ b ∈ items, Shown py kind spec a → Shown py kind spec b →
      mayPrecede a b → inDirection spec.sortDesc (a.timestamp.instant py) (b.timestamp.instant py)

/-- A stable sort by importance puts `a` before `b`. -/
def StablyPrecedes (a b : MemoryItem) : Prop :=
  b.importance < a.importance ∨ a.importance = b.importance ∧ [a, b].Sublist items

/-- **A plain query**: a type that the store has, a time range whose bounds have the offset of all
timestamps, filters by keys the store knows and texts, the most important items first if there is an
order, and an offset only for the decision store. -/
structure PlainQuery : Prop where
  memoryType : ∀ type ∈ spec.memoryType, kind.type = some type
  timeRange : ∀ range ∈ spec.timeRange, kind ≠ .session ∧ ∃ offset,
    range.1.offset = some offset ∧ range.2.offset = some offset ∧
      ∀ item ∈ items, item.timestamp.offset = some offset
  filters : ∀ filter ∈ spec.filters, ∀ item ∈ items, PlainFilter kind.keys item filter
  sort : spec.sortBy = none ∨ spec.sortBy = some .importance ∧ spec.sortDesc = true
  offset : spec.offset = 0 ∨ kind = .decision

end Serving

/-- Of two items of a list one comes first. -/
theorem pair_sublist {items : List MemoryItem} {a b : MemoryItem} (ha : a ∈ items) (hb : b ∈ items)
    (hne : a ≠ b) : [a, b].Sublist items ∨ [b, a].Sublist items := by
  have hpairs : items.Pairwise fun a b => [a, b].Sublist items ∨ [b, a].Sublist items :=
    List.pairwise_iff_forall_sublist.mpr fun h => .inl h
  have : Std.Symm fun a b : MemoryItem => [a, b].Sublist items ∨ [b, a].Sublist items :=
    ⟨fun _ _ h => h.symm⟩
  exact hpairs.forall ha hb hne

/-- A stable sort by importance is in an allowed order where two items may be put as it puts
them. -/
theorem stablyOrdered_iff {items : List MemoryItem} {accepts : MemoryItem → Bool} :
    StablyOrdered py spec items accepts moreImportant ↔
      Ordered py spec items accepts (StablyPrecedes items) := by
  unfold StablyOrdered Ordered moreImportant
  constructor
  · intro h a ha b hb hina hinb hne hfirst
    have hina' := List.mem_filter.mpr ⟨ha, hina⟩
    have hinb' := List.mem_filter.mpr ⟨hb, hinb⟩
    rcases hfirst with hlt | ⟨heq, hsub⟩
    · -- the sort turns the two round where they come in the other order
      let turned : MemoryItem → MemoryItem → Prop := fun a b =>
        (b.importance < a.importance → spec.before py a b) ∧
          (a.importance < b.importance → spec.before py b a)
      have hturned : (items.filter accepts).Pairwise turned :=
        h.imp fun hab => ⟨fun hlt => hab.1 hlt.le, fun hlt => hab.2 (not_le.mpr hlt)⟩
      have : Std.Symm turned := ⟨fun _ _ hab => hab.symm⟩
      exact (hturned.forall hina' hinb' hne).1 hlt
    · have hpair := hsub.filter accepts
      rw [List.filter_cons_of_pos hina, List.filter_cons_of_pos hinb, List.filter_nil] at hpair
      exact (List.pairwise_iff_forall_sublist.mp h hpair).1 heq.ge
  · intro h
    refine List.pairwise_iff_forall_sublist.mpr fun {a b} hpair => ?_
    have hina := List.mem_filter.mp (hpair.subset (List.mem_cons_self ..))
    have hinb :=
      List.mem_filter.mp (hpair.subset (List.mem_cons_of_mem _ (List.mem_singleton_self _)))
    by_cases hne : a = b
    · rw [hne]
      exact ⟨fun _ => (total_of (spec.before py) b b).elim id id,
        fun hnot => (hnot le_rfl).elim⟩
    · constructor
      · intro hle
        refine h a hina.1 b hinb.1 hina.2 hinb.2 hne ?_
        exact hle.lt_or_eq.imp id fun heq => ⟨heq.symm, hpair.trans List.filter_sublist⟩
      · intro hnot
        exact h b hinb.1 a hina.1 hinb.2 hina.2 (Ne.symm hne) (.inl (not_le.mp hnot))

section Served

variable {kind : StoreKind} {items : List MemoryItem} {accepts : MemoryItem → Bool}

/-- Where nothing is let in, the accepted items are those that are shown. -/
theorem shown_iff {item : MemoryItem}
    (h : accepts item = true ↔ spec.minImportance ≤ item.importance ∧
      ∀ c ∈ spec.conditions, kind.Accepts py item c)
    (hnot : ¬LetIn py kind spec item) : Shown py kind spec item ↔ accepts item = true := by
  rw [letIn_iff h] at hnot
  rw [Shown, leftOut_iff h]
  tauto

variable (haccepts : ∀ item ∈ items, accepts item = true ↔
  spec.minImportance ≤ item.importance ∧ ∀ c ∈ spec.conditions, kind.Accepts py item c)
include haccepts

theorem covers_iff_serves : Covers py spec items accepts ↔ Serves py kind spec items := by
  classical
  have hleft : (items.filter fun item => spec.wants py item && !accepts item) =
      items.filter fun item => LeftOut py kind spec item := by
    refine List.filter_congr fun item hitem => ?_
    rw [Bool.eq_iff_iff, decide_eq_true_eq, leftOut_iff (haccepts item hitem), Bool.and_eq_true,
      Bool.not_eq_true', Bool.not_eq_true]
  constructor
  · intro h
    have hletIn : ∀ item ∈ items, ¬LetIn py kind spec item := fun item hitem hin =>
      have hin := (letIn_iff (haccepts item hitem)).mp hin
      hin.2 (h.sound item hitem hin.1)
    refine ⟨hletIn, hleft ▸ h.leftOut, fun a ha hout b hb hshown => ?_⟩
    obtain ⟨hwants, hrefused⟩ := (leftOut_iff (haccepts a ha)).mp hout
    exact h.first a ha hwants (Bool.eq_false_iff.mpr hrefused) b hb
      ((shown_iff (haccepts b hb) (hletIn b hb)).mp hshown)
  · intro h
    refine ⟨fun item hitem hin => ?_, hleft ▸ h.leftOut, fun a ha hwants hrefused b hb hin => ?_⟩
    · by_contra hnot
      exact h.letIn item hitem ((letIn_iff (haccepts item hitem)).mpr ⟨hin, hnot⟩)
    · refine h.first a ha ?_ b hb ((shown_iff (haccepts b hb) (h.letIn b hb)).mpr hin)
      exact (leftOut_iff (haccepts a ha)).mpr ⟨hwants, Bool.eq_false_iff.mp hrefused⟩

/-- Without an offset, every item is read rightly. -/
theorem accepts_eq_wants_iff : (∀ item ∈ items, accepts item = spec.wants py item) ↔
    ∀ item ∈ items, ¬LetIn py kind spec item ∧ ¬LeftOut py kind spec item := by
  refine forall₂_congr fun item hitem => ?_
  rw [letIn_iff (haccepts item hitem), leftOut_iff (haccepts item hitem), Bool.eq_iff_iff]
  tauto

/-- An order that begins with the most important items is allowed where `OrderServes` says. -/
theorem ordered_iff_serves {sortBy : MemoryItem → MemoryItem → Prop}
    (htotal : ∀ a ∈ items, ∀ b ∈ items, a ≠ b → sortBy a b ∨ sortBy b a)
    (himportance : ∀ a b, sortBy a b → b.importance ≤ a.importance)
    (hletIn : ∀ item ∈ items, ¬LetIn py kind spec item) :
    Ordered py spec items accepts sortBy ↔ OrderServes py kind spec items sortBy := by
  have hshown : ∀ item ∈ items, (Shown py kind spec item ↔ accepts item = true) :=
    fun item hitem => shown_iff (haccepts item hitem) (hletIn item hitem)
  unfold Ordered OrderServes MemoryQuery.before
  cases spec.sortBy with
  | none => simp
  | some key =>
    cases key with
    | importance =>
      unfold inDirection
      cases spec.sortDesc with
      | true => exact iff_of_true (fun a _ b _ _ _ _ hab => himportance a b hab) (.inl rfl)
      | false =>
        simp only [Bool.false_eq_true, if_false, false_or]
        constructor
        · intro h a ha b hb hina hinb
          rw [hshown a ha] at hina
          rw [hshown b hb] at hinb
          by_cases heq : a = b
          · rw [heq]
          · rcases htotal a ha b hb heq with hab | hba
            · exact le_antisymm (h a ha b hb hina hinb heq hab) (himportance a b hab)
            · exact le_antisymm (himportance b a hba) (h b hb a ha hinb hina (Ne.symm heq) hba)
        · intro h a ha b hb hina hinb _ _
          exact (h a ha b hb ((hshown a ha).mpr hina) ((hshown b hb).mpr hinb)).le
    | timestamp =>
      dsimp only
      constructor
      · intro h a ha b hb hina hinb hab
        by_cases heq : a = b
        · rw [heq]
          exact (inDirection_total _ _ _).elim id id
        · exact h a ha b hb ((hshown a ha).mp hina) ((hshown b hb).mp hinb) heq hab
      · intro h a ha b hb hina hinb _ hab
        exact h a ha b hb ((hshown a ha).mpr hina) ((hshown b hb).mpr hinb) hab

end Served

section Plain

variable {kind : StoreKind} {items : List MemoryItem}

theorem jsonExtract_iff_same (hlawful : py.Lawful) {keys : List String} {item : MemoryItem}
    {filter : String × Json} (h : PlainFilter keys item filter) :
    jsonExtract py item.content filter.1 = some (py.str filter.2) ↔
      py.same ((item.content.field? filter.1).getD .null) filter.2 = true := by
  obtain ⟨-, ⟨value, hvalue⟩, hfield⟩ := h
  unfold jsonExtract
  rw [hvalue, hlawful.str_text]
  rcases hfield with hnone | ⟨text, htext⟩
  · rw [hnone, Option.getD_none, hlawful.same_null]
    simp
  · rw [htext, Option.getD_some, hlawful.same_text]
    simp

/-- **A plain condition** is read as it is meant. -/
theorem plain_reads (hlawful : py.Lawful) (h : PlainQuery kind spec items)
    (hfiled : ∀ item ∈ items, ∀ type ∈ kind.type, item.memoryType = type) :
    ∀ item ∈ items, ∀ c ∈ spec.conditions, ¬kind.LetsIn py item c ∧ ¬kind.LeavesOut py item c := by
  intro item hitem
  rw [forall_conditions]
  refine ⟨fun type htype => ⟨fun hin => ?_, id⟩, fun range hrange => ?_, fun filter hmem => ?_⟩
  · exact hin.2 (hfiled item hitem type (h.memoryType type htype))
  · obtain ⟨hkind, offset, hlow, hhigh, hall⟩ := h.timeRange range hrange
    have hitemLow := readsBefore_iff_instant py hlow (hall item hitem)
    have hitemHigh := readsBefore_iff_instant py (hall item hitem) hhigh
    refine ⟨⟨fun hin => ?_, fun hout => ?_⟩, ⟨fun hin => ?_, fun hout => ?_⟩⟩
    · exact hin.1.not_ge (hitemLow.mp (hin.2.resolve_left hkind))
    · exact hout.2.2 (hitemLow.mpr hout.1)
    · exact hin.1.not_ge (hitemHigh.mp (hin.2.resolve_left hkind))
    · exact hout.2.2 (hitemHigh.mpr hout.1)
  · have hplain := h.filters filter hmem item hitem
    have hread := jsonExtract_iff_same hlawful hplain
    refine ⟨fun hin => ?_, fun hout => hout.2.2 (hread.mpr hout.1)⟩
    rcases hin.2 with hunknown | htext
    · exact hunknown hplain.1
    · exact Bool.false_ne_true (hin.1.symm.trans (hread.mp htext))

theorem plain_serves (hlawful : py.Lawful) (h : PlainQuery kind spec items)
    (hfiled : ∀ item ∈ items, ∀ type ∈ kind.type, item.memoryType = type) :
    ∀ item ∈ items, ¬LetIn py kind spec item ∧ ¬LeftOut py kind spec item := by
  intro item hitem
  have hreads := plain_reads hlawful h hfiled item hitem
  constructor
  · rintro ⟨-, -, c, hc, hin⟩
    exact (hreads c hc).1 hin
  · rintro ⟨-, -, c, hc, hout⟩
    exact (hreads c hc).2 hout

theorem PlainQuery.orderServes (h : PlainQuery kind spec items)
    (mayPrecede : MemoryItem → MemoryItem → Prop) : OrderServes py kind spec items mayPrecede := by
  unfold OrderServes
  rcases h.sort with hnone | ⟨hkey, hdesc⟩
  · rw [hnone]
    trivial
  · rw [hkey]
    exact .inl hdesc

theorem PlainQuery.serves (hlawful : py.Lawful) (h : PlainQuery kind spec items)
    (hfiled : ∀ item ∈ items, ∀ type ∈ kind.type, item.memoryType = type)
    (hoffset : spec.offset = 0) : Serves py kind spec items := by
  classical
  have hreads := plain_serves hlawful h hfiled
  refine ⟨fun item hitem => (hreads item hitem).1, ?_, fun a ha hout => ?_⟩
  · rw [hoffset, Nat.zero_min, List.length_eq_zero_iff, List.filter_eq_nil_iff]
    intro item hitem
    simpa using (hreads item hitem).2
  · exact ((hreads a ha).2 hout).elim

end Plain

/-! ## The stores -/

section Stores

theorem EpisodicStore.accepts_iff (store : EpisodicStore) : ∀ item ∈ store.items,
    episodicAccepts py spec item = true ↔ spec.minImportance ≤ item.importance ∧
      ∀ c ∈ spec.conditions, StoreKind.episodic.Accepts py item c :=
  fun item hitem => episodicAccepts_iff (store.typed item hitem)

theorem DecisionStore.accepts_iff (store : DecisionStore) : ∀ item ∈ store.items,
    decisionAccepts py spec item = true ↔ spec.minImportance ≤ item.importance ∧
      ∀ c ∈ spec.conditions, StoreKind.decision.Accepts py item c :=
  fun item hitem => decisionAccepts_iff (store.typed item hitem)

theorem decisionOrder_importance {a b : MemoryItem} (h : decisionOrder a b) :
    b.importance ≤ a.importance := by
  have hfirst := Prod.Lex.monotone_fst _ _ h
  exact OrderDual.toDual_le_toDual.mp hfirst

theorem StablyPrecedes.importance {items : List MemoryItem} {a b : MemoryItem}
    (h : StablyPrecedes items a b) : b.importance ≤ a.importance :=
  h.elim le_of_lt fun heq => heq.1.ge

theorem stablyPrecedes_total {items : List MemoryItem} {a b : MemoryItem} (ha : a ∈ items)
    (hb : b ∈ items) (hne : a ≠ b) : StablyPrecedes items a b ∨ StablyPrecedes items b a := by
  rcases lt_trichotomy a.importance b.importance with hlt | heq | hgt
  · exact .inr (.inl hlt)
  · exact (pair_sublist ha hb hne).imp (fun h => .inr ⟨heq, h⟩) fun h => .inr ⟨heq.symm, h⟩
  · exact .inl (.inl hgt)

theorem EpisodicStore.honours_iff_serves (store : EpisodicStore) : store.Honours py spec ↔
    Serves py .episodic spec store.items ∧
      OrderServes py .episodic spec store.items moreImportant := by
  rw [store.honours_iff, covers_iff_serves store.accepts_iff]
  refine and_congr_right fun hserves => ?_
  exact ordered_iff_serves store.accepts_iff (fun a _ b _ _ => total_of moreImportant a b)
    (fun _ _ h => h) hserves.letIn

theorem SessionMemory.honours_iff_serves (memory : SessionMemory) (now : ℤ) :
    memory.Honours py now spec ↔ Serves py .session spec (memory.evictExpired now).items ∧
      OrderServes py .session spec (memory.evictExpired now).items
        (StablyPrecedes (memory.evictExpired now).items) := by
  have haccepts : ∀ item ∈ (memory.evictExpired now).items, sessionAccepts spec item = true ↔ _ :=
    fun item _ => @sessionAccepts_iff py spec item
  rw [memory.honours_iff, covers_iff_serves haccepts, stablyOrdered_iff]
  refine and_congr_right fun hserves => ?_
  exact ordered_iff_serves haccepts (fun a ha b hb hne => stablyPrecedes_total ha hb hne)
    (fun _ _ h => h.importance) hserves.letIn

theorem DecisionStore.honours_iff_serves (store : DecisionStore) : store.Honours py spec ↔
    (∀ item ∈ store.items, ¬LetIn py .decision spec item ∧ ¬LeftOut py .decision spec item) ∧
      OrderServes py .decision spec store.items decisionOrder := by
  rw [store.honours_iff, accepts_eq_wants_iff store.accepts_iff]
  refine and_congr_right fun hserves => ?_
  exact ordered_iff_serves store.accepts_iff (fun a _ b _ _ => total_of decisionOrder a b)
    (fun _ _ h => decisionOrder_importance h) fun item hitem => (hserves item hitem).1

end Stores

/-- **When the stores honour a query.** The episodic store and the session memory do when they let
no item in by a condition that it fails, when they leave out as many of the others as the query
passes over, which is none without an offset, and when their order by importance agrees with the
requested one on what is shown; the decision store, when it lets no item in and leaves none out and
the same holds of its order. So they all do where the query is plain. -/
theorem stores_honour_iff (py : Platform) (spec : MemoryQuery) :
    (∀ store : EpisodicStore, (store.Honours py spec ↔ Serves py .episodic spec store.items ∧
        OrderServes py .episodic spec store.items moreImportant) ∧
      (py.Lawful → PlainQuery .episodic spec store.items → store.Honours py spec)) ∧
    (∀ (memory : SessionMemory) (now : ℤ),
      (memory.Honours py now spec ↔ Serves py .session spec (memory.evictExpired now).items ∧
        OrderServes py .session spec (memory.evictExpired now).items
          (StablyPrecedes (memory.evictExpired now).items)) ∧
      (py.Lawful → PlainQuery .session spec (memory.evictExpired now).items →
        memory.Honours py now spec)) ∧
    ∀ store : DecisionStore, (store.Honours py spec ↔
        (∀ item ∈ store.items, ¬LetIn py .decision spec item ∧ ¬LeftOut py .decision spec item) ∧
          OrderServes py .decision spec store.items decisionOrder) ∧
      (py.Lawful → PlainQuery .decision spec store.items → store.Honours py spec) := by
  refine ⟨fun store => ⟨store.honours_iff_serves, fun hlawful hplain => ?_⟩,
    fun memory now => ⟨memory.honours_iff_serves now, fun hlawful hplain => ?_⟩,
    fun store => ⟨store.honours_iff_serves, fun hlawful hplain => ?_⟩⟩
  · rw [store.honours_iff_serves]
    refine ⟨hplain.serves hlawful ?_ (hplain.offset.resolve_right (by decide)),
      hplain.orderServes _⟩
    rintro item hitem _ ⟨⟩
    exact store.typed item hitem
  · rw [memory.honours_iff_serves now]
    refine ⟨hplain.serves hlawful ?_ (hplain.offset.resolve_right (by decide)),
      hplain.orderServes _⟩
    rintro item - _ ⟨⟩
  · rw [store.honours_iff_serves]
    refine ⟨plain_serves hlawful hplain ?_, hplain.orderServes _⟩
    rintro item hitem _ ⟨⟩
    exact store.typed item hitem

/-- A platform in UTC that tells texts apart. -/
def utc : Platform where
  localOffset := fun _ => 0
  same := fun a b => a.text? = b.text?
  str := fun value => value.text?.getD ""
  jsonText := fun _ => ""

/-- One item of a type. -/
def note (memoryType : MemoryType) : MemoryItem where
  id := "note"
  memoryType
  content := .object []
  importance := ⟨1, within_one⟩
  timestamp := ⟨⟨2026, 7, 23, 12, 0, 0, 0, DateTime.valid_noon⟩, none⟩

/-- Each store departs from a query: the episodic store and the session memory show the only item
again on a second page, the decision store shows it to a query for episodes. -/
theorem stores_depart :
    ¬{ offset := 1 : MemoryQuery }.Answers utc [note .episodic]
      (EpisodicStore.query utc { offset := 1 } [note .episodic]) ∧
    ¬{ offset := 1 : MemoryQuery }.Answers utc [note .session]
      (SessionMemory.query ⟨[note .session], List.nodup_singleton _, fun _ => 3600⟩ 0
        { offset := 1 }) ∧
    ¬{ memoryType := some .episodic : MemoryQuery }.Answers utc [note .decision]
      (DecisionStore.query utc { memoryType := some .episodic } [note .decision]) := by
  refine ⟨fun h => ?_, fun h => ?_, fun h => ?_⟩
  · exact absurd (Ranking.IsWindow.length h) (by decide +kernel)
  · exact absurd (Ranking.IsWindow.length h) (by decide +kernel)
  · exact absurd (Ranking.IsWindow.length h) (by decide +kernel)

end Memories

import AiLabOs.Base.Assoc
import AiLabOs.Base.Merging
import AiLabOs.Memory.Queries

/-!
# Memory: retrieval over all stores

A query without a type goes to every store. The manager sorts what they answer by importance and
cuts it, but each store has dropped the offset before.

## Main definitions

* `MemoryManager.retrieveMemory`: the answer of the manager
* `exactStore`: a store that answers as the query means
* `MemoryQuery.DropsOnce`: the offsets that the stores drop are as good as one

## Main results

* `retrieveMemory_eq`: over exact stores the answer is a page of their sorted lists
* `retrieveMemory_answers_iff`: when the answer is one over all items
-/

namespace Memories

/-- `MemoryManager`, by what its stores answer. -/
structure MemoryManager where
  stores : List (MemoryType × (MemoryQuery → List MemoryItem))

/-- `MemoryManager.retrieve_memory`; it raises for a type without a store. -/
def MemoryManager.retrieveMemory (manager : MemoryManager) (query : MemoryQuery) :
    Option (List MemoryItem) :=
  match query.memoryType with
  | some memoryType => (Assoc.get manager.stores memoryType).map fun store => store query
  | none =>
    let results := manager.stores.flatMap fun store => store.2 query
    some ((results.insertionSort moreImportant).take query.topK)

variable (py : Platform)

/-- A store that answers as the query means, with items of equal keys in the order it holds them. -/
def exactStore (items : List MemoryItem) (query : MemoryQuery) : List MemoryItem :=
  Query.select (query.wants py) (query.before py) query.topK query.offset items

/-- A manager of such stores. -/
def exactManager (contents : List (MemoryType × List MemoryItem)) : MemoryManager where
  stores := contents.map fun store => (store.1, exactStore py store.2)

/-- All items. -/
def union (contents : List (MemoryType × List MemoryItem)) : List MemoryItem :=
  contents.flatMap Prod.snd

namespace MemoryQuery

variable (query : MemoryQuery)

/-- The query is one for all types, by importance, the most important first. -/
structure ByImportance : Prop where
  memoryType : query.memoryType = none
  sortBy : query.sortBy = some .importance
  sortDesc : query.sortDesc = true
  topK : 1 ≤ query.topK

/-- How many wanted items have at least this importance. -/
def found (importance : Importance) (items : List MemoryItem) : ℕ :=
  items.countP fun item => query.wants py item && decide (importance ≤ item.importance)

/-- How many items are wanted. -/
def wanted (items : List MemoryItem) : ℕ := items.countP (query.wants py)

/-- **The offsets the stores drop are as good as one**: for each importance, of the wanted items
that are at least as important, none is dropped, all are, all are of one store, or enough are left
when each store has dropped its own. -/
def DropsOnce (contents : List (MemoryType × List MemoryItem)) : Prop :=
  ∀ importance : Importance, Merging.DroppedOnce query.topK query.offset
    (contents.map fun store => query.found py importance store.2)

end MemoryQuery

section Exact

variable {py} {query : MemoryQuery} {contents : List (MemoryType × List MemoryItem)}

/-- The wanted items of each store, the most important first. -/
def rankings (py : Platform) (query : MemoryQuery)
    (contents : List (MemoryType × List MemoryItem)) : List (List MemoryItem) :=
  contents.map fun store => (store.2.filter (query.wants py)).insertionSort moreImportant

theorem MemoryQuery.ByImportance.before_iff (h : query.ByImportance) (a b : MemoryItem) :
    query.before py a b ↔ moreImportant a b := by
  unfold MemoryQuery.before
  rw [h.sortBy, h.sortDesc]
  exact Iff.rfl

theorem MemoryQuery.ByImportance.withOffset (h : query.ByImportance) (offset : ℕ) :
    { query with offset := offset }.ByImportance :=
  ⟨h.memoryType, h.sortBy, h.sortDesc, h.topK⟩

theorem rankings_sorted (py : Platform) (query : MemoryQuery)
    (contents : List (MemoryType × List MemoryItem)) :
    ∀ rows ∈ rankings py query contents,
      rows.Pairwise (Merging.descending MemoryItem.importance) := by
  intro rows hrows
  obtain ⟨store, -, rfl⟩ := List.mem_map.mp hrows
  exact List.pairwise_insertionSort moreImportant _

/-- Together the rankings hold the wanted items. -/
theorem flatten_rankings_perm (py : Platform) (query : MemoryQuery)
    (contents : List (MemoryType × List MemoryItem)) :
    (rankings py query contents).flatten.Perm ((union contents).filter (query.wants py)) := by
  induction contents with
  | nil => exact List.Perm.refl _
  | cons store contents ih =>
    rw [rankings, List.map_cons, List.flatten_cons, union, List.flatMap_cons, List.filter_append]
    exact (List.perm_insertionSort ..).append ih

/-- **Over exact stores** the answer is a page of their rankings. -/
theorem retrieveMemory_eq (h : query.ByImportance)
    (contents : List (MemoryType × List MemoryItem)) :
    (exactManager py contents).retrieveMemory query = some (Merging.merged MemoryItem.importance
      query.topK query.offset (rankings py query contents)) := by
  have hresults : (exactManager py contents).stores.flatMap (fun store => store.2 query) =
      (rankings py query contents).flatMap (Query.page query.topK query.offset) := by
    rw [exactManager, rankings, List.flatMap_map, List.flatMap_map]
    refine congrArg List.flatten (List.map_congr_left fun store _ => ?_)
    change Query.page _ _ ((store.2.filter _).insertionSort (query.before py)) = _
    rw [Query.insertionSort_congr h.before_iff]
  unfold MemoryManager.retrieveMemory
  rw [h.memoryType]
  simp only [hresults]
  rfl

theorem above_ranking (importance : Importance) (items : List MemoryItem) :
    Merging.above MemoryItem.importance importance
      ((items.filter (query.wants py)).insertionSort moreImportant) =
        query.found py importance items := by
  rw [Merging.above_perm (List.perm_insertionSort ..), Merging.above, List.countP_filter]
  exact List.countP_congr fun item _ => by rw [Bool.and_comm]

theorem map_above_rankings (importance : Importance) :
    (rankings py query contents).map (Merging.above MemoryItem.importance importance) =
      contents.map fun store => query.found py importance store.2 := by
  rw [rankings, List.map_map]
  exact List.map_congr_left fun store _ => above_ranking ..

theorem map_length_rankings :
    (rankings py query contents).map List.length =
      contents.map fun store => query.wanted py store.2 := by
  rw [rankings, List.map_map]
  refine List.map_congr_left fun store _ => ?_
  rw [Function.comp_apply, List.length_insertionSort, MemoryQuery.wanted,
    List.countP_eq_length_filter]

/-- The answer is one over all items exactly when the stores' offsets are as good as one. -/
theorem merged_answers_iff (h : query.ByImportance) :
    query.Answers py (union contents) (Merging.merged MemoryItem.importance query.topK
        query.offset (rankings py query contents)) ↔ query.DropsOnce py contents := by
  have hbefore : query.before py = Merging.descending MemoryItem.importance :=
    funext fun a => funext fun b => propext (h.before_iff a b)
  have hperm := flatten_rankings_perm py query contents
  rw [MemoryQuery.Answers, hbefore]
  constructor
  · intro hwindow importance
    rw [← map_above_rankings]
    exact (Merging.isWindow_merged_iff (rankings_sorted py query contents)).mp
      (hwindow.perm hperm.symm) importance
  · intro hdrops
    refine Ranking.IsWindow.perm ?_ hperm
    refine (Merging.isWindow_merged_iff (rankings_sorted py query contents)).mpr
      fun importance => ?_
    rw [map_above_rankings]
    exact hdrops importance

/-- All pages, as far as they hold anything. -/
theorem pages_eq (h : query.ByImportance) (count : ℕ) :
    (Query.pages query.topK count fun offset =>
      ((exactManager py contents).retrieveMemory { query with offset := offset }).getD []) =
    Query.pages query.topK count fun offset =>
      Merging.merged MemoryItem.importance query.topK offset (rankings py query contents) := by
  refine congrArg (Query.pages query.topK count) (funext fun offset => ?_)
  rw [retrieveMemory_eq (h.withOffset offset)]
  rfl

end Exact

/-- **When retrieval over all stores pages correctly**: a page is one of all items exactly when the
offsets that the stores drop are as good as one, and the pages one after the other hold each wanted
item once exactly when the first one holds them all or only one store has any. -/
theorem retrieveMemory_answers_iff (py : Platform) (contents : List (MemoryType × List MemoryItem))
    (query : MemoryQuery) (h : query.ByImportance) :
    (∃ shown, (exactManager py contents).retrieveMemory query = some shown ∧
      (query.Answers py (union contents) shown ↔ query.DropsOnce py contents)) ∧
    ∀ count, query.wanted py (union contents) ≤ count * query.topK →
      ((Query.pages query.topK count fun offset =>
          ((exactManager py contents).retrieveMemory { query with offset := offset }).getD []).Perm
        ((union contents).filter (query.wants py)) ↔
      query.wanted py (union contents) ≤ query.topK ∨
        ((contents.map fun store => query.wanted py store.2).filter (0 < ·)).length ≤ 1) := by
  refine ⟨⟨_, retrieveMemory_eq h contents, merged_answers_iff h⟩, fun count hcount => ?_⟩
  have hperm := flatten_rankings_perm py query contents
  have hlength : (rankings py query contents).flatten.length =
      query.wanted py (union contents) := by
    rw [hperm.length_eq, MemoryQuery.wanted, List.countP_eq_length_filter]
  have hpages := Merging.pages_merged_iff (rankings_sorted py query contents) h.topK
    (hlength ▸ hcount)
  rw [hlength, map_length_rankings] at hpages
  rw [pages_eq h, ← hpages]
  exact ⟨fun hall => hall.trans hperm.symm, fun hall => hall.trans hperm⟩

/-- Two stores with one item each. -/
def twoNotes : List (MemoryType × List MemoryItem) :=
  [(.session, [note .session]), (.episodic, [note .episodic])]

/-- The second page of one item. -/
def secondPage : MemoryQuery where
  topK := 1
  offset := 1
  sortBy := some .importance

/-- The second page is empty, and so are those after it. -/
theorem retrieveMemory_answers_iff_twoNotes :
    (∃ shown, (exactManager utc twoNotes).retrieveMemory secondPage = some shown ∧
      ¬secondPage.Answers utc (union twoNotes) shown) ∧
    ¬(Query.pages 1 2 fun offset => ((exactManager utc twoNotes).retrieveMemory
      { secondPage with offset := offset }).getD []).Perm
        ((union twoNotes).filter (secondPage.wants utc)) := by
  have h := retrieveMemory_answers_iff utc twoNotes secondPage ⟨rfl, rfl, rfl, le_rfl⟩
  obtain ⟨⟨shown, hshown, hiff⟩, hpages⟩ := h
  refine ⟨⟨shown, hshown, fun hanswers => ?_⟩, fun hall => ?_⟩
  · have hdrops := hiff.mp hanswers ⟨0, le_rfl, zero_le_one⟩
    revert hdrops
    unfold Merging.DroppedOnce
    decide +kernel
  · have hfew := (hpages 2 (by decide +kernel)).mp hall
    revert hfew
    decide +kernel

/-- **A page may be missing**: the stores answer exactly, and the manager does not. -/
theorem retrieveMemory_not_exact :
    ¬∀ (contents : List (MemoryType × List MemoryItem)) (query : MemoryQuery), query.ByImportance →
      ∃ shown, (exactManager utc contents).retrieveMemory query = some shown ∧
        query.Answers utc (union contents) shown := by
  intro h
  obtain ⟨shown, hshown, hanswers⟩ := h twoNotes secondPage ⟨rfl, rfl, rfl, le_rfl⟩
  have hempty : Merging.merged MemoryItem.importance 1 1
      (rankings utc secondPage twoNotes) = [] := by
    rw [← List.length_eq_zero_iff, Merging.length_merged]
    decide +kernel
  rw [retrieveMemory_eq ⟨rfl, rfl, rfl, le_rfl⟩] at hshown
  obtain rfl := Option.some.inj (hempty ▸ hshown)
  exact absurd (Ranking.IsWindow.length hanswers) (by decide +kernel)

end Memories

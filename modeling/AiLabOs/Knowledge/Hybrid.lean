import AiLabOs.Base.Ranking
import AiLabOs.Knowledge.Retrieval
import Mathlib.Algebra.Order.Field.Basic
import Mathlib.Algebra.Field.Rat

/-!
# Knowledge: the hybrid ranking

Each list of scores is divided by its greatest score, so a list of vector results that are all zero
divides by zero. All other lists are ranked as they should be.

## Main definitions

* `share`, `HybridRetriever.score`: the part of the greatest score, and the weighted sum
* `HybridRetriever.IsRanking`: the items of both lists, ranked by their scores

## Main results

* `HybridRetriever.get_combine`, `HybridRetriever.keys_combine`: what the merged results hold
* `HybridRetriever.isRanking`: they are ranked by their scores
* `HybridRetriever.ranks_iff`: when a search gives such a ranking
-/

namespace Knowledge

/-- The part of the greatest score that an item has. -/
def share (results : List (String × ℚ)) (id : String) : ℚ :=
  (Assoc.get results id).getD 0 / maxScore results

/-- An item has a greater score than another one, which may be missing. -/
def Above (results : List (String × ℚ)) (a b : String) : Prop :=
  ∃ s, Assoc.get results a = some s ∧ ∀ t, Assoc.get results b = some t → t < s

section Shares

variable {results : List (String × ℚ)}

theorem getD_le_maxScore (hmax : 0 < maxScore results) (id : String) :
    (Assoc.get results id).getD 0 ≤ maxScore results := by
  cases hget : Assoc.get results id with
  | none => exact hmax.le
  | some s => exact le_maxScore (Assoc.mem_of_get hget)

theorem getD_nonneg (hscores : ∀ entry ∈ results, 0 ≤ entry.2) (id : String) :
    0 ≤ (Assoc.get results id).getD 0 := by
  cases hget : Assoc.get results id with
  | none => exact le_rfl
  | some s => exact hscores _ (Assoc.mem_of_get hget)

theorem share_nonneg (hmax : 0 < maxScore results) (hscores : ∀ entry ∈ results, 0 ≤ entry.2)
    (id : String) : 0 ≤ share results id :=
  div_nonneg (getD_nonneg hscores id) hmax.le

theorem share_le_one (hmax : 0 < maxScore results) (id : String) : share results id ≤ 1 := by
  rw [share, div_le_one hmax]
  exact getD_le_maxScore hmax id

theorem share_mono (hmax : 0 < maxScore results) {a b : String}
    (h : (Assoc.get results b).getD 0 ≤ (Assoc.get results a).getD 0) :
    share results b ≤ share results a :=
  div_le_div_of_nonneg_right h hmax.le

/-- An item that is above another one has at least its score, if no score is negative. -/
theorem Above.getD_le (hscores : ∀ entry ∈ results, 0 ≤ entry.2) {a b : String}
    (h : Above results a b) : (Assoc.get results b).getD 0 ≤ (Assoc.get results a).getD 0 := by
  obtain ⟨s, hs, hless⟩ := h
  rw [hs]
  cases hb : Assoc.get results b with
  | none => exact hscores _ (Assoc.mem_of_get hs)
  | some t => exact (hless t hb).le

end Shares

/-- Entries stand in the order of their keys. -/
theorem pair_sublist_of_keys {ν : Type} {entries : List (String × ν)}
    (hnodup : (entries.map Prod.fst).Nodup) {a b : String × ν} (ha : a ∈ entries)
    (hb : b ∈ entries) (h : [a.1, b.1].Sublist (entries.map Prod.fst)) :
    [a, b].Sublist entries := by
  obtain ⟨pair, hpair, heq⟩ := List.sublist_map_iff.mp h
  obtain ⟨c, rest, rfl, hc, hrest⟩ := List.map_eq_cons_iff.mp heq.symm
  obtain ⟨d, rest, rfl, hd, hnil⟩ := List.map_eq_cons_iff.mp hrest
  obtain rfl := List.map_eq_nil_iff.mp hnil
  obtain rfl := List.inj_on_of_nodup_map hnodup ha (hpair.subset (by simp)) hc.symm
  obtain rfl := List.inj_on_of_nodup_map hnodup hb (hpair.subset (by simp)) hd.symm
  exact hpair

/-- **The better of two items** comes first in ranked results. -/
theorem Ranked.pair_sublist (ranked : Ranked) {a b : String × ℚ} (ha : a ∈ ranked.entries)
    (hb : b ∈ ranked.entries) (h : b.2 < a.2) : [a, b].Sublist ranked.entries := by
  have hne : a ≠ b := by
    rintro rfl
    exact lt_irrefl _ h
  rcases Ranking.pair_sublist ha hb hne with hab | hba
  · exact hab
  · have hle := List.pairwise_iff_forall_sublist.mp ranked.sorted hba
    exact absurd h (not_lt.mpr hle)

namespace HybridRetriever

variable {J : Type} (h : HybridRetriever J)

/-- The combined score of an item. -/
def score (keywords vectors : List (String × ℚ)) (id : String) : ℚ :=
  share keywords id * h.keywordWeight + share vectors id * h.vectorWeight

/-- **The ranking** of the items of both lists, by their scores. Of two items, the one that has no
less in each list has no less in all; the one that is above the other in both comes first. -/
structure IsRanking (keywords vectors : List (String × ℚ)) (all : Combined) : Prop where
  nodup : (all.map Prod.fst).Nodup
  mem : ∀ id, id ∈ all.map Prod.fst ↔ id ∈ keywords.map Prod.fst ∨ id ∈ vectors.map Prod.fst
  scored : ∀ entry ∈ all, entry.2 = (h.score keywords vectors entry.1, Assoc.get vectors entry.1)
  sorted : all.Pairwise fun a b => b.2.1 ≤ a.2.1
  bounds : ∀ entry ∈ all, 0 ≤ entry.2.1 ∧ entry.2.1 ≤ h.vectorWeight + h.keywordWeight
  mono : ∀ a ∈ all, ∀ b ∈ all,
    (Assoc.get keywords b.1).getD 0 ≤ (Assoc.get keywords a.1).getD 0 →
    (Assoc.get vectors b.1).getD 0 ≤ (Assoc.get vectors a.1).getD 0 → b.2.1 ≤ a.2.1
  dominates : ∀ a ∈ all, ∀ b ∈ all, Above keywords a.1 b.1 → Above vectors a.1 b.1 →
    [a, b].Sublist all

/-! ## The merged results -/

section Merge

variable (keywords vectors : List (String × ℚ))

/-- The merged results, if no score is divided by zero. -/
def merged : Combined :=
  vectors.foldl (fun combined entry => h.addVector combined entry (entry.2 / maxScore vectors))
    (keywords.foldl (fun combined entry =>
      h.addKeyword combined entry (entry.2 / maxScore keywords)) [])

variable {keywords vectors}

theorem addVector_eq (combined : Combined) (entry : String × ℚ) (s : ℚ) :
    h.addVector combined entry s = Assoc.set combined entry.1
      (((Assoc.get combined entry.1).elim 0 fun found => found.1) + s * h.vectorWeight,
        some entry.2) := by
  unfold addVector
  cases Assoc.get combined entry.1 with
  | none => rw [Option.elim_none, zero_add]
  | some found => rfl

/-- **No division by zero**: the merged results. -/
theorem combine_eq (hkeywords : maxScore keywords ≠ 0) (hvectors : maxScore vectors ≠ 0) :
    h.combine keywords vectors = some (h.merged keywords vectors) := by
  rw [combine, foldlM_divide hkeywords, Option.bind_some, foldlM_divide hvectors]
  rfl

theorem combine_eq_none (hne : vectors ≠ []) (hvectors : maxScore vectors = 0) :
    h.combine keywords vectors = none := by
  rw [combine, hvectors]
  cases keywords.foldlM (fun combined entry =>
    (divide entry.2 (maxScore keywords)).map (h.addKeyword combined entry)) [] with
  | none => rfl
  | some combined => exact foldlM_divide_zero hne combined

section Nodup

variable (hkeywords : (keywords.map Prod.fst).Nodup) (hvectors : (vectors.map Prod.fst).Nodup)

include hkeywords

/-- What the keyword loop finds. -/
theorem get_keywords (id : String) :
    Assoc.get (keywords.foldl (fun combined entry =>
      h.addKeyword combined entry (entry.2 / maxScore keywords)) []) id =
      (Assoc.get keywords id).map fun s => (s / maxScore keywords * h.keywordWeight, none) := by
  refine (Assoc.get_foldl_set (fun _ s =>
    (s / maxScore keywords * h.keywordWeight, none)) hkeywords [] id).trans ?_
  cases Assoc.get keywords id <;> rfl

include hvectors

/-- **What the merged results hold**: the combined score and the vector score. -/
theorem get_merged {id : String}
    (hid : id ∈ keywords.map Prod.fst ∨ id ∈ vectors.map Prod.fst) :
    Assoc.get (h.merged keywords vectors) id =
      some (h.score keywords vectors id, Assoc.get vectors id) := by
  rw [Assoc.mem_keys, Assoc.mem_keys] at hid
  unfold merged
  simp only [addVector_eq]
  refine (Assoc.get_foldl_set (fun found s =>
    ((found.elim 0 fun found => found.1) + s / maxScore vectors * h.vectorWeight, some s))
    hvectors _ id).trans ?_
  rw [h.get_keywords hkeywords, score, share, share]
  cases hv : Assoc.get vectors id with
  | none =>
    rw [hv] at hid
    obtain ⟨s, hs⟩ := Option.ne_none_iff_exists'.mp (hid.resolve_right (fun hne => hne rfl))
    rw [hs]
    simp
  | some t =>
    cases Assoc.get keywords id <;> simp

/-- **The order of the merged results**: those of the keywords, and the other ones. -/
theorem keys_merged : (h.merged keywords vectors).map Prod.fst =
    keywords.map Prod.fst ++
      (vectors.map Prod.fst).filter fun id => id ∉ keywords.map Prod.fst := by
  have hfirst : (keywords.foldl (fun combined entry =>
      h.addKeyword combined entry (entry.2 / maxScore keywords)) []).map Prod.fst =
      keywords.map Prod.fst := by
    refine (Assoc.keys_foldl_set (fun _ s =>
      (s / maxScore keywords * h.keywordWeight, none)) hkeywords []).trans ?_
    simp
  unfold merged
  simp only [addVector_eq]
  refine (Assoc.keys_foldl_set (fun found s =>
    ((found.elim 0 fun found => found.1) + s / maxScore vectors * h.vectorWeight, some s))
    hvectors _).trans ?_
  rw [hfirst]

theorem nodup_merged : ((h.merged keywords vectors).map Prod.fst).Nodup := by
  rw [h.keys_merged hkeywords hvectors, List.nodup_append]
  refine ⟨hkeywords, hvectors.filter _, ?_⟩
  rintro a ha b hb rfl
  exact absurd ha (of_decide_eq_true (List.mem_filter.mp hb).2)

theorem mem_merged (id : String) : id ∈ (h.merged keywords vectors).map Prod.fst ↔
    id ∈ keywords.map Prod.fst ∨ id ∈ vectors.map Prod.fst := by
  rw [h.keys_merged hkeywords hvectors, List.mem_append, List.mem_filter, decide_eq_true_eq]
  tauto

end Nodup

end Merge

/-! ## The ranking -/

section Rank

variable {h} {keywords : Ranked} {vectors : Results}

/-- An item that is above another one in the keywords comes before it. -/
theorem pair_sublist_merged {a b : String × ℚ × Option ℚ}
    (ha : a ∈ h.merged keywords.entries vectors.entries)
    (hb : b ∈ h.merged keywords.entries vectors.entries)
    (habove : Above keywords.entries a.1 b.1) :
    [a, b].Sublist (h.merged keywords.entries vectors.entries) := by
  have hnodup := h.nodup_merged keywords.nodup vectors.nodup
  apply pair_sublist_of_keys hnodup ha hb
  rw [h.keys_merged keywords.nodup vectors.nodup]
  obtain ⟨s, hs, hless⟩ := habove
  have hmem := Assoc.mem_of_get hs
  by_cases hbk : b.1 ∈ keywords.entries.map Prod.fst
  · -- both are in the keywords, which are sorted
    obtain ⟨t, ht⟩ := Option.ne_none_iff_exists'.mp (Assoc.mem_keys.mp hbk)
    have hpair := keywords.pair_sublist hmem (Assoc.mem_of_get ht) (hless t ht)
    exact (hpair.map Prod.fst).trans (List.sublist_append_left ..)
  · have hbmem := (h.mem_merged keywords.nodup vectors.nodup b.1).mp (List.mem_map_of_mem hb)
    have hbv := hbmem.resolve_left hbk
    have hfirst : [a.1].Sublist (keywords.entries.map Prod.fst) :=
      List.singleton_sublist.mpr (List.mem_map_of_mem (f := Prod.fst) hmem)
    have hsecond : [b.1].Sublist ((vectors.entries.map Prod.fst).filter fun id =>
        id ∉ keywords.entries.map Prod.fst) :=
      List.singleton_sublist.mpr (List.mem_filter.mpr ⟨hbv, by simpa using hbk⟩)
    exact hfirst.append hsecond

/-- **The sorted results** are the ranking, if the greatest scores are positive. -/
theorem isRanking (hkeywords : ∀ entry ∈ keywords.entries, 0 ≤ entry.2)
    (hvectors : ∀ entry ∈ vectors.entries, 0 ≤ entry.2)
    (hkmax : 0 < maxScore keywords.entries) (hvmax : 0 < maxScore vectors.entries)
    (hvw : 0 ≤ h.vectorWeight) (hkw : 0 ≤ h.keywordWeight) :
    h.IsRanking keywords.entries vectors.entries
      ((h.merged keywords.entries vectors.entries).insertionSort fun a b => b.2.1 ≤ a.2.1) := by
  have hperm := List.perm_insertionSort (fun a b : String × ℚ × Option ℚ => b.2.1 ≤ a.2.1)
    (h.merged keywords.entries vectors.entries)
  have hkeys := hperm.map Prod.fst
  have hnodup := h.nodup_merged keywords.nodup vectors.nodup
  have hmem := h.mem_merged keywords.nodup vectors.nodup
  have hscored : ∀ entry ∈ h.merged keywords.entries vectors.entries,
      entry.2 = (h.score keywords.entries vectors.entries entry.1,
        Assoc.get vectors.entries entry.1) := by
    intro entry hentry
    have hget := Assoc.get_of_mem hnodup hentry
    have hid := (hmem entry.1).mp (List.mem_map_of_mem hentry)
    rw [h.get_merged keywords.nodup vectors.nodup hid] at hget
    exact (Option.some.inj hget).symm
  have hmono : ∀ a ∈ h.merged keywords.entries vectors.entries,
      ∀ b ∈ h.merged keywords.entries vectors.entries,
      (Assoc.get keywords.entries b.1).getD 0 ≤ (Assoc.get keywords.entries a.1).getD 0 →
      (Assoc.get vectors.entries b.1).getD 0 ≤ (Assoc.get vectors.entries a.1).getD 0 →
      b.2.1 ≤ a.2.1 := by
    intro a ha b hb hkle hvle
    rw [hscored a ha, hscored b hb]
    exact add_le_add (mul_le_mul_of_nonneg_right (share_mono hkmax hkle) hkw)
      (mul_le_mul_of_nonneg_right (share_mono hvmax hvle) hvw)
  constructor
  case nodup => exact hkeys.nodup_iff.mpr hnodup
  case mem =>
    intro id
    rw [hkeys.mem_iff]
    exact hmem id
  case scored => exact fun entry hentry => hscored entry (hperm.mem_iff.mp hentry)
  case sorted =>
    have : Std.Total fun a b : String × ℚ × Option ℚ => b.2.1 ≤ a.2.1 :=
      ⟨fun a b => le_total b.2.1 a.2.1⟩
    have : IsTrans (String × ℚ × Option ℚ) fun a b => b.2.1 ≤ a.2.1 :=
      ⟨fun _ _ _ hab hbc => hbc.trans hab⟩
    exact List.pairwise_insertionSort _ _
  case bounds =>
    intro entry hentry
    rw [hscored entry (hperm.mem_iff.mp hentry)]
    constructor
    · exact add_nonneg (mul_nonneg (share_nonneg hkmax hkeywords _) hkw)
        (mul_nonneg (share_nonneg hvmax hvectors _) hvw)
    · rw [add_comm h.vectorWeight]
      exact add_le_add (mul_le_of_le_one_left hkw (share_le_one hkmax _))
        (mul_le_of_le_one_left hvw (share_le_one hvmax _))
  case mono =>
    intro a ha b hb
    exact hmono a (hperm.mem_iff.mp ha) b (hperm.mem_iff.mp hb)
  case dominates =>
    intro a ha b hb hka hva
    rw [hperm.mem_iff] at ha hb
    have hle := hmono a ha b hb (hka.getD_le hkeywords) (hva.getD_le hvectors)
    -- the sort is stable, and the better item was merged first
    exact List.pair_sublist_insertionSort hle (pair_sublist_merged ha hb hka)

end Rank

theorem maxScore_pos {results : List (String × ℚ)} (h : ∀ entry ∈ results, 0 < entry.2) :
    0 < maxScore results := by
  by_cases hempty : results = []
  · rw [hempty, maxScore_nil]
    exact one_pos
  · obtain ⟨entry, hentry, heq⟩ := exists_maxScore hempty
    rw [← heq]
    exact h entry hentry

/-- The greatest score is positive, if there are no results or if some score is not zero. -/
theorem maxScore_pos_iff {results : List (String × ℚ)} (h : ∀ entry ∈ results, 0 ≤ entry.2) :
    0 < maxScore results ↔ results = [] ∨ ∃ entry ∈ results, entry.2 ≠ 0 := by
  by_cases hempty : results = []
  · rw [hempty, maxScore_nil]
    exact iff_of_true one_pos (.inl rfl)
  rw [or_iff_right hempty]
  constructor
  · intro hpos
    obtain ⟨entry, hentry, heq⟩ := exists_maxScore hempty
    exact ⟨entry, hentry, by rw [heq]; exact hpos.ne'⟩
  · rintro ⟨entry, hentry, hne⟩
    exact ((h entry hentry).lt_of_ne' hne).trans_le (le_maxScore hentry)

/-- **When a search ranks the items**: whenever there are no vector results, or one of them has a
score that is not zero. -/
theorem ranks_iff (query : KnowledgeQuery J)
    (hkeywords : ∀ entry ∈ (h.keyword query.text (query.topK * 2)).entries, 0 < entry.2)
    (hvectors : ∀ entry ∈ (h.vector query.text (query.topK * 2) query.filters
      query.minScore).entries, query.minScore ≤ entry.2 ∧ entry.2 ≤ 1)
    (hvw : 0 ≤ h.vectorWeight) (hkw : 0 ≤ h.keywordWeight) :
    (∃ all, h.search query = some (all.take query.topK) ∧
      h.IsRanking (h.keyword query.text (query.topK * 2)).entries
        (h.vector query.text (query.topK * 2) query.filters query.minScore).entries all) ↔
      (h.vector query.text (query.topK * 2) query.filters query.minScore).entries = [] ∨
        ∃ entry ∈ (h.vector query.text (query.topK * 2) query.filters query.minScore).entries,
          entry.2 ≠ 0 := by
  unfold search
  dsimp only
  generalize h.keyword query.text (query.topK * 2) = keywords at hkeywords ⊢
  generalize h.vector query.text (query.topK * 2) query.filters query.minScore = vectors
    at hvectors ⊢
  have hscores : ∀ entry ∈ vectors.entries, 0 ≤ entry.2 := fun entry hentry =>
    query.minScore_nonneg.trans (hvectors entry hentry).1
  have hkmax := maxScore_pos hkeywords
  rw [← maxScore_pos_iff hscores]
  constructor
  · rintro ⟨all, hsearch, -⟩
    by_contra hnot
    have hne : vectors.entries ≠ [] := by
      intro hempty
      rw [hempty, maxScore_nil] at hnot
      exact hnot one_pos
    have hzero : maxScore vectors.entries = 0 := by
      obtain ⟨entry, hentry, heq⟩ := exists_maxScore hne
      exact le_antisymm (not_lt.mp hnot) (heq ▸ hscores entry hentry)
    rw [h.combine_eq_none hne hzero] at hsearch
    cases hsearch
  · intro hvmax
    refine ⟨_, ?_, isRanking (fun entry hentry => (hkeywords entry hentry).le) hscores hkmax hvmax
      hvw hkw⟩
    rw [h.combine_eq hkmax.ne' hvmax.ne', Option.map_some]

/-! ## An item that is orthogonal to the query -/

/-- Vectors that all have the same cosine. -/
def constant (cosine : ℚ) (hlow : -1 ≤ cosine) (hhigh : cosine ≤ 1) : Similarity Unit where
  cosine _ _ := cosine
  neg_one_le _ _ := hlow
  le_one _ _ := hhigh

/-- A collection of one record. -/
def oneRecord : Collection Unit Unit := ⟨[("a", ⟨(), []⟩)], by decide⟩

theorem neg_one_le_zero : (-1 : ℚ) ≤ 0 := by decide

theorem zero_le_top : (0 : ℚ) ≤ 1 := zero_le_one

/-- The retriever of an empty index and of a record with the cosine zero. -/
def orthogonal : HybridRetriever Unit :=
  .over .ascii (fun _ _ => 1) {} (fun _ => ()) (constant 0 neg_one_le_zero zero_le_top) oneRecord

/-- With the default least score, the one vector score is zero, and divided by itself. -/
theorem not_ranks : ¬∀ (h : HybridRetriever Unit) (query : KnowledgeQuery Unit),
    (∀ entry ∈ (h.keyword query.text (query.topK * 2)).entries, 0 < entry.2) →
    (∀ entry ∈ (h.vector query.text (query.topK * 2) query.filters query.minScore).entries,
      query.minScore ≤ entry.2 ∧ entry.2 ≤ 1) → 0 ≤ h.vectorWeight → 0 ≤ h.keywordWeight →
    ∃ all, h.search query = some (all.take query.topK) ∧
      h.IsRanking (h.keyword query.text (query.topK * 2)).entries
        (h.vector query.text (query.topK * 2) query.filters query.minScore).entries all := by
  intro hall
  obtain ⟨all, hsearch, -⟩ := hall orthogonal { text := "hello" } (by decide +kernel)
    MockVectorProvider.search_within (by decide +kernel) (by decide +kernel)
  have hnone : orthogonal.search { text := "hello" } = none := by decide +kernel
  rw [hnone] at hsearch
  cases hsearch

/-- The retriever of the same collection, with the cosine one half, and of an index of one item. -/
def similar : HybridRetriever Unit :=
  .over .ascii (fun _ _ => 1) (.add .ascii {} "b" "Hello, world") (fun _ => ())
    (constant (1 / 2) (by decide +kernel) (by decide +kernel)) oneRecord

/-- One item is found by its words and one by its vector. -/
theorem ranks_similar :
    (∃ all, similar.search { text := "hello" } = some (all.take 10) ∧
      similar.IsRanking (similar.keyword "hello" 20).entries
        (similar.vector "hello" 20 [] 0).entries all) ↔
      (similar.vector "hello" 20 [] 0).entries = [] ∨
        ∃ entry ∈ (similar.vector "hello" 20 [] 0).entries, entry.2 ≠ 0 :=
  ranks_iff similar { text := "hello" } (by decide +kernel) MockVectorProvider.search_within
    (by decide +kernel) (by decide +kernel)

example : similar.search { text := "hello" } =
    some [("a", 7 / 10, some (1 / 2)), ("b", 3 / 10, none)] := by decide +kernel

end HybridRetriever

end Knowledge

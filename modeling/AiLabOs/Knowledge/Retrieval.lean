import AiLabOs.Base.Assoc
import AiLabOs.Base.Text
import AiLabOs.Base.Unicode
import Mathlib.Algebra.Order.Ring.Rat
import Mathlib.Data.List.Sort

/-!
# Knowledge: retrieval

A text is searched for by its words and by its vector, and the two lists of results are merged. The
scores are exact; the logarithm and the cosine are parameters.

## Main definitions

* `Results`, `Ranked`: what a retriever finds, every item once
* `KeywordRetriever`: the index, and its search
* `MockVectorProvider.search`: the search of a collection of vectors
* `HybridRetriever.search`: both, merged

## Main results

* `MockVectorProvider.search_within`: the bounds of the vector scores
* `foldlM_divide`, `foldlM_divide_zero`: a loop that divides by a score
-/

namespace Knowledge

/-! ## Results -/

/-- The results of a retriever: different items, with their scores. -/
structure Results where
  entries : List (String × ℚ)
  nodup : (entries.map Prod.fst).Nodup

/-- Results with the best first. -/
structure Ranked extends Results where
  sorted : entries.Pairwise fun a b => b.2 ≤ a.2

/-- The best results first: `sorted(…, key=…, reverse=True)`. -/
def Results.sort (results : Results) : Ranked where
  entries := results.entries.insertionSort fun a b => b.2 ≤ a.2
  nodup := ((List.perm_insertionSort _ results.entries).map Prod.fst).nodup_iff.mpr results.nodup
  sorted :=
    have : Std.Total fun a b : String × ℚ => b.2 ≤ a.2 := ⟨fun a b => le_total b.2 a.2⟩
    have : IsTrans (String × ℚ) fun a b => b.2 ≤ a.2 := ⟨fun _ _ _ hab hbc => hbc.trans hab⟩
    List.pairwise_insertionSort _ _

/-- The first `k` results. -/
def Ranked.take (ranked : Ranked) (k : ℕ) : Ranked where
  entries := ranked.entries.take k
  nodup := ranked.nodup.sublist ((List.take_sublist k ranked.entries).map Prod.fst)
  sorted := ranked.sorted.sublist (List.take_sublist k ranked.entries)

/-- No results. -/
def Ranked.none : Ranked := ⟨⟨[], List.nodup_nil⟩, List.Pairwise.nil⟩

/-! ## Keywords -/

/-- `[a-zA-Z0-9]`. -/
def isAlphanumeric (c : Char) : Bool :=
  ('a' ≤ c && c ≤ 'z') || ('A' ≤ c && c ≤ 'Z') || ('0' ≤ c && c ≤ '9')

/-- The runs of letters and digits: `re.findall(r'[a-zA-Z0-9]+', text)`. -/
def runs (run : List Char) : List Char → List (List Char)
  | [] => if run = [] then [] else [run]
  | c :: text =>
    if isAlphanumeric c then runs (run ++ [c]) text
    else if run = [] then runs [] text
    else run :: runs [] text

/-- `_tokenize`: words of two characters or more, in lower case, and single ideographs. -/
def tokenize (uni : Unicode) (text : String) : List String :=
  (((runs [] (uni.lower text).toList).filter fun run => 2 ≤ run.length) ++
    (text.toList.filter isIdeograph).map fun c => [c]).map String.ofList

/-- The keyword index: for every term, how often it is in an item. -/
structure KeywordRetriever where
  index : List (String × List (String × ℕ)) := []
  items : List String := []
  docCount : ℕ := 0

namespace KeywordRetriever

/-- How often each term occurs. -/
def frequencies (terms : List String) : List (String × ℕ) :=
  terms.foldl (fun tf t => Assoc.set tf t ((Assoc.get tf t).getD 0 + 1)) []

/-- `index`. -/
def add (uni : Unicode) (r : KeywordRetriever) (id content : String) : KeywordRetriever where
  index := (frequencies (tokenize uni content)).foldl
    (fun index entry => Assoc.set index entry.1
      (Assoc.set ((Assoc.get index entry.1).getD []) id entry.2)) r.index
  items := if id ∈ r.items then r.items else r.items ++ [id]
  docCount := r.docCount + 1

/-- `remove`. -/
def remove (r : KeywordRetriever) (id : String) : KeywordRetriever where
  index := r.index.map fun entry => (entry.1, Assoc.pop entry.2 id)
  items := r.items.filter fun item => item ≠ id
  docCount := if id ∈ r.items then r.docCount - 1 else r.docCount

/-- The scores of the items that have one of the terms. `idf` is
`math.log((doc_count + 1) / (len(postings) + 1)) + 1`. -/
def scores (idf : ℕ → ℕ → ℚ) (r : KeywordRetriever) (terms : List String) : List (String × ℚ) :=
  terms.foldl (fun scores term =>
    let postings := (Assoc.get r.index term).getD []
    postings.foldl (fun scores posting => Assoc.set scores posting.1
      ((Assoc.get scores posting.1).getD 0 + posting.2 * idf r.docCount postings.length)) scores) []

/-- Every turn of a loop that keeps the keys different. -/
theorem nodup_foldl {α ν : Type} {step : List (String × ν) → α → List (String × ν)}
    (hstep : ∀ d a, (d.map Prod.fst).Nodup → ((step d a).map Prod.fst).Nodup) (turns : List α)
    {d : List (String × ν)} (hd : (d.map Prod.fst).Nodup) :
    ((turns.foldl step d).map Prod.fst).Nodup := by
  induction turns generalizing d with
  | nil => exact hd
  | cons a turns ih => exact ih (hstep d a hd)

theorem nodup_scores (idf : ℕ → ℕ → ℚ) (r : KeywordRetriever) (terms : List String) :
    ((r.scores idf terms).map Prod.fst).Nodup := by
  refine nodup_foldl (fun scores term hscores => ?_) terms (d := []) List.nodup_nil
  exact nodup_foldl (fun scores posting hscores => Assoc.nodup_set hscores ..) _ hscores

/-- `search`. -/
def search (uni : Unicode) (idf : ℕ → ℕ → ℚ) (r : KeywordRetriever) (text : String) (topK : ℕ) :
    Ranked :=
  if r.docCount = 0 ∨ Text.blank text then .none
  else if tokenize uni text = [] then .none
  else (Results.sort ⟨r.scores idf (tokenize uni text), r.nodup_scores idf _⟩).take topK

end KeywordRetriever

/-! ## Vectors -/

section Vectors

variable {V J : Type} [DecidableEq J]

/-- `VectorRecord`. A value of its metadata is `none` for `None`; values are taken up to `==`. -/
structure VectorRecord (V J : Type) where
  vector : V
  metadata : List (String × Option J)

/-- A collection: the records under their identifiers. -/
structure Collection (V J : Type) where
  records : List (String × VectorRecord V J)
  nodup : (records.map Prod.fst).Nodup

/-- All keys of the filter match. -/
def filterMatches (filters : List (String × Option J)) (metadata : List (String × Option J)) :
    Bool :=
  filters.all fun f => decide ((Assoc.get metadata f.1).join = f.2)

/-- `_cosine_similarity`. -/
structure Similarity (V : Type) where
  cosine : V → V → ℚ
  neg_one_le : ∀ a b, -1 ≤ cosine a b
  le_one : ∀ a b, cosine a b ≤ 1

/-- The records of a collection that match, with their scores. -/
def Collection.matching (sim : Similarity V) (coll : Collection V J) (vector : V)
    (filters : List (String × Option J)) (minScore : ℚ) : List (String × ℚ) :=
  ((coll.records.filter fun r => filterMatches filters r.2.metadata).map fun r =>
    (r.1, sim.cosine vector r.2.vector)).filter fun r => minScore ≤ r.2

theorem Collection.nodup_matching (sim : Similarity V) (coll : Collection V J) (vector : V)
    (filters : List (String × Option J)) (minScore : ℚ) :
    ((coll.matching sim vector filters minScore).map Prod.fst).Nodup := by
  refine coll.nodup.sublist ?_
  unfold Collection.matching
  refine (List.filter_sublist.map Prod.fst).trans ?_
  rw [List.map_map]
  exact List.filter_sublist.map Prod.fst

/-- `MockVectorProvider.search`. -/
def MockVectorProvider.search (sim : Similarity V) (coll : Collection V J) (vector : V)
    (topK : ℕ) (filters : List (String × Option J)) (minScore : ℚ) : Ranked :=
  (Results.sort ⟨coll.matching sim vector filters minScore,
    coll.nodup_matching sim vector filters minScore⟩).take topK

/-- **The scores of the mock provider** are at least the least score, and at most one. -/
theorem MockVectorProvider.search_within {sim : Similarity V} {coll : Collection V J} {vector : V}
    {topK : ℕ} {filters : List (String × Option J)} {minScore : ℚ} :
    ∀ entry ∈ (search sim coll vector topK filters minScore).entries,
      minScore ≤ entry.2 ∧ entry.2 ≤ 1 := by
  intro entry hentry
  have hsorted := (List.perm_insertionSort _ _).mem_iff.mp (List.mem_of_mem_take hentry)
  obtain ⟨hmem, hmin⟩ := List.mem_filter.mp hsorted
  obtain ⟨r, -, rfl⟩ := List.mem_map.mp hmem
  exact ⟨of_decide_eq_true hmin, sim.le_one vector r.2.vector⟩

end Vectors

/-! ## Both -/

/-- `KnowledgeQuery`. -/
structure KnowledgeQuery (J : Type) where
  text : String
  topK : ℕ := 10
  filters : List (String × Option J) := []
  minScore : ℚ := 0
  one_le_topK : 1 ≤ topK := by decide
  minScore_nonneg : 0 ≤ minScore := by decide
  minScore_le_one : minScore ≤ 1 := by decide

/-- `HybridRetriever`: its retrievers in their current states, and its weights. -/
structure HybridRetriever (J : Type) where
  vector : String → ℕ → List (String × Option J) → ℚ → Results
  keyword : String → ℕ → Ranked
  vectorWeight : ℚ := 7 / 10
  keywordWeight : ℚ := 3 / 10

/-- The hybrid retriever of a keyword index, an embedding and a collection of the mock provider. -/
def HybridRetriever.over {V J : Type} [DecidableEq J] (uni : Unicode) (idf : ℕ → ℕ → ℚ)
    (r : KeywordRetriever) (embed : String → V) (sim : Similarity V) (coll : Collection V J) :
    HybridRetriever J where
  vector text topK filters minScore :=
    (MockVectorProvider.search sim coll (embed text) topK filters minScore).toResults
  keyword := r.search uni idf

/-- `a / b`; there is no value for a division by zero. -/
def divide (a b : ℚ) : Option ℚ := if b = 0 then none else some (a / b)

/-- `max((s for _, s in results), default=1.0)`. -/
def maxScore (results : List (String × ℚ)) : ℚ := (results.map Prod.snd).max?.getD 1

namespace HybridRetriever

variable {J : Type} (h : HybridRetriever J)

/-- The combined score and the vector score of every item so far. -/
abbrev Combined := List (String × ℚ × Option ℚ)

/-- The turn of the keyword loop, with the share of a score. -/
def addKeyword (combined : Combined) (entry : String × ℚ) (share : ℚ) : Combined :=
  Assoc.set combined entry.1 (share * h.keywordWeight, none)

/-- The turn of the vector loop, with the share of a score. -/
def addVector (combined : Combined) (entry : String × ℚ) (share : ℚ) : Combined :=
  match Assoc.get combined entry.1 with
  | some (keyword, _) =>
    Assoc.set combined entry.1 (keyword + share * h.vectorWeight, some entry.2)
  | none => Assoc.set combined entry.1 (share * h.vectorWeight, some entry.2)

/-- The merged results. There is none if a score is divided by zero. -/
def combine (keywords vectors : List (String × ℚ)) : Option Combined :=
  (keywords.foldlM (fun combined entry =>
    (divide entry.2 (maxScore keywords)).map (h.addKeyword combined entry)) []).bind fun combined =>
  vectors.foldlM (fun combined entry =>
    (divide entry.2 (maxScore vectors)).map (h.addVector combined entry)) combined

/-- `HybridRetriever.search`. -/
def search (query : KnowledgeQuery J) : Option Combined :=
  let keywords := h.keyword query.text (query.topK * 2)
  let vectors := h.vector query.text (query.topK * 2) query.filters query.minScore
  (h.combine keywords.entries vectors.entries).map fun combined =>
    (combined.insertionSort fun a b => b.2.1 ≤ a.2.1).take query.topK

end HybridRetriever

section Loops

variable {α : Type} {m : ℚ} {step : α → String × ℚ → ℚ → α}

/-- **A loop that divides** by a score. -/
theorem foldlM_divide (hm : m ≠ 0) (entries : List (String × ℚ)) (start : α) :
    entries.foldlM (fun acc entry => (divide entry.2 m).map (step acc entry)) start =
      some (entries.foldl (fun acc entry => step acc entry (entry.2 / m)) start) := by
  induction entries generalizing start with
  | nil => rfl
  | cons entry entries ih =>
    rw [List.foldlM_cons, divide, if_neg hm]
    exact ih _

/-- The first turn divides by zero. -/
theorem foldlM_divide_zero {entries : List (String × ℚ)} (h : entries ≠ []) (start : α) :
    entries.foldlM (fun acc entry => (divide entry.2 0).map (step acc entry)) start = none := by
  cases entries with
  | nil => exact absurd rfl h
  | cons entry entries =>
    rw [List.foldlM_cons, divide, if_pos rfl]
    rfl

end Loops

/-! ## The greatest score -/

theorem maxScore_nil : maxScore [] = 1 := rfl

/-- The greatest score is one of the scores. -/
theorem exists_maxScore {results : List (String × ℚ)} (h : results ≠ []) :
    ∃ entry ∈ results, entry.2 = maxScore results := by
  obtain ⟨m, hm⟩ : ∃ m, (results.map Prod.snd).max? = some m := by
    rw [← Option.isSome_iff_exists, List.isSome_max?_iff]
    simpa using h
  obtain ⟨entry, hentry, heq⟩ := List.mem_map.mp (List.max?_mem hm)
  refine ⟨entry, hentry, ?_⟩
  rw [maxScore, hm, heq]
  rfl

theorem le_maxScore {results : List (String × ℚ)} {entry : String × ℚ} (h : entry ∈ results) :
    entry.2 ≤ maxScore results := by
  have hmem : entry.2 ∈ results.map Prod.snd := List.mem_map_of_mem h
  obtain ⟨m, hm⟩ : ∃ m, (results.map Prod.snd).max? = some m := by
    rw [← Option.isSome_iff_exists, List.isSome_max?_iff]
    exact List.ne_nil_of_mem hmem
  rw [maxScore, hm]
  exact (List.max?_le_iff hm).mp le_rfl _ hmem

end Knowledge

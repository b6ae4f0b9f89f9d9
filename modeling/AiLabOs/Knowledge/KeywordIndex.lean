import AiLabOs.Base.Ranking
import AiLabOs.Knowledge.Retrieval

/-!
# Knowledge: what the keyword index represents

The index of keywords is changed by calls that index an item and calls that remove one. It
represents the items that survive, each with its latest content, until an item is indexed that is
there already: from then on it counts that item twice, for good, and keeps its old terms.

## Main definitions

* `IndexCall`, `KeywordRetriever.run`: the calls, and what they lead to
* `survivors`: the items that survive them
* `Represents`: the index answers as one of the survivors only
* `AllNew`: no item is indexed that is there already
* `Indexed`: what the index holds of the survivors

## Main results

* `KeywordRetriever.indexed_run`: new items keep the index right
* `KeywordRetriever.length_le_docCount`: the count of items never falls below that of the survivors
* `KeywordRetriever.represents_iff`: exactly when the index represents the survivors
-/

namespace Knowledge

/-- A call that changes the index. -/
inductive IndexCall where
  | index (id content : String)
  | remove (id : String)

namespace IndexCall

/-- What a call does to the items that survive. -/
def survive (live : List (String × String)) : IndexCall → List (String × String)
  | index id content => Assoc.set live id content
  | remove id => Assoc.pop live id

/-- A call does not index an item that is there. -/
def IsNew (live : List (String × String)) : IndexCall → Prop
  | index id _ => id ∉ live.map Prod.fst
  | remove _ => True

end IndexCall

/-- The items that survive the calls, with their latest contents. -/
def survivors (calls : List IndexCall) : List (String × String) :=
  calls.foldl IndexCall.survive []

/-- **No item is indexed** that is there already. -/
def AllNew (live : List (String × String)) : List IndexCall → Prop
  | [] => True
  | call :: calls => call.IsNew live ∧ AllNew (call.survive live) calls

/-- **The same results** up to the order of equal scores: the first `k` of the same ones, in two
orders with the best first. -/
def SameRanking (k : ℕ) (shown shown' : List (String × ℚ)) : Prop :=
  ∃ found, Ranking.IsWindow (fun a b => b.2 ≤ a.2) found k 0 shown ∧
    Ranking.IsWindow (fun a b => b.2 ≤ a.2) found k 0 shown'

namespace KeywordRetriever

section Runs

variable (uni : Unicode) (idf : ℕ → ℕ → ℚ)

/-- A call on the index. -/
def apply (r : KeywordRetriever) : IndexCall → KeywordRetriever
  | .index id content => r.add uni id content
  | .remove id => r.remove id

/-- The index after calls, from an empty one. -/
def run (calls : List IndexCall) : KeywordRetriever := calls.foldl (apply uni) {}

/-- A new index of items. -/
def fresh (items : List (String × String)) : KeywordRetriever :=
  run uni (items.map fun item => .index item.1 item.2)

/-- **The index represents** the survivors: it counts them, its postings name them only, and every
search finds what a new index of them finds. -/
structure Represents (calls : List IndexCall) : Prop where
  count : (run uni calls).docCount = (survivors calls).length
  posting : ∀ entry ∈ (run uni calls).index, ∀ posting ∈ entry.2,
    posting.1 ∈ (survivors calls).map Prod.fst
  search : ∀ items : List (String × String), items.Perm (survivors calls) → ∀ text topK,
    SameRanking topK ((run uni calls).search uni idf text topK).entries
      ((fresh uni items).search uni idf text topK).entries

end Runs

/-! ## What the index holds -/

variable {uni : Unicode} {idf : ℕ → ℕ → ℚ} {live live' : List (String × String)}
  {r r' : KeywordRetriever} {id content term text : String} {calls : List IndexCall}

/-- The postings of a term. -/
def postings (r : KeywordRetriever) (term : String) : List (String × ℕ) :=
  (Assoc.get r.index term).getD []

/-- **What the index holds** of items: how often each term is in each of them. -/
structure Indexed (uni : Unicode) (live : List (String × String)) (r : KeywordRetriever) :
    Prop where
  nodup : (live.map Prod.fst).Nodup
  items : r.items = live.map Prod.fst
  docCount : r.docCount = live.length
  index_nodup : (r.index.map Prod.fst).Nodup
  postings_nodup : ∀ term, ((r.postings term).map Prod.fst).Nodup
  get : ∀ term id, Assoc.get (r.postings term) id =
    (Assoc.get live id).bind fun content => Assoc.get (frequencies (tokenize uni content)) term

theorem nodup_frequencies (terms : List String) : ((frequencies terms).map Prod.fst).Nodup :=
  nodup_foldl (fun _ _ htf => Assoc.nodup_set htf ..) terms (d := []) List.nodup_nil

/-- The postings of a term, after an item was indexed. -/
theorem postings_add : (r.add uni id content).postings term =
    match Assoc.get (frequencies (tokenize uni content)) term with
    | some count => Assoc.set (r.postings term) id count
    | none => r.postings term := by
  have hget := Assoc.get_foldl_set (fun found count => Assoc.set (found.getD []) id count)
    (nodup_frequencies (tokenize uni content)) r.index term
  rw [postings, add, hget]
  cases Assoc.get (frequencies (tokenize uni content)) term <;> rfl

/-- The postings of a term, after an item was removed. -/
theorem postings_remove : (r.remove id).postings term = Assoc.pop (r.postings term) id := by
  have hget := Assoc.get_map (fun found => Assoc.pop found id) r.index term
  rw [postings, remove, hget, postings]
  cases Assoc.get r.index term <;> rfl

theorem index_nodup_add (h : (r.index.map Prod.fst).Nodup) :
    ((r.add uni id content).index.map Prod.fst).Nodup := by
  rw [add]
  dsimp only
  generalize frequencies (tokenize uni content) = entries
  refine nodup_foldl (fun index entry hindex => ?_) entries h
  exact Assoc.nodup_set hindex ..

/-- The items of the index are those that survive, in any run. -/
theorem items_apply (uni : Unicode) (hitems : r.items = live.map Prod.fst) (call : IndexCall) :
    (r.apply uni call).items = (call.survive live).map Prod.fst := by
  cases call with
  | index id content =>
    rw [apply, add, hitems, IndexCall.survive, Assoc.keys_set]
  | remove id =>
    rw [apply, remove, hitems, IndexCall.survive, Assoc.keys_pop]

theorem nodup_survive (hlive : (live.map Prod.fst).Nodup) (call : IndexCall) :
    ((call.survive live).map Prod.fst).Nodup := by
  cases call with
  | index id content => exact Assoc.nodup_set hlive ..
  | remove id => exact Assoc.nodup_pop hlive _

/-- **A call of a new item** keeps the index right, and so does one that removes an item. -/
theorem Indexed.apply (h : Indexed uni live r) {call : IndexCall} (hnew : call.IsNew live) :
    Indexed uni (call.survive live) (r.apply uni call) := by
  have hnodup := nodup_survive h.nodup call
  have hitems := items_apply uni h.items call
  cases call with
  | index id content =>
    have hnone : Assoc.get live id = none := by
      by_contra hne
      exact hnew (Assoc.mem_keys.mpr hne)
    refine ⟨hnodup, hitems, ?_, ?_, ?_, ?_⟩
    · rw [KeywordRetriever.apply, add, IndexCall.survive, Assoc.set_of_get_eq_none hnone,
        List.length_append, h.docCount]
      rfl
    · exact index_nodup_add h.index_nodup
    · intro term
      rw [KeywordRetriever.apply, postings_add]
      split
      · exact Assoc.nodup_set (h.postings_nodup term) ..
      · exact h.postings_nodup term
    · intro term other
      rw [KeywordRetriever.apply, postings_add, IndexCall.survive, Assoc.get_set]
      by_cases hother : id = other
      · rw [if_pos hother, Option.bind_some]
        cases hcount : Assoc.get (frequencies (tokenize uni content)) term with
        | some count => rw [hother, Assoc.get_set_self]
        | none =>
          dsimp only
          rw [h.get, ← hother, hnone]
          rfl
      · rw [if_neg hother, ← h.get]
        cases Assoc.get (frequencies (tokenize uni content)) term with
        | some count => exact Assoc.get_set_of_ne hother
        | none => rfl
  | remove id =>
    refine ⟨hnodup, hitems, ?_, ?_, ?_, ?_⟩
    · rw [KeywordRetriever.apply, remove, IndexCall.survive, Assoc.length_pop h.nodup, h.items,
        h.docCount]
    · have hkeys : (r.remove id).index.map Prod.fst = r.index.map Prod.fst := by
        rw [remove, List.map_map]
        rfl
      rw [KeywordRetriever.apply, hkeys]
      exact h.index_nodup
    · intro term
      rw [KeywordRetriever.apply, postings_remove]
      exact Assoc.nodup_pop (h.postings_nodup term) id
    · intro term other
      rw [KeywordRetriever.apply, postings_remove, IndexCall.survive, Assoc.get_pop, Assoc.get_pop,
        h.get]
      split <;> rfl

/-- **New items** keep the index right. -/
theorem Indexed.foldl (h : Indexed uni live r) (hnew : AllNew live calls) :
    Indexed uni (calls.foldl IndexCall.survive live)
      (calls.foldl (KeywordRetriever.apply uni) r) := by
  induction calls generalizing live r with
  | nil => exact h
  | cons call calls ih => exact ih (h.apply hnew.1) hnew.2

theorem indexed_empty : Indexed uni [] {} :=
  ⟨List.nodup_nil, rfl, rfl, List.nodup_nil, fun _ => List.nodup_nil, fun _ _ => rfl⟩

theorem indexed_run (uni : Unicode) (hnew : AllNew [] calls) :
    Indexed uni (survivors calls) (run uni calls) :=
  indexed_empty.foldl hnew

/-- Different items are all new, and all survive. -/
theorem allNew_items (live : List (String × String)) {items : List (String × String)}
    (h : ((live ++ items).map Prod.fst).Nodup) :
    AllNew live (items.map fun item => .index item.1 item.2) ∧
      (items.map fun item => .index item.1 item.2).foldl IndexCall.survive live =
        live ++ items := by
  induction items generalizing live with
  | nil => exact ⟨trivial, (List.append_nil live).symm⟩
  | cons item items ih =>
    have hsplit : live ++ item :: items = live ++ [item] ++ items := by simp
    have hnew : item.1 ∉ live.map Prod.fst := by
      intro hmem
      rw [List.map_append, List.map_cons, List.nodup_append] at h
      exact h.2.2 _ hmem _ (List.mem_cons_self ..) rfl
    have hset : Assoc.set live item.1 item.2 = live ++ [item] :=
      Assoc.set_of_get_eq_none (by_contra fun hne => hnew (Assoc.mem_keys.mpr hne))
    rw [hsplit] at h ⊢
    obtain ⟨hrest, hsurvive⟩ := ih (live ++ [item]) h
    rw [← hset] at hrest hsurvive ⊢
    exact ⟨⟨hnew, hrest⟩, hsurvive⟩

/-- A new index holds its items. -/
theorem indexed_fresh {items : List (String × String)} (hitems : (items.map Prod.fst).Nodup) :
    Indexed uni items (fresh uni items) := by
  obtain ⟨hnew, hsurvive⟩ := allNew_items [] hitems
  have hindexed := indexed_run uni hnew
  rw [survivors, hsurvive] at hindexed
  exact hindexed

/-! ## Searches -/

/-- The same postings give the same scores. -/
theorem get_scores_congr (hcount : r.docCount = r'.docCount)
    (h : ∀ term, (r.postings term).Perm (r'.postings term))
    (hnodup : ∀ term, ((r.postings term).map Prod.fst).Nodup) (terms : List String) (id : String) :
    Assoc.get (r.scores idf terms) id = Assoc.get (r'.scores idf terms) id := by
  have hturn : ∀ (scores scores' : List (String × ℚ)) (term : String),
      (∀ id, Assoc.get scores id = Assoc.get scores' id) → ∀ id,
      Assoc.get ((r.postings term).foldl (fun scores posting => Assoc.set scores posting.1
        ((Assoc.get scores posting.1).getD 0 +
          posting.2 * idf r.docCount (r.postings term).length)) scores) id =
      Assoc.get ((r'.postings term).foldl (fun scores posting => Assoc.set scores posting.1
        ((Assoc.get scores posting.1).getD 0 +
          posting.2 * idf r'.docCount (r'.postings term).length)) scores') id := by
    intro scores scores' term hscores id
    have hnodup' := ((h term).map Prod.fst).nodup_iff.mp (hnodup term)
    have hget := Assoc.get_foldl_set (fun found (tf : ℕ) => found.getD 0 +
      tf * idf r.docCount (r.postings term).length) (hnodup term) scores id
    have hget' := Assoc.get_foldl_set (fun found (tf : ℕ) => found.getD 0 +
      tf * idf r'.docCount (r'.postings term).length) hnodup' scores' id
    rw [hget, hget', Assoc.get_perm (hnodup term) (h term), hscores, hcount, (h term).length_eq]
  have hturns : ∀ (terms : List String) (scores scores' : List (String × ℚ)),
      (∀ id, Assoc.get scores id = Assoc.get scores' id) → ∀ id,
      Assoc.get (terms.foldl (fun scores term => (r.postings term).foldl (fun scores posting =>
        Assoc.set scores posting.1 ((Assoc.get scores posting.1).getD 0 +
          posting.2 * idf r.docCount (r.postings term).length)) scores) scores) id =
      Assoc.get (terms.foldl (fun scores term => (r'.postings term).foldl (fun scores posting =>
        Assoc.set scores posting.1 ((Assoc.get scores posting.1).getD 0 +
          posting.2 * idf r'.docCount (r'.postings term).length)) scores) scores') id := by
    intro terms
    induction terms with
    | nil => exact fun _ _ hscores => hscores
    | cons term terms ih =>
      intro scores scores' hscores
      exact ih _ _ (hturn scores scores' term hscores)
  exact hturns terms [] [] (fun _ => rfl) id

/-- **Indexes of the same items** find the same. -/
theorem Indexed.search (h : Indexed uni live r) (h' : Indexed uni live' r')
    (hperm : live'.Perm live) (text : String) (topK : ℕ) :
    SameRanking topK (r.search uni idf text topK).entries
      (r'.search uni idf text topK).entries := by
  have hcount : r.docCount = r'.docCount := by
    rw [h.docCount, h'.docCount, hperm.length_eq]
  have hpostings : ∀ term, (r.postings term).Perm (r'.postings term) := fun term =>
    Assoc.perm_of_get (h.postings_nodup term) (h'.postings_nodup term) fun id => by
      rw [h.get, h'.get, Assoc.get_perm h'.nodup hperm]
  have hscores : ∀ terms, (r.scores idf terms).Perm (r'.scores idf terms) := fun terms =>
    Assoc.perm_of_get (r.nodup_scores idf terms) (r'.nodup_scores idf terms)
      (get_scores_congr hcount hpostings h.postings_nodup terms)
  have hwindow : ∀ results : Results, Ranking.IsWindow (fun a b => b.2 ≤ a.2) results.entries topK 0
      (results.sort.take topK).entries := fun results =>
    ⟨results.sort.entries, List.perm_insertionSort _ _, results.sort.sorted, rfl⟩
  have hranking : ∀ terms, SameRanking topK
      ((Results.sort ⟨r.scores idf terms, r.nodup_scores idf terms⟩).take topK).entries
      ((Results.sort ⟨r'.scores idf terms, r'.nodup_scores idf terms⟩).take topK).entries := by
    intro terms
    have hfirst := hwindow ⟨r.scores idf terms, r.nodup_scores idf terms⟩
    have hsecond := hwindow ⟨r'.scores idf terms, r'.nodup_scores idf terms⟩
    exact ⟨_, hfirst, hsecond.perm (hscores terms).symm⟩
  have hnothing : SameRanking topK Ranked.none.entries Ranked.none.entries :=
    ⟨[], ⟨[], .nil, .nil, List.take_nil.symm⟩, ⟨[], .nil, .nil, List.take_nil.symm⟩⟩
  unfold KeywordRetriever.search
  rw [hcount]
  split
  · exact hnothing
  · split
    · exact hnothing
    · exact hranking (tokenize uni text)

/-! ## The survivors -/

/-- Each posting is of an item that the index holds. -/
theorem Indexed.mem_of_posting (h : Indexed uni live r) {entry : String × List (String × ℕ)}
    (hentry : entry ∈ r.index) {posting : String × ℕ} (hposting : posting ∈ entry.2) :
    posting.1 ∈ live.map Prod.fst := by
  have hpostings : r.postings entry.1 = entry.2 := by
    rw [postings, Assoc.get_of_mem h.index_nodup hentry]
    rfl
  have hget := h.get entry.1 posting.1
  rw [hpostings, Assoc.get_of_mem (hpostings ▸ h.postings_nodup entry.1) hposting] at hget
  rw [Assoc.mem_keys]
  intro hnone
  rw [hnone] at hget
  cases hget

/-- **The count of items** never falls below that of the survivors, and is the same only if all
items were new. -/
theorem length_le_docCount (uni : Unicode) (hlive : (live.map Prod.fst).Nodup)
    (hitems : r.items = live.map Prod.fst) (hcount : live.length ≤ r.docCount) :
    (calls.foldl IndexCall.survive live).length ≤ (calls.foldl (apply uni) r).docCount ∧
      ((calls.foldl (apply uni) r).docCount = (calls.foldl IndexCall.survive live).length →
        r.docCount = live.length ∧ AllNew live calls) := by
  induction calls generalizing live r with
  | nil => exact ⟨hcount, fun h => ⟨h, trivial⟩⟩
  | cons call calls ih =>
    have hnodup := nodup_survive hlive call
    have hitems' := items_apply uni hitems call
    have hstep : (call.survive live).length ≤ (r.apply uni call).docCount ∧
        ((r.apply uni call).docCount = (call.survive live).length →
          r.docCount = live.length ∧ call.IsNew live) := by
      have hlength : (call.survive live).length = ((call.survive live).map Prod.fst).length :=
        (List.length_map ..).symm
      have hlength' : live.length = (live.map Prod.fst).length := (List.length_map ..).symm
      cases call with
      | index id content =>
        rw [IndexCall.survive, Assoc.keys_set] at hlength
        by_cases hmem : id ∈ live.map Prod.fst
        · -- an item that is there is counted again
          rw [if_pos hmem] at hlength
          have hmore : (r.apply uni (.index id content)).docCount = r.docCount + 1 := rfl
          rw [IndexCall.survive, hmore]
          omega
        · rw [if_neg hmem, List.length_append, List.length_singleton] at hlength
          have hmore : (r.apply uni (.index id content)).docCount = r.docCount + 1 := rfl
          rw [IndexCall.survive, hmore]
          exact ⟨by omega, fun h => ⟨by omega, hmem⟩⟩
      | remove id =>
        rw [apply, remove, IndexCall.survive, Assoc.length_pop hlive, hitems]
        dsimp only
        by_cases hmem : id ∈ live.map Prod.fst
        · have hpos := List.length_pos_of_mem hmem
          rw [if_pos hmem, if_pos hmem]
          exact ⟨by omega, fun h => ⟨by omega, trivial⟩⟩
        · rw [if_neg hmem, if_neg hmem]
          exact ⟨hcount, fun h => ⟨h, trivial⟩⟩
    obtain ⟨hle, hsame⟩ := ih hnodup hitems' hstep.1
    refine ⟨hle, fun h => ?_⟩
    obtain ⟨hstart, hnew⟩ := hsame h
    obtain ⟨hbefore, hcall⟩ := hstep.2 hstart
    exact ⟨hbefore, hcall, hnew⟩

/-- **The index represents the survivors** of the calls exactly if no item is indexed that is there
already. -/
theorem represents_iff (uni : Unicode) (idf : ℕ → ℕ → ℚ) (calls : List IndexCall) :
    Represents uni idf calls ↔ AllNew [] calls := by
  constructor
  · intro h
    have hnone : (([] : List (String × String)).map Prod.fst).Nodup := List.nodup_nil
    exact ((length_le_docCount uni hnone rfl le_rfl).2 h.count).2
  · intro hnew
    have hrun := indexed_run uni hnew
    refine ⟨hrun.docCount, fun entry hentry posting => hrun.mem_of_posting hentry, ?_⟩
    intro items hperm text topK
    have hitems : (items.map Prod.fst).Nodup := (hperm.map Prod.fst).nodup_iff.mpr hrun.nodup
    exact hrun.search (indexed_fresh hitems) hperm text topK

/-- An item that is indexed twice is counted twice. -/
theorem not_represents : ¬∀ (uni : Unicode) (idf : ℕ → ℕ → ℚ) (calls : List IndexCall),
    Represents uni idf calls := by
  intro h
  have hcount := (h .ascii (fun _ _ => 1) [.index "a" "first", .index "a" "second"]).count
  exact absurd hcount (by decide +kernel)

end KeywordRetriever

end Knowledge

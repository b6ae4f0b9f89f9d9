import AiLabOs.Knowledge.Retrieval
import Mathlib.Logic.Equiv.Basic

/-!
# Knowledge: the result cache

The manager keeps the lists it returns under the text and the number of results of the query, and
gives them out again for a while. The key leaves out the filters and the least score, and the list
that is kept is the one the caller has.

## Main definitions

* `KnowledgeManager.find`: a search without the cache
* `ProviderCache.get`, `ProviderCache.set`: the cache
* `Session`: the cache and the lists that were returned
* `KnowledgeManager.answers`: what the searches of a run return

## Main results

* `key_injective`: the key determines the text and the number of results
* `KnowledgeManager.Faithful.step`: what the cache holds stays right
* `KnowledgeManager.answers_eq`: a run answers as it does without the cache
-/

namespace Knowledge

/-! ## Searches -/

/-- The fields of `KnowledgeItem` that a search gives a placeholder. -/
structure KnowledgeItem where
  id : String
  title : String
  content : String
deriving DecidableEq, Repr

/-- `KnowledgeResult`. -/
structure KnowledgeResult where
  item : KnowledgeItem
  score : ℚ
  rerankScore : Option ℚ
deriving DecidableEq

/-- The manager between two changes of its knowledge: its store and its retrievers. -/
structure KnowledgeManager (J : Type) where
  store : String → Option KnowledgeItem
  keyword : String → ℕ → Ranked
  hybrid : Option (HybridRetriever J)
  cacheTtl : ℤ := 300

/-- The item of an identifier that is not in the store. -/
def placeholder (id : String) : KnowledgeItem := ⟨id, "(chunk)", ""⟩

/-- `KnowledgeManager.search` without the cache. There is no list if a score is divided by zero. -/
def KnowledgeManager.find {J : Type} (m : KnowledgeManager J) (query : KnowledgeQuery J) :
    Option (List KnowledgeResult) :=
  let results : Option HybridRetriever.Combined := match m.hybrid with
    | some h => h.search query
    | none => some ((m.keyword query.text query.topK).entries.map fun e => (e.1, e.2, none))
  results.map fun results =>
    ((results.map fun e => (⟨(m.store e.1).getD (placeholder e.1), e.2.1, e.2.2⟩ :
      KnowledgeResult)).insertionSort fun a b => b.score ≤ a.score).take query.topK

/-! ## The cache -/

/-- `CacheEntry`: its value is the number of a list. -/
structure CacheEntry where
  list : ℕ
  createdAt : ℚ
  ttl : ℤ
deriving DecidableEq

/-- `is_expired`. -/
def CacheEntry.isExpired (entry : CacheEntry) (now : ℚ) : Bool := entry.ttl ≤ now - entry.createdAt

/-- `CacheConfig`. -/
structure CacheConfig where
  defaultTtlSeconds : ℤ := 300
  maxEntries : ℕ := 1000
  enabled : Bool := true

/-- The configuration of `KnowledgeCache`. -/
def knowledgeCache : CacheConfig where
  defaultTtlSeconds := 600
  maxEntries := 500

/-- The entries under their keys. -/
abbrev Entries := List (String × CacheEntry)

namespace ProviderCache

variable (config : CacheConfig) (entries : Entries) (key : String)

/-- `get`: the value, and the entries afterwards. -/
def get (now : ℚ) : Option ℕ × Entries :=
  if config.enabled then
    match Assoc.get entries key with
    | none => (none, entries)
    | some entry =>
      if entry.isExpired now then (none, Assoc.pop entries key) else (some entry.list, entries)
  else (none, entries)

/-- The first entry that was created before all others:
`min(self._store.values(), key=lambda e: e.created_at)`. -/
def oldest : Entries → Option (String × CacheEntry)
  | [] => none
  | entry :: entries =>
    match oldest entries with
    | none => some entry
    | some other => if other.2.createdAt < entry.2.createdAt then some other else some entry

/-- The entries without the oldest one, if there are too many. -/
def evict : Entries :=
  if config.maxEntries < entries.length then
    match oldest entries with
    | some entry => Assoc.pop entries entry.1
    | none => entries
  else entries

/-- `set`. -/
def set (list : ℕ) (ttl : ℤ) (now : ℚ) : Entries :=
  if config.enabled then
    evict config (Assoc.set entries key
      ⟨list, now, if ttl = 0 then config.defaultTtlSeconds else ttl⟩)
  else entries

/-- `make_key`. `digest` is the start of the SHA-256 of a text. -/
def makeKey (digest : String → String) (parts : List String) : String :=
  digest ("::".intercalate parts)

variable {config entries key}

/-- What is found is an entry that is not expired. -/
theorem get_eq_some {now : ℚ} {list : ℕ} (h : (get config entries key now).1 = some list) :
    ∃ entry, Assoc.get entries key = some entry ∧ entry.list = list ∧
      entry.isExpired now = false := by
  unfold get at h
  split at h
  · cases hget : Assoc.get entries key with
    | none =>
      rw [hget] at h
      cases h
    | some entry =>
      rw [hget] at h
      dsimp only at h
      split at h
      · cases h
      · rename_i hlive
        exact ⟨entry, rfl, Option.some.inj h, by simpa using hlive⟩
  · cases h

theorem mem_of_mem_get {now : ℚ} {entry : String × CacheEntry}
    (h : entry ∈ (get config entries key now).2) : entry ∈ entries := by
  unfold get at h
  split at h
  · split at h
    · exact h
    · split at h
      · exact (List.mem_filter.mp h).1
      · exact h
  · exact h

theorem mem_of_mem_evict {entry : String × CacheEntry} (h : entry ∈ evict config entries) :
    entry ∈ entries := by
  unfold evict at h
  split at h
  · split at h
    · exact (List.mem_filter.mp h).1
    · exact h
  · exact h

/-- An entry afterwards is the new one, or was there. -/
theorem mem_set {list : ℕ} {ttl : ℤ} {now : ℚ} {entry : String × CacheEntry}
    (h : entry ∈ set config entries key list ttl now) :
    entry.1 = key ∧ entry.2.list = list ∨ entry ∈ entries := by
  unfold set at h
  split at h
  · rcases Assoc.mem_set (mem_of_mem_evict h) with rfl | hmem
    · exact .inl ⟨rfl, rfl⟩
    · exact .inr hmem
  · exact .inr h

end ProviderCache

/-! ### Keys -/

/-- Two texts before the last separator. -/
theorem eq_of_append_cons {α : Type} {c : α} {a a' d d' : List α} (hd : c ∉ d) (hd' : c ∉ d')
    (h : a ++ c :: d = a' ++ c :: d') : a = a' ∧ d = d' := by
  rcases List.append_eq_append_iff.mp h with ⟨m, rfl, hm⟩ | ⟨m, rfl, hm⟩
  · cases m with
    | nil => exact ⟨(List.append_nil a).symm, (List.cons.inj hm).2⟩
    | cons x m =>
      refine absurd ?_ hd
      rw [(List.cons.inj hm).2]
      simp
  · cases m with
    | nil => exact ⟨List.append_nil a', (List.cons.inj hm).2.symm⟩
    | cons x m =>
      refine absurd ?_ hd'
      rw [(List.cons.inj hm).2]
      simp

theorem not_mem_repr (n : ℕ) : ':' ∉ (Nat.repr n).toList := by
  rw [Nat.repr_eq_ofList_toDigits, String.toList_ofList]
  intro h
  exact absurd (Nat.isDigit_of_mem_toDigits (by decide) (by decide) h) (by decide)

theorem repr_injective {m n : ℕ} (h : (Nat.repr m).toList = (Nat.repr n).toList) : m = n := by
  rw [Nat.repr_eq_ofList_toDigits, Nat.repr_eq_ofList_toDigits, String.toList_ofList,
    String.toList_ofList] at h
  have hm := Nat.ofDigitChars_toDigits (b := 10) (n := m) (by omega) (by omega)
  have hn := Nat.ofDigitChars_toDigits (b := 10) (n := n) (by omega) (by omega)
  rw [← hm, ← hn, h]

/-- The key of a query. -/
def searchKey {J : Type} (digest : String → String) (query : KnowledgeQuery J) : String :=
  ProviderCache.makeKey digest ["search", query.text, Nat.repr query.topK]

/-- **The key** determines the text and the number of results. -/
theorem key_injective {J : Type} {digest : String → String} (hdigest : Function.Injective digest)
    {q q' : KnowledgeQuery J} (h : searchKey digest q = searchKey digest q') :
    q.text = q'.text ∧ q.topK = q'.topK := by
  have hlist : ∀ q : KnowledgeQuery J,
      ("::".intercalate ["search", q.text, Nat.repr q.topK]).toList =
        ("search::".toList ++ q.text.toList ++ [':']) ++ ':' :: (Nat.repr q.topK).toList := by
    intro q
    rw [String.intercalate_cons_cons, String.intercalate_cons_cons, String.intercalate_singleton]
    simp
  have hraw := congrArg String.toList (hdigest h)
  rw [hlist, hlist] at hraw
  obtain ⟨hfirst, hlast⟩ := eq_of_append_cons (not_mem_repr _) (not_mem_repr _) hraw
  rw [List.append_cancel_right_eq, List.append_cancel_left_eq] at hfirst
  exact ⟨String.toList_inj.mp hfirst, repr_injective hlast⟩

/-! ## Runs -/

/-- The cache, and the lists that searches returned. A list that was there before the run has no
query. -/
structure Session (J : Type) where
  entries : Entries
  lists : List (Option (KnowledgeQuery J) × List KnowledgeResult)
  inRange : ∀ entry ∈ entries, entry.2.list < lists.length

namespace Session

variable {J : Type}

/-- The session before the run. -/
def start (entries : Entries) (lists : List (List KnowledgeResult))
    (inRange : ∀ entry ∈ entries, entry.2.list < lists.length) : Session J where
  entries := entries
  lists := lists.map fun list => (none, list)
  inRange := by simpa using inRange

/-- Entries are dropped. -/
def forget (s : Session J) (entries : Entries) (h : ∀ entry ∈ entries, entry ∈ s.entries) :
    Session J where
  entries := entries
  lists := s.lists
  inRange entry hentry := s.inRange entry (h entry hentry)

/-- A search returns a new list. -/
def extend (s : Session J) (query : KnowledgeQuery J) (results : List KnowledgeResult)
    (entries : Entries)
    (h : ∀ entry ∈ entries, entry.2.list = s.lists.length ∨ entry ∈ s.entries) : Session J where
  entries := entries
  lists := s.lists ++ [(some query, results)]
  inRange entry hentry := by
    rw [List.length_append, List.length_singleton]
    rcases h entry hentry with heq | hmem
    · omega
    · exact Nat.lt_succ_of_lt (s.inRange entry hmem)

/-- A caller changes a list that was returned. -/
def modify (s : Session J) (list : ℕ) (content : List KnowledgeResult) : Session J where
  entries := s.entries
  lists := s.lists.modify list fun old => (old.1, content)
  inRange := by simpa using s.inRange

end Session

/-- What happens to a manager: a search, with the times at which the cache is read and written, or a
change of a list that was returned. -/
inductive Event (J : Type) where
  | search (query : KnowledgeQuery J) (readAt storedAt : ℚ)
  | modify (list : ℕ) (content : List KnowledgeResult)

/-- The query of a search. -/
def Event.query {J : Type} : Event J → Option (KnowledgeQuery J)
  | .search query _ _ => some query
  | .modify _ _ => none

namespace KnowledgeManager

variable {J : Type} (m : KnowledgeManager J) (digest : String → String)

/-- `KnowledgeManager.search`, when its publication does not raise: what is returned, and the
session afterwards. Without a configuration there is no cache. -/
def search (cache : Option CacheConfig) (s : Session J) (query : KnowledgeQuery J)
    (readAt storedAt : ℚ) : Option (List KnowledgeResult) × Session J :=
  match cache with
  | none =>
    match m.find query with
    | none => (none, s)
    | some results =>
      (some results, s.extend query results s.entries fun _ hentry => .inr hentry)
  | some config =>
    let key := searchKey digest query
    let found := ProviderCache.get config s.entries key readAt
    let s' := s.forget found.2 fun _ hentry => ProviderCache.mem_of_mem_get hentry
    match found.1 with
    | some list => ((s.lists[list]?).map Prod.snd, s')
    | none =>
      match m.find query with
      | none => (none, s')
      | some results =>
        (some results, s'.extend query results
          (ProviderCache.set config s'.entries key s'.lists.length m.cacheTtl storedAt)
          fun _ hentry => (ProviderCache.mem_set hentry).imp_left And.right)

/-- One event. -/
def step (cache : Option CacheConfig) (s : Session J) : Event J → Session J
  | .search query readAt storedAt => (m.search digest cache s query readAt storedAt).2
  | .modify list content => s.modify list content

/-- **What the searches of a run return**. -/
def answers (cache : Option CacheConfig) : Session J → List (Event J) →
    List (Option (List KnowledgeResult))
  | _, [] => []
  | s, .search query readAt storedAt :: events =>
    (m.search digest cache s query readAt storedAt).1 ::
      answers cache (m.step digest cache s (.search query readAt storedAt)) events
  | s, .modify list content :: events =>
    answers cache (m.step digest cache s (.modify list content)) events

/-- Two queries that differ in nothing that reaches the retrievers but their texts and numbers. -/
def SameFilters (q q' : KnowledgeQuery J) : Prop :=
  m.hybrid = none ∨ q.filters = q'.filters ∧ q.minScore = q'.minScore

/-- **The event is covered by the key**: what a search finds in the cache was kept by a search of
the run with the same filters and least score, and a list that is changed is not in the cache. -/
def Covered (s : Session J) : Event J → Prop
  | .search query readAt _ => ∀ entry, Assoc.get s.entries (searchKey digest query) = some entry →
      entry.isExpired readAt = false →
      ∃ query', (s.lists[entry.list]?).map Prod.fst = some (some query') ∧
        m.SameFilters query query'
  | .modify list _ => ∀ entry ∈ s.entries, entry.2.list ≠ list

/-- All events of a run are covered. -/
def AllCovered (config : CacheConfig) : Session J → List (Event J) → Prop
  | _, [] => True
  | s, event :: events =>
    m.Covered digest s event ∧ AllCovered config (m.step digest (some config) s event) events

/-- **What the cache holds** of the searches of the run is what they found. -/
def Faithful (s : Session J) : Prop :=
  ∀ entry ∈ s.entries, ∀ query content, s.lists[entry.2.list]? = some (some query, content) →
    entry.1 = searchKey digest query ∧ m.find query = some content

variable {m digest}

/-- A search depends on the text, the number, the filters and the least score. -/
theorem find_congr {q q' : KnowledgeQuery J} (htext : q.text = q'.text) (htopK : q.topK = q'.topK)
    (h : m.SameFilters q q') : m.find q = m.find q' := by
  rcases h with hnone | ⟨hfilters, hscore⟩
  · unfold find
    rw [hnone, htext, htopK]
  · obtain ⟨text, topK, filters, minScore⟩ := q
    obtain ⟨text', topK', filters', minScore'⟩ := q'
    dsimp only at htext htopK hfilters hscore
    subst htext htopK hfilters hscore
    rfl

theorem faithful_start (entries : Entries) (lists : List (List KnowledgeResult))
    (inRange : ∀ entry ∈ entries, entry.2.list < lists.length) :
    m.Faithful digest (.start entries lists inRange) := by
  intro entry _ query content hlist
  change (lists.map fun list => (none, list))[entry.2.list]? = _ at hlist
  rw [List.getElem?_map] at hlist
  obtain ⟨list, -, heq⟩ := Option.map_eq_some_iff.mp hlist
  cases heq

theorem Faithful.forget {s : Session J} (hs : m.Faithful digest s) {entries : Entries}
    (h : ∀ entry ∈ entries, entry ∈ s.entries) : m.Faithful digest (s.forget entries h) :=
  fun entry hentry => hs entry (h entry hentry)

theorem Faithful.extend {s : Session J} (hs : m.Faithful digest s) {query : KnowledgeQuery J}
    {results : List KnowledgeResult} {entries : Entries}
    (hkey : ∀ entry ∈ entries, entry.1 = searchKey digest query ∧
      entry.2.list = s.lists.length ∨ entry ∈ s.entries)
    (hfind : m.find query = some results) :
    m.Faithful digest (s.extend query results entries fun entry hentry =>
      (hkey entry hentry).imp_left And.right) := by
  intro entry hentry query' content hlist
  change (s.lists ++ [(some query, results)])[entry.2.list]? = _ at hlist
  rcases hkey entry hentry with ⟨hkey, heq⟩ | hmem
  · rw [heq, List.getElem?_append_right le_rfl, Nat.sub_self] at hlist
    cases hlist
    exact ⟨hkey, hfind⟩
  · rw [List.getElem?_append_left (s.inRange entry hmem)] at hlist
    exact hs entry hmem query' content hlist

theorem Faithful.modify {s : Session J} (hs : m.Faithful digest s) {list : ℕ}
    {content : List KnowledgeResult} (h : ∀ entry ∈ s.entries, entry.2.list ≠ list) :
    m.Faithful digest (s.modify list content) := by
  intro entry hentry query' content' hlist
  change (s.lists.modify list _)[entry.2.list]? = _ at hlist
  rw [List.getElem?_modify_ne _ _ (h entry hentry).symm] at hlist
  exact hs entry hentry query' content' hlist

/-- **A covered search** returns what it finds without the cache. -/
theorem search_eq {s : Session J} (hs : m.Faithful digest s)
    (hdigest : Function.Injective digest) {config : CacheConfig} {query : KnowledgeQuery J}
    {readAt storedAt : ℚ} (h : m.Covered digest s (.search query readAt storedAt)) :
    (m.search digest (some config) s query readAt storedAt).1 = m.find query := by
  unfold search
  dsimp only
  cases hget : (ProviderCache.get config s.entries (searchKey digest query) readAt).1 with
  | some list =>
    obtain ⟨entry, hentry, rfl, hlive⟩ := ProviderCache.get_eq_some hget
    obtain ⟨query', hquery', hsame⟩ := h entry hentry hlive
    obtain ⟨⟨origin, content⟩, hlist, rfl⟩ := Option.map_eq_some_iff.mp hquery'
    obtain ⟨hkey, hfind⟩ := hs _ (Assoc.mem_of_get hentry) query' content hlist
    obtain ⟨htext, htopK⟩ := key_injective hdigest hkey
    dsimp only
    rw [hlist, find_congr htext htopK hsame, hfind]
    rfl
  | none =>
    dsimp only
    cases m.find query <;> rfl

/-- **What the cache holds stays right**. -/
theorem Faithful.step {s : Session J} (hs : m.Faithful digest s) {config : CacheConfig}
    {event : Event J} (h : m.Covered digest s event) :
    m.Faithful digest (m.step digest (some config) s event) := by
  cases event with
  | search query readAt storedAt =>
    unfold KnowledgeManager.step search
    dsimp only
    have hforget := hs.forget fun entry (hentry : entry ∈ (ProviderCache.get config s.entries
      (searchKey digest query) readAt).2) => ProviderCache.mem_of_mem_get hentry
    cases (ProviderCache.get config s.entries (searchKey digest query) readAt).1 with
    | some list => exact hforget
    | none =>
      dsimp only
      cases hfind : m.find query with
      | none => exact hforget
      | some results =>
        exact hforget.extend (fun entry hentry => ProviderCache.mem_set hentry) hfind
  | modify list content => exact hs.modify h

theorem search_none (s : Session J) (query : KnowledgeQuery J) (readAt storedAt : ℚ) :
    (m.search digest none s query readAt storedAt).1 = m.find query := by
  unfold search
  cases m.find query <;> rfl

/-- The answers without the cache. -/
theorem answers_none (s : Session J) (events : List (Event J)) :
    m.answers digest none s events = (events.filterMap Event.query).map m.find := by
  induction events generalizing s with
  | nil => rfl
  | cons event events ih =>
    cases event with
    | search query readAt storedAt =>
      rw [answers, ih, search_none]
      rfl
    | modify list content =>
      rw [answers, ih]
      rfl

/-- **A run answers** as it does without the cache, if all its events are covered by the key. -/
theorem answers_eq (m : KnowledgeManager J) {digest : String → String}
    (hdigest : Function.Injective digest) (config : CacheConfig) (entries : Entries)
    (lists : List (List KnowledgeResult))
    (inRange : ∀ entry ∈ entries, entry.2.list < lists.length) (events : List (Event J))
    (h : m.AllCovered digest config (.start entries lists inRange) events) :
    m.answers digest (some config) (.start entries lists inRange) events =
      m.answers digest none (.start entries lists inRange) events := by
  rw [answers_none]
  have hs : m.Faithful digest (.start entries lists inRange) :=
    faithful_start entries lists inRange
  generalize Session.start entries lists inRange = s at h hs
  induction events generalizing s with
  | nil => rfl
  | cons event events ih =>
    obtain ⟨hcovered, hrest⟩ := h
    have hnext := ih _ hrest (hs.step hcovered)
    cases event with
    | search query readAt storedAt =>
      rw [answers, search_eq hs hdigest hcovered, hnext]
      rfl
    | modify list content =>
      rw [answers, hnext]
      rfl

/-! ## Two searches with different filters -/

/-- A collection of one record with a tag. -/
def tagged : Collection Unit Unit := ⟨[("a", ⟨(), [("tag", some ())]⟩)], by decide⟩

/-- A manager without documents in its store. -/
def tagManager : KnowledgeManager Unit where
  store _ := none
  keyword := KeywordRetriever.search .ascii (fun _ _ => 1) {}
  hybrid := some (.over .ascii (fun _ _ => 1) {} (fun _ => ()) ⟨fun _ _ => 1,
    fun _ _ => by decide, fun _ _ => le_rfl⟩
    tagged)

/-- The start of the SHA-256 of one text, with the other texts left as they are. -/
def oneDigest (text : String) : String :=
  Equiv.swap "search::a::10" "b0dc4bfe3a3c2eda39568ef89653887c" text

/-- The same search twice. -/
def sameTag : List (Event Unit) :=
  [.search { text := "a", filters := [("tag", some ())] } 0 0,
    .search { text := "a", filters := [("tag", some ())] } 1 1]

/-- The second search finds the list of the first one, with the same filters. -/
theorem allCovered_sameTag :
    tagManager.AllCovered oneDigest knowledgeCache (.start [] [] (by decide)) sameTag := by
  refine ⟨fun entry hentry => absurd hentry (by simp [Session.start]), ?_, trivial⟩
  intro entry hentry _
  have hkept : Assoc.get (tagManager.step oneDigest (some knowledgeCache) (.start [] [] (by decide))
      (.search { text := "a", filters := [("tag", some ())] } 0 0)).entries
      "b0dc4bfe3a3c2eda39568ef89653887c" = some ⟨0, 0, 300⟩ := by decide +kernel
  have hkey : searchKey oneDigest
      ({ text := "a", filters := [("tag", some ())] } : KnowledgeQuery Unit) =
      "b0dc4bfe3a3c2eda39568ef89653887c" := by decide +kernel
  rw [hkey, hkept] at hentry
  cases hentry
  exact ⟨{ text := "a", filters := [("tag", some ())] }, rfl, .inr ⟨rfl, rfl⟩⟩

theorem answers_sameTag :
    tagManager.answers oneDigest (some knowledgeCache) (.start [] [] (by decide)) sameTag =
      tagManager.answers oneDigest none (.start [] [] (by decide)) sameTag :=
  answers_eq tagManager (Equiv.injective _) knowledgeCache [] [] (by decide) sameTag
    allCovered_sameTag

/-- A search for one tag, and then for another one. -/
def otherTag : List (Event Unit) :=
  [.search { text := "a", filters := [("tag", some ())] } 0 0,
    .search { text := "a", filters := [("other", some ())] } 1 1]

/-- The second search is answered with the record that has the first tag. -/
theorem not_answers : ¬∀ (m : KnowledgeManager Unit) (digest : String → String),
    Function.Injective digest → ∀ (entries : Entries) (lists : List (List KnowledgeResult))
      (inRange : ∀ entry ∈ entries, entry.2.list < lists.length) (events : List (Event Unit)),
    m.answers digest (some knowledgeCache) (.start entries lists inRange) events =
      m.answers digest none (.start entries lists inRange) events := by
  intro h
  have heq := h tagManager id Function.injective_id [] [] (by decide) otherTag
  revert heq
  decide +kernel

end KnowledgeManager

end Knowledge

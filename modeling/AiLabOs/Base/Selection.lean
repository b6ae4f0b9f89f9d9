import AiLabOs.Base.Assoc
import Mathlib.Data.List.Sort
import Mathlib.Order.Defs.LinearOrder

/-!
# The best candidate of each identity

Candidates come one after the other. A dictionary keeps, for each identity, the first candidate
whose key no later one beats. Sorting its values gives a list that does not depend on the order in
which the candidates came, if nothing is left to chance: candidates with one identity and one key
are the same, and no two identities share a place in the order.

## Main definitions

* `Selection.least identity key candidates`: the dictionary
* `Selection.ranked identity key rank candidates`: its values, sorted by `rank`
* `Selection.Settled identity key candidates`: identity and key determine a candidate

## Main results

* `mem_ranked_iff`: what is selected
* `nodup_ranked`: each identity is selected once
* `ranked_perm`: the order of the candidates does not matter
* `flatMap_filter_of_pairwise`: a list in the order of its groups is its groups put together
-/

namespace Selection

variable {α ι κ ρ : Type} [DecidableEq ι] [LinearOrder κ] [LinearOrder ρ]
  (identity : α → ι) (key : α → κ) (rank : α → ρ)

/-- One candidate more: it replaces a candidate of its identity when its key is smaller. -/
def choose (selected : List (ι × α)) (candidate : α) : List (ι × α) :=
  match Assoc.get selected (identity candidate) with
  | none => Assoc.set selected (identity candidate) candidate
  | some current =>
    if key candidate < key current then Assoc.set selected (identity candidate) candidate
    else selected

/-- The candidates kept of a list. -/
def least (candidates : List α) : List (ι × α) := candidates.foldl (choose identity key) []

/-- They in their order. -/
def ranked (candidates : List α) : List α :=
  ((least identity key candidates).map Prod.snd).insertionSort fun a b => rank a ≤ rank b

/-- Identity and key determine a candidate. -/
def Settled (candidates : List α) : Prop :=
  ∀ a ∈ candidates, ∀ b ∈ candidates, identity a = identity b → key a = key b → a = b

instance [DecidableEq α] (candidates : List α) : Decidable (Settled identity key candidates) :=
  inferInstanceAs (Decidable (∀ a ∈ candidates, ∀ b ∈ candidates, _ → _ → _))

variable {identity key rank}

/-! ## The dictionary -/

theorem choose_of_none {selected : List (ι × α)} {candidate : α}
    (h : Assoc.get selected (identity candidate) = none) :
    choose identity key selected candidate = Assoc.set selected (identity candidate) candidate := by
  rw [choose, h]

theorem choose_of_some {selected : List (ι × α)} {candidate current : α}
    (h : Assoc.get selected (identity candidate) = some current) :
    choose identity key selected candidate =
      if key candidate < key current then Assoc.set selected (identity candidate) candidate
      else selected := by
  rw [choose, h]

theorem get_choose_of_ne {selected : List (ι × α)} {candidate : α} {i : ι}
    (h : identity candidate ≠ i) :
    Assoc.get (choose identity key selected candidate) i = Assoc.get selected i := by
  unfold choose
  split
  · exact Assoc.get_set_of_ne h
  · split
    · exact Assoc.get_set_of_ne h
    · rfl

/-- The entries of a dictionary of candidates stand under their identities, each once. -/
structure Filed (identity : α → ι) (selected : List (ι × α)) : Prop where
  nodup : (selected.map Prod.fst).Nodup
  named : ∀ entry ∈ selected, entry.1 = identity entry.2

omit [DecidableEq ι] in
theorem Filed.nil : Filed identity ([] : List (ι × α)) := ⟨List.nodup_nil, by simp⟩

theorem Filed.set {selected : List (ι × α)} (h : Filed identity selected) (candidate : α) :
    Filed identity (Assoc.set selected (identity candidate) candidate) := by
  refine ⟨Assoc.nodup_set h.nodup _ _, fun entry hentry => ?_⟩
  rcases Assoc.mem_set hentry with rfl | hold
  · rfl
  · exact h.named entry hold

theorem Filed.choose {selected : List (ι × α)} (h : Filed identity selected) (candidate : α) :
    Filed identity (choose identity key selected candidate) := by
  unfold Selection.choose
  split
  · exact h.set candidate
  · split
    · exact h.set candidate
    · exact h

theorem filed_least (identity : α → ι) (key : α → κ) (candidates : List α) :
    Filed identity (least identity key candidates) := by
  have hfold : ∀ (rest : List α) (selected : List (ι × α)), Filed identity selected →
      Filed identity (rest.foldl (choose identity key) selected) := by
    intro rest
    induction rest with
    | nil => exact fun _ h => h
    | cons candidate rest ih => exact fun selected h => ih _ (h.choose candidate)
  exact hfold candidates [] .nil

/-- What is kept under an identity: nothing when no candidate has it, and otherwise one whose key
none of them beats. -/
def Best (identity : α → ι) (key : α → κ) (candidates : List α) (i : ι) : Option α → Prop
  | none => ∀ a ∈ candidates, identity a ≠ i
  | some best => best ∈ candidates ∧ identity best = i ∧
      ∀ a ∈ candidates, identity a = i → key best ≤ key a

/-- **One candidate more** keeps the best of each identity. -/
theorem best_choose {candidates : List α} {selected : List (ι × α)} (candidate : α)
    (h : ∀ i, Best identity key candidates i (Assoc.get selected i)) (i : ι) :
    Best identity key (candidates ++ [candidate]) i
      (Assoc.get (choose identity key selected candidate) i) := by
  have hi := h i
  by_cases hne : identity candidate = i
  · subst hne
    rcases Option.eq_none_or_eq_some (Assoc.get selected (identity candidate)) with
      hget | ⟨current, hget⟩
    · rw [hget] at hi
      rw [choose_of_none hget, Assoc.get_set_self]
      refine ⟨by simp, rfl, fun a ha heq => ?_⟩
      rcases List.mem_append.mp ha with hold | hnew
      · exact absurd heq (hi a hold)
      · rw [List.mem_singleton.mp hnew]
    · rw [hget] at hi
      obtain ⟨hmem, hid, hleast⟩ := hi
      rw [choose_of_some hget]
      split
      next hlt =>
        rw [Assoc.get_set_self]
        refine ⟨by simp, rfl, fun a ha heq => ?_⟩
        rcases List.mem_append.mp ha with hold | hnew
        · exact hlt.le.trans (hleast a hold heq)
        · rw [List.mem_singleton.mp hnew]
      next hnlt =>
        rw [hget]
        refine ⟨List.mem_append_left _ hmem, hid, fun a ha heq => ?_⟩
        rcases List.mem_append.mp ha with hold | hnew
        · exact hleast a hold heq
        · rw [List.mem_singleton.mp hnew]
          exact not_lt.mp hnlt
  · rw [get_choose_of_ne hne]
    cases hget : Assoc.get selected i with
    | none =>
      rw [hget] at hi
      intro a ha
      rcases List.mem_append.mp ha with hold | hnew
      · exact hi a hold
      · rwa [List.mem_singleton.mp hnew]
    | some current =>
      rw [hget] at hi
      obtain ⟨hmem, hid, hleast⟩ := hi
      refine ⟨List.mem_append_left _ hmem, hid, fun a ha heq => ?_⟩
      rcases List.mem_append.mp ha with hold | hnew
      · exact hleast a hold heq
      · exact absurd (List.mem_singleton.mp hnew ▸ heq) hne

theorem best_least (identity : α → ι) (key : α → κ) (candidates : List α) (i : ι) :
    Best identity key candidates i (Assoc.get (least identity key candidates) i) := by
  have hfold : ∀ (rest seen : List α) (selected : List (ι × α)),
      (∀ i, Best identity key seen i (Assoc.get selected i)) →
      ∀ i, Best identity key (seen ++ rest) i
        (Assoc.get (rest.foldl (choose identity key) selected) i) := by
    intro rest
    induction rest with
    | nil =>
      intro seen selected h i
      rw [List.append_nil]
      exact h i
    | cons candidate rest ih =>
      intro seen selected h i
      have hnext := ih (seen ++ [candidate]) _ (best_choose candidate h) i
      rwa [List.append_assoc] at hnext
  exact hfold candidates [] [] (fun _ a ha => by cases ha) i

/-! ## The list -/

/-- A candidate is in the list when it is the one kept under its identity. -/
theorem mem_ranked {candidates : List α} {a : α} :
    a ∈ ranked identity key rank candidates ↔
      Assoc.get (least identity key candidates) (identity a) = some a := by
  have hfiled := filed_least identity key candidates
  rw [ranked, List.mem_insertionSort, List.mem_map]
  constructor
  · rintro ⟨⟨i, b⟩, hentry, rfl⟩
    obtain rfl : i = identity b := hfiled.named _ hentry
    exact Assoc.get_of_mem hfiled.nodup hentry
  · exact fun h => ⟨_, Assoc.mem_of_get h, rfl⟩

/-- **What is selected**: candidates whose key none of their identity beats. -/
theorem best_of_mem_ranked {candidates : List α} {a : α}
    (h : a ∈ ranked identity key rank candidates) :
    a ∈ candidates ∧ ∀ b ∈ candidates, identity b = identity a → key a ≤ key b := by
  have hbest := best_least identity key candidates (identity a)
  rw [mem_ranked.mp h] at hbest
  exact ⟨hbest.1, hbest.2.2⟩

/-- Every identity is represented. -/
theorem exists_mem_ranked (identity : α → ι) (key : α → κ) (rank : α → ρ) {candidates : List α}
    {a : α} (h : a ∈ candidates) :
    ∃ b ∈ ranked identity key rank candidates, identity b = identity a := by
  have hbest := best_least identity key candidates (identity a)
  cases hget : Assoc.get (least identity key candidates) (identity a) with
  | none =>
    rw [hget] at hbest
    exact absurd rfl (hbest a h)
  | some b =>
    rw [hget] at hbest
    refine ⟨b, mem_ranked.mpr ?_, hbest.2.1⟩
    rw [hbest.2.1, hget]

/-- **Each identity is selected once.** -/
theorem nodup_ranked (identity : α → ι) (key : α → κ) (rank : α → ρ) (candidates : List α) :
    ((ranked identity key rank candidates).map identity).Nodup := by
  have hfiled := filed_least identity key candidates
  have hkeys : ((least identity key candidates).map Prod.snd).map identity =
      (least identity key candidates).map Prod.fst := by
    rw [List.map_map]
    exact List.map_congr_left fun entry hentry => (hfiled.named entry hentry).symm
  have hperm := (List.perm_insertionSort (fun a b => rank a ≤ rank b)
    ((least identity key candidates).map Prod.snd)).map identity
  rw [ranked]
  exact hperm.nodup_iff.mpr (hkeys ▸ hfiled.nodup)

theorem pairwise_ranked (identity : α → ι) (key : α → κ) (rank : α → ρ) (candidates : List α) :
    (ranked identity key rank candidates).Pairwise fun a b => rank a ≤ rank b := by
  have : Std.Total fun a b : α => rank a ≤ rank b := ⟨fun a b => le_total (rank a) (rank b)⟩
  have : IsTrans α fun a b => rank a ≤ rank b := ⟨fun _ _ _ => le_trans⟩
  exact List.pairwise_insertionSort _ _

/-- When no two identities share a rank the order is strict. -/
theorem pairwise_lt_ranked (hrank : ∀ a b, rank a = rank b → identity a = identity b)
    (candidates : List α) :
    (ranked identity key rank candidates).Pairwise fun a b => rank a < rank b := by
  have hle := pairwise_ranked identity key rank candidates
  have hnodup := nodup_ranked identity key rank candidates
  rw [List.Nodup, List.pairwise_map] at hnodup
  exact (hle.and hnodup).imp fun h => lt_of_le_of_ne h.1 fun heq => h.2 (hrank _ _ heq)

/-- **The order of the candidates does not matter.** -/
theorem ranked_perm (hrank : ∀ a b, rank a = rank b → identity a = identity b)
    {candidates candidates' : List α} (hsettled : Settled identity key candidates)
    (hperm : candidates'.Perm candidates) :
    ranked identity key rank candidates' = ranked identity key rank candidates := by
  have hsub : ∀ {xs ys : List α}, xs.Perm ys → ys.Perm candidates →
      ∀ a ∈ ranked identity key rank xs, a ∈ ranked identity key rank ys := by
    intro xs ys hxy hyc a ha
    obtain ⟨hmem, hleast⟩ := best_of_mem_ranked ha
    obtain ⟨b, hb, hid⟩ := exists_mem_ranked identity key rank (hxy.mem_iff.mp hmem)
    obtain ⟨hbmem, hbleast⟩ := best_of_mem_ranked hb
    -- Both are the best of their identity, so their keys agree.
    have hkey : key a = key b := le_antisymm (hleast b (hxy.mem_iff.mpr hbmem) hid)
      (hbleast a (hxy.mem_iff.mp hmem) hid.symm)
    rwa [hsettled a (hyc.mem_iff.mp (hxy.mem_iff.mp hmem)) b (hyc.mem_iff.mp hbmem) hid.symm hkey]
  have hset : (ranked identity key rank candidates').Perm
      (ranked identity key rank candidates) := by
    refine (List.perm_ext_iff_of_nodup (nodup_ranked ..).of_map (nodup_ranked ..).of_map).mpr ?_
    exact fun a => ⟨hsub hperm .rfl a, hsub hperm.symm hperm a⟩
  refine hset.eq_of_pairwise ?_ (pairwise_lt_ranked hrank _) (pairwise_lt_ranked hrank _)
  exact fun a b _ _ hab hba => absurd (hab.trans hba) (lt_irrefl _)

/-! ## Groups -/

/-- **A list in the order of its groups** is its groups put together. -/
theorem flatMap_filter_of_pairwise {γ : Type} [DecidableEq γ] (group : α → γ) (place : γ → ℕ)
    {names : List γ} (hnames : names.Pairwise fun m n => place m < place n) {l : List α}
    (hl : l.Pairwise fun a b => place (group a) ≤ place (group b))
    (hmem : ∀ a ∈ l, group a ∈ names) :
    (names.flatMap fun name => l.filter fun a => group a = name) = l := by
  induction l with
  | nil => simp
  | cons a l ih =>
    rw [List.pairwise_cons] at hl
    have hrest := ih hl.2 fun b hb => hmem b (List.mem_cons_of_mem _ hb)
    obtain ⟨before, after, rfl⟩ := List.append_of_mem (hmem a (List.mem_cons_self ..))
    rw [List.pairwise_append, List.pairwise_cons] at hnames
    -- No group before that of `a` has a member.
    have hbefore : ∀ rows : List α, (∀ b ∈ rows, place (group a) ≤ place (group b)) →
        (before.flatMap fun name => rows.filter fun b => group b = name) = [] := by
      intro rows hrows
      refine List.flatMap_eq_nil_iff.mpr fun name hname => List.filter_eq_nil_iff.mpr ?_
      intro b hb
      have hlt := hnames.2.2 name hname (group a) (List.mem_cons_self ..)
      have hle := hrows b hb
      simp only [decide_eq_true_eq]
      rintro rfl
      omega
    have hafter : (after.flatMap fun name => (a :: l).filter fun b => group b = name) =
        after.flatMap fun name => l.filter fun b => group b = name := by
      refine List.flatMap_congr fun name hname => ?_
      have hne : group a ≠ name := fun heq =>
        absurd (hnames.2.1.1 name hname) (heq ▸ Nat.lt_irrefl _)
      rw [List.filter_cons, if_neg (by simpa using hne)]
    rw [List.flatMap_append, List.flatMap_cons, hbefore l hl.1, List.nil_append] at hrest
    rw [List.flatMap_append, List.flatMap_cons, hafter, hbefore (a :: l), List.nil_append,
      List.filter_cons, if_pos (by simp), List.cons_append, hrest]
    intro b hb
    rcases List.mem_cons.mp hb with rfl | hb
    · exact le_rfl
    · exact hl.1 b hb

end Selection

import AiLabOs.Base.Query

/-!
# Answers that an order allows

A query asks for the rows that meet a condition, in an order that may leave ties open, without the
first few. Several lists answer it.

## Main definitions

* `Ranking.IsTail`: the rows after the first few, in some order that is allowed
* `Ranking.IsWindow`: so many of them

## Main results

* `Ranking.isTail_iff`: what makes a list of rows such a tail
* `Ranking.forall_isWindow_iff`: a list is a tail when its starts are windows
* `Ranking.pairwise_insertionSort_iff`, `forall_perm_pairwise_iff`: when sorting by one order gives
  a list that another order allows
-/

namespace Ranking

variable {α : Type}

section Tails

variable {le : α → α → Prop} {wanted shown : List α} {offset : ℕ}

/-- The wanted rows after the first `offset`, in some order that `le` allows. -/
def IsTail (le : α → α → Prop) (wanted : List α) (offset : ℕ) (shown : List α) : Prop :=
  ∃ sorted : List α, sorted.Perm wanted ∧ sorted.Pairwise le ∧ shown = sorted.drop offset

/-- At most `limit` of the wanted rows after the first `offset`, in some order that `le` allows. -/
def IsWindow (le : α → α → Prop) (wanted : List α) (limit offset : ℕ) (shown : List α) : Prop :=
  ∃ sorted : List α, sorted.Perm wanted ∧ sorted.Pairwise le ∧
    shown = Query.page limit offset sorted

theorem IsWindow.length {limit : ℕ} (h : IsWindow le wanted limit offset shown) :
    shown.length = min limit (wanted.length - offset) := by
  obtain ⟨sorted, hperm, -, rfl⟩ := h
  rw [Query.page, List.length_take, List.length_drop, hperm.length_eq]

/-- The order of the wanted rows does not matter. -/
theorem IsWindow.perm {limit : ℕ} (h : IsWindow le wanted limit offset shown) {wanted' : List α}
    (hperm : wanted.Perm wanted') : IsWindow le wanted' limit offset shown := by
  obtain ⟨sorted, hsorted, hpairwise, rfl⟩ := h
  exact ⟨sorted, hsorted.trans hperm, hpairwise, rfl⟩

theorem IsTail.isWindow (h : IsTail le wanted offset shown) (limit : ℕ) :
    IsWindow le wanted limit offset (shown.take limit) := by
  obtain ⟨sorted, hperm, hsorted, rfl⟩ := h
  exact ⟨sorted, hperm, hsorted, rfl⟩

/-- **A list is a tail** when each of its starts is a window. -/
theorem forall_isWindow_iff :
    (∀ limit, 1 ≤ limit → IsWindow le wanted limit offset (shown.take limit)) ↔
      IsTail le wanted offset shown := by
  constructor
  · intro h
    -- A limit that cuts neither list.
    obtain ⟨sorted, hperm, hsorted, heq⟩ := h (shown.length + wanted.length + 1) (by omega)
    refine ⟨sorted, hperm, hsorted, ?_⟩
    rw [List.take_of_length_le (by omega), Query.page, List.take_of_length_le] at heq
    · exact heq
    · rw [List.length_drop, hperm.length_eq]
      omega
  · intro h limit _
    exact h.isWindow limit

/-- **What makes a list a tail**: it holds wanted rows, in an order that is allowed; it leaves out
as many as it should, and these may come before it. -/
theorem isTail_iff [DecidableEq α] [DecidableRel le] [Std.Total le] [IsTrans α le]
    (hwanted : wanted.Nodup) (hshown : shown.Nodup) :
    IsTail le wanted offset shown ↔
      (∀ a ∈ shown, a ∈ wanted) ∧ shown.Pairwise le ∧
      (wanted.filter (· ∉ shown)).length = min offset wanted.length ∧
      ∀ a ∈ wanted, a ∉ shown → ∀ b ∈ shown, le a b := by
  constructor
  · rintro ⟨sorted, hperm, hsorted, rfl⟩
    have hnodup : sorted.Nodup := hperm.nodup_iff.mpr hwanted
    have hsplit : sorted.take offset ++ sorted.drop offset = sorted := List.take_append_drop ..
    have hfirst : ∀ a ∈ sorted, a ∉ sorted.drop offset ↔ a ∈ sorted.take offset := by
      intro a ha
      rw [← hsplit, List.nodup_append] at hnodup
      constructor
      · intro hnot
        rw [← hsplit, List.mem_append] at ha
        exact ha.resolve_right hnot
      · intro htake hdrop
        exact hnodup.2.2 a htake a hdrop rfl
    refine ⟨fun a ha => hperm.mem_iff.mp (List.mem_of_mem_drop ha),
      hsorted.sublist (List.drop_sublist ..), ?_, ?_⟩
    · have hfilter : sorted.filter (· ∉ sorted.drop offset) = sorted.take offset := by
        conv_lhs => arg 2; rw [← hsplit]
        rw [List.filter_append, List.filter_eq_self.mpr, List.filter_eq_nil_iff.mpr,
          List.append_nil]
        · intro a ha
          simpa using ha
        · intro a ha
          exact decide_eq_true ((hfirst a (List.mem_of_mem_take ha)).mpr ha)
      rw [← (hperm.filter _).length_eq, hfilter, List.length_take, hperm.length_eq]
    · intro a ha hnot b hb
      have htake := (hfirst a (hperm.mem_iff.mpr ha)).mp hnot
      rw [← hsplit, List.pairwise_append] at hsorted
      exact hsorted.2.2 a htake b hb
  · rintro ⟨hmem, hpairwise, hlength, hbefore⟩
    let missing := wanted.filter (· ∉ shown)
    have hmissing : (missing.insertionSort le).Perm missing := List.perm_insertionSort ..
    have hperm : (missing ++ shown).Perm wanted := by
      have hrest : (wanted.filter (· ∈ shown)).Perm shown := by
        refine (List.perm_ext_iff_of_nodup (hwanted.filter _) hshown).mpr fun a => ?_
        rw [List.mem_filter, decide_eq_true_eq]
        exact ⟨fun h => h.2, fun h => ⟨hmem a h, h⟩⟩
      refine List.Perm.trans ?_ (List.filter_append_perm (· ∉ shown) wanted)
      refine List.Perm.append_left _ (hrest.symm.trans (List.Perm.of_eq ?_))
      exact List.filter_congr fun a _ => by simp
    refine ⟨missing.insertionSort le ++ shown, (hmissing.append_right _).trans hperm, ?_, ?_⟩
    · rw [List.pairwise_append]
      refine ⟨List.pairwise_insertionSort le _, hpairwise, fun a ha b hb => ?_⟩
      obtain ⟨hwant, hnot⟩ := List.mem_filter.mp (hmissing.mem_iff.mp ha)
      exact hbefore a hwant (of_decide_eq_true hnot) b hb
    · have hsort : (missing.insertionSort le).length = min offset wanted.length :=
        (List.length_insertionSort ..).trans hlength
      rcases le_total offset wanted.length with hle | hle
      · rw [min_eq_left hle] at hsort
        rw [← hsort, List.drop_left]
      · rw [min_eq_right hle] at hsort
        -- Everything that is wanted is left out, so nothing is shown.
        have hlen := hperm.length_eq
        rw [List.length_append] at hlen
        have hmissinglen : missing.length = wanted.length :=
          (List.length_insertionSort ..).symm.trans hsort
        have hnil : shown = [] := List.length_eq_zero_iff.mp (by omega)
        rw [hnil, List.append_nil, List.drop_eq_nil_of_le (by omega)]

end Tails

section Sorting

variable {sortBy le : α → α → Prop} [DecidableRel sortBy] [Std.Total sortBy] [IsTrans α sortBy]
  {rows : List α}

/-- Of two rows one comes first. -/
theorem pair_sublist {rows : List α} {a b : α} (ha : a ∈ rows) (hb : b ∈ rows) (hne : a ≠ b) :
    [a, b].Sublist rows ∨ [b, a].Sublist rows := by
  induction rows with
  | nil => cases ha
  | cons c rows ih =>
    rcases List.mem_cons.mp ha with rfl | hra
    · have hrb : b ∈ rows := (List.mem_cons.mp hb).resolve_left (Ne.symm hne)
      exact .inl ((List.singleton_sublist.mpr hrb).cons_cons a)
    · rcases List.mem_cons.mp hb with rfl | hrb
      · exact .inr ((List.singleton_sublist.mpr hra).cons_cons b)
      · exact (ih hra hrb).imp (·.cons c) (·.cons c)

/-- **A stable sort** gives a list that `le` allows when `le` allows every two rows in the order
the sort puts them in. -/
theorem pairwise_insertionSort_iff (hrows : rows.Nodup) :
    (rows.insertionSort sortBy).Pairwise le ↔
      rows.Pairwise fun a b => (sortBy a b → le a b) ∧ (¬sortBy a b → le b a) := by
  have hperm : (rows.insertionSort sortBy).Perm rows := List.perm_insertionSort ..
  have hsorted := List.pairwise_insertionSort sortBy rows
  constructor
  · intro h
    rw [List.pairwise_iff_forall_sublist] at h hsorted ⊢
    intro a b hab
    refine ⟨fun hle => h (List.pair_sublist_insertionSort hle hab), fun hnle => ?_⟩
    have hne : a ≠ b := by
      have := hrows.sublist hab
      simpa using this
    have ha : a ∈ rows := hab.subset (List.mem_cons_self ..)
    have hb : b ∈ rows := hab.subset (List.mem_cons_of_mem _ (List.mem_cons_self ..))
    rcases pair_sublist (hperm.mem_iff.mpr ha) (hperm.mem_iff.mpr hb) hne with hpair | hpair
    · exact absurd (hsorted hpair) hnle
    · exact h hpair
  · intro h
    rw [List.pairwise_iff_forall_sublist] at h hsorted ⊢
    intro a b hab
    have hne : a ≠ b := by
      have := (hperm.nodup_iff.mpr hrows).sublist hab
      simpa using this
    have ha : a ∈ rows := hperm.mem_iff.mp (hab.subset (List.mem_cons_self ..))
    have hb : b ∈ rows :=
      hperm.mem_iff.mp (hab.subset (List.mem_cons_of_mem _ (List.mem_cons_self ..)))
    rcases pair_sublist ha hb hne with hpair | hpair
    · exact (h hpair).1 (hsorted hab)
    · by_cases hle : sortBy b a
      · -- A stable sort would have kept `b` before `a`.
        have hba := List.pair_sublist_insertionSort hle hpair
        exact absurd hba (not_pair_sublist_swap (hperm.nodup_iff.mpr hrows) hab)
      · exact (h hpair).2 hle
where
  /-- Two rows of a list without repetitions come in one order only. -/
  not_pair_sublist_swap {rows : List α} {a b : α} (hrows : rows.Nodup)
      (hab : [a, b].Sublist rows) : ¬[b, a].Sublist rows := by
    intro hba
    induction rows with
    | nil => cases hab
    | cons c rows ih =>
      rw [List.nodup_cons] at hrows
      cases hab with
      | cons _ hab =>
        cases hba with
        | cons _ hba => exact ih hrows.2 hab hba
        | cons_cons _ hba =>
          exact hrows.1 (hab.subset (List.mem_cons_of_mem _ (List.mem_cons_self ..)))
      | cons_cons _ hb =>
        cases hba with
        | cons _ hba => exact hrows.1 (hba.subset (List.mem_cons_of_mem _ (List.mem_cons_self ..)))
        | cons_cons _ ha => exact hrows.1 (hb.subset (List.mem_cons_self ..))

/-- **A sort of rows in any order** gives lists that `le` allows when `le` allows every two rows
that the sort may put in that order. -/
theorem forall_perm_pairwise_iff (hrows : rows.Nodup) :
    (∀ scan : List α, scan.Perm rows → (scan.insertionSort sortBy).Pairwise le) ↔
      ∀ a ∈ rows, ∀ b ∈ rows, a ≠ b → sortBy a b → le a b := by
  classical
  constructor
  · intro h a ha b hb hne hle
    have hb' : b ∈ rows.erase a := (List.mem_erase_of_ne (Ne.symm hne)).mpr hb
    have hscan : (a :: b :: (rows.erase a).erase b).Perm rows :=
      ((List.perm_cons_erase hb').symm.cons a).trans (List.perm_cons_erase ha).symm
    have hpair : [a, b].Sublist (a :: b :: (rows.erase a).erase b) :=
      ((List.nil_sublist _).cons_cons b).cons_cons a
    exact List.pairwise_iff_forall_sublist.mp (h _ hscan)
      (List.pair_sublist_insertionSort hle hpair)
  · intro h scan hscan
    have hperm : (scan.insertionSort sortBy).Perm rows :=
      (List.perm_insertionSort ..).trans hscan
    have hsorted := List.pairwise_insertionSort sortBy scan
    rw [List.pairwise_iff_forall_sublist] at hsorted ⊢
    intro a b hab
    have hne : a ≠ b := by
      have := (hperm.nodup_iff.mpr hrows).sublist hab
      simpa using this
    exact h a (hperm.mem_iff.mp (hab.subset (List.mem_cons_self ..))) b
      (hperm.mem_iff.mp (hab.subset (List.mem_cons_of_mem _ (List.mem_cons_self ..)))) hne
      (hsorted hab)

end Sorting

end Ranking

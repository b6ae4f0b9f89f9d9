import AiLabOs.Base.Ranking
import Mathlib.Algebra.GroupWithZero.Nat

/-!
# Pages of several lists

Several lists are sorted by a key, the highest first. A page of all of them is put together from
the same page of each, sorted again and cut. An offset is then dropped once for each list.

## Main definitions

* `Merging.descending`: higher keys come first
* `Merging.above`: how many rows have a key of at least a value
* `Merging.merged`: one page of several lists
* `Merging.DroppedOnce`: dropping an offset of each list is as good as dropping it once

## Main results

* `Merging.isWindow_iff`: a sorted list is a window when it has as many rows above each key
* `Merging.isWindow_merged_iff`: when a page of several lists is a page of them all
* `Merging.pages_merged_iff`: when all pages hold each row once
-/

namespace Merging

variable {α β : Type} [LinearOrder β] (key : α → β)

/-- Higher keys come first. -/
def descending (a b : α) : Prop := key b ≤ key a

instance : DecidableRel (descending key) := fun a b =>
  inferInstanceAs (Decidable (key b ≤ key a))

instance : Std.Total (descending key) where
  total a b := le_total (key b) (key a)

instance : IsTrans α (descending key) where
  trans _ _ _ hab hbc := le_trans hbc hab

/-- How many rows have a key of at least `v`. -/
def above (v : β) (rows : List α) : ℕ := rows.countP (v ≤ key ·)

/-! ## Rows above a key -/

section Above

variable {key} {rows rows' : List α} {v : β}

theorem above_cons (v : β) (a : α) (rows : List α) :
    above key v (a :: rows) = above key v rows + if v ≤ key a then 1 else 0 := by
  rw [above, List.countP_cons]
  simp [above]

theorem above_append (v : β) (rows rows' : List α) :
    above key v (rows ++ rows') = above key v rows + above key v rows' :=
  List.countP_append

theorem above_perm (h : rows.Perm rows') (v : β) : above key v rows = above key v rows' :=
  h.countP_eq _

theorem above_flatten (v : β) (lists : List (List α)) :
    above key v lists.flatten = (lists.map (above key v)).sum := by
  induction lists with
  | nil => rfl
  | cons rows lists ih =>
    rw [List.flatten_cons, above_append, ih, List.map_cons, List.sum_cons]

/-- No row after one below a key is above it. -/
theorem above_eq_zero {a : α} (hsorted : (a :: rows).Pairwise (descending key)) (ha : ¬v ≤ key a) :
    above key v rows = 0 := by
  rw [above, List.countP_eq_zero]
  intro b hb hv
  exact ha (le_trans (of_decide_eq_true hv) (List.rel_of_pairwise_cons hsorted hb))

theorem above_drop (hsorted : rows.Pairwise (descending key)) (n : ℕ) :
    above key v (rows.drop n) = above key v rows - n := by
  induction rows generalizing n with
  | nil => simp [above]
  | cons a rows ih =>
    cases n with
    | zero => simp
    | succ n =>
      rw [List.drop_succ_cons, ih (List.pairwise_cons.mp hsorted).2, above_cons]
      by_cases hv : v ≤ key a
      · rw [if_pos hv]
        omega
      · rw [if_neg hv, above_eq_zero hsorted hv]
        omega

theorem above_take (hsorted : rows.Pairwise (descending key)) (n : ℕ) :
    above key v (rows.take n) = min n (above key v rows) := by
  induction rows generalizing n with
  | nil => simp [above]
  | cons a rows ih =>
    cases n with
    | zero => simp [above]
    | succ n =>
      rw [List.take_succ_cons, above_cons, above_cons, ih (List.pairwise_cons.mp hsorted).2]
      by_cases hv : v ≤ key a
      · rw [if_pos hv]
        omega
      · rw [if_neg hv, above_eq_zero hsorted hv]
        omega

/-- **A page of sorted rows**, above a key. -/
theorem above_page (hsorted : rows.Pairwise (descending key)) (limit offset : ℕ) :
    above key v (Query.page limit offset rows) = min limit (above key v rows - offset) := by
  rw [Query.page, above_take (hsorted.sublist (List.drop_sublist ..)), above_drop hsorted]

/-- Which places of sorted rows are above a key. -/
theorem lt_above_iff (hsorted : rows.Pairwise (descending key)) {i : ℕ} (hi : i < rows.length) :
    i < above key v rows ↔ v ≤ key rows[i] := by
  induction rows generalizing i with
  | nil => exact absurd hi (Nat.not_lt_zero i)
  | cons a rows ih =>
    rw [above_cons]
    cases i with
    | zero =>
      by_cases hv : v ≤ key a
      · simp [hv]
      · simp [hv, above_eq_zero hsorted hv]
    | succ i =>
      rw [List.getElem_cons_succ, ← ih (List.pairwise_cons.mp hsorted).2 (by simpa using hi)]
      by_cases hv : v ≤ key a
      · simp [hv]
      · simp [hv, above_eq_zero hsorted hv]

/-- **Sorted rows with as many rows above each key** have the same keys. -/
theorem map_key_eq (hsorted : rows.Pairwise (descending key))
    (hsorted' : rows'.Pairwise (descending key))
    (h : ∀ v, above key v rows = above key v rows') : rows.map key = rows'.map key := by
  have hlt : ∀ {xs ys : List α}, xs.Pairwise (descending key) →
      (∀ v, above key v xs = above key v ys) → ∀ i (hi : i < xs.length), i < ys.length := by
    intro xs ys hxs heq i hi
    have hcount := (lt_above_iff hxs hi).mpr le_rfl
    rw [heq] at hcount
    exact lt_of_lt_of_le hcount List.countP_le_length
  refine List.ext_getElem ?_ fun i hi hi' => ?_
  · rw [List.length_map, List.length_map]
    refine le_antisymm (Nat.le_of_not_lt fun hlong => ?_) (Nat.le_of_not_lt fun hlong => ?_)
    · exact lt_irrefl _ (hlt hsorted h _ hlong)
    · exact lt_irrefl _ (hlt hsorted' (fun v => (h v).symm) _ hlong)
  · rw [List.length_map] at hi hi'
    rw [List.getElem_map, List.getElem_map]
    apply le_antisymm
    · exact (lt_above_iff hsorted' hi').mp (h _ ▸ (lt_above_iff hsorted hi).mpr le_rfl)
    · exact (lt_above_iff hsorted hi).mp ((h _).symm ▸ (lt_above_iff hsorted' hi').mpr le_rfl)

theorem pairwise_map_key : (rows.map key).Pairwise (fun x y => y ≤ x) ↔
    rows.Pairwise (descending key) :=
  List.pairwise_map

end Above

/-! ## Windows -/

section Windows

variable {key} {wanted shown : List α} {limit offset : ℕ}

/-- Rows with the keys of a page can take its place. -/
theorem isWindow_of_map_key {rest : List α} (hperm : (shown ++ rest).Perm wanted)
    (hkeys : shown.map key =
      (Query.page limit offset (wanted.insertionSort (descending key))).map key) :
    Ranking.IsWindow (descending key) wanted limit offset shown := by
  let sorted := wanted.insertionSort (descending key)
  let before := sorted.take offset
  let after := (sorted.drop offset).drop limit
  have hsplit : sorted = before ++ (Query.page limit offset sorted ++ after) := by
    rw [Query.page, List.take_append_drop, List.take_append_drop]
  have hsorted : sorted.Pairwise (descending key) := List.pairwise_insertionSort ..
  -- The other rows have the keys of the rows outside the page.
  let others := rest.insertionSort (descending key)
  have hothers : others.map key = (before ++ after).map key := by
    have hlow : (before ++ after).Pairwise (descending key) := by
      rw [hsplit] at hsorted
      exact hsorted.sublist ((List.sublist_append_right ..).append_left _)
    refine List.Perm.eq_of_pairwise' (r := fun x y => y ≤ x)
      (pairwise_map_key.mpr (List.pairwise_insertionSort ..)) (pairwise_map_key.mpr hlow) ?_
    have hall : ((shown ++ rest).map key).Perm (sorted.map key) :=
      (hperm.trans (List.perm_insertionSort ..).symm).map key
    rw [hsplit, List.map_append, List.map_append, List.map_append, hkeys] at hall
    have hcancel : ((Query.page limit offset sorted).map key ++ rest.map key).Perm
        ((Query.page limit offset sorted).map key ++ (before ++ after).map key) := by
      refine hall.trans ?_
      rw [List.map_append, ← List.append_assoc, ← List.append_assoc]
      exact List.perm_append_comm.append_right _
    exact ((List.perm_insertionSort ..).map key).trans ((List.perm_append_left_iff _).mp hcancel)
  have hlength : others.length = before.length + after.length := by
    rw [← List.length_map (f := key), hothers, List.length_map, List.length_append]
  have hshown : shown.length = (Query.page limit offset sorted).length := by
    rw [← List.length_map (f := key), hkeys, List.length_map]
  refine ⟨others.take before.length ++ (shown ++ others.drop before.length), ?_, ?_, ?_⟩
  · have hcomm : (others.take before.length ++ (shown ++ others.drop before.length)).Perm
        (shown ++ others) := by
      rw [← List.append_assoc]
      refine (List.perm_append_comm.append_right _).trans ?_
      rw [List.append_assoc, List.take_append_drop]
    exact hcomm.trans (((List.perm_insertionSort ..).append_left _).trans hperm)
  · have hbeforeLength : before.length = (before.map key).length := (List.length_map key).symm
    have hkeys' : (others.take before.length ++ (shown ++ others.drop before.length)).map key =
        sorted.map key := by
      rw [List.map_append, List.map_append, List.map_take, List.map_drop, hothers, hkeys,
        List.map_append, hbeforeLength, List.take_left, List.drop_left]
      conv_rhs => rw [hsplit, List.map_append, List.map_append]
    rw [← pairwise_map_key, hkeys', pairwise_map_key]
    exact hsorted
  · have hbefore : before.length = min offset sorted.length := List.length_take ..
    have hafter : after.length = sorted.length - offset - limit := by
      rw [List.length_drop, List.length_drop]
    have hpage : shown.length = min limit (sorted.length - offset) := by
      rw [hshown, Query.page, List.length_take, List.length_drop]
    rw [Query.page]
    rcases le_total offset sorted.length with hle | hle
    · have hcut : (others.take before.length).length = offset := by
        rw [List.length_take, hlength]
        omega
      rw [List.drop_left' hcut]
      by_cases hfull : shown.length = limit
      · rw [List.take_left' hfull]
      · have hnone : others.drop before.length = [] := by
          apply List.drop_eq_nil_of_le
          omega
        rw [hnone, List.append_nil, List.take_of_length_le (by omega)]
    · have hnil : shown = [] := List.length_eq_zero_iff.mp (by omega)
      rw [hnil, List.nil_append, List.take_append_drop, List.drop_eq_nil_of_le (by omega),
        List.take_nil]

/-- **A sorted list of wanted rows is a window** when it has as many rows above each key as it
should. -/
theorem isWindow_iff (hsorted : shown.Pairwise (descending key)) (hshown : shown.Subperm wanted) :
    Ranking.IsWindow (descending key) wanted limit offset shown ↔
      ∀ v, above key v shown = min limit (above key v wanted - offset) := by
  constructor
  · rintro ⟨sorted, hperm, hpairwise, rfl⟩ v
    rw [above_page hpairwise, above_perm hperm]
  · intro h
    obtain ⟨part, hpart, hsub⟩ := hshown
    obtain ⟨rest, hrest⟩ := hsub.exists_perm_append
    refine isWindow_of_map_key
      ((hpart.symm.append_right rest).trans hrest.symm) (map_key_eq hsorted ?_ fun v => ?_)
    · exact (List.pairwise_insertionSort ..).sublist
        ((List.take_sublist ..).trans (List.drop_sublist ..))
    · rw [h v, above_page (List.pairwise_insertionSort ..),
        above_perm (List.perm_insertionSort ..)]

end Windows

/-! ## Offsets dropped of each list -/

section Sums

variable {offset limit : ℕ} {counts : List ℕ}

/-- **Dropping an offset of each list** is as good as dropping it once, up to a limit: nothing is
dropped, all of it is dropped, only one list has anything, or enough is left. -/
def DroppedOnce (limit offset : ℕ) (counts : List ℕ) : Prop :=
  offset = 0 ∨ counts.sum ≤ offset ∨ (counts.filter (0 < ·)).length ≤ 1 ∨
    limit ≤ (counts.map (· - offset)).sum

theorem sum_sub_le (offset : ℕ) (counts : List ℕ) :
    (counts.map (· - offset)).sum ≤ counts.sum - offset := by
  induction counts with
  | nil => simp
  | cons x counts ih =>
    rw [List.map_cons, List.sum_cons, List.sum_cons]
    rcases Nat.lt_or_ge x offset with hx | hx
    · omega
    · have hle : (counts.map (· - offset)).sum ≤ counts.sum := ih.trans (Nat.sub_le ..)
      omega

theorem sum_eq_zero_iff : counts.sum = 0 ↔ (counts.filter (0 < ·)).length = 0 := by
  induction counts with
  | nil => simp
  | cons x counts ih =>
    rw [List.sum_cons, Nat.add_eq_zero_iff, ih]
    rcases Nat.eq_zero_or_pos x with rfl | hx
    · simp
    · rw [List.filter_cons_of_pos (by simpa using hx), List.length_cons]
      omega

/-- When the offsets dropped of each count are one offset dropped of the sum. -/
theorem sum_sub_eq_iff : (counts.map (· - offset)).sum = counts.sum - offset ↔
    offset = 0 ∨ counts.sum ≤ offset ∨ (counts.filter (0 < ·)).length ≤ 1 := by
  induction counts with
  | nil => simp
  | cons x counts ih =>
    have hle := sum_sub_le offset counts
    have hzero : counts.sum = 0 ↔ (counts.filter (0 < ·)).length = 0 := sum_eq_zero_iff
    rw [List.map_cons, List.sum_cons, List.sum_cons]
    rcases Nat.eq_zero_or_pos x with rfl | hx
    · rw [List.filter_cons_of_neg (by simp), Nat.zero_sub, Nat.zero_add, Nat.zero_add]
      exact ih
    · rw [List.filter_cons_of_pos (by simpa using hx), List.length_cons]
      omega

/-- **When the offsets dropped of each count** agree with one offset dropped of the sum, up to a
limit. -/
theorem droppedOnce_iff : DroppedOnce limit offset counts ↔
    min limit (counts.map (· - offset)).sum = min limit (counts.sum - offset) := by
  have hle := sum_sub_le offset counts
  have hiff : (counts.map (· - offset)).sum = counts.sum - offset ↔
      offset = 0 ∨ counts.sum ≤ offset ∨ (counts.filter (0 < ·)).length ≤ 1 := sum_sub_eq_iff
  unfold DroppedOnce
  constructor
  · rintro (h | h | h | h)
    · rw [hiff.mpr (.inl h)]
    · rw [hiff.mpr (.inr (.inl h))]
    · rw [hiff.mpr (.inr (.inr h))]
    · omega
  · intro h
    by_cases heq : (counts.map (· - offset)).sum = counts.sum - offset
    · rcases hiff.mp heq with h | h | h
      · exact .inl h
      · exact .inr (.inl h)
      · exact .inr (.inr (.inl h))
    · right; right; right
      omega

/-- Cutting each part does not matter when the sum is cut. -/
theorem min_sum_min (limit : ℕ) (counts : List ℕ) :
    min limit (counts.map (min limit)).sum = min limit counts.sum := by
  induction counts with
  | nil => rfl
  | cons x counts ih =>
    rw [List.map_cons, List.sum_cons, List.sum_cons]
    omega

end Sums

/-! ## Pages of several lists -/

/-- One page of several lists: the same page of each, sorted again and cut. -/
def merged (limit offset : ℕ) (lists : List (List α)) : List α :=
  ((lists.flatMap (Query.page limit offset)).insertionSort (descending key)).take limit

section Pages

variable {key} {lists : List (List α)} {limit offset : ℕ}

theorem flatMap_page_sublist (limit offset : ℕ) (lists : List (List α)) :
    (lists.flatMap (Query.page limit offset)).Sublist lists.flatten := by
  induction lists with
  | nil => exact List.Sublist.refl _
  | cons rows lists ih =>
    rw [List.flatMap_cons, List.flatten_cons]
    exact List.Sublist.append ((List.take_sublist ..).trans (List.drop_sublist ..)) ih

theorem above_merged (hsorted : ∀ rows ∈ lists, rows.Pairwise (descending key)) (v : β) :
    above key v (merged key limit offset lists) =
      min limit ((lists.map (above key v)).map (· - offset)).sum := by
  have hpages : ((lists.map (Query.page limit offset)).map (above key v)) =
      (((lists.map (above key v)).map (· - offset)).map (min limit)) := by
    rw [List.map_map, List.map_map, List.map_map]
    exact List.map_congr_left fun rows hrows => above_page (hsorted rows hrows) ..
  rw [merged, above_take (List.pairwise_insertionSort ..), above_perm (List.perm_insertionSort ..),
    List.flatMap_def, above_flatten, hpages, min_sum_min]

/-- **A page of several sorted lists is a page of them all** exactly when, above each key, the
offsets dropped of each list are as good as one. -/
theorem isWindow_merged_iff (hsorted : ∀ rows ∈ lists, rows.Pairwise (descending key)) :
    Ranking.IsWindow (descending key) lists.flatten limit offset (merged key limit offset lists) ↔
      ∀ v, DroppedOnce limit offset (lists.map (above key v)) := by
  have hsub : (merged key limit offset lists).Subperm lists.flatten :=
    (List.take_sublist ..).subperm.trans (((List.perm_insertionSort ..).subperm).trans
      (flatMap_page_sublist ..).subperm)
  have hpairwise : (merged key limit offset lists).Pairwise (descending key) :=
    (List.pairwise_insertionSort ..).sublist (List.take_sublist ..)
  rw [isWindow_iff hpairwise hsub]
  refine forall_congr' fun v => ?_
  rw [droppedOnce_iff, above_merged hsorted, above_flatten]

theorem length_page (limit offset : ℕ) (rows : List α) :
    (Query.page limit offset rows).length = min limit (rows.length - offset) := by
  rw [Query.page, List.length_take, List.length_drop]

theorem length_merged : (merged key limit offset lists).length =
    min limit ((lists.map List.length).map (· - offset)).sum := by
  have hpages : (lists.map (Query.page limit offset)).map List.length =
      (((lists.map List.length).map (· - offset)).map (min limit)) := by
    rw [List.map_map, List.map_map, List.map_map]
    exact List.map_congr_left fun rows _ => length_page ..
  rw [merged, List.length_take, (List.perm_insertionSort ..).length_eq, List.flatMap_def,
    List.length_flatten, hpages, min_sum_min]

/-- **If only one list has rows**, a page of the lists is its page. -/
theorem merged_of_single (hsorted : ∀ rows ∈ lists, rows.Pairwise (descending key))
    (h : ((lists.map List.length).filter (0 < ·)).length ≤ 1) (limit offset : ℕ) :
    merged key limit offset lists = Query.page limit offset lists.flatten := by
  have hflat : lists.flatMap (Query.page limit offset) = Query.page limit offset lists.flatten ∧
      lists.flatten.Pairwise (descending key) := by
    induction lists with
    | nil => exact ⟨by simp [Query.page], List.Pairwise.nil⟩
    | cons rows lists ih =>
      cases rows with
      | nil =>
        obtain ⟨hpages, hpairwise⟩ := ih (fun rows hrows => hsorted rows (.tail _ hrows))
          (by simpa using h)
        refine ⟨?_, hpairwise⟩
        rw [List.flatMap_cons, List.flatten_cons, List.nil_append, hpages]
        simp [Query.page]
      | cons a rows =>
        -- The other lists are empty.
        have hrest : lists.flatten = [] := by
          rw [← List.length_eq_zero_iff, List.length_flatten, sum_eq_zero_iff]
          rw [List.map_cons, List.filter_cons_of_pos (by simp), List.length_cons] at h
          omega
        have hpages : lists.flatMap (Query.page limit offset) = [] :=
          List.eq_nil_of_sublist_nil (hrest ▸ flatMap_page_sublist limit offset lists)
        rw [List.flatMap_cons, List.flatten_cons, hrest, hpages, List.append_nil, List.append_nil]
        exact ⟨rfl, hsorted _ (List.mem_cons_self ..)⟩
  have hpage : (Query.page limit offset lists.flatten).Pairwise (descending key) :=
    hflat.2.sublist ((List.take_sublist ..).trans (List.drop_sublist ..))
  rw [merged, hflat.1, hpage.insertionSort_eq, Query.page, List.take_take, min_self]

/-- One turn of a page takes at least what it may show. -/
theorem sum_sub_succ (counts : List ℕ) (limit j : ℕ) :
    min limit (counts.map (· - j * limit)).sum + (counts.map (· - (j + 1) * limit)).sum ≤
      (counts.map (· - j * limit)).sum := by
  have hturn : (counts.map (· - (j + 1) * limit)).sum =
      ((counts.map (· - j * limit)).map (· - limit)).sum := by
    rw [List.map_map]
    congr 1
    refine List.map_congr_left fun x _ => ?_
    rw [Function.comp_apply, Nat.succ_mul, Nat.sub_add_eq]
  have hle := sum_sub_le limit (counts.map (· - j * limit))
  omega

/-- What the pages after the first hold is among what the first left. -/
theorem length_pages_le (key : α → β) (limit count : ℕ) (lists : List (List α)) :
    (Query.pages limit (count + 1) fun offset => merged key limit offset lists).length +
        ((lists.map List.length).map (· - (count + 1) * limit)).sum ≤
      min limit (lists.map List.length).sum +
        ((lists.map List.length).map (· - limit)).sum := by
  induction count with
  | zero =>
    have hzero : (lists.map List.length).map (· - 0) = lists.map List.length := List.map_id _
    rw [Query.pages, List.range_one, List.flatMap_singleton, length_merged, Nat.zero_mul, hzero,
      Nat.zero_add, Nat.one_mul]
  | succ count ih =>
    have hturn := sum_sub_succ (lists.map List.length) limit (count + 1)
    rw [Query.pages] at ih
    rw [Query.pages, List.range_succ, List.flatMap_append, List.length_append,
      List.flatMap_singleton, length_merged]
    omega

/-- **All pages hold each row once** exactly when the first one holds them all, or only one list has
rows. -/
theorem pages_merged_iff (hsorted : ∀ rows ∈ lists, rows.Pairwise (descending key))
    {count : ℕ} (hlimit : 1 ≤ limit) (hcount : lists.flatten.length ≤ count * limit) :
    (Query.pages limit count fun offset => merged key limit offset lists).Perm lists.flatten ↔
      lists.flatten.length ≤ limit ∨ ((lists.map List.length).filter (0 < ·)).length ≤ 1 := by
  constructor
  · intro h
    by_contra hnot
    rw [not_or] at hnot
    obtain ⟨count, rfl⟩ : ∃ n, count = n + 1 := by
      refine Nat.exists_eq_succ_of_ne_zero ?_
      rintro rfl
      omega
    have hlength := length_pages_le key limit count lists
    have hsub := sum_sub_le limit (lists.map List.length)
    have hne : ((lists.map List.length).map (· - limit)).sum ≠
        (lists.map List.length).sum - limit := by
      rw [Ne, sum_sub_eq_iff, ← List.length_flatten]
      rintro (hzero | hall | hsingle)
      · omega
      · exact hnot.1 hall
      · exact hnot.2 hsingle
    rw [h.length_eq] at hlength
    rw [← List.length_flatten] at hlength hsub hne
    omega
  · rintro (hall | hsingle)
    · cases count with
      | zero =>
        have hnil : lists.flatten = [] := List.length_eq_zero_iff.mp (by omega)
        rw [hnil]
        exact List.Perm.refl _
      | succ count =>
        -- The first page holds all rows, and the others none.
        have hfirst : (merged key limit 0 lists).Perm lists.flatten := by
          have hpages : lists.flatMap (Query.page limit 0) = lists.flatten := by
            refine (flatMap_page_sublist limit 0 lists).eq_of_length ?_
            rw [List.flatMap_def, List.length_flatten, List.map_map, List.length_flatten]
            congr 1
            refine List.map_congr_left fun rows hrows => ?_
            have hle : rows.length ≤ lists.flatten.length :=
              (List.sublist_flatten_of_mem hrows).length_le
            rw [Function.comp_apply, length_page]
            omega
          rw [merged, hpages, List.take_of_length_le]
          · exact List.perm_insertionSort ..
          · rw [List.length_insertionSort]
            exact hall
        have hrest : ∀ j, merged key limit ((j + 1) * limit) lists = [] := by
          intro j
          rw [← List.length_eq_zero_iff, length_merged]
          have hle := sum_sub_le ((j + 1) * limit) (lists.map List.length)
          rw [← List.length_flatten] at hle
          have hfar : limit ≤ (j + 1) * limit := Nat.le_mul_of_pos_left _ (Nat.succ_pos j)
          omega
        have hpages : (Query.pages limit (count + 1) fun offset => merged key limit offset lists) =
            merged key limit 0 lists := by
          rw [Query.pages, List.range_succ_eq_map, List.flatMap_cons, List.flatMap_map]
          simp [hrest]
        rw [hpages]
        exact hfirst
    · have hpages : (Query.pages limit count fun offset => merged key limit offset lists) =
          Query.pages limit count fun offset => Query.page limit offset lists.flatten :=
        congrArg (Query.pages limit count)
          (funext fun offset => merged_of_single hsorted hsingle ..)
      rw [hpages, Query.pages_page, List.take_of_length_le hcount]

end Pages

end Merging

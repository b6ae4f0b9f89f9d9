import AiLabOs.Base.Failure
import AiLabOs.DailyReview.Models
import Mathlib.Data.Set.Finite.List

/-!
# Daily Review: the pages of a source

A source is read page by page, each from the offset after the last one. The walk keeps the
identities of each page and raises when a page comes twice, so that a source that goes wrong cannot
keep it going.

## Main definitions

* `Walk`, `Walk.step`, `walkPages`: one page, and the pages of a source
* `Paged`: a fetch that returns the pages of a list
* `WalkedTo`: the outcome of a walk, whatever its fuel from some amount on

## Main results

* `Walk.step_cases`: what a step does
* `walkPages_paged`: a walk of the pages of a list returns the list
* `walkPages_terminates`: a walk over finitely many items ends
* `walkPages_law`: both
-/

namespace DailyReviews

/-- `DailyReviewSourceType.value`. -/
def DailyReviewSourceType.value : DailyReviewSourceType → String
  | .workLog => "work_log"
  | .userTask => "user_task"
  | .waitingFor => "waiting_for"
  | .reminder => "reminder"
  | .inbox => "inbox"

section Model

variable {α ι : Type}

/-- The arguments of `_walk_pages`. The replies of a source may differ from call to call, so `fetch`
has the number of calls before. -/
structure Pages (α ι : Type) where
  source : DailyReviewSourceType
  pageSize : Int
  fetch : ℕ → ℕ → Except Raised (List α × Bool)
  identity : α → ι
  maxOffset : Option Int

/-- The variables of the loop, and the number of calls. -/
structure Walk (α ι : Type) where
  calls : ℕ := 0
  offset : ℕ := 0
  result : List α := []
  signatures : List (List ι) := []

/-- What a turn of the loop does. -/
inductive Turn (α ι : Type) where
  | done (outcome : Except Raised (List α))
  | next (walk : Walk α ι)

/-- `_SourceContractError`. -/
def Pages.contractError (pages : Pages α ι) (text : String) : Raised :=
  .other (pages.source.value ++ text)

/-- An offset is too great for the source. -/
def Pages.exceeds (pages : Pages α ι) (offset : ℕ) : Bool :=
  pages.maxOffset.any fun limit => decide (limit < (offset : Int))

/-- The error of an offset that is too great. -/
def Pages.cannotAdvance (pages : Pages α ι) : Raised :=
  pages.contractError " pagination cannot advance"

/-- A turn of the loop. -/
def Walk.step [DecidableEq ι] (pages : Pages α ι) (walk : Walk α ι) : Turn α ι :=
  if pages.exceeds walk.offset then .done (.error pages.cannotAdvance)
  else
    match pages.fetch walk.calls walk.offset with
    | .error raised => .done (.error raised)
    | .ok (pageItems, hasMore) =>
      let signature := pageItems.map pages.identity
      if pages.pageSize < (pageItems.length : Int) then
        .done (.error (pages.contractError " page exceeds requested size"))
      else if signature ≠ [] ∧ signature ∈ walk.signatures then
        .done (.error (pages.contractError " repeated the same page"))
      else
        let signatures := if signature = [] then walk.signatures else signature :: walk.signatures
        let result := walk.result ++ pageItems
        let nextOffset := walk.offset + pageItems.length
        if !hasMore then .done (.ok result)
        else if pageItems = [] then
          .done (.error (pages.contractError " returned an empty page with has_more"))
        else if nextOffset ≤ walk.offset then
          .done (.error (pages.contractError " pagination did not advance"))
        else .next ⟨walk.calls + 1, nextOffset, result, signatures⟩

/-- The loop, for so many turns at most. -/
def Walk.run [DecidableEq ι] (pages : Pages α ι) : ℕ → Walk α ι → Option (Except Raised (List α))
  | 0, _ => none
  | fuel + 1, walk =>
    match walk.step pages with
    | .done outcome => some outcome
    | .next walk => walk.run pages fuel

/-- `_walk_pages`. -/
def walkPages [DecidableEq ι] (pages : Pages α ι) (fuel : ℕ) : Option (Except Raised (List α)) :=
  ({} : Walk α ι).run pages fuel

/-- **The outcome of a walk**, for every number of turns from some on. -/
def WalkedTo [DecidableEq ι] (pages : Pages α ι) (walk : Walk α ι)
    (outcome : Except Raised (List α)) : Prop :=
  ∃ n, ∀ fuel ≥ n, walk.run pages fuel = some outcome

/-- **The pages of a list**: at each offset a part of what remains, no longer than a page, and empty
only if nothing remains; there is more exactly if something remains after it. -/
def Paged (pages : Pages α ι) (items : List α) : Prop :=
  ∀ calls offset, ∃ n : ℕ, (n : Int) ≤ pages.pageSize ∧ (offset < items.length → 0 < n) ∧
    pages.fetch calls offset =
      .ok ((items.drop offset).take n, decide (offset + n < items.length))

variable {pages : Pages α ι} {walk : Walk α ι} {outcome : Except Raised (List α)} {items : List α}

/-! ## Parts of a list -/

/-- **What holds in the loop**: the result is the start of the list, and the pages that came are
parts of it. -/
structure Reading (pages : Pages α ι) (items : List α) (walk : Walk α ι) : Prop where
  offset_le : walk.offset ≤ items.length
  result : walk.result = items.take walk.offset
  signature_ne_nil : ∀ signature ∈ walk.signatures, signature ≠ []
  seen : ∀ signature ∈ walk.signatures, ∀ x ∈ signature,
    x ∈ (items.take walk.offset).map pages.identity

theorem reading_start : Reading pages items {} :=
  ⟨Nat.zero_le _, rfl, fun _ h => absurd h List.not_mem_nil, fun _ h => absurd h List.not_mem_nil⟩

/-- A page of what remains did not come before. -/
theorem Reading.new (h : Reading pages items walk) (hnodup : (items.map pages.identity).Nodup)
    (n : ℕ) : ((items.drop walk.offset).take n).map pages.identity ∉ walk.signatures := by
  intro hmem
  obtain ⟨x, hx⟩ := List.exists_mem_of_ne_nil _ (h.signature_ne_nil _ hmem)
  have hbefore := h.seen _ hmem x hx
  have hafter : x ∈ (items.drop walk.offset).map pages.identity := by
    rw [List.map_take] at hx
    exact List.mem_of_mem_take hx
  rw [← List.take_append_drop walk.offset items, List.map_append] at hnodup
  exact List.disjoint_of_nodup_append hnodup hbefore hafter

/-- The next page keeps it. -/
theorem Reading.next (h : Reading pages items walk) {n : ℕ} (hn : 0 < n)
    (hmore : walk.offset + n < items.length) :
    Reading pages items ⟨walk.calls + 1, walk.offset + n,
      walk.result ++ (items.drop walk.offset).take n,
      ((items.drop walk.offset).take n).map pages.identity :: walk.signatures⟩ := by
  have htake : items.take (walk.offset + n) =
      items.take walk.offset ++ (items.drop walk.offset).take n := List.take_add
  refine ⟨hmore.le, ?_, ?_, ?_⟩
  · rw [h.result, htake]
  · intro signature hmem
    rcases List.mem_cons.mp hmem with rfl | hmem
    · have hlength : (((items.drop walk.offset).take n).map pages.identity).length = n := by
        rw [List.length_map, List.length_take, List.length_drop]
        omega
      exact List.length_pos_iff.mp (by omega)
    · exact h.signature_ne_nil signature hmem
  · intro signature hmem x hx
    dsimp only
    rw [htake, List.map_append]
    rcases List.mem_cons.mp hmem with rfl | hmem
    · exact List.mem_append_right _ hx
    · exact List.mem_append_left _ (h.seen signature hmem x hx)

/-- There are finitely many lists of so many elements of a finite set. -/
theorem finite_lists {s : Set ι} (hs : s.Finite) (n : ℕ) :
    {l : List ι | l.length ≤ n ∧ ∀ x ∈ l, x ∈ s}.Finite := by
  have := hs.to_subtype
  refine ((List.finite_length_le s n).image (List.map Subtype.val)).subset ?_
  rintro l ⟨hlength, hmem⟩
  exact ⟨l.attachWith (· ∈ s) hmem, by simpa using hlength, by simp⟩

/-! ## One turn -/

section Turns

variable [DecidableEq ι]

theorem WalkedTo.of_done (h : walk.step pages = .done outcome) : WalkedTo pages walk outcome := by
  refine ⟨1, fun fuel hfuel => ?_⟩
  obtain ⟨fuel, rfl⟩ := Nat.exists_eq_add_of_le' hfuel
  rw [Walk.run, h]

theorem WalkedTo.of_next {walk' : Walk α ι} (h : walk.step pages = .next walk')
    (hnext : WalkedTo pages walk' outcome) : WalkedTo pages walk outcome := by
  obtain ⟨n, hn⟩ := hnext
  refine ⟨n + 1, fun fuel hfuel => ?_⟩
  obtain ⟨fuel, rfl⟩ := Nat.exists_eq_add_of_le' (Nat.le_of_add_left_le hfuel)
  rw [Walk.run, h]
  exact hn fuel (by omega)

/-- **What a turn does** when the loop goes on: it adds a page that is not empty, is no longer than
it should be, and did not come before. -/
theorem Walk.step_next {walk' : Walk α ι} (h : walk.step pages = .next walk') :
    ∃ page, pages.fetch walk.calls walk.offset = .ok (page, true) ∧ page ≠ [] ∧
      (page.length : Int) ≤ pages.pageSize ∧ page.map pages.identity ∉ walk.signatures ∧
      walk' = ⟨walk.calls + 1, walk.offset + page.length, walk.result ++ page,
        page.map pages.identity :: walk.signatures⟩ := by
  unfold Walk.step at h
  split at h
  · cases h
  split at h
  · cases h
  rename_i page hasMore hfetch
  dsimp only at h
  split at h
  · cases h
  rename_i hsize
  split at h
  · cases h
  rename_i hrepeated
  split at h
  · cases h
  rename_i hmore
  split at h
  · cases h
  rename_i hne
  split at h
  · cases h
  cases h
  have hsignature : page.map pages.identity ≠ [] := fun heq => hne (List.map_eq_nil_iff.mp heq)
  rw [Bool.not_eq_true', Bool.not_eq_false] at hmore
  rw [hmore] at hfetch
  refine ⟨page, hfetch, hne, not_lt.mp hsize, fun hmem => hrepeated ⟨hsignature, hmem⟩, ?_⟩
  rw [if_neg hsignature]

/-- **What a turn does** on a page of what remains. -/
theorem Walk.step_page {page : List α} {hasMore : Bool}
    (hexceeds : pages.exceeds walk.offset = false)
    (hfetch : pages.fetch walk.calls walk.offset = .ok (page, hasMore))
    (hsize : (page.length : Int) ≤ pages.pageSize)
    (hnew : page.map pages.identity ∉ walk.signatures) (hne : hasMore = true → page ≠ []) :
    walk.step pages = if hasMore then .next ⟨walk.calls + 1, walk.offset + page.length,
      walk.result ++ page, page.map pages.identity :: walk.signatures⟩
    else .done (.ok (walk.result ++ page)) := by
  unfold Walk.step
  rw [hexceeds, hfetch]
  dsimp only
  rw [if_neg Bool.false_ne_true, if_neg (not_lt.mpr hsize), if_neg fun h => hnew h.2]
  cases hasMore with
  | false => rfl
  | true =>
    have hpos := List.length_pos_iff.mpr (hne rfl)
    have hsignature : page.map pages.identity ≠ [] := fun h => hne rfl (List.map_eq_nil_iff.mp h)
    rw [Bool.not_true, if_neg Bool.false_ne_true, if_neg (hne rfl), if_neg (by omega),
      if_neg hsignature, if_pos rfl]

/-! ## The pages of a list -/

/-- **A walk of the pages of a list** returns the list, or an offset is too great. -/
theorem Reading.walkedTo (hnodup : (items.map pages.identity).Nodup) (hpaged : Paged pages items)
    (h : Reading pages items walk) : WalkedTo pages walk (.ok items) ∨
      (∃ offset ≤ items.length, pages.exceeds offset = true) ∧
        WalkedTo pages walk (.error pages.cannotAdvance) := by
  -- by induction on what remains
  generalize hremain : items.length - walk.offset = remain
  induction remain using Nat.strong_induction_on generalizing walk with
  | _ remain ih =>
    cases hexceeds : pages.exceeds walk.offset with
    | true =>
      refine .inr ⟨⟨walk.offset, h.offset_le, hexceeds⟩, .of_done ?_⟩
      rw [Walk.step, if_pos hexceeds]
    | false =>
      obtain ⟨n, hn, hpos, hfetch⟩ := hpaged walk.calls walk.offset
      have hlength : (((items.drop walk.offset).take n).length : Int) ≤ pages.pageSize :=
        (Int.ofNat_le.mpr (List.length_take_le ..)).trans hn
      have hmore : decide (walk.offset + n < items.length) = true →
          (items.drop walk.offset).take n ≠ [] := by
        intro hlt hnil
        have hlt := of_decide_eq_true hlt
        have hzero := congrArg List.length hnil
        rw [List.length_take, List.length_drop, List.length_nil] at hzero
        have := hpos (by omega)
        omega
      have hstep := Walk.step_page hexceeds hfetch hlength (h.new hnodup n) hmore
      by_cases hlt : walk.offset + n < items.length
      · have hcount : ((items.drop walk.offset).take n).length = n := by
          rw [List.length_take, List.length_drop]
          omega
        rw [decide_eq_true hlt, if_pos rfl, hcount] at hstep
        have hn := hpos (by omega)
        exact (ih _ (by dsimp only; omega) (h.next hn hlt) rfl).imp (.of_next hstep)
          fun hrest => ⟨hrest.1, .of_next hstep hrest.2⟩
      · have hall : walk.result ++ (items.drop walk.offset).take n = items := by
          have hlast : ((items.drop walk.offset).take n) = items.drop walk.offset :=
            List.take_of_length_le (by rw [List.length_drop]; omega)
          rw [h.result, hlast, List.take_append_drop]
        rw [decide_eq_false hlt, if_neg Bool.false_ne_true, hall] at hstep
        exact .inl (.of_done hstep)

/-! ## Finitely many items -/

/-- **A walk over finitely many items** ends: each turn adds a page that did not come before. -/
theorem walkedTo_of_finite {possible : Set α} (hfinite : possible.Finite)
    (hfetch : ∀ calls offset page hasMore, pages.fetch calls offset = .ok (page, hasMore) →
      ∀ item ∈ page, item ∈ possible) :
    ∃ outcome, WalkedTo pages {} outcome := by
  have hsignatures := finite_lists (hfinite.image pages.identity) pages.pageSize.toNat
  have hwalk : ∀ (left : ℕ) (walk : Walk α ι), walk.signatures.Nodup →
      (∀ signature ∈ walk.signatures, signature ∈ hsignatures.toFinset) →
      hsignatures.toFinset.card - walk.signatures.length = left →
      ∃ outcome, WalkedTo pages walk outcome := by
    intro left
    induction left using Nat.strong_induction_on with
    | _ left ih =>
      intro walk hnodup hsub hleft
      cases hstep : walk.step pages with
      | done outcome => exact ⟨outcome, .of_done hstep⟩
      | next walk' =>
        obtain ⟨page, hpage, -, hsize, hnew, rfl⟩ := Walk.step_next hstep
        have hnodup' := List.nodup_cons.mpr ⟨hnew, hnodup⟩
        have hsub' : ∀ signature ∈ page.map pages.identity :: walk.signatures,
            signature ∈ hsignatures.toFinset := by
          intro signature hmem
          rcases List.mem_cons.mp hmem with rfl | hmem
          · rw [Set.Finite.mem_toFinset]
            refine ⟨by rw [List.length_map]; omega, fun x hx => ?_⟩
            obtain ⟨item, hitem, rfl⟩ := List.mem_map.mp hx
            exact ⟨item, hfetch _ _ _ _ hpage item hitem, rfl⟩
          · exact hsub signature hmem
        have hcard : (page.map pages.identity :: walk.signatures).length ≤
            hsignatures.toFinset.card := by
          rw [← List.toFinset_card_of_nodup hnodup']
          exact Finset.card_le_card fun signature hmem => hsub' _ (List.mem_toFinset.mp hmem)
        have hlt : hsignatures.toFinset.card -
            (page.map pages.identity :: walk.signatures).length < left := by
          rw [List.length_cons] at hcard ⊢
          omega
        obtain ⟨outcome, houtcome⟩ := ih _ hlt ⟨_, _, _, _⟩ hnodup' hsub' rfl
        exact ⟨outcome, .of_next hstep houtcome⟩
  exact hwalk _ {} List.nodup_nil (fun _ h => absurd h List.not_mem_nil) rfl

/-- **The walk of a source**: the pages of a list without repeated identities are the list, unless
an offset is too great, and whatever a source of finitely many items does, the walk ends. -/
theorem walkPages_law (pages : Pages α ι) :
    (∀ items : List α, (items.map pages.identity).Nodup → Paged pages items →
      ∃ n, ∀ fuel ≥ n, walkPages pages fuel = some (.ok items) ∨
        (∃ offset ≤ items.length, pages.exceeds offset = true) ∧
          walkPages pages fuel = some (.error pages.cannotAdvance)) ∧
    (∀ possible : Set α, possible.Finite →
      (∀ calls offset page hasMore, pages.fetch calls offset = .ok (page, hasMore) →
        ∀ item ∈ page, item ∈ possible) →
      ∃ outcome n, ∀ fuel ≥ n, walkPages pages fuel = some outcome) := by
  constructor
  · intro items hnodup hpaged
    rcases reading_start.walkedTo hnodup hpaged with ⟨n, hn⟩ | ⟨hexceeds, n, hn⟩
    · exact ⟨n, fun fuel hfuel => .inl (hn fuel hfuel)⟩
    · exact ⟨n, fun fuel hfuel => .inr ⟨hexceeds, hn fuel hfuel⟩⟩
  · intro possible hfinite hfetch
    exact walkedTo_of_finite hfinite hfetch

end Turns

end Model

/-! ## Three items on two pages -/

/-- A source of the numbers below three, on pages of two. -/
def threeItems : Pages ℕ ℕ where
  source := .workLog
  pageSize := 2
  fetch _ offset := .ok (([0, 1, 2].drop offset).take 2, decide (offset + 2 < 3))
  identity := id
  maxOffset := some 10000

/-- The three numbers are walked to, and the walk ends. -/
theorem walkPages_law_threeItems :
    (∃ n, ∀ fuel ≥ n, walkPages threeItems fuel = some (.ok [0, 1, 2])) ∧
      ∃ outcome n, ∀ fuel ≥ n, walkPages threeItems fuel = some outcome := by
  have hpaged : Paged threeItems [0, 1, 2] := fun _ offset => ⟨2, le_rfl, fun _ => by decide, rfl⟩
  have hfetch : ∀ calls offset page hasMore, threeItems.fetch calls offset = .ok (page, hasMore) →
      ∀ item ∈ page, item ∈ ({0, 1, 2} : Set ℕ) := by
    intro calls offset page hasMore h item hitem
    cases h
    have hmem := List.mem_of_mem_drop (List.mem_of_mem_take hitem)
    simpa using hmem
  refine ⟨?_, (walkPages_law threeItems).2 {0, 1, 2} (Set.toFinite _) hfetch⟩
  obtain ⟨n, hn⟩ := (walkPages_law threeItems).1 [0, 1, 2] (by decide) hpaged
  refine ⟨n, fun fuel hfuel => (hn fuel hfuel).resolve_right ?_⟩
  rintro ⟨⟨offset, hle, hexceeds⟩, -⟩
  have hlt : (10000 : Int) < offset := of_decide_eq_true hexceeds
  have hle : offset ≤ 3 := hle
  omega

end DailyReviews

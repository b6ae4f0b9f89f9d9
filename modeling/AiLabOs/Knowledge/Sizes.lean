import AiLabOs.Knowledge.Packing
import Mathlib.Data.Int.Order.Basic

/-!
# Knowledge: the sizes of chunks

Windows are no longer than the size, and every chunk of the fixed-length, token-window, recursive
and Markdown strategies is a window or a section that fits. Sentences and paragraphs are packed by a
test that leaves out the separator they are joined with.

## Main definitions

* `Several`: a chunk that is built from more than one part
* `SizeBound`: the bound of the chunks of a strategy
* `tests`, `Strategy.Roomy`: what the packing loop compares with the size, and when that is enough

## Main results

* `fixedLoop_length_le`, `split_length_le`: the bound of the windows
* `groups_length_le_iff`: the bound of the groups, by the tests
* `sizeBound_iff`: when the chunks are bounded
-/

namespace Knowledge

open Joined

/-! ## Windows -/

section Windows

variable {size : ℕ} {overlap : ℤ} {text : List Cell} {fuel : ℕ} {start : ℤ} {index : ℕ}
  {chunks : List Chunk}

/-- A slice is no longer than the distance of its bounds. -/
theorem length_slice_le (text : List Cell) {i j : ℤ} (h : i ≤ j) :
    ((slice text i j).length : ℤ) ≤ j - i := by
  rw [slice, List.length_drop, List.length_take]
  unfold bound
  split <;> split <;> omega

theorem length_window_le (h : start < text.length) :
    (window size text start index).content.length ≤ size := by
  have hend : start ≤ windowEnd size text start ∧ windowEnd size text start ≤ start + size := by
    rcases windowEnd_cases size text start with h | h <;> omega
  have hslice := length_slice_le text hend.1
  show (slice text start (windowEnd size text start)).length ≤ size
  omega

/-- **A window** is no longer than the size. -/
theorem fixedLoop_length_le (h : fixedLoop size overlap text fuel start index = some chunks) :
    ∀ chunk ∈ chunks, chunk.content.length ≤ size := by
  induction fuel generalizing start index chunks with
  | zero => cases h
  | succ fuel ih =>
    rw [fixedLoop] at h
    split at h
    · rename_i hstart
      obtain ⟨rest, hrest, rfl⟩ := Option.map_eq_some_iff.mp h
      intro chunk hchunk
      rcases List.mem_cons.mp hchunk with rfl | hchunk
      · exact length_window_le hstart
      · exact ih hrest chunk hchunk
    · cases h
      exact fun chunk hchunk => absurd hchunk List.not_mem_nil

/-- What the other loop leaves, this one leaves with one turn more. -/
theorem fixedLoop_of_windowLoop
    (h : windowLoop size overlap text fuel start index = some chunks) :
    fixedLoop size overlap text (fuel + 1) start index = some chunks := by
  induction fuel generalizing start index chunks with
  | zero => cases h
  | succ fuel ih =>
    rw [windowLoop] at h
    rw [fixedLoop]
    split at h
    · rename_i hstart
      rw [if_pos hstart]
      split at h
      · rename_i hlast
        cases h
        rw [if_neg (by omega), fixedLoop, if_neg (by omega)]
        rfl
      · rename_i hnext
        obtain ⟨rest, hrest, rfl⟩ := Option.map_eq_some_iff.mp h
        rw [if_pos (by omega), ih hrest]
        rfl
    · rename_i hstart
      rw [if_neg hstart]
      exact h

end Windows

/-! ## Nested strategies -/

/-- The contents are not changed by the new indices. -/
theorem appendAll_contents (chunks sub : List Chunk) :
    (appendAll chunks sub).map Chunk.content =
      chunks.map Chunk.content ++ sub.map Chunk.content := by
  unfold appendAll
  induction sub generalizing chunks with
  | nil => simp
  | cons chunk sub ih =>
    rw [List.foldl_cons, ih]
    simp

/-- The chunks that are appended are as long as they were. -/
theorem appendAll_length_le {size : ℕ} {chunks sub : List Chunk}
    (hchunks : ∀ chunk ∈ chunks, chunk.content.length ≤ size)
    (hsub : ∀ chunk ∈ sub, chunk.content.length ≤ size) :
    ∀ chunk ∈ appendAll chunks sub, chunk.content.length ≤ size := by
  intro chunk hchunk
  have hmem : chunk.content ∈ (appendAll chunks sub).map Chunk.content :=
    List.mem_map_of_mem hchunk
  rw [appendAll_contents, List.mem_append, List.mem_map, List.mem_map] at hmem
  rcases hmem with ⟨c, hc, heq⟩ | ⟨c, hc, heq⟩
  · exact heq ▸ hchunks c hc
  · exact heq ▸ hsub c hc

theorem splitLoop_length_le {size : ℕ} {sub : List Cell → Option (List Chunk)}
    (hsub : ∀ t s, sub t = some s → ∀ chunk ∈ s, chunk.content.length ≤ size)
    {chunks result : List Chunk} {current : List Cell} {parts : List (List Cell × List Cell)}
    (hchunks : ∀ chunk ∈ chunks, chunk.content.length ≤ size)
    (h : splitLoop size sub chunks current parts = some result) :
    ∀ chunk ∈ result, chunk.content.length ≤ size := by
  induction parts generalizing chunks current with
  | nil =>
    rw [splitLoop] at h
    split at h
    · cases h
      exact hchunks
    · obtain ⟨s, hs, rfl⟩ := Option.map_eq_some_iff.mp h
      exact appendAll_length_le hchunks (hsub _ _ hs)
  | cons p parts ih =>
    obtain ⟨glue, part⟩ := p
    rw [splitLoop] at h
    split at h
    · split at h
      · exact ih hchunks h
      · obtain ⟨s, hs, h⟩ := Option.bind_eq_some_iff.mp h
        exact ih (appendAll_length_le hchunks (hsub _ _ hs)) h
    · exact ih hchunks h

/-- **Splitting ends in windows**. -/
theorem split_length_le {fuel size : ℕ} {overlap : ℤ} {sep : List Char} {seps : List (List Char)}
    {text : List Cell} {chunks : List Chunk}
    (h : split fuel size overlap sep seps text = some chunks) :
    ∀ chunk ∈ chunks, chunk.content.length ≤ size := by
  induction seps generalizing sep text chunks with
  | nil => exact fixedLoop_length_le h
  | cons next seps ih =>
    rw [split] at h
    split at h
    · exact fixedLoop_length_le h
    · exact splitLoop_length_le (fun _ _ hs => ih hs)
        (fun chunk hchunk => absurd hchunk List.not_mem_nil) h

theorem markdownLoop_length_le {fuel size index : ℕ} {chunks result : List Chunk}
    {pieces : List (List Cell)} (hchunks : ∀ chunk ∈ chunks, chunk.content.length ≤ size)
    (h : markdownLoop fuel size index chunks pieces = some result) :
    ∀ chunk ∈ result, chunk.content.length ≤ size := by
  induction pieces generalizing index chunks with
  | nil =>
    cases h
    exact hchunks
  | cons piece pieces ih =>
    rw [markdownLoop] at h
    split at h
    · rename_i hfits
      refine ih ?_ h
      intro chunk hchunk
      rcases List.mem_append.mp hchunk with hchunk | hchunk
      · exact hchunks chunk hchunk
      · rw [List.mem_singleton.mp hchunk]
        exact hfits
    · obtain ⟨sub, hsub, h⟩ := Option.bind_eq_some_iff.mp h
      exact ih (appendAll_length_le hchunks (fixedLoop_length_le hsub)) h

/-! ## Packing -/

section Packing

variable (size : ℕ) (joint : List Cell)

/-- What the packing loop compares with the size: the group so far, and the next part. -/
def tests : List Cell → List (List Cell) → List (List Cell × List Cell)
  | _, [] => []
  | current, part :: parts =>
    if current = [] then tests part parts
    else (current, part) ::
      tests (if size < current.length + part.length then part else current ++ joint ++ part) parts

variable {size joint} {group parts : List (List Cell)}

theorem length_strip_le (text : List Cell) : (strip text).length ≤ text.length :=
  (strip_sublist text).length_le

/-- **The groups fit** if each group that a part is added to does, with the part and the joint. -/
theorem groups_length_le_iff (size : ℕ) (hjoint : blank joint)
    (hgroup : ∀ p ∈ group, blank p = false) (hparts : ∀ p ∈ parts, blank p = false) :
    (∀ g ∈ groups size joint group parts,
        2 ≤ g.length → (strip (joined joint g)).length ≤ size) ↔
      (2 ≤ group.length → (strip (joined joint group)).length ≤ size) ∧
        ∀ test ∈ tests size joint (joined joint group) parts,
          test.1.length + test.2.length ≤ size →
            (strip (test.1 ++ joint ++ test.2)).length ≤ size := by
  induction parts generalizing group with
  | nil =>
    rw [groups]
    by_cases hempty : group = []
    · simp [hempty, tests]
    · simp [hempty, tests]
  | cons part parts ih =>
    have hpart := hparts part List.mem_cons_self
    have hrest : ∀ p ∈ parts, blank p = false := fun p hp => hparts p (List.mem_cons_of_mem _ hp)
    have hone : ∀ p ∈ [part], blank p = false := List.forall_mem_singleton.mpr hpart
    have hmore : ∀ p ∈ group ++ [part], blank p = false :=
      List.forall_mem_append.mpr ⟨hgroup, hone⟩
    have hnil := joined_eq_nil hjoint hgroup
    rw [groups, tests]
    by_cases hempty : group = []
    · subst hempty
      have hind := ih hone hrest
      rw [joined_singleton] at hind
      rw [if_neg (by simp), if_pos (hnil.mpr rfl), List.nil_append, hind]
      simp
    rw [if_neg (hnil.not.mpr hempty)]
    by_cases hflush : size < (joined joint group).length + part.length
    · -- the group is finished, and the test says nothing
      have hind := ih hone hrest
      rw [joined_singleton] at hind
      rw [if_pos ⟨hflush, hempty⟩, if_pos hflush]
      simp only [List.forall_mem_cons, hind, List.length_singleton]
      constructor
      · rintro ⟨hg, -, htests⟩
        exact ⟨hg, fun hle => absurd hle (by omega), htests⟩
      · rintro ⟨hg, -, htests⟩
        exact ⟨hg, fun htwo => absurd htwo (by omega), htests⟩
    · -- the group goes on with the part
      have hind := ih hmore hrest
      rw [joined_append_singleton, extend, if_neg (hnil.not.mpr hempty)] at hind
      rw [if_neg fun h => hflush h.1, if_neg hflush, hind]
      simp only [List.forall_mem_cons, List.length_append, List.length_singleton]
      have hlength : 0 < group.length := List.length_pos_of_ne_nil hempty
      constructor
      · rintro ⟨hg, htests⟩
        refine ⟨fun _ => ?_, fun _ => hg (by omega), htests⟩
        have hle := length_strip_le (joined joint group)
        omega
      · rintro ⟨-, htest, htests⟩
        exact ⟨fun _ => htest (by omega), htests⟩

/-- Each test is of a group of parts, and another part. -/
theorem of_mem_tests (group : List (List Cell)) (hjoint : blank joint)
    (hgroup : ∀ p ∈ group, blank p = false) (hparts : ∀ p ∈ parts, blank p = false)
    {test : List Cell × List Cell} (h : test ∈ tests size joint (joined joint group) parts) :
    ∃ g : List (List Cell), g ≠ [] ∧ (∀ p ∈ g, p ∈ group ∨ p ∈ parts) ∧
      test.1 = joined joint g ∧ test.2 ∈ parts := by
  induction parts generalizing group with
  | nil => exact absurd h List.not_mem_nil
  | cons part parts ih =>
    have hpart := hparts part List.mem_cons_self
    have hrest : ∀ p ∈ parts, blank p = false := fun p hp => hparts p (List.mem_cons_of_mem _ hp)
    have hone : ∀ p ∈ [part], blank p = false := List.forall_mem_singleton.mpr hpart
    have hmore : ∀ p ∈ group ++ [part], blank p = false :=
      List.forall_mem_append.mpr ⟨hgroup, hone⟩
    have hnil := joined_eq_nil hjoint hgroup
    have hfirst : (∃ g : List (List Cell), g ≠ [] ∧ (∀ p ∈ g, p ∈ [part] ∨ p ∈ parts) ∧
        test.1 = joined joint g ∧ test.2 ∈ parts) →
        ∃ g : List (List Cell), g ≠ [] ∧ (∀ p ∈ g, p ∈ group ∨ p ∈ part :: parts) ∧
          test.1 = joined joint g ∧ test.2 ∈ part :: parts := by
      rintro ⟨g, hne, hg, htext, hmem⟩
      refine ⟨g, hne, fun p hp => .inr ?_, htext, List.mem_cons_of_mem _ hmem⟩
      rcases hg p hp with hp | hp
      · rw [List.mem_singleton.mp hp]
        exact List.mem_cons_self
      · exact List.mem_cons_of_mem _ hp
    rw [tests] at h
    by_cases hempty : group = []
    · subst hempty
      rw [if_pos (show joined joint [] = [] from rfl)] at h
      rw [← joined_singleton joint part] at h
      exact hfirst (ih _ hone hrest h)
    rw [if_neg (hnil.not.mpr hempty)] at h
    rcases List.mem_cons.mp h with rfl | h
    · exact ⟨group, hempty, fun p hp => .inl hp, rfl, List.mem_cons_self⟩
    by_cases hflush : size < (joined joint group).length + part.length
    · rw [if_pos hflush] at h
      rw [← joined_singleton joint part] at h
      exact hfirst (ih _ hone hrest h)
    · rw [if_neg hflush] at h
      have hjoined : joined joint group ++ joint ++ part = joined joint (group ++ [part]) := by
        rw [joined_append_singleton, extend, if_neg (hnil.not.mpr hempty)]
      rw [hjoined] at h
      obtain ⟨g, hne, hg, htext, hmem⟩ := ih _ hmore hrest h
      refine ⟨g, hne, fun p hp => ?_, htext, List.mem_cons_of_mem _ hmem⟩
      rcases hg p hp with hp | hp
      · rcases List.mem_append.mp hp with hp | hp
        · exact .inl hp
        · rw [List.mem_singleton.mp hp]
          exact .inr List.mem_cons_self
      · exact .inr (List.mem_cons_of_mem _ hp)

/-! ## Chunks of more than one part -/

/-- A chunk is **built from more than one part**: it has characters of two of them. -/
def Several (parts : List (List Cell)) (content : List Cell) : Prop :=
  ∃ p ∈ parts, ∃ q ∈ parts, p ≠ q ∧ (∃ c ∈ p, c ∈ content) ∧ ∃ c ∈ q, c ∈ content

/-- A visible cell of a part of a group is in its chunk. -/
theorem exists_mem_strip_joined (hjoint : blank joint) {g : List (List Cell)} {p : List Cell}
    (hp : p ∈ g) (hblank : blank p = false) : ∃ c ∈ p, c ∈ strip (joined joint g) := by
  obtain ⟨c, hc, hvisible⟩ : ∃ c ∈ p, c.blank = false := by simpa [blank] using hblank
  have hmem : c ∈ visible (strip (joined joint g)) := by
    rw [visible_strip, visible_joined hjoint]
    exact mem_visible.mpr ⟨List.mem_flatten.mpr ⟨p, hp, hc⟩, hvisible⟩
  exact ⟨c, hc, (mem_visible.mp hmem).1⟩

/-- **A chunk is built from more than one part** just when its group has more than one. -/
theorem several_iff {text : List Char} (hjoint : blank joint)
    (hparts : ∀ p ∈ parts, blank p = false) (hsub : parts.flatten.Sublist (mark text))
    {g : List (List Cell)} (hg : g ∈ groups size joint [] parts) :
    Several parts (strip (joined joint g)) ↔ 2 ≤ g.length := by
  obtain ⟨hnodup, hdisjoint⟩ := disjoint_parts hsub
  have hflatten : (groups size joint [] parts).flatten = parts := groups_flatten
  have hmem : ∀ p ∈ g, p ∈ parts := by
    intro p hp
    rw [← hflatten]
    exact List.mem_flatten.mpr ⟨g, hg, hp⟩
  have hne := groups_ne_nil hg
  constructor
  · rintro ⟨p, hp, q, hq, hpq, ⟨c, hcp, hc⟩, d, hdq, hd⟩
    by_contra hone
    -- the only part of the group is both of them
    obtain ⟨r, rfl⟩ : ∃ r, g = [r] := by
      rcases g with _ | ⟨r, _ | ⟨s, g⟩⟩
      · exact absurd rfl hne
      · exact ⟨r, rfl⟩
      · simp at hone
    rw [joined_singleton] at hc hd
    have hr := hmem r List.mem_cons_self
    have hpr := hdisjoint p hp r hr ⟨c, hcp, (strip_sublist r).subset hc⟩
    have hqr := hdisjoint q hq r hr ⟨d, hdq, (strip_sublist r).subset hd⟩
    exact hpq (hpr.trans hqr.symm)
  · intro htwo
    rcases g with _ | ⟨r, _ | ⟨s, g⟩⟩
    · exact absurd rfl hne
    · exact absurd htwo (by simp)
    have hr := hmem r List.mem_cons_self
    have hs := hmem s (List.mem_cons_of_mem _ List.mem_cons_self)
    refine ⟨r, hr, s, hs, ?_, exists_mem_strip_joined hjoint List.mem_cons_self (hparts r hr),
      exists_mem_strip_joined hjoint (List.mem_cons_of_mem _ List.mem_cons_self) (hparts s hs)⟩
    rintro rfl
    -- a part that comes twice has its characters twice
    have hpart : (r ++ r).Sublist parts.flatten := by
      have hgroup : (r :: r :: g).flatten.Sublist parts.flatten := by
        rw [← hflatten]
        exact List.Sublist.flatten (List.sublist_flatten_of_mem hg)
      refine List.Sublist.trans ?_ hgroup
      rw [List.flatten_cons, List.flatten_cons, ← List.append_assoc]
      exact List.sublist_append_left _ _
    obtain ⟨c, hc⟩ : ∃ c, c ∈ r := by
      obtain ⟨c, hc, -⟩ : ∃ c ∈ r, c.blank = false := by simpa [blank] using hparts r hr
      exact ⟨c, hc⟩
    exact (List.nodup_append.mp (hpart.nodup hnodup)).2.2 c hc c hc rfl

end Packing

/-! ## All strategies -/

/-- **The bound of the chunks**: of those that are built from more than one sentence or paragraph,
and of all chunks of the other strategies. -/
def SizeBound (strategy : Strategy) (text : List Cell) (chunks : List Chunk) : Prop :=
  match strategy with
  | .sentence size => ∀ chunk ∈ chunks, Several (sentences text) chunk.content →
    chunk.content.length ≤ size
  | .paragraph size => ∀ chunk ∈ chunks, Several (paragraphs text) chunk.content →
    chunk.content.length ≤ size
  | strategy => ∀ chunk ∈ chunks, chunk.content.length ≤ strategy.size

/-- **The separators fit too**: no sentence fills a group exactly, unless white space is stripped,
and a paragraph that fits a group leaves room for the separator. -/
def Strategy.Roomy (text : List Cell) : Strategy → Prop
  | .sentence size => ∀ test ∈ tests size (inserted " ") [] (sentences text),
    test.1.length + test.2.length = size →
      ¬(StartsFirm Cell.blank test.1 ∧ EndsFirm Cell.blank test.2)
  | .paragraph size => ∀ test ∈ tests size (inserted "\n\n") [] (paragraphs text),
    test.1.length + test.2.length ≤ size → test.1.length + test.2.length + 2 ≤ size
  | _ => True

section Bound

variable {size : ℕ} {joint : List Cell} {parts : List (List Cell)} {text : List Char}

/-- **The bound of the groups**, by the tests. -/
theorem several_length_le_iff (hjoint : blank joint) (hparts : ∀ p ∈ parts, blank p = false)
    (hsub : parts.flatten.Sublist (mark text)) :
    (∀ chunk ∈ packLoop size joint [] 0 parts, Several parts chunk.content →
        chunk.content.length ≤ size) ↔
      ∀ test ∈ tests size joint [] parts, test.1.length + test.2.length ≤ size →
        (strip (test.1 ++ joint ++ test.2)).length ≤ size := by
  have hnone : ∀ p ∈ ([] : List (List Cell)), blank p = false :=
    fun p hp => absurd hp List.not_mem_nil
  have hgroups := groups_length_le_iff size hjoint hnone hparts
  have hcontents : (∀ chunk ∈ packLoop size joint [] 0 parts, Several parts chunk.content →
      chunk.content.length ≤ size) ↔
      ∀ content ∈ (packLoop size joint [] 0 parts).map Chunk.content,
        Several parts content → content.length ≤ size := by
    rw [List.forall_mem_map]
  rw [hcontents, packLoop_contents hjoint hparts, List.forall_mem_map]
  have hnil : joined joint [] = [] := rfl
  rw [hnil] at hgroups
  refine Iff.trans ?_ (hgroups.trans ⟨fun h => h.2, fun h => ⟨fun hle => ?_, h⟩⟩)
  · exact forall₂_congr fun g hg => by rw [several_iff hjoint hparts hsub hg]
  · exact absurd hle (by simp)

/-- The ends of a group and a part that are joined. -/
theorem firm_join (joint : List Cell) {a b : List Cell} (ha : a ≠ []) (hb : b ≠ []) :
    StartsFirm Cell.blank (a ++ joint ++ b) ∧ EndsFirm Cell.blank (a ++ joint ++ b) ↔
      StartsFirm Cell.blank a ∧ EndsFirm Cell.blank b := by
  constructor
  · rintro ⟨hstarts, hends⟩
    rw [List.append_assoc] at hstarts
    exact ⟨hstarts.of_append, hends.of_append⟩
  · rintro ⟨hstarts, hends⟩
    rw [List.append_assoc]
    refine ⟨hstarts.append ha, ?_⟩
    rw [← List.append_assoc]
    exact hends.append hb

theorem ne_nil_of_not_blank {part : List Cell} (h : blank part = false) : part ≠ [] := by
  rintro rfl
  cases h

/-- A test is of two texts that are not empty. -/
theorem ne_nil_of_mem_tests (hjoint : blank joint) (hparts : ∀ p ∈ parts, blank p = false)
    {test : List Cell × List Cell} (h : test ∈ tests size joint [] parts) :
    test.1 ≠ [] ∧ test.2 ≠ [] := by
  obtain ⟨g, hne, hg, htext, hmem⟩ := of_mem_tests [] hjoint
    (fun p hp => absurd hp List.not_mem_nil) hparts h
  have hgroup : ∀ p ∈ g, blank p = false := by
    intro p hp
    exact hparts p ((hg p hp).resolve_left List.not_mem_nil)
  refine ⟨?_, ne_nil_of_not_blank (hparts _ hmem)⟩
  rw [htext, Ne, joined_eq_nil hjoint hgroup]
  exact hne

theorem blank_space : blank (inserted " ") := by decide

theorem blank_lines : blank (inserted "\n\n") := by decide

/-- A sentence that fills a group. -/
theorem sentence_fits_iff {a b : List Cell} (ha : a ≠ []) (hb : b ≠ []) :
    (a.length + b.length ≤ size → (strip (a ++ inserted " " ++ b)).length ≤ size) ↔
      (a.length + b.length = size → ¬(StartsFirm Cell.blank a ∧ EndsFirm Cell.blank b)) := by
  have hlength : (a ++ inserted " " ++ b).length = a.length + 1 + b.length := by
    simp [inserted]
    omega
  constructor
  · intro h hfull hfirm
    have hstrip := h hfull.le
    rw [strip_of_firm ((firm_join _ ha hb).mpr hfirm).1 ((firm_join _ ha hb).mpr hfirm).2,
      hlength] at hstrip
    omega
  · intro h hle
    by_cases hfull : a.length + b.length = size
    · have hshort := length_strip_lt fun hfirm => h hfull ((firm_join (inserted " ") ha hb).mp
        hfirm)
      omega
    · have hstrip := length_strip_le (a ++ inserted " " ++ b)
      omega

/-- A group of stripped parts starts with something visible. -/
theorem startsFirm_joined {g : List (List Cell)} (h : ∀ p ∈ g, StartsFirm Cell.blank p) :
    StartsFirm Cell.blank (joined joint g) := by
  induction g using List.reverseRecOn with
  | nil => exact startsFirm_nil
  | append_singleton g part ih =>
    obtain ⟨hg, hpart⟩ := List.forall_mem_append.mp h
    rw [joined_append_singleton, extend]
    split
    · exact hpart part List.mem_cons_self
    · rename_i hne
      rw [List.append_assoc]
      exact (ih hg).append hne

theorem firm_of_mem_paragraphs {text part : List Cell} (h : part ∈ paragraphs text) :
    StartsFirm Cell.blank part ∧ EndsFirm Cell.blank part := by
  obtain ⟨whole, -, rfl⟩ := List.mem_map.mp h
  exact ⟨startsFirm_strip whole, endsFirm_strip whole⟩

/-- A paragraph that fits a group: nothing is stripped. -/
theorem paragraph_fits_iff {text : List Cell} {test : List Cell × List Cell}
    (h : test ∈ tests size (inserted "\n\n") [] (paragraphs text)) :
    (test.1.length + test.2.length ≤ size →
        (strip (test.1 ++ inserted "\n\n" ++ test.2)).length ≤ size) ↔
      (test.1.length + test.2.length ≤ size → test.1.length + test.2.length + 2 ≤ size) := by
  have hblank : ∀ p ∈ paragraphs text, blank p = false := fun p hp => not_blank_paragraphs hp
  obtain ⟨ha, hb⟩ := ne_nil_of_mem_tests blank_lines hblank h
  obtain ⟨g, -, hg, htext, hmem⟩ := of_mem_tests [] blank_lines
    (fun p hp => absurd hp List.not_mem_nil) hblank h
  have hstarts : StartsFirm Cell.blank test.1 := by
    rw [htext]
    apply startsFirm_joined
    exact fun p hp => (firm_of_mem_paragraphs ((hg p hp).resolve_left List.not_mem_nil)).1
  have hfirm := (firm_join (inserted "\n\n") ha hb).mpr
    ⟨hstarts, (firm_of_mem_paragraphs hmem).2⟩
  have hlength : (test.1 ++ inserted "\n\n" ++ test.2).length =
      test.1.length + test.2.length + 2 := by
    simp [inserted]
    omega
  rw [strip_of_firm hfirm.1 hfirm.2, hlength]

/-- **When the chunks are bounded**: the windows always, and the groups if the separators fit. -/
theorem sizeBound_iff (strategy : Strategy) (text : List Char) (fuel : ℕ) (chunks : List Chunk)
    (h : strategy.chunk fuel (mark text) = some chunks) :
    SizeBound strategy (mark text) chunks ↔ strategy.Roomy (mark text) := by
  cases strategy with
  | fixedLength size overlap => exact iff_of_true (fixedLoop_length_le h) trivial
  | sentence size =>
    cases h
    refine (several_length_le_iff blank_space (fun p hp => not_blank_sentences hp)
      (sentences_sublist _)).trans ?_
    refine forall₂_congr fun test htest => ?_
    obtain ⟨ha, hb⟩ := ne_nil_of_mem_tests blank_space (fun p hp => not_blank_sentences hp) htest
    exact sentence_fits_iff ha hb
  | paragraph size =>
    cases h
    refine (several_length_le_iff blank_lines (fun p hp => not_blank_paragraphs hp)
      (paragraphs_sublist _)).trans ?_
    exact forall₂_congr fun test htest => paragraph_fits_iff htest
  | markdown size =>
    exact iff_of_true (markdownLoop_length_le (fun c hc => absurd hc List.not_mem_nil) h) trivial
  | recursive size overlap separators => exact iff_of_true (split_length_le h) trivial
  | tokenWindow size overlap =>
    exact iff_of_true (fixedLoop_length_le (fixedLoop_of_windowLoop h)) trivial

end Bound

/-- Two sentences fit one chunk, and the third does not. -/
example : ((Strategy.sentence 8).chunk 0 (mark "ab. cd. ef.".toList)).map (List.map Chunk.text) =
    some ["ab. cd.", "ef."] := by decide +kernel

/-- The chunk of two sentences. -/
def pairChunk : Chunk where
  index := 0
  content := (mark "ab.".toList) ++ inserted " " ++ [⟨'c', some 4⟩, ⟨'d', some 5⟩]
  tokenCount := 6

/-- Two sentences of five characters make a chunk of six. -/
theorem not_sizeBound : ¬∀ (strategy : Strategy) (text : List Char) (fuel : ℕ)
    (chunks : List Chunk), strategy.chunk fuel (mark text) = some chunks →
    SizeBound strategy (mark text) chunks := by
  intro h
  have hchunks : (Strategy.sentence 5).chunk 0 (mark "ab. cd".toList) = some [pairChunk] := by
    decide +kernel
  have hseveral : Several (sentences (mark "ab. cd".toList)) pairChunk.content := by
    unfold Several
    decide +kernel
  have hbound := h (.sentence 5) "ab. cd".toList 0 [pairChunk] hchunks pairChunk
    List.mem_cons_self hseveral
  exact absurd hbound (by decide)

/-- The same text, with a size of six. -/
theorem sizeBound_pair :
    (Strategy.sentence 6).chunk 0 (mark "ab. cd".toList) = some [pairChunk] ∧
      Several (sentences (mark "ab. cd".toList)) pairChunk.content ∧
      SizeBound (.sentence 6) (mark "ab. cd".toList) [pairChunk] := by
  have hchunks : (Strategy.sentence 6).chunk 0 (mark "ab. cd".toList) = some [pairChunk] := by
    decide +kernel
  have hseveral : Several (sentences (mark "ab. cd".toList)) pairChunk.content := by
    unfold Several
    decide +kernel
  have hlengths : ∀ test ∈ tests 6 (inserted " ") [] (sentences (mark "ab. cd".toList)),
      test.1.length + test.2.length ≠ 6 := by
    decide +kernel
  have hroomy : (Strategy.sentence 6).Roomy (mark "ab. cd".toList) :=
    fun test htest hlength => absurd hlength (hlengths test htest)
  exact ⟨hchunks, hseveral,
    (sizeBound_iff (.sentence 6) "ab. cd".toList 0 [pairChunk] hchunks).mpr hroomy⟩

end Knowledge

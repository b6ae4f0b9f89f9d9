import AiLabOs.Knowledge.Sizes
import Mathlib.Data.List.Infix
import Mathlib.Data.List.Perm.Subperm

/-!
# Knowledge: chunks cover the document

The windows, the sentences and the paragraphs cover every visible character, and are numbered from
zero. The Markdown strategy numbers a section that fits by its place among the sections, and a
section that is cut by the chunks so far. The recursive strategy drops a separator at which it
starts a new batch, also one that is not white space.

## Main definitions

* `Numbered`, `Covers`: the indices are 0, 1, 2, …, and no visible character is lost
* `batches`, `lost`: the batches of one separator, and the separators between them
* `Lossless`: no visible separator is between two batches
* `Strategy.Preserving`: when a strategy numbers its chunks and covers the document

## Main results

* `markdownLoop_numbered_iff`: when the Markdown chunks are numbered
* `visible_mem_batches_iff`: when one separator loses nothing
* `covers_leaves_iff`: when the recursive strategy loses nothing
* `preserves_iff`: all strategies
-/

namespace Knowledge

open Joined

/-- **The indices** are 0, 1, 2, …, in order. -/
def Numbered (chunks : List Chunk) : Prop :=
  chunks.map Chunk.index = List.range chunks.length

/-- **Every visible character** of the document is in the chunks, in order. -/
def Covers (text : List Cell) (chunks : List Chunk) : Prop :=
  (visible text).Sublist (chunks.flatMap Chunk.content)

theorem visible_sublist (text : List Cell) : (visible text).Sublist text := List.filter_sublist

/-! ## Numbering -/

theorem numbered_nil : Numbered [] := rfl

theorem Numbered.of_append {chunks more : List Chunk} (h : Numbered (chunks ++ more)) :
    Numbered chunks := by
  unfold Numbered at h ⊢
  have htake := congrArg (List.take chunks.length) h
  rw [List.map_append, List.take_left' (by simp), List.take_range, List.length_append] at htake
  rwa [Nat.min_eq_left (by omega)] at htake

/-- One more chunk is numbered if it has the next index. -/
theorem numbered_append_singleton {chunks : List Chunk} {chunk : Chunk} :
    Numbered (chunks ++ [chunk]) ↔ Numbered chunks ∧ chunk.index = chunks.length := by
  unfold Numbered
  rw [List.map_append, List.length_append, List.length_singleton, List.range_succ,
    List.map_singleton, List.append_singleton_inj]

theorem numbered_appendAll {chunks sub : List Chunk} (h : Numbered chunks) :
    Numbered (appendAll chunks sub) := by
  unfold appendAll
  induction sub generalizing chunks with
  | nil => exact h
  | cons chunk sub ih =>
    rw [List.foldl_cons]
    exact ih (numbered_append_singleton.mpr ⟨h, rfl⟩)

theorem length_appendAll (chunks sub : List Chunk) :
    (appendAll chunks sub).length = chunks.length + sub.length := by
  have hcontents := congrArg List.length (appendAll_contents chunks sub)
  simpa using hcontents

theorem splitLoop_numbered {size : ℕ} {sub : List Cell → Option (List Chunk)}
    {chunks result : List Chunk} {current : List Cell} {parts : List (List Cell × List Cell)}
    (hchunks : Numbered chunks) (h : splitLoop size sub chunks current parts = some result) :
    Numbered result := by
  induction parts generalizing chunks current with
  | nil =>
    rw [splitLoop] at h
    split at h
    · cases h
      exact hchunks
    · obtain ⟨s, -, rfl⟩ := Option.map_eq_some_iff.mp h
      exact numbered_appendAll hchunks
  | cons p parts ih =>
    obtain ⟨glue, part⟩ := p
    rw [splitLoop] at h
    split at h
    · split at h
      · exact ih hchunks h
      · obtain ⟨s, -, h⟩ := Option.bind_eq_some_iff.mp h
        exact ih (numbered_appendAll hchunks) h
    · exact ih hchunks h

theorem fixedLoop_indices {size : ℕ} {overlap : ℤ} {text : List Cell} {fuel : ℕ} {start : ℤ}
    {index : ℕ} {chunks : List Chunk}
    (h : fixedLoop size overlap text fuel start index = some chunks) :
    chunks.map Chunk.index = List.range' index chunks.length := by
  induction fuel generalizing start index chunks with
  | zero => cases h
  | succ fuel ih =>
    rw [fixedLoop] at h
    split at h
    · obtain ⟨rest, hrest, rfl⟩ := Option.map_eq_some_iff.mp h
      rw [List.map_cons, ih hrest, List.length_cons, List.range'_succ]
      rfl
    · cases h
      rfl

theorem fixedLoop_numbered {size : ℕ} {overlap : ℤ} {text : List Cell} {fuel : ℕ} {start : ℤ}
    {chunks : List Chunk} (h : fixedLoop size overlap text fuel start 0 = some chunks) :
    Numbered chunks := by
  rw [Numbered, fixedLoop_indices h, List.range_eq_range']

theorem split_numbered {fuel size : ℕ} {overlap : ℤ} {sep : List Char} {seps : List (List Char)}
    {text : List Cell} {chunks : List Chunk}
    (h : split fuel size overlap sep seps text = some chunks) : Numbered chunks := by
  cases seps with
  | nil => exact fixedLoop_numbered h
  | cons next seps =>
    rw [split] at h
    split at h
    · exact fixedLoop_numbered h
    · exact splitLoop_numbered numbered_nil h

theorem packLoop_numbered {size : ℕ} {joint : List Cell} {parts : List (List Cell)}
    (hjoint : blank joint) (hparts : ∀ part ∈ parts, blank part = false) :
    Numbered (packLoop size joint [] 0 parts) := by
  have hnone : ∀ part ∈ ([] : List (List Cell)), blank part = false :=
    fun part hpart => absurd hpart List.not_mem_nil
  have heq := packLoop_eq size hjoint hnone hparts 0
  rw [show joined joint [] = [] from rfl] at heq
  have hindex : (Chunk.index ∘ fun entry : List (List Cell) × ℕ =>
      (⟨entry.2, strip (joined joint entry.1), (joined joint entry.1).length⟩ : Chunk)) =
      Prod.snd := rfl
  rw [heq, Numbered, List.map_map, hindex, List.zipIdx_map_snd, List.length_map,
    List.length_zipIdx, List.range_eq_range']

/-! ### Markdown -/

theorem appendAll_prefix (chunks sub : List Chunk) :
    ∃ rest, appendAll chunks sub = chunks ++ rest := by
  unfold appendAll
  induction sub generalizing chunks with
  | nil => exact ⟨[], by simp⟩
  | cons chunk sub ih =>
    obtain ⟨rest, hrest⟩ := ih (chunks ++ [{ chunk with index := chunks.length }])
    rw [List.foldl_cons, hrest, List.append_assoc]
    exact ⟨_, rfl⟩

theorem markdownLoop_prefix {fuel size index : ℕ} {chunks result : List Chunk}
    {pieces : List (List Cell)} (h : markdownLoop fuel size index chunks pieces = some result) :
    ∃ rest, result = chunks ++ rest := by
  induction pieces generalizing index chunks with
  | nil =>
    cases h
    exact ⟨[], by simp⟩
  | cons piece pieces ih =>
    rw [markdownLoop] at h
    split at h
    · obtain ⟨rest, rfl⟩ := ih h
      rw [List.append_assoc]
      exact ⟨_, rfl⟩
    · obtain ⟨sub, -, h⟩ := Option.bind_eq_some_iff.mp h
      obtain ⟨rest, rfl⟩ := ih h
      obtain ⟨middle, hmiddle⟩ := appendAll_prefix chunks sub
      rw [hmiddle, List.append_assoc]
      exact ⟨_, rfl⟩

/-- A text that is longer than a window has two windows. -/
theorem two_le_length {size : ℕ} {overlap : ℤ} {text : List Cell} {fuel : ℕ} {chunks : List Chunk}
    (hoverlap : 0 ≤ overlap) (hlong : size < text.length)
    (h : fixedLoop size overlap text fuel 0 0 = some chunks) : 2 ≤ chunks.length := by
  have hend : windowEnd size text 0 = size := by
    rcases windowEnd_cases size text 0 with h | h <;> omega
  rcases fuel with _ | _ | fuel
  · cases h
  · rw [fixedLoop, if_pos (by omega), fixedLoop] at h
    cases h
  · rw [fixedLoop, if_pos (by omega), hend, if_pos (by omega), fixedLoop, if_pos (by omega)] at h
    obtain ⟨rest, hrest, rfl⟩ := Option.map_eq_some_iff.mp h
    obtain ⟨rest', -, rfl⟩ := Option.map_eq_some_iff.mp hrest
    simp

/-- **When the Markdown chunks are numbered**: a section that fits comes after no section that is
cut. -/
theorem markdownLoop_numbered_iff {fuel size index : ℕ} {chunks result : List Chunk}
    {pieces : List (List Cell)} (hchunks : Numbered chunks) (hindex : index ≤ chunks.length)
    (h : markdownLoop fuel size index chunks pieces = some result) :
    Numbered result ↔ (index = chunks.length ∨ ∀ piece ∈ pieces, size < piece.length) ∧
      pieces.Pairwise fun a b => b.length ≤ size → a.length ≤ size := by
  induction pieces generalizing index chunks with
  | nil =>
    cases h
    simp [hchunks]
  | cons piece pieces ih =>
    rw [markdownLoop] at h
    rw [List.pairwise_cons, List.forall_mem_cons]
    by_cases hfits : piece.length ≤ size
    · rw [if_pos hfits] at h
      by_cases heq : index = chunks.length
      · have hnext : Numbered (chunks ++ [⟨index, piece, piece.length⟩]) :=
          numbered_append_singleton.mpr ⟨hchunks, heq⟩
        rw [ih hnext (by simp [heq]) h]
        simp [heq, hfits]
      · -- the section has another index than its place
        refine iff_of_false ?_ ?_
        · intro hresult
          obtain ⟨rest, rfl⟩ := markdownLoop_prefix h
          exact heq (numbered_append_singleton.mp hresult.of_append).2
        · rintro ⟨heq' | ⟨hlong, -⟩, -⟩
          · exact heq heq'
          · omega
    · rw [if_neg hfits] at h
      obtain ⟨sub, hsub, h⟩ := Option.bind_eq_some_iff.mp h
      have hlength := length_appendAll chunks sub
      have htwo := two_le_length (by decide : (0 : ℤ) ≤ defaultOverlap) (by omega) hsub
      rw [ih (numbered_appendAll hchunks) (by omega) h, hlength]
      constructor
      · rintro ⟨heq | hall, hpairs⟩
        · omega
        · exact ⟨.inr ⟨by omega, hall⟩, fun b hb hbfits => absurd hbfits (by
            have hb := hall b hb
            omega), hpairs⟩
      · rintro ⟨-, hfirst, hpairs⟩
        refine ⟨.inr fun b hb => ?_, hpairs⟩
        by_contra hb'
        exact hfits (hfirst b hb (by omega))

/-! ## Windows and packing -/

theorem bound_natCast (length n : ℕ) : bound length n = min n length := by
  rw [bound, if_neg (by omega), Int.toNat_natCast]

/-- **The windows** cover the text. -/
theorem fixedLoop_covers {size : ℕ} {overlap : ℤ} {text : List Cell} {fuel : ℕ} {start : ℤ}
    {index : ℕ} {chunks : List Chunk} (hoverlap : 0 ≤ overlap) (hsize : overlap < size)
    (hstart : 0 ≤ start) (h : fixedLoop size overlap text fuel start index = some chunks) :
    (text.drop start.toNat).Sublist (chunks.flatMap Chunk.content) := by
  induction fuel generalizing start index chunks with
  | zero => cases h
  | succ fuel ih =>
    rw [fixedLoop] at h
    split at h
    · rename_i hless
      obtain ⟨rest, hrest, rfl⟩ := Option.map_eq_some_iff.mp h
      rw [List.flatMap_cons]
      -- the text from the start on is the window, and the text from its end on
      obtain ⟨n, hn⟩ := Int.eq_ofNat_of_zero_le hstart
      obtain ⟨m, hm, hle, hnm⟩ : ∃ m : ℕ, windowEnd size text start = m ∧ m ≤ text.length ∧
          n ≤ m := by
        rcases windowEnd_cases size text start with ⟨h1, h2⟩ | ⟨h1, h2⟩
        · exact ⟨n + size, by omega, by omega, by omega⟩
        · exact ⟨text.length, by omega, le_rfl, by omega⟩
      have hcontent : (window size text start index).content = (text.take m).drop n := by
        show slice text start (windowEnd size text start) = _
        rw [hm, hn, slice, bound_natCast, bound_natCast, Nat.min_eq_left hle,
          Nat.min_eq_left (by omega)]
      have hsplit : text.drop n = (text.take m).drop n ++ text.drop m := by
        conv_lhs => rw [← List.take_append_drop m text]
        rw [List.drop_append_of_le_length (by rw [List.length_take]; omega)]
      rw [hcontent, hn, Int.toNat_natCast, hsplit]
      refine (List.Sublist.refl _).append ?_
      by_cases hmore : windowEnd size text start < text.length
      · rw [if_pos hmore] at hrest
        have hnext := ih (by
          rcases windowEnd_cases size text start with h | h <;> omega) hrest
        refine List.Sublist.trans ?_ hnext
        exact List.drop_sublist_drop_left text (by omega)
      · have hmlen : m = text.length := by omega
        rw [hmlen, List.drop_length]
        exact List.nil_sublist _
    · rename_i hless
      rw [List.drop_eq_nil_of_le (by omega)]
      exact List.nil_sublist _

theorem window_subset {size : ℕ} {overlap : ℤ} {text : List Cell} {fuel : ℕ} {start : ℤ}
    {index : ℕ} {chunks : List Chunk}
    (h : fixedLoop size overlap text fuel start index = some chunks) :
    ∀ c ∈ chunks.flatMap Chunk.content, c ∈ text := by
  induction fuel generalizing start index chunks with
  | zero => cases h
  | succ fuel ih =>
    rw [fixedLoop] at h
    split at h
    · obtain ⟨rest, hrest, rfl⟩ := Option.map_eq_some_iff.mp h
      intro c hc
      rw [List.flatMap_cons] at hc
      rcases List.mem_append.mp hc with hc | hc
      · exact List.mem_of_mem_take (List.mem_of_mem_drop hc)
      · exact ih hrest c hc
    · cases h
      exact fun c hc => absurd hc List.not_mem_nil

theorem fixedLoop_covers_all {size : ℕ} {overlap : ℤ} {text : List Cell} {fuel : ℕ}
    {chunks : List Chunk} (hoverlap : 0 ≤ overlap) (hsize : overlap < size)
    (h : fixedLoop size overlap text fuel 0 0 = some chunks) :
    text.Sublist (chunks.flatMap Chunk.content) :=
  fixedLoop_covers hoverlap hsize le_rfl h

theorem appendAll_flatMap (chunks sub : List Chunk) :
    (appendAll chunks sub).flatMap Chunk.content =
      chunks.flatMap Chunk.content ++ sub.flatMap Chunk.content := by
  rw [List.flatMap_def, appendAll_contents, List.flatten_append, List.flatMap_def,
    List.flatMap_def]

/-- **The packed parts** are covered. -/
theorem packLoop_covers (size : ℕ) {joint : List Cell} {parts : List (List Cell)}
    (hjoint : blank joint) (hparts : ∀ part ∈ parts, blank part = false) :
    (visible parts.flatten).Sublist
      ((packLoop size joint [] 0 parts).flatMap Chunk.content) := by
  have hvisible : visible ((packLoop size joint [] 0 parts).flatMap Chunk.content) =
      visible parts.flatten := by
    rw [List.flatMap_def, packLoop_contents hjoint hparts]
    have hflatten : (groups size joint [] parts).flatten = parts := groups_flatten
    conv_rhs => rw [← hflatten]
    generalize groups size joint [] parts = gs
    induction gs with
    | nil => rfl
    | cons g gs ih =>
      rw [List.map_cons, List.flatten_cons, visible_append, visible_strip, visible_joined hjoint,
        ih, List.flatten_cons, List.flatten_append, visible_append]
  rw [← hvisible]
  exact visible_sublist _

/-- **The Markdown chunks** cover the sections. -/
theorem markdownLoop_covers {fuel size index : ℕ} {chunks result : List Chunk}
    {pieces : List (List Cell)} (hsize : defaultOverlap < size)
    (h : markdownLoop fuel size index chunks pieces = some result) :
    (chunks.flatMap Chunk.content ++ pieces.flatten).Sublist (result.flatMap Chunk.content) := by
  induction pieces generalizing index chunks with
  | nil =>
    cases h
    simp
  | cons piece pieces ih =>
    rw [markdownLoop] at h
    split at h
    · have hrest := ih h
      rwa [List.flatMap_append, List.flatMap_singleton, List.append_assoc] at hrest
    · obtain ⟨sub, hsub, h⟩ := Option.bind_eq_some_iff.mp h
      have hrest := ih h
      rw [appendAll_flatMap, List.append_assoc] at hrest
      refine List.Sublist.trans ?_ hrest
      rw [List.flatten_cons]
      exact (List.Sublist.refl _).append
        ((fixedLoop_covers_all (by decide) hsize hsub).append (List.Sublist.refl _))

/-! ## The batches of one separator -/

section Batches

variable (size : ℕ)

/-- The batches that the next separators split, in order. -/
def batches : List Cell → List (List Cell × List Cell) → List (List Cell)
  | current, [] => if current = [] then [] else [current]
  | current, (glue, part) :: parts =>
    if size < (candidate current glue part).length then
      (if current = [] then [] else [current]) ++ batches part parts
    else batches (candidate current glue part) parts

/-- The separators that are in no batch. -/
def lost : List Cell → List (List Cell × List Cell) → List Cell
  | _, [] => []
  | current, (glue, part) :: parts =>
    if size < (candidate current glue part).length ∨ current = [] then glue ++ lost part parts
    else lost (current ++ glue ++ part) parts

variable {size} {sub : List Cell → Option (List Chunk)} {current : List Cell}
  {parts : List (List Cell × List Cell)}

/-- The batches are split one after the other. -/
def splitAll (sub : List Cell → Option (List Chunk)) :
    List Chunk → List (List Cell) → Option (List Chunk)
  | chunks, [] => some chunks
  | chunks, batch :: rest => (sub batch).bind fun s => splitAll sub (appendAll chunks s) rest

/-- **The loop** splits the batches. -/
theorem splitLoop_eq (chunks : List Chunk) :
    splitLoop size sub chunks current parts = splitAll sub chunks (batches size current parts) := by
  induction parts generalizing chunks current with
  | nil =>
    rw [splitLoop, batches]
    split
    · rfl
    · cases h : sub current <;> simp [splitAll, h]
  | cons p parts ih =>
    obtain ⟨glue, part⟩ := p
    rw [splitLoop, batches]
    split
    · split
      · rw [ih, List.nil_append]
      · rw [List.singleton_append, splitAll]
        congr 1
        funext s
        exact ih _
    · exact ih _

theorem candidate_of_ne_nil {glue part : List Cell} (h : current ≠ []) :
    candidate current glue part = current ++ glue ++ part := if_neg h

theorem flatten_current (current : List Cell) :
    (if current = [] then [] else [current]).flatten = current := by
  split
  · rename_i h
    exact h.symm
  · simp

/-- The batches are in the order of the text. -/
theorem batches_sublist : (batches size current parts).flatten.Sublist
    (current ++ parts.flatMap fun p => p.1 ++ p.2) := by
  induction parts generalizing current with
  | nil => simp [batches, flatten_current]
  | cons p parts ih =>
    obtain ⟨glue, part⟩ := p
    have hdrop : (part ++ parts.flatMap fun p => p.1 ++ p.2).Sublist
        (glue ++ part ++ parts.flatMap fun p => p.1 ++ p.2) := by
      rw [List.append_assoc]
      exact List.sublist_append_right _ _
    rw [batches, List.flatMap_cons]
    split
    · rw [List.flatten_append, flatten_current]
      exact (List.Sublist.refl _).append (ih.trans hdrop)
    · by_cases hempty : current = []
      · rw [candidate, if_pos hempty, hempty]
        exact ih.trans hdrop
      · have hind : (batches size (current ++ glue ++ part) parts).flatten.Sublist
            (current ++ glue ++ part ++ parts.flatMap fun p => p.1 ++ p.2) := ih
        rw [candidate_of_ne_nil hempty]
        simpa using hind

/-- **The text is its batches and its lost separators**. -/
theorem batches_perm : ((batches size current parts).flatten ++ lost size current parts).Perm
    (current ++ parts.flatMap fun p => p.1 ++ p.2) := by
  induction parts generalizing current with
  | nil => simp [batches, lost, flatten_current]
  | cons p parts ih =>
    obtain ⟨glue, part⟩ := p
    have hnext : ((batches size part parts).flatten ++ (glue ++ lost size part parts)).Perm
        (glue ++ part ++ parts.flatMap fun p => p.1 ++ p.2) := by
      have hmove : ((batches size part parts).flatten ++ (glue ++ lost size part parts)).Perm
          (glue ++ ((batches size part parts).flatten ++ lost size part parts)) := by
        rw [← List.append_assoc, ← List.append_assoc]
        exact List.perm_append_comm.append_right _
      rw [List.append_assoc glue]
      exact hmove.trans (ih.append_left glue)
    rw [batches, lost, List.flatMap_cons]
    by_cases hlong : size < (candidate current glue part).length
    · rw [if_pos hlong, if_pos (Or.inl hlong : _ ∨ current = []), List.flatten_append,
        flatten_current, List.append_assoc]
      exact hnext.append_left current
    rw [if_neg hlong]
    by_cases hempty : current = []
    · rw [if_pos (Or.inr hempty : _ ∨ current = []), candidate, if_pos hempty, hempty]
      exact hnext
    · rw [if_neg (not_or.mpr ⟨hlong, hempty⟩), candidate_of_ne_nil hempty]
      have hind : ((batches size (current ++ glue ++ part) parts).flatten ++
          lost size (current ++ glue ++ part) parts).Perm
          (current ++ glue ++ part ++ parts.flatMap fun p => p.1 ++ p.2) := ih
      simpa using hind

/-- **Nothing is lost** if there is no separator, or everything fits one batch. -/
theorem lost_eq_nil_iff (hglue : ∀ p ∈ parts, p.1 ≠ []) : lost size current parts = [] ↔
    parts = [] ∨
      current ≠ [] ∧ (current ++ parts.flatMap fun p => p.1 ++ p.2).length ≤ size := by
  induction parts generalizing current with
  | nil => simp [lost]
  | cons p parts ih =>
    obtain ⟨glue, part⟩ := p
    have hne : glue ≠ [] := hglue (glue, part) List.mem_cons_self
    have hrest : ∀ p ∈ parts, p.1 ≠ [] := fun p hp => hglue p (List.mem_cons_of_mem _ hp)
    rw [lost]
    by_cases hempty : current = []
    · rw [if_pos (Or.inr hempty : _ ∨ current = [])]
      simp [hne, hempty]
    rw [candidate_of_ne_nil hempty]
    have htotal : (current ++ ((glue, part) :: parts).flatMap fun p => p.1 ++ p.2).length =
        ((current ++ glue ++ part) ++ parts.flatMap fun p => p.1 ++ p.2).length := by
      simp
    by_cases hlong : size < (current ++ glue ++ part).length
    · rw [if_pos (Or.inl hlong : _ ∨ current = [])]
      refine iff_of_false (by simp [hne]) ?_
      rintro (h | ⟨-, h⟩)
      · cases h
      · rw [htotal, List.length_append] at h
        omega
    · rw [if_neg (not_or.mpr ⟨hlong, hempty⟩), ih hrest, htotal]
      constructor
      · rintro (rfl | ⟨-, h⟩)
        · exact .inr ⟨hempty, by simpa using not_lt.mp hlong⟩
        · exact .inr ⟨hempty, h⟩
      · rintro (h | ⟨-, h⟩)
        · cases h
        · exact .inr ⟨by simp [hempty], h⟩

/-- The cells of the separators that are lost are those of whole separators. -/
theorem lost_subset : ∀ c ∈ lost size current parts, ∃ p ∈ parts, c ∈ p.1 := by
  induction parts generalizing current with
  | nil => exact fun c hc => absurd hc List.not_mem_nil
  | cons p parts ih =>
    obtain ⟨glue, part⟩ := p
    intro c hc
    rw [lost] at hc
    split at hc
    · rcases List.mem_append.mp hc with hc | hc
      · exact ⟨_, List.mem_cons_self, hc⟩
      · obtain ⟨q, hq, hc⟩ := ih c hc
        exact ⟨q, List.mem_cons_of_mem _ hq, hc⟩
    · obtain ⟨q, hq, hc⟩ := ih c hc
      exact ⟨q, List.mem_cons_of_mem _ hq, hc⟩

/-- A separator that is lost is lost as a whole. -/
theorem exists_glue_of_lost (h : lost size current parts ≠ []) :
    ∃ p ∈ parts, p.1 ≠ [] ∧ ∀ c ∈ p.1, c ∈ lost size current parts := by
  induction parts generalizing current with
  | nil => exact absurd rfl h
  | cons p parts ih =>
    obtain ⟨glue, part⟩ := p
    rw [lost] at h ⊢
    split at h
    · rename_i hcond
      simp only [hcond, if_true]
      by_cases hglue : glue = []
      · rw [hglue, List.nil_append] at h ⊢
        obtain ⟨q, hq, hne, hall⟩ := ih h
        exact ⟨q, List.mem_cons_of_mem _ hq, hne, hall⟩
      · exact ⟨_, List.mem_cons_self, hglue, fun c hc => List.mem_append_left _ hc⟩
    · rename_i hcond
      simp only [hcond, if_false]
      obtain ⟨q, hq, hne, hall⟩ := ih h
      exact ⟨q, List.mem_cons_of_mem _ hq, hne, hall⟩

end Batches

section Separator

variable {size : ℕ} {sep : List Char} {text : List Cell} (hsep : sep ≠ [])

include hsep

/-- The first part of a text that is split, and the separators before the others. -/
theorem splitFrom_eq (skip : ℕ) (glue part text : List Cell) (h : skip = 0 ∨ part = []) :
    ∃ more rest,
      splitFrom sep skip glue part text = (glue ++ text.take skip, part ++ more) :: rest ∧
      ∀ q ∈ rest, q.1.map Cell.char = sep := by
  induction text generalizing skip glue part with
  | nil =>
    exact ⟨[], [], by cases skip <;> simp [splitFrom], fun q hq => absurd hq List.not_mem_nil⟩
  | cons c text ih =>
    cases skip with
    | zero =>
      rw [splitFrom]
      split
      · rename_i hlead
        obtain ⟨more, rest, heq, hrest⟩ := ih (sep.length - 1) [c] [] (.inr rfl)
        refine ⟨[], splitFrom sep (sep.length - 1) [c] [] text, by simp, ?_⟩
        rw [heq]
        intro q hq
        rcases List.mem_cons.mp hq with rfl | hq
        · -- the characters of the separator are those that start the text
          have htake := List.prefix_iff_eq_take.mp (List.isPrefixOf_iff_prefix.mp hlead)
          have hlength : 0 < sep.length := List.length_pos_of_ne_nil hsep
          obtain ⟨n, hn⟩ : ∃ n, sep.length = n + 1 := ⟨sep.length - 1, by omega⟩
          rw [hn, List.map_cons, List.take_succ_cons, ← List.map_take] at htake
          rw [hn, Nat.add_sub_cancel, List.singleton_append, List.map_cons]
          exact htake.symm
        · exact hrest q hq
      · obtain ⟨more, rest, heq, hrest⟩ := ih 0 glue (part ++ [c]) (.inl rfl)
        exact ⟨c :: more, rest, by simpa using heq, hrest⟩
    | succ skip =>
      obtain rfl : part = [] := h.resolve_left (Nat.succ_ne_zero _)
      obtain ⟨more, rest, heq, hrest⟩ := ih skip (glue ++ [c]) [] (.inr rfl)
      exact ⟨more, rest, by simpa [splitFrom] using heq, hrest⟩

/-- There is one part if the separator does not occur. -/
theorem splitFrom_tail_eq_nil (glue part text : List Cell) :
    (splitFrom sep 0 glue part text).tail = [] ↔ ¬sep <:+: text.map Cell.char := by
  induction text generalizing glue part with
  | nil => simp [splitFrom, hsep]
  | cons c text ih =>
    rw [splitFrom, List.map_cons, List.infix_cons_iff, ← List.isPrefixOf_iff_prefix]
    by_cases hlead : sep.isPrefixOf (c.char :: text.map Cell.char)
    · rw [if_pos hlead, List.tail_cons]
      obtain ⟨more, rest, heq, -⟩ := splitFrom_eq hsep (sep.length - 1) [c] [] text (.inr rfl)
      rw [heq]
      simp [hlead]
    · rw [if_neg hlead, ih]
      simp [hlead]

/-- The parts of a text, and what starts it. -/
theorem splitOn_eq (text : List Cell) : ∃ first rest, splitOn sep text = ([], first) :: rest ∧
    (∀ q ∈ rest, q.1.map Cell.char = sep) ∧ (rest = [] ↔ ¬sep <:+: text.map Cell.char) ∧
    (first = [] ↔ text = [] ∨ sep <+: text.map Cell.char) := by
  obtain ⟨first, rest, heq, hrest⟩ := splitFrom_eq hsep 0 [] [] text (.inl rfl)
  have htail := splitFrom_tail_eq_nil hsep [] [] text
  rw [heq, List.tail_cons] at htail
  refine ⟨first, rest, heq, hrest, htail, ?_⟩
  cases text with
  | nil =>
    rw [splitFrom] at heq
    simp at heq
    simp [heq.1]
  | cons c text =>
    rw [splitFrom] at heq
    by_cases hlead : sep.isPrefixOf ((c :: text).map Cell.char)
    · rw [if_pos hlead] at heq
      have hfirst : first = [] := by simpa using (List.cons.inj heq).1
      exact iff_of_true hfirst (.inr (List.isPrefixOf_iff_prefix.mp hlead))
    · obtain ⟨more, rest', heq', -⟩ := splitFrom_eq hsep 0 [] [c] text (.inl rfl)
      rw [if_neg hlead, List.nil_append, heq'] at heq
      have hfirst : first = c :: more := by simpa using (List.cons.inj heq).1.symm
      have hno : ¬sep <+: (c :: text).map Cell.char := by
        rwa [← List.isPrefixOf_iff_prefix]
      exact iff_of_false (by simp [hfirst]) (not_or.mpr ⟨List.cons_ne_nil _ _, hno⟩)

/-- **When one separator loses nothing**: it is white space, it does not occur, or the text fits one
batch and does not start with it. -/
theorem visible_mem_batches_iff (hnodup : text.Nodup) :
    (∀ c ∈ visible text, c ∈ (batches size [] (splitOn sep text)).flatten) ↔
      sep.all Text.isSpace ∨ ¬sep <:+: text.map Cell.char ∨
        text.length ≤ size ∧ ¬sep <+: text.map Cell.char := by
  obtain ⟨first, rest, heq, hrest, hnil, hfirst⟩ := splitOn_eq hsep text
  have hflatten := splitOn_flatten sep text
  have hperm : ((batches size [] (splitOn sep text)).flatten ++
      lost size [] (splitOn sep text)).Perm text := by
    have h : ((batches size [] (splitOn sep text)).flatten ++
        lost size [] (splitOn sep text)).Perm
        ([] ++ (splitOn sep text).flatMap fun p => p.1 ++ p.2) := batches_perm
    rwa [List.nil_append, hflatten] at h
  have hlost : lost size [] (splitOn sep text) = lost size first rest := by
    rw [heq, lost, if_pos (Or.inr rfl : _ ∨ ([] : List Cell) = []), List.nil_append]
  rw [hlost] at hperm
  have hdisjoint := (List.nodup_append.mp (hperm.nodup_iff.mpr hnodup)).2.2
  -- the cells that are in no batch are the lost ones
  have hvisible : (∀ c ∈ visible text, c ∈ (batches size [] (splitOn sep text)).flatten) ↔
      ∀ c ∈ lost size first rest, c.blank = true := by
    constructor
    · intro h c hc
      by_contra hblank
      have hmem := h c (mem_visible.mpr ⟨hperm.subset (List.mem_append_right _ hc),
        by simpa using hblank⟩)
      exact hdisjoint c hmem c hc rfl
    · intro h c hc
      obtain ⟨hmem, hblank⟩ := mem_visible.mp hc
      rcases List.mem_append.mp (hperm.symm.subset hmem) with hmem | hmem
      · exact hmem
      · rw [h c hmem] at hblank
        cases hblank
  have hcells : (∀ c ∈ lost size first rest, c.blank = true) ↔
      sep.all Text.isSpace ∨ lost size first rest = [] := by
    constructor
    · intro h
      by_cases hempty : lost size first rest = []
      · exact .inr hempty
      · obtain ⟨q, hq, -, hall⟩ := exists_glue_of_lost hempty
        refine .inl ?_
        rw [← hrest q hq, List.all_map, List.all_eq_true]
        exact fun c hc => h c (hall c hc)
    · rintro (hspace | hempty) c hc
      · obtain ⟨q, hq, hcq⟩ := lost_subset c hc
        rw [List.all_eq_true] at hspace
        apply hspace
        rw [← hrest q hq]
        exact List.mem_map_of_mem hcq
      · rw [hempty] at hc
        exact absurd hc List.not_mem_nil
  have hglue : ∀ q ∈ rest, q.1 ≠ [] := by
    intro q hq hempty
    apply hsep
    rw [← hrest q hq, hempty]
    rfl
  have hlength : first ++ rest.flatMap (fun p => p.1 ++ p.2) = text := by
    rw [← hflatten, heq]
    rfl
  rw [hvisible, hcells, lost_eq_nil_iff hglue, hlength]
  refine or_congr_right ?_
  by_cases hin : sep <:+: text.map Cell.char
  · have hne : text ≠ [] := by
      rintro rfl
      exact hsep (List.eq_nil_of_infix_nil hin)
    have hfirst' : first ≠ [] ↔ ¬sep <+: text.map Cell.char := by
      rw [Ne, hfirst, or_iff_right hne]
    rw [hnil, hfirst', and_comm]
  · exact iff_of_true (.inl (hnil.mpr hin)) (.inl hin)

end Separator

/-! ## Separators in order -/

/-- The texts that are cut into windows at last, in order. -/
def leaves (size : ℕ) (sep : List Char) : List (List Char) → List Cell → List (List Cell)
  | [], text => [text]
  | next :: seps, text =>
    if sep = [] then [text]
    else (batches size [] (splitOn sep text)).flatMap (leaves size next seps)

/-- **No separator is lost** that is not white space: where it occurs, the text fits one batch and
does not start with it. -/
def Lossless (size : ℕ) (sep : List Char) : List (List Char) → List Cell → Prop
  | [], _ => True
  | next :: seps, text => sep = [] ∨
    (sep.all Text.isSpace ∨ ¬sep <:+: text.map Cell.char ∨
        text.length ≤ size ∧ ¬sep <+: text.map Cell.char) ∧
      ∀ batch ∈ batches size [] (splitOn sep text), Lossless size next seps batch

section Leaves

variable {size fuel : ℕ} {overlap : ℤ} {sep : List Char} {seps : List (List Char)}
  {text : List Cell}

theorem batches_splitOn_sublist (size : ℕ) (sep : List Char) (text : List Cell) :
    (batches size [] (splitOn sep text)).flatten.Sublist text := by
  have h : (batches size [] (splitOn sep text)).flatten.Sublist
    ([] ++ (splitOn sep text).flatMap fun p => p.1 ++ p.2) := batches_sublist
  rwa [List.nil_append, splitOn_flatten] at h

theorem flatten_flatMap_sublist {f : List Cell → List (List Cell)}
    (hf : ∀ t, (f t).flatten.Sublist t) (ts : List (List Cell)) :
    (ts.flatMap f).flatten.Sublist ts.flatten := by
  induction ts with
  | nil => exact List.Sublist.refl _
  | cons t ts ih =>
    rw [List.flatMap_cons, List.flatten_append, List.flatten_cons]
    exact (hf t).append ih

theorem leaves_sublist (size : ℕ) (sep : List Char) (seps : List (List Char)) (text : List Cell) :
    (leaves size sep seps text).flatten.Sublist text := by
  induction seps generalizing sep text with
  | nil => simp [leaves]
  | cons next seps ih =>
    rw [leaves]
    split
    · simp
    · exact (flatten_flatMap_sublist (fun t => ih next t) _).trans
        (batches_splitOn_sublist size sep text)

/-- The chunks of all batches have what the batches leave. -/
theorem splitAll_covers {sub : List Cell → Option (List Chunk)} {f : List Cell → List (List Cell)}
    (hsub : ∀ t s, sub t = some s → (f t).flatten.Sublist (s.flatMap Chunk.content) ∧
      ∀ c ∈ s.flatMap Chunk.content, c ∈ (f t).flatten)
    {chunks result : List Chunk} {ts : List (List Cell)}
    (h : splitAll sub chunks ts = some result) :
    (chunks.flatMap Chunk.content ++ (ts.flatMap f).flatten).Sublist
        (result.flatMap Chunk.content) ∧
      ∀ c ∈ result.flatMap Chunk.content,
        c ∈ chunks.flatMap Chunk.content ∨ c ∈ (ts.flatMap f).flatten := by
  induction ts generalizing chunks with
  | nil =>
    cases h
    simp
  | cons t ts ih =>
    obtain ⟨s, hs, h⟩ := Option.bind_eq_some_iff.mp h
    obtain ⟨hcovers, hsubset⟩ := hsub t s hs
    obtain ⟨hrest, hback⟩ := ih h
    rw [appendAll_flatMap] at hrest hback
    rw [List.flatMap_cons, List.flatten_append]
    constructor
    · refine List.Sublist.trans ?_ hrest
      rw [List.append_assoc]
      exact (List.Sublist.refl _).append (hcovers.append (List.Sublist.refl _))
    · intro c hc
      rcases hback c hc with hc | hc
      · rcases List.mem_append.mp hc with hc | hc
        · exact .inl hc
        · exact .inr (List.mem_append_left _ (hsubset c hc))
      · exact .inr (List.mem_append_right _ hc)

/-- **The recursive chunks** have the characters of the leaves. -/
theorem split_covers (hoverlap : 0 ≤ overlap) (hsize : overlap < size) {chunks : List Chunk}
    (h : split fuel size overlap sep seps text = some chunks) :
    (leaves size sep seps text).flatten.Sublist (chunks.flatMap Chunk.content) ∧
      ∀ c ∈ chunks.flatMap Chunk.content, c ∈ (leaves size sep seps text).flatten := by
  have hfixed : ∀ {t : List Cell} {s : List Chunk}, fixedLoop size overlap t fuel 0 0 = some s →
      [t].flatten.Sublist (s.flatMap Chunk.content) ∧
        ∀ c ∈ s.flatMap Chunk.content, c ∈ [t].flatten := by
    intro t s hs
    rw [List.flatten_singleton]
    exact ⟨fixedLoop_covers_all hoverlap hsize hs, window_subset hs⟩
  induction seps generalizing sep text chunks with
  | nil => exact hfixed h
  | cons next seps ih =>
    rw [split] at h
    rw [leaves]
    split at h
    · rename_i hempty
      rw [if_pos hempty]
      exact hfixed h
    · rename_i hne
      rw [if_neg hne]
      rw [splitLoop_eq] at h
      have hall := splitAll_covers (fun t s hs => ih hs) h
      simpa using hall

/-- **When the recursive strategy loses nothing**. -/
theorem visible_mem_leaves_iff (hnodup : text.Nodup) :
    (∀ c ∈ visible text, c ∈ (leaves size sep seps text).flatten) ↔
      Lossless size sep seps text := by
  induction seps generalizing sep text with
  | nil =>
    rw [leaves, List.flatten_singleton]
    exact iff_of_true (fun c hc => (mem_visible.mp hc).1) trivial
  | cons next seps ih =>
    rw [leaves, Lossless]
    by_cases hempty : sep = []
    · rw [if_pos hempty, List.flatten_singleton]
      exact iff_of_true (fun c hc => (mem_visible.mp hc).1) (.inl hempty)
    rw [if_neg hempty, or_iff_right hempty, ← visible_mem_batches_iff hempty hnodup]
    have hsub := batches_splitOn_sublist size sep text
    have hbatches := hsub.nodup hnodup
    obtain ⟨hone, hpairs⟩ := List.nodup_flatten.mp hbatches
    have hmem : ∀ c, c ∈ ((batches size [] (splitOn sep text)).flatMap
        (leaves size next seps)).flatten ↔ ∃ batch ∈ batches size [] (splitOn sep text),
          c ∈ (leaves size next seps batch).flatten := by
      intro c
      rw [List.mem_flatten]
      constructor
      · rintro ⟨leaf, hleaf, hc⟩
        obtain ⟨batch, hbatch, hleaf⟩ := List.mem_flatMap.mp hleaf
        exact ⟨batch, hbatch, List.mem_flatten.mpr ⟨leaf, hleaf, hc⟩⟩
      · rintro ⟨batch, hbatch, hc⟩
        obtain ⟨leaf, hleaf, hc⟩ := List.mem_flatten.mp hc
        exact ⟨leaf, List.mem_flatMap.mpr ⟨batch, hbatch, hleaf⟩, hc⟩
    constructor
    · intro h
      constructor
      · intro c hc
        obtain ⟨batch, hbatch, hc⟩ := (hmem c).mp (h c hc)
        exact List.mem_flatten.mpr ⟨batch, hbatch, (leaves_sublist ..).subset hc⟩
      · intro batch hbatch
        rw [← ih (hone batch hbatch)]
        intro c hc
        obtain ⟨hcbatch, hvisible⟩ := mem_visible.mp hc
        have hctext := hsub.subset (List.mem_flatten.mpr ⟨batch, hbatch, hcbatch⟩)
        obtain ⟨other, hother, hcother⟩ := (hmem c).mp (h c (mem_visible.mpr ⟨hctext, hvisible⟩))
        -- the cell is in one batch only
        have heq : batch = other := by
          by_contra hne
          have hsymm : Std.Symm (List.Disjoint (α := Cell)) := ⟨fun _ _ h _ ha hb => h hb ha⟩
          exact hpairs.forall hbatch hother hne hcbatch ((leaves_sublist ..).subset hcother)
        rw [heq]
        exact hcother
    · rintro ⟨hlevel, hnext⟩ c hc
      obtain ⟨batch, hbatch, hcbatch⟩ := List.mem_flatten.mp (hlevel c hc)
      have hleaves := (ih (hone batch hbatch)).mpr (hnext batch hbatch)
      exact (hmem c).mpr ⟨batch, hbatch,
        hleaves c (mem_visible.mpr ⟨hcbatch, (mem_visible.mp hc).2⟩)⟩

/-- **The recursive chunks cover the document** just when no visible separator is lost. -/
theorem covers_split_iff (hoverlap : 0 ≤ overlap) (hsize : overlap < size) (hnodup : text.Nodup)
    {chunks : List Chunk} (h : split fuel size overlap sep seps text = some chunks) :
    Covers text chunks ↔ Lossless size sep seps text := by
  obtain ⟨hcovers, hback⟩ := split_covers hoverlap hsize h
  rw [← visible_mem_leaves_iff hnodup]
  constructor
  · intro hsub c hc
    exact hback c (hsub.subset hc)
  · intro hall
    have hleaves := leaves_sublist size sep seps text
    have hvisible : (visible (leaves size sep seps text).flatten).Sublist (visible text) :=
      hleaves.filter _
    -- the visible cells of the leaves are all those of the text
    have hsubset : visible text ⊆ visible (leaves size sep seps text).flatten := by
      intro c hc
      exact mem_visible.mpr ⟨hall c hc, (mem_visible.mp hc).2⟩
    have hlength := (List.subperm_of_subset ((visible_sublist text).nodup hnodup)
      hsubset).length_le
    have heq := hvisible.eq_of_length_le hlength
    unfold Covers
    rw [← heq]
    exact (visible_sublist _).trans hcovers

end Leaves

/-! ## All strategies -/

/-- The sizes of the Markdown strategy for which it terminates. -/
def Strategy.Wide : Strategy → Prop
  | .markdown size => defaultOverlap < size
  | _ => True

/-- **The strategy keeps the document**: no Markdown section that fits comes after one that is cut,
and the recursive strategy loses no visible separator. -/
def Strategy.Preserving (text : List Cell) : Strategy → Prop
  | .markdown size => (sections text).Pairwise fun a b => b.length ≤ size → a.length ≤ size
  | .recursive size _ separators =>
    Lossless size (separatorsOf separators).1 (separatorsOf separators).2 text
  | _ => True

theorem visible_sections (text : List Cell) :
    visible (sections text).flatten = visible text := by
  rw [sections, visible_map_strip, visible_filter, sectionPieces_flatten]

/-- Every part of a text is in some paragraph, but for the separators. -/
theorem visible_paragraphs (text : List Cell) :
    visible (paragraphs text).flatten = visible text := by
  rw [paragraphs, visible_map_strip, visible_filter]
  obtain ⟨first, rest, heq, hrest, -, -⟩ := splitOn_eq (by decide : ['\n', '\n'] ≠ []) text
  have hflatten := splitOn_flatten ['\n', '\n'] text
  conv_rhs => rw [← hflatten]
  rw [heq, List.map_cons, List.flatMap_cons, List.flatten_cons, visible_append, visible_append,
    List.nil_append]
  congr 1
  clear heq
  induction rest with
  | nil => rfl
  | cons q rest ih =>
    have hglue : visible q.1 = [] := by
      rw [visible_eq_nil, blank, List.all_eq_true]
      intro c hc
      have hchar : c.char ∈ ['\n', '\n'] := by
        rw [← hrest q List.mem_cons_self]
        exact List.mem_map_of_mem hc
      have hnewline : c.char = '\n' := by simpa using hchar
      rw [Cell.blank, hnewline]
      decide
    rw [List.map_cons, List.flatten_cons, List.flatMap_cons, visible_append, visible_append,
      visible_append, hglue, List.nil_append, ih fun p hp => hrest p (List.mem_cons_of_mem _ hp)]

/-- **When a strategy numbers its chunks and covers the document**. -/
theorem preserves_iff (strategy : Strategy) (text : List Char) (hproper : strategy.Proper)
    (hwide : strategy.Wide) {fuel : ℕ} (hfuel : text.length < fuel) :
    ∃ chunks, strategy.chunk fuel (mark text) = some chunks ∧
      ((Numbered chunks ∧ Covers (mark text) chunks) ↔ strategy.Preserving (mark text)) := by
  have hwithin : strategy.Within (mark text) := by
    cases strategy with
    | markdown size => exact .inl hwide
    | _ => trivial
  have hlength : (mark text).length < fuel := by simpa [mark] using hfuel
  obtain ⟨chunks, hchunks⟩ := Option.isSome_iff_exists.mp (chunk_isSome hproper hwithin hlength)
  refine ⟨chunks, hchunks, ?_⟩
  cases strategy with
  | fixedLength size overlap =>
    have hcovers := fixedLoop_covers_all hproper.2.1 hproper.2.2 hchunks
    exact iff_of_true ⟨fixedLoop_numbered hchunks, (visible_sublist _).trans hcovers⟩ trivial
  | sentence size =>
    cases hchunks
    have hblank : ∀ p ∈ sentences (mark text), blank p = false := fun p => not_blank_sentences
    refine iff_of_true ⟨packLoop_numbered blank_space hblank, ?_⟩ trivial
    have hcovers := packLoop_covers size blank_space hblank
    rwa [visible_sentences] at hcovers
  | paragraph size =>
    cases hchunks
    have hblank : ∀ p ∈ paragraphs (mark text), blank p = false := fun p => not_blank_paragraphs
    refine iff_of_true ⟨packLoop_numbered blank_lines hblank, ?_⟩ trivial
    have hcovers := packLoop_covers size blank_lines hblank
    rwa [visible_paragraphs] at hcovers
  | markdown size =>
    have hnumbered := markdownLoop_numbered_iff numbered_nil (Nat.le_refl 0) hchunks
    have hcovers := markdownLoop_covers hwide hchunks
    rw [List.flatMap_nil, List.nil_append] at hcovers
    have hall : Covers (mark text) chunks := by
      unfold Covers
      rw [← visible_sections]
      exact (visible_sublist _).trans hcovers
    rw [hnumbered, and_iff_left hall]
    exact ⟨fun h => h.2, fun h => ⟨.inl rfl, h⟩⟩
  | recursive size overlap separators =>
    have hcovers := covers_split_iff hproper.2.1 hproper.2.2 (nodup_mark text) hchunks
    rw [hcovers, and_iff_right (split_numbered hchunks)]
    exact Iff.rfl
  | tokenWindow size overlap =>
    have hfixed := fixedLoop_of_windowLoop hchunks
    have hcovers := fixedLoop_covers_all hproper.2.1 hproper.2.2 hfixed
    exact iff_of_true ⟨fixedLoop_numbered hfixed, (visible_sublist _).trans hcovers⟩ trivial

/-- A section of 52 characters, and a short one. -/
def longThenShort : List Char := List.replicate 52 'a' ++ "\n# b".toList

/-- The long section makes the chunks 0 and 1, and the short one has the index 1 again. -/
theorem not_preserves : ¬∀ (strategy : Strategy) (text : List Char) (fuel : ℕ), strategy.Proper →
    strategy.Wide → text.length < fuel → ∃ chunks, strategy.chunk fuel (mark text) = some chunks ∧
      Numbered chunks ∧ Covers (mark text) chunks := by
  intro h
  obtain ⟨chunks, hchunks, hnumbered, -⟩ := h (.markdown 51) longThenShort 65 (by decide : 1 ≤ 51)
    (by decide : (50 : ℤ) < 51) (by decide)
  have hindices : ((Strategy.markdown 51).chunk 65 (mark longThenShort)).map
      (fun chunks => chunks.map Chunk.index) = some [0, 1, 1] := by decide +kernel
  rw [hchunks, Option.map_some, Option.some.injEq] at hindices
  have hlength := congrArg List.length hindices
  rw [List.length_map] at hlength
  rw [Numbered, hindices, hlength] at hnumbered
  exact absurd hnumbered (by decide)

/-- The short section first, and then the long one. -/
def shortThenLong : List Char := ['#', ' ', 'b', '\n'] ++ ['#', ' '] ++ List.replicate 50 'a'

theorem preserves_pair :
    ((Strategy.markdown 51).chunk 65 (mark shortThenLong)).map List.length = some 3 ∧
      ∃ chunks, (Strategy.markdown 51).chunk 65 (mark shortThenLong) = some chunks ∧
        Numbered chunks ∧ Covers (mark shortThenLong) chunks := by
  obtain ⟨chunks, hchunks, hiff⟩ := preserves_iff (.markdown 51) shortThenLong
    (by decide : 1 ≤ 51) (by decide : (50 : ℤ) < 51) (by decide : shortThenLong.length < 65)
  have hpreserving : (Strategy.markdown 51).Preserving (mark shortThenLong) := by
    unfold Strategy.Preserving
    decide +kernel
  exact ⟨by decide +kernel, chunks, hchunks, hiff.mpr hpreserving⟩

end Knowledge

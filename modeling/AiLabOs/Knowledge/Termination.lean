import AiLabOs.Knowledge.Chunking
import Mathlib.Data.Int.Order.Basic
import Mathlib.Data.List.DropRight

/-!
# Knowledge: the chunkers terminate

A window starts after the one before it, if the overlap is below the size. Only the Markdown
strategy cuts with an overlap that its caller did not choose: a section longer than the size is cut
with an overlap of 50, and for a size of 50 or less that loop goes on for ever.

## Main definitions

* `Strategy.Within`: no window of a Markdown section starts where the one before it did

## Main results

* `fixedLoop_isSome`, `fixedLoop_eq_none`: when the loop over the windows ends
* `chunk_isSome`: as many turns as there are characters, and one more, are enough
* `terminates_iff`: when a strategy terminates
-/

namespace Knowledge

/-! ## Windows -/

section Windows

variable {size : ℕ} {overlap : ℤ} {text : List Cell} {fuel : ℕ} {start : ℤ} {index : ℕ}

/-- A window ends after its size, or at the end of the text. -/
theorem windowEnd_cases (size : ℕ) (text : List Cell) (start : ℤ) :
    start + size ≤ text.length ∧ windowEnd size text start = start + size ∨
      (text.length : ℤ) < start + size ∧ windowEnd size text start = text.length := by
  unfold windowEnd
  rcases le_or_gt (start + size) (text.length : ℤ) with h | h
  · exact .inl ⟨h, min_eq_left h⟩
  · exact .inr ⟨h, min_eq_right h.le⟩

/-- **The loop ends** if each window starts after the one before it. -/
theorem fixedLoop_isSome (start : ℤ) (index : ℕ) (hoverlap : overlap < size) (hfuel : 0 < fuel)
    (h : (text.length : ℤ) < start + fuel) :
    (fixedLoop size overlap text fuel start index).isSome := by
  induction fuel generalizing start index with
  | zero => omega
  | succ fuel ih =>
    rw [fixedLoop]
    by_cases hstart : start < text.length
    · rw [if_pos hstart, Option.isSome_map]
      rcases windowEnd_cases size text start with ⟨hfits, hend⟩ | ⟨-, hend⟩
      · apply ih _ _ (by omega)
        rw [hend]
        split <;> omega
      · apply ih _ _ (by omega)
        rw [hend, if_neg (by omega)]
        omega
    · rw [if_neg hstart]
      rfl

/-- **The loop goes on for ever** if no window starts after the first, and it is not the last. -/
theorem fixedLoop_eq_none (fuel index : ℕ) (hoverlap : size ≤ overlap)
    (hlong : size < text.length) (hstart : start ≤ 0) :
    fixedLoop size overlap text fuel start index = none := by
  induction fuel generalizing start index with
  | zero => rfl
  | succ fuel ih =>
    have hend : windowEnd size text start = start + size := by
      rcases windowEnd_cases size text start with h | h <;> omega
    rw [fixedLoop, if_pos (by omega), hend, if_pos (by omega), ih _ (by omega),
      Option.map_none]

/-- The other loop makes the same windows. -/
theorem windowLoop_of_fixedLoop {chunks : List Chunk}
    (h : fixedLoop size overlap text fuel start index = some chunks) :
    windowLoop size overlap text fuel start index = some chunks := by
  induction fuel generalizing start index chunks with
  | zero => cases h
  | succ fuel ih =>
    rw [fixedLoop] at h
    rw [windowLoop]
    by_cases hstart : start < text.length
    · rw [if_pos hstart] at h ⊢
      obtain ⟨rest, hrest, rfl⟩ := Option.map_eq_some_iff.mp h
      by_cases hlast : (text.length : ℤ) ≤ windowEnd size text start
      · rw [if_pos hlast]
        -- the turn after the last window finds nothing left
        cases fuel with
        | zero => cases hrest
        | succ fuel =>
          rw [if_neg (by omega), fixedLoop, if_neg (by omega)] at hrest
          cases hrest
          rfl
      · rw [if_neg hlast]
        rw [if_pos (by omega)] at hrest
        rw [ih hrest]
        rfl
    · rw [if_neg hstart] at h ⊢
      exact h

end Windows

/-! ## Parts of a text -/

/-- The parts and the separators make the text. -/
theorem splitFrom_flatten (sep : List Char) (skip : ℕ) (glue part text : List Cell)
    (h : skip = 0 ∨ part = []) :
    (splitFrom sep skip glue part text).flatMap (fun p => p.1 ++ p.2) = glue ++ part ++ text := by
  induction text generalizing skip glue part with
  | nil => cases skip <;> simp [splitFrom]
  | cons c text ih =>
    cases skip with
    | zero =>
      rw [splitFrom]
      split
      · rw [List.flatMap_cons, ih _ _ _ (.inr rfl)]
        simp
      · rw [ih _ _ _ (.inl rfl)]
        simp
    | succ skip =>
      obtain rfl : part = [] := h.resolve_left (Nat.succ_ne_zero _)
      rw [splitFrom, ih _ _ _ (.inr rfl)]
      simp

theorem splitOn_flatten (sep : List Char) (text : List Cell) :
    (splitOn sep text).flatMap (fun p => p.1 ++ p.2) = text :=
  splitFrom_flatten sep 0 [] [] text (.inl rfl)

theorem flatten_consHead (c : Cell) (pieces : List (List Cell)) :
    (consHead c pieces).flatten = c :: pieces.flatten := by
  cases pieces <;> rfl

/-- The sections make the text. -/
theorem sectionPieces_flatten (lineStart : Bool) (text : List Cell) :
    (sectionPieces lineStart text).flatten = text := by
  induction text generalizing lineStart with
  | nil => cases lineStart <;> rfl
  | cons c text ih =>
    rw [sectionPieces]
    split <;> simp [flatten_consHead, ih]

theorem strip_sublist (text : List Cell) : (strip text).Sublist text := by
  have hright : ((text.dropWhile Cell.blank).reverse.dropWhile Cell.blank).Sublist
      (text.dropWhile Cell.blank).reverse := List.dropWhile_sublist _
  have hreverse := hright.reverse
  rw [List.reverse_reverse] at hreverse
  exact hreverse.trans (List.dropWhile_sublist _)

/-- A section is no longer than the text. -/
theorem length_of_mem_sections {text piece : List Cell} (h : piece ∈ sections text) :
    piece.length ≤ text.length := by
  obtain ⟨whole, hwhole, rfl⟩ := List.mem_map.mp h
  have hmem := (List.mem_filter.mp hwhole).1
  have hle := (List.sublist_flatten_of_mem hmem).length_le
  rw [sectionPieces_flatten] at hle
  exact (strip_sublist whole).length_le.trans hle

/-! ## Markdown -/

/-- The sections are cut one after the other, if each long one is. -/
theorem markdownLoop_isSome {fuel size index : ℕ} {chunks : List Chunk}
    {pieces : List (List Cell)}
    (h : ∀ piece ∈ pieces, size < piece.length →
      (fixedLoop size defaultOverlap piece fuel 0 0).isSome) :
    (markdownLoop fuel size index chunks pieces).isSome := by
  induction pieces generalizing index chunks with
  | nil => rfl
  | cons piece pieces ih =>
    have hrest := fun p hp => h p (List.mem_cons_of_mem piece hp)
    rw [markdownLoop]
    by_cases hfits : piece.length ≤ size
    · rw [if_pos hfits]
      exact ih hrest
    · rw [if_neg hfits]
      obtain ⟨sub, hsub⟩ := Option.isSome_iff_exists.mp
        (h piece List.mem_cons_self (by omega))
      rw [hsub, Option.bind_some]
      exact ih hrest

/-- A long section that is cut for ever has no chunks after it. -/
theorem markdownLoop_eq_none {fuel size index : ℕ} {chunks : List Chunk}
    {pieces : List (List Cell)} {piece : List Cell} (hmem : piece ∈ pieces)
    (hlong : size < piece.length) (h : fixedLoop size defaultOverlap piece fuel 0 0 = none) :
    markdownLoop fuel size index chunks pieces = none := by
  induction pieces generalizing index chunks with
  | nil => exact absurd hmem List.not_mem_nil
  | cons first pieces ih =>
    rw [markdownLoop]
    rcases List.mem_cons.mp hmem with rfl | hmem
    · rw [if_neg (by omega), h, Option.bind_none]
    · by_cases hfits : first.length ≤ size
      · rw [if_pos hfits]
        exact ih hmem
      · rw [if_neg hfits]
        cases fixedLoop size defaultOverlap first fuel 0 0 with
        | none => rfl
        | some sub => exact ih hmem

/-! ## Separators in order -/

/-- The batches are split one after the other, if each is that is no longer than what is left. -/
theorem splitLoop_isSome {size n : ℕ} {sub : List Cell → Option (List Chunk)}
    (hsub : ∀ t : List Cell, t.length ≤ n → (sub t).isSome) {chunks : List Chunk}
    {current : List Cell} {parts : List (List Cell × List Cell)}
    (h : (current ++ parts.flatMap fun p => p.1 ++ p.2).length ≤ n) :
    (splitLoop size sub chunks current parts).isSome := by
  induction parts generalizing chunks current with
  | nil =>
    rw [splitLoop]
    split
    · rfl
    · rw [Option.isSome_map]
      exact hsub current (by simpa using h)
  | cons p parts ih =>
    obtain ⟨glue, part⟩ := p
    rw [splitLoop]
    simp only [List.flatMap_cons, List.length_append] at h
    have hpart : (part ++ parts.flatMap fun p => p.1 ++ p.2).length ≤ n := by
      rw [List.length_append]
      omega
    by_cases hlong : size < (candidate current glue part).length
    · rw [if_pos hlong]
      by_cases hempty : current = []
      · rw [if_pos hempty]
        exact ih hpart
      · rw [if_neg hempty]
        obtain ⟨s, hs⟩ := Option.isSome_iff_exists.mp (hsub current (by omega))
        rw [hs, Option.bind_some]
        exact ih hpart
    · rw [if_neg hlong]
      apply ih
      unfold candidate
      split <;> simp only [List.length_append] <;> omega

/-- **Splitting ends**: a batch is no longer than its text. -/
theorem split_isSome {fuel size : ℕ} {overlap : ℤ} (hoverlap : overlap < size)
    {sep : List Char} {seps : List (List Char)} {text : List Cell} (hfuel : text.length < fuel) :
    (split fuel size overlap sep seps text).isSome := by
  induction seps generalizing sep text with
  | nil =>
    rw [split]
    exact fixedLoop_isSome 0 0 hoverlap (by omega) (by omega)
  | cons next seps ih =>
    rw [split]
    split
    · exact fixedLoop_isSome 0 0 hoverlap (by omega) (by omega)
    · apply splitLoop_isSome (n := fuel - 1)
      · exact fun t ht => ih (by omega)
      · rw [List.nil_append, splitOn_flatten]
        omega

/-! ## All strategies -/

/-- **The windows of a Markdown section move on**: the size is above the overlap, or no section is
cut. The other strategies have no condition. -/
def Strategy.Within (text : List Cell) : Strategy → Prop
  | .markdown size => defaultOverlap < size ∨ ∀ piece ∈ sections text, piece.length ≤ size
  | _ => True

/-- **Enough turns**: one more than there are characters. -/
theorem chunk_isSome {strategy : Strategy} {text : List Cell} (h : strategy.Proper)
    (hwithin : strategy.Within text) {fuel : ℕ} (hfuel : text.length < fuel) :
    (strategy.chunk fuel text).isSome := by
  cases strategy with
  | fixedLength size overlap =>
    exact fixedLoop_isSome 0 0 h.2.2 (by omega) (by omega)
  | sentence size => rfl
  | paragraph size => rfl
  | markdown size =>
    apply markdownLoop_isSome
    intro piece hpiece hlong
    have hlength := length_of_mem_sections hpiece
    rcases hwithin with hsize | hfits
    · exact fixedLoop_isSome 0 0 hsize (by omega) (by omega)
    · exact absurd (hfits piece hpiece) (by omega)
  | recursive size overlap separators => exact split_isSome h.2.2 hfuel
  | tokenWindow size overlap =>
    obtain ⟨chunks, hchunks⟩ := Option.isSome_iff_exists.mp
      (fixedLoop_isSome 0 0 h.2.2 (by omega : 0 < fuel) (by omega : (text.length : ℤ) < 0 + fuel))
    exact Option.isSome_iff_exists.mpr ⟨chunks, windowLoop_of_fixedLoop hchunks⟩

/-- **When a strategy terminates**: always, but for a Markdown section that is longer than a size of
at most 50. -/
theorem terminates_iff (strategy : Strategy) (text : List Char) (h : strategy.Proper) :
    (∃ fuel, (strategy.chunk fuel (mark text)).isSome) ↔ strategy.Within (mark text) := by
  constructor
  · rintro ⟨fuel, hfuel⟩
    cases strategy with
    | markdown size =>
      by_contra hno
      simp only [Strategy.Within, not_or, not_forall] at hno
      obtain ⟨hsize, piece, hpiece, hlong⟩ := hno
      have hnone := fixedLoop_eq_none fuel 0 (not_lt.mp hsize) (by omega : size < piece.length)
        le_rfl
      rw [Strategy.chunk, markdownLoop_eq_none hpiece (by omega) hnone] at hfuel
      cases hfuel
    | _ => trivial
  · intro hwithin
    exact ⟨_, chunk_isSome h hwithin (Nat.lt_succ_self _)⟩

/-- Windows of three characters that have one in common. -/
example : ((Strategy.fixedLength 3 1).chunk 4 (mark "abcde".toList)).map (List.map Chunk.text) =
    some ["abc", "cde"] := by decide +kernel

/-- A section of sixty characters and a size of fifty: the second window starts where the first one
did. -/
theorem not_terminates : ¬∀ (strategy : Strategy) (text : List Char), strategy.Proper →
    ∃ fuel, (strategy.chunk fuel (mark text)).isSome := by
  intro h
  obtain ⟨fuel, hfuel⟩ := h (.markdown 50) (List.replicate 60 'a')
    (by decide : 1 ≤ 50)
  have hpiece : mark (List.replicate 60 'a') ∈ sections (mark (List.replicate 60 'a')) := by
    decide +kernel
  have hnone := fixedLoop_eq_none fuel 0 (by decide : (50 : ℕ) ≤ defaultOverlap)
    (by decide : 50 < (mark (List.replicate 60 'a')).length) le_rfl
  rw [Strategy.chunk, markdownLoop_eq_none hpiece (by decide) hnone] at hfuel
  cases hfuel

/-- The same section with a size of fifty-one: ten windows, each one character after the last. -/
theorem terminates_windows :
    ((Strategy.markdown 51).chunk 61 (mark (List.replicate 60 'a'))).map List.length = some 10 ∧
      ∃ fuel, ((Strategy.markdown 51).chunk fuel (mark (List.replicate 60 'a'))).isSome :=
  ⟨by decide +kernel, (terminates_iff (.markdown 51) (List.replicate 60 'a')
    (by decide : 1 ≤ 51)).mpr (.inl (by decide : defaultOverlap < 51))⟩

end Knowledge

import AiLabOs.Base.Joined
import AiLabOs.Knowledge.Termination
import Mathlib.Data.List.Flatten
import Mathlib.Data.List.Nodup
import Mathlib.Data.List.Pairwise
import Mathlib.Data.List.Induction

/-!
# Knowledge: sentences and paragraphs in groups

A chunk of sentences, or of paragraphs, is a group of them, joined and stripped.

## Main definitions

* `joined`, `groups`: the groups of a packing loop

## Main results

* `packLoop_eq`: the chunks are the groups, numbered
* `groups_flatten`: the groups have every part, in order
* `disjoint_parts`: no character is in two parts
-/

namespace Knowledge

open Joined

/-! ## Stripping -/

/-- The cells that are not blank. -/
def visible (text : List Cell) : List Cell := text.filter fun c => !c.blank

@[simp] theorem visible_nil : visible [] = [] := rfl

@[simp] theorem visible_append (a b : List Cell) : visible (a ++ b) = visible a ++ visible b :=
  List.filter_append ..

theorem mem_visible {text : List Cell} {c : Cell} :
    c ∈ visible text ↔ c ∈ text ∧ c.blank = false := by
  simp [visible]

theorem visible_eq_nil {text : List Cell} : visible text = [] ↔ blank text := by
  simp [visible, blank, List.filter_eq_nil_iff]

theorem visible_dropWhile (text : List Cell) :
    visible (text.dropWhile Cell.blank) = visible text := by
  induction text with
  | nil => rfl
  | cons c text ih =>
    rw [List.dropWhile_cons]
    split
    · rename_i hblank
      rw [ih, visible, visible, List.filter_cons_of_neg (by simp [hblank])]
    · rfl

/-- **Stripping** takes nothing visible away. -/
@[simp] theorem visible_strip (text : List Cell) : visible (strip text) = visible text := by
  have hreverse : ∀ t : List Cell, visible t.reverse = (visible t).reverse := fun t =>
    List.filter_reverse
  rw [strip, hreverse, visible_dropWhile, hreverse, List.reverse_reverse, visible_dropWhile]

/-- The first cell of what is stripped is visible. -/
theorem startsFirm_strip (text : List Cell) : StartsFirm Cell.blank (strip text) := by
  have hlead : strip text <+: text.dropWhile Cell.blank := by
    have hsuffix := List.dropWhile_suffix (l := (text.dropWhile Cell.blank).reverse) Cell.blank
    rw [← List.reverse_prefix, List.reverse_reverse] at hsuffix
    exact hsuffix
  obtain ⟨rest, hrest⟩ := hlead
  have hwhole : StartsFirm Cell.blank (text.dropWhile Cell.blank) := by
    intro c hc
    have hhead := List.head?_dropWhile_not Cell.blank text
    rw [Option.mem_def.mp hc] at hhead
    exact hhead
  rw [← hrest] at hwhole
  exact hwhole.of_append

/-- The last cell of what is stripped is visible. -/
theorem endsFirm_strip (text : List Cell) : EndsFirm Cell.blank (strip text) := by
  intro c hc
  rw [strip, List.getLast?_reverse] at hc
  have hhead := List.head?_dropWhile_not Cell.blank (text.dropWhile Cell.blank).reverse
  rw [Option.mem_def.mp hc] at hhead
  exact hhead

theorem dropWhile_of_startsFirm {text : List Cell} (h : StartsFirm Cell.blank text) :
    text.dropWhile Cell.blank = text := by
  cases text with
  | nil => rfl
  | cons c text => rw [List.dropWhile_cons, if_neg (by simp [h c rfl])]

/-- A text with visible ends is stripped. -/
theorem strip_of_firm {text : List Cell} (hstarts : StartsFirm Cell.blank text)
    (hends : EndsFirm Cell.blank text) : strip text = text := by
  have hreverse : StartsFirm Cell.blank text.reverse := by
    intro c hc
    rw [List.head?_reverse] at hc
    exact hends c hc
  rw [strip, dropWhile_of_startsFirm hstarts, dropWhile_of_startsFirm hreverse,
    List.reverse_reverse]

/-- **Stripping shortens** a text whose ends are not both visible. -/
theorem length_strip_lt {text : List Cell} (h : ¬(StartsFirm Cell.blank text ∧
    EndsFirm Cell.blank text)) : (strip text).length < text.length := by
  rcases Nat.lt_or_ge (strip text).length text.length with hlt | hge
  · exact hlt
  · have heq := (strip_sublist text).eq_of_length_le hge
    refine absurd ⟨?_, ?_⟩ h
    · rw [← heq]
      exact startsFirm_strip text
    · rw [← heq]
      exact endsFirm_strip text

/-! ## Groups -/

section Groups

variable (size : ℕ) (joint : List Cell)

/-- The text of a group with one more part. -/
def extend (current part : List Cell) : List Cell :=
  if current = [] then part else current ++ joint ++ part

/-- The text of a group. -/
def joined (group : List (List Cell)) : List Cell := group.foldl (extend joint) []

/-- The groups of parts. -/
def groups : List (List Cell) → List (List Cell) → List (List (List Cell))
  | group, [] => if group = [] then [] else [group]
  | group, part :: parts =>
    if size < (joined joint group).length + part.length ∧ group ≠ [] then
      group :: groups [part] parts
    else groups (group ++ [part]) parts

variable {size joint} {group parts : List (List Cell)}

@[simp] theorem joined_append_singleton (group : List (List Cell)) (part : List Cell) :
    joined joint (group ++ [part]) = extend joint (joined joint group) part := by
  rw [joined, List.foldl_append]
  rfl

@[simp] theorem joined_singleton (joint part : List Cell) : joined joint [part] = part := rfl

/-- **The groups have every part**, in order. -/
theorem groups_flatten : (groups size joint group parts).flatten = group ++ parts := by
  induction parts generalizing group with
  | nil =>
    rw [groups]
    split
    · rename_i hempty
      simp [hempty]
    · simp
  | cons part parts ih =>
    rw [groups]
    split
    · rw [List.flatten_cons, ih]
      rfl
    · rw [ih]
      simp

theorem groups_ne_nil {g : List (List Cell)} (h : g ∈ groups size joint group parts) : g ≠ [] := by
  induction parts generalizing group with
  | nil =>
    rw [groups] at h
    split at h
    · exact absurd h List.not_mem_nil
    · rename_i hne
      rwa [List.mem_singleton.mp h]
  | cons part parts ih =>
    rw [groups] at h
    split at h
    · rename_i hflush
      rcases List.mem_cons.mp h with rfl | h
      · exact hflush.2
      · exact ih h
    · exact ih h

/-- The visible cells of a group are those of its parts. -/
theorem visible_joined (hjoint : blank joint) (group : List (List Cell)) :
    visible (joined joint group) = visible group.flatten := by
  induction group using List.reverseRecOn with
  | nil => rfl
  | append_singleton group part ih =>
    rw [joined_append_singleton, List.flatten_append, visible_append, ← ih, extend]
    split
    · rename_i hempty
      simp [hempty]
    · rw [visible_append, visible_append, visible_eq_nil.mpr hjoint]
      simp

theorem not_blank_joined (hjoint : blank joint) (hgroup : ∀ part ∈ group, blank part = false)
    (hne : group ≠ []) : blank (joined joint group) = false := by
  rw [← Bool.not_eq_true, ← visible_eq_nil, visible_joined hjoint]
  obtain ⟨part, hpart⟩ := List.exists_mem_of_ne_nil group hne
  obtain ⟨c, hc, hvisible⟩ : ∃ c ∈ part, c.blank = false := by
    have hpart' := hgroup part hpart
    simpa [blank] using hpart'
  intro hnil
  have hmem : c ∈ visible group.flatten :=
    mem_visible.mpr ⟨List.mem_flatten.mpr ⟨part, hpart, hc⟩, hvisible⟩
  rw [hnil] at hmem
  exact absurd hmem List.not_mem_nil

theorem joined_eq_nil (hjoint : blank joint) (hgroup : ∀ part ∈ group, blank part = false) :
    joined joint group = [] ↔ group = [] := by
  constructor
  · intro hnil
    by_contra hne
    have hblank := not_blank_joined hjoint hgroup hne
    rw [hnil] at hblank
    cases hblank
  · rintro rfl
    rfl

/-- **The chunks of a packing loop** are the groups, stripped and numbered. -/
theorem packLoop_eq (size : ℕ) (hjoint : blank joint) (hgroup : ∀ part ∈ group, blank part = false)
    (hparts : ∀ part ∈ parts, blank part = false) (index : ℕ) :
    packLoop size joint (joined joint group) index parts =
      ((groups size joint group parts).zipIdx index).map fun entry =>
        ⟨entry.2, strip (joined joint entry.1), (joined joint entry.1).length⟩ := by
  induction parts generalizing group index with
  | nil =>
    rw [packLoop, groups]
    by_cases hempty : group = []
    · rw [if_pos hempty, hempty]
      rfl
    · rw [if_neg hempty, not_blank_joined hjoint hgroup hempty]
      rfl
  | cons part parts ih =>
    have hpart := hparts part List.mem_cons_self
    have hrest : ∀ p ∈ parts, blank p = false := fun p hp => hparts p (List.mem_cons_of_mem _ hp)
    rw [packLoop, groups]
    have hnil := joined_eq_nil hjoint hgroup
    by_cases hflush : size < (joined joint group).length + part.length ∧ group ≠ []
    · rw [if_pos ⟨hflush.1, hnil.not.mpr hflush.2⟩, if_pos hflush, List.zipIdx_cons, List.map_cons]
      have hind := ih (List.forall_mem_singleton.mpr hpart) hrest (index + 1)
      rw [joined_singleton] at hind
      rw [hind]
    · rw [if_neg fun h => hflush ⟨h.1, hnil.not.mp h.2⟩, if_neg hflush]
      have hind := ih (List.forall_mem_append.mpr ⟨hgroup, List.forall_mem_singleton.mpr hpart⟩)
        hrest index
      rw [joined_append_singleton] at hind
      exact hind

/-- The contents of the chunks of a packing loop. -/
theorem packLoop_contents (hjoint : blank joint) (hparts : ∀ part ∈ parts, blank part = false) :
    (packLoop size joint [] 0 parts).map Chunk.content =
      (groups size joint [] parts).map fun g => strip (joined joint g) := by
  have hnone : ∀ part ∈ ([] : List (List Cell)), blank part = false :=
    fun part hpart => absurd hpart List.not_mem_nil
  have heq := packLoop_eq size hjoint hnone hparts 0
  rw [show joined joint [] = [] from rfl] at heq
  rw [heq, List.map_map]
  have hcontent : (Chunk.content ∘ fun entry : List (List Cell) × ℕ =>
      (⟨entry.2, strip (joined joint entry.1), (joined joint entry.1).length⟩ : Chunk)) =
      (fun g => strip (joined joint g)) ∘ Prod.fst := rfl
  rw [hcontent, ← List.map_map, List.zipIdx_map_fst]

end Groups

/-! ## The parts of a text -/

theorem flatten_map_strip_sublist (pieces : List (List Cell)) :
    ((pieces.map strip).flatten).Sublist pieces.flatten := by
  induction pieces with
  | nil => exact List.Sublist.refl _
  | cons piece pieces ih =>
    rw [List.map_cons, List.flatten_cons, List.flatten_cons]
    exact (strip_sublist piece).append ih

theorem sentencePieces_sublist (skipping : Bool) (text : List Cell) :
    ((sentencePieces skipping text).flatten).Sublist text := by
  induction text generalizing skipping with
  | nil => cases skipping <;> exact List.Sublist.refl _
  | cons c text ih =>
    rw [sentencePieces]
    split
    · exact (ih true).cons c
    · split
      · rw [List.flatten_cons]
        exact (ih true).cons_cons c
      · rw [flatten_consHead]
        exact (ih false).cons_cons c

/-- **The sentences** have the visible cells of the text. -/
theorem visible_sentencePieces (skipping : Bool) (text : List Cell) :
    visible (sentencePieces skipping text).flatten = visible text := by
  induction text generalizing skipping with
  | nil => cases skipping <;> rfl
  | cons c text ih =>
    have hcons : ∀ t : List Cell, visible (c :: t) = visible [c] ++ visible t := fun t =>
      visible_append [c] t
    rw [sentencePieces]
    split
    · rename_i hskip
      have hblank : c.blank = true := (Bool.and_eq_true_iff.mp hskip).2
      have hnil : visible [c] = [] := visible_eq_nil.mpr (by simp [blank, hblank])
      rw [ih, hcons, hnil, List.nil_append]
    · split
      · rw [List.flatten_cons, List.singleton_append, hcons, ih, ← hcons]
      · rw [flatten_consHead, hcons, ih, ← hcons]

/-- Blank pieces have nothing visible. -/
theorem visible_filter (pieces : List (List Cell)) :
    visible (pieces.filter fun piece => !blank piece).flatten = visible pieces.flatten := by
  induction pieces with
  | nil => rfl
  | cons piece pieces ih =>
    rw [List.filter_cons]
    split
    · rw [List.flatten_cons, List.flatten_cons, visible_append, visible_append, ih]
    · rename_i hblank
      have hnil : visible piece = [] := visible_eq_nil.mpr (by simpa using hblank)
      rw [ih, List.flatten_cons, visible_append, hnil, List.nil_append]

theorem visible_map_strip (pieces : List (List Cell)) :
    visible (pieces.map strip).flatten = visible pieces.flatten := by
  induction pieces with
  | nil => rfl
  | cons piece pieces ih =>
    rw [List.map_cons, List.flatten_cons, List.flatten_cons, visible_append, visible_append, ih,
      visible_strip]

theorem sentences_sublist (text : List Cell) : ((sentences text).flatten).Sublist text :=
  (List.Sublist.flatten List.filter_sublist).trans (sentencePieces_sublist false text)

theorem visible_sentences (text : List Cell) :
    visible (sentences text).flatten = visible text := by
  rw [sentences, visible_filter, visible_sentencePieces]

theorem not_blank_sentences {text piece : List Cell} (h : piece ∈ sentences text) :
    blank piece = false := by
  simpa using (List.mem_filter.mp h).2

theorem parts_sublist (parts : List (List Cell × List Cell)) :
    ((parts.map Prod.snd).flatten).Sublist (parts.flatMap fun p => p.1 ++ p.2) := by
  induction parts with
  | nil => exact List.Sublist.refl _
  | cons p parts ih =>
    rw [List.map_cons, List.flatten_cons, List.flatMap_cons]
    exact (List.sublist_append_right p.1 p.2).append ih

theorem paragraphs_sublist (text : List Cell) : ((paragraphs text).flatten).Sublist text := by
  have hparts := parts_sublist (splitOn ['\n', '\n'] text)
  rw [splitOn_flatten] at hparts
  exact (flatten_map_strip_sublist _).trans
    ((List.Sublist.flatten List.filter_sublist).trans hparts)

theorem not_blank_paragraphs {text piece : List Cell} (h : piece ∈ paragraphs text) :
    blank piece = false := by
  obtain ⟨part, hpart, rfl⟩ := List.mem_map.mp h
  have hblank : blank part = false := by simpa using (List.mem_filter.mp hpart).2
  rw [← Bool.not_eq_true, ← visible_eq_nil] at hblank ⊢
  rwa [visible_strip]

/-! ## Positions -/

/-- The positions of a document are different. -/
theorem nodup_mark (text : List Char) : (mark text).Nodup := by
  have hpositions : ((mark text).map Cell.origin).Nodup := by
    have hmap : (mark text).map Cell.origin = (List.range' 0 text.length).map some := by
      rw [mark, List.map_map, ← List.zipIdx_map_snd, List.map_map]
      rfl
    rw [hmap]
    exact (List.nodup_range' 1).map fun _ _ h => Option.some.inj h
  exact List.Nodup.of_map _ hpositions

/-- **No character is in two parts** of a document. -/
theorem disjoint_parts {text : List Char} {parts : List (List Cell)}
    (h : parts.flatten.Sublist (mark text)) :
    parts.flatten.Nodup ∧ ∀ p ∈ parts, ∀ q ∈ parts, (∃ c ∈ p, c ∈ q) → p = q := by
  have hnodup := h.nodup (nodup_mark text)
  refine ⟨hnodup, ?_⟩
  have hpairs := (List.nodup_flatten.mp hnodup).2
  intro p hp q hq ⟨c, hcp, hcq⟩
  by_contra hne
  have hsymm : Std.Symm (List.Disjoint (α := Cell)) := ⟨fun _ _ h _ ha hb => h hb ha⟩
  exact hpairs.forall hp hq hne hcp hcq

end Knowledge

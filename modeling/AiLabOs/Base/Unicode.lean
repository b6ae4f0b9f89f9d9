import AiLabOs.Base.TextParts

/-!
# Unicode

What the code takes from the Unicode tables, and what it relies on there: lower case keeps the
unified ideographs and makes no others.

## Main definitions

* `Unicode`: the tables
* `Unicode.lower`: a text in lower case
* `Unicode.ascii`: tables of the ASCII letters

## Main results

* `Unicode.contains_of_lower`: a text of ideographs that lower case shows was there before
-/

/-- A character of the block of unified ideographs. -/
def isIdeograph (c : Char) : Bool := 0x4e00 ≤ c.toNat && c.toNat ≤ 0x9fff

/-- The tables. The lower case of a character may depend on what stands before and after it. -/
structure Unicode where
  isWord : Char → Bool
  lowerAt : List Char → Char → List Char → List Char
  lowerAt_ideograph : ∀ before c after, isIdeograph c = true → lowerAt before c after = [c]
  lowerAt_ne_nil : ∀ before c after, lowerAt before c after ≠ []
  lowerAt_other : ∀ before c after, isIdeograph c = false →
    ∀ d ∈ lowerAt before c after, isIdeograph d = false

namespace Unicode

variable (uni : Unicode)

/-- The characters in lower case, after those before them. -/
def lowerFrom (before : List Char) : List Char → List Char
  | [] => []
  | c :: after => uni.lowerAt before c after ++ lowerFrom (c :: before) after

/-- `s.lower()`. -/
def lower (s : String) : String := String.ofList (uni.lowerFrom [] s.toList)

section Ideographs

variable {uni} {part : List Char}

/-- A start that lower case shows, of ideographs, was the start before. -/
theorem prefix_of_lowerFrom (hpart : ∀ c ∈ part, isIdeograph c = true) {before s : List Char}
    (h : part <+: uni.lowerFrom before s) : part <+: s := by
  induction part generalizing before s with
  | nil => exact List.nil_prefix
  | cons x part ih =>
    cases s with
    | nil =>
      rw [lowerFrom, List.prefix_nil] at h
      cases h
    | cons c after =>
      rw [lowerFrom] at h
      have hx := hpart x (List.mem_cons_self ..)
      cases hc : isIdeograph c with
      | true =>
        rw [uni.lowerAt_ideograph _ _ _ hc, List.singleton_append, List.cons_prefix_cons] at h
        obtain ⟨rfl, h⟩ := h
        rw [List.cons_prefix_cons]
        exact ⟨rfl, ih (fun c hc => hpart c (List.mem_cons_of_mem _ hc)) h⟩
      | false =>
        cases hpiece : uni.lowerAt before c after with
        | nil => exact absurd hpiece (uni.lowerAt_ne_nil _ _ _)
        | cons d piece =>
          have hd := uni.lowerAt_other _ _ _ hc d (hpiece ▸ List.mem_cons_self ..)
          rw [hpiece, List.cons_append, List.cons_prefix_cons] at h
          rw [h.1, hd] at hx
          cases hx

/-- Characters that are no ideographs hold no part of ideographs. -/
theorem infix_of_append {piece rest : List Char} (hne : part ≠ [])
    (hpart : ∀ c ∈ part, isIdeograph c = true) (hpiece : ∀ c ∈ piece, isIdeograph c = false)
    (h : part <:+: piece ++ rest) : part <:+: rest := by
  induction piece with
  | nil => exact h
  | cons d piece ih =>
    rw [List.cons_append, List.infix_cons_iff] at h
    rcases h with h | h
    · cases part with
      | nil => exact absurd rfl hne
      | cons x part =>
        have hx := hpart x (List.mem_cons_self ..)
        rw [(List.cons_prefix_cons.mp h).1, hpiece d (List.mem_cons_self ..)] at hx
        cases hx
    · exact ih (fun c hc => hpiece c (List.mem_cons_of_mem _ hc)) h

theorem infix_of_lowerFrom (hne : part ≠ []) (hpart : ∀ c ∈ part, isIdeograph c = true)
    {before s : List Char} (h : part <:+: uni.lowerFrom before s) : part <:+: s := by
  induction s generalizing before with
  | nil => exact h
  | cons c after ih =>
    cases hc : isIdeograph c with
    | true =>
      rw [List.infix_cons_iff]
      have hshown : uni.lowerFrom before (c :: after) = c :: uni.lowerFrom (c :: before) after := by
        rw [lowerFrom, uni.lowerAt_ideograph _ _ _ hc, List.singleton_append]
      rw [hshown, List.infix_cons_iff, ← hshown] at h
      exact h.imp (prefix_of_lowerFrom hpart) ih
    | false =>
      rw [lowerFrom] at h
      exact (ih (infix_of_append hne hpart (uni.lowerAt_other _ _ _ hc) h)).trans
        (List.suffix_cons c after).isInfix

/-- **A text of ideographs** that a text has in lower case it has as it is. -/
theorem contains_of_lower {s part : String} (hne : part ≠ "")
    (hpart : part.toList.all isIdeograph = true) (h : Text.contains (uni.lower s) part = true) :
    Text.contains s part = true := by
  unfold Text.contains lower at *
  rw [decide_eq_true_eq, String.toList_ofList] at h
  rw [decide_eq_true_eq]
  refine infix_of_lowerFrom ?_ (List.all_eq_true.mp hpart) h
  rw [Ne, String.toList_eq_nil_iff]
  exact hne

end Ideographs

/-- `A` to `Z` in lower case, and every other character as it is. -/
def asciiLower (c : Char) : Char :=
  if 65 ≤ c.toNat ∧ c.toNat ≤ 90 then Char.ofNat (c.toNat + 32) else c

theorem isIdeograph_ofNat : ∀ n < 91, isIdeograph (Char.ofNat (n + 32)) = false := by decide

theorem asciiLower_ideograph {c : Char} (h : isIdeograph c = true) : asciiLower c = c := by
  unfold isIdeograph at h
  rw [Bool.and_eq_true, decide_eq_true_eq] at h
  exact if_neg fun hletter => by omega

theorem isIdeograph_asciiLower {c : Char} (h : isIdeograph c = false) :
    isIdeograph (asciiLower c) = false := by
  unfold asciiLower
  split
  · exact isIdeograph_ofNat _ (by omega)
  · exact h

/-- Tables that know the ASCII letters and the ideographs. -/
def ascii : Unicode where
  isWord := fun c => c.isAlphanum || c == '_' || isIdeograph c
  lowerAt := fun _ c _ => [asciiLower c]
  lowerAt_ideograph := fun _ _ _ h => congrArg (· :: []) (asciiLower_ideograph h)
  lowerAt_ne_nil := fun _ _ _ => List.cons_ne_nil _ _
  lowerAt_other := fun _ _ _ h d hd => by
    rw [List.mem_singleton.mp hd]
    exact isIdeograph_asciiLower h

end Unicode

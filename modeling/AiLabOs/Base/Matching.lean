import AiLabOs.Base.Regex
import Mathlib.Data.List.Basic
import Mathlib.Data.List.Infix

/-!
# Matches of regular expressions

Where the matches of an expression can end, as a relation on the text between two places.

## Main definitions

* `Regex.Spans`: the text between two places
* `Regex.atLeast`: `r{n,}`
* `Regex.Greedy`: an expression that prefers the longest match
* `Regex.first`: the preferred match from a place

## Main results

* `Regex.spans_of_mem_ends`: a match is a text from its place on
* `Regex.mem_ends_seq`, `mem_ends_lit`, `mem_ends_atLeast`: the matches of an expression
* `Regex.search_eq_some_iff`: what a search finds
-/

namespace Regex

/-! ## The text between two places -/

/-- The text between two places. -/
structure Spans (c d : Place) (w : List Char) : Prop where
  after : c.after = w ++ d.after
  before : d.before = w.reverse ++ c.before

theorem Spans.refl (c : Place) : Spans c c [] := ⟨rfl, rfl⟩

theorem Spans.trans {c d e : Place} {w v : List Char} (h : Spans c d w) (h' : Spans d e v) :
    Spans c e (w ++ v) :=
  ⟨by rw [h.after, h'.after, List.append_assoc], by
    rw [h'.before, h.before, List.reverse_append, List.append_assoc]⟩

theorem Spans.eq {c d e : Place} {w : List Char} (h : Spans c d w) (h' : Spans c e w) : d = e := by
  obtain ⟨before, after⟩ := d
  obtain ⟨before', after'⟩ := e
  have hafter : w ++ after = w ++ after' := h.after.symm.trans h'.after
  have hbefore : before = before' := h.before.trans h'.before.symm
  rw [hbefore, List.append_cancel_left hafter]

theorem spans_nil_iff {c d : Place} : Spans c d [] ↔ d = c := by
  constructor
  · intro h
    exact h.eq (Spans.refl c)
  · rintro rfl
    exact Spans.refl d

theorem spans_cons_iff {c d : Place} {x : Char} {w : List Char} :
    Spans c d (x :: w) ↔ ∃ e, Spans c e [x] ∧ Spans e d w := by
  constructor
  · intro h
    refine ⟨⟨x :: c.before, w ++ d.after⟩, ⟨h.after, rfl⟩, ⟨rfl, ?_⟩⟩
    rw [h.before, List.reverse_cons, List.append_assoc]
    rfl
  · rintro ⟨e, hx, hw⟩
    exact hx.trans hw

theorem spans_append_iff {c d : Place} {w v : List Char} :
    Spans c d (w ++ v) ↔ ∃ e, Spans c e w ∧ Spans e d v := by
  constructor
  · intro h
    refine ⟨⟨w.reverse ++ c.before, v ++ d.after⟩, ⟨?_, rfl⟩, ⟨rfl, ?_⟩⟩
    · rw [h.after, List.append_assoc]
    · rw [h.before, List.reverse_append, List.append_assoc]
  · rintro ⟨e, hw, hv⟩
    exact hw.trans hv

theorem Spans.length {c d : Place} {w : List Char} (h : Spans c d w) :
    c.after.length = w.length + d.after.length := by
  rw [h.after, List.length_append]

/-- The character before the end of a text that is not empty is its last one. -/
theorem Spans.head?_before {c d : Place} {w : List Char} (h : Spans c d w) (hw : w ≠ []) :
    d.before.head? = w.getLast? := by
  rw [h.before, List.head?_append, List.head?_reverse]
  cases hlast : w.getLast? with
  | none => exact absurd (List.getLast?_eq_none_iff.mp hlast) hw
  | some x => rfl

theorem between_eq {c d : Place} {w : List Char} (h : Spans c d w) :
    between c d = String.ofList w := by
  rw [between, h.length, Nat.add_sub_cancel, h.after, List.take_left]

/-! ## Where a match can end -/

section Ends

attribute [local simp] ends repeatFrom

theorem mem_repeatFrom {step : Place → List Place} {n : ℕ} {c d : Place} :
    d ∈ repeatFrom step (n + 1) c ↔
      (∃ e ∈ step c, e.after.length < c.after.length ∧ d ∈ repeatFrom step n e) ∨ d = c := by
  rw [repeatFrom, List.mem_append, List.mem_singleton, List.mem_flatMap]
  refine or_congr_left (exists_congr fun e => ?_)
  rw [List.mem_filter, decide_eq_true_eq, and_assoc]

/-- **A match** is a text from its place on. -/
theorem spans_of_mem_ends {r : Regex} {c d : Place} (h : d ∈ r.ends c) : ∃ w, Spans c d w := by
  induction r generalizing c d with
  | set p =>
    obtain ⟨before, after⟩ := c
    cases after with
    | nil => cases h
    | cons x after =>
      rw [ends] at h
      split at h
      · rw [List.mem_singleton.mp h]
        exact ⟨[x], rfl, rfl⟩
      · cases h
  | look p =>
    rw [ends] at h
    split at h
    · rw [List.mem_singleton.mp h]
      exact ⟨[], Spans.refl c⟩
    · cases h
  | seq r s hr hs =>
    obtain ⟨e, he, hd⟩ := List.mem_flatMap.mp h
    obtain ⟨w, hw⟩ := hr he
    obtain ⟨v, hv⟩ := hs hd
    exact ⟨w ++ v, hw.trans hv⟩
  | alt r s hr hs =>
    rcases List.mem_append.mp h with h | h
    · exact hr h
    · exact hs h
  | many r hr =>
    rw [ends] at h
    generalize c.after.length = n at h
    induction n generalizing c with
    | zero =>
      rw [List.mem_singleton.mp h]
      exact ⟨[], Spans.refl c⟩
    | succ n ih =>
      rcases mem_repeatFrom.mp h with ⟨e, he, -, hd⟩ | rfl
      · obtain ⟨w, hw⟩ := hr he
        obtain ⟨v, hv⟩ := ih hd
        exact ⟨w ++ v, hw.trans hv⟩
      · exact ⟨[], Spans.refl d⟩

theorem mem_ends_set {p : Char → Bool} {c d : Place} :
    d ∈ (set p).ends c ↔ ∃ x, p x = true ∧ Spans c d [x] := by
  obtain ⟨before, after⟩ := c
  constructor
  · intro h
    cases after with
    | nil => cases h
    | cons x after =>
      rw [ends] at h
      split at h
      · rename_i hx
        rw [List.mem_singleton.mp h]
        exact ⟨x, hx, rfl, rfl⟩
      · cases h
  · rintro ⟨x, hx, hafter, hbefore⟩
    obtain ⟨before', after'⟩ := d
    obtain rfl : after = x :: after' := hafter
    obtain rfl : before' = x :: before := hbefore
    rw [ends, if_pos hx]
    exact List.mem_cons_self

theorem mem_ends_look {p : Place → Bool} {c d : Place} :
    d ∈ (look p).ends c ↔ d = c ∧ p c = true := by
  rw [ends]
  split
  · rename_i hp
    rw [List.mem_singleton, and_iff_left hp]
  · rename_i hp
    exact iff_of_false List.not_mem_nil fun h => hp h.2

theorem mem_ends_seq {r s : Regex} {c d : Place} :
    d ∈ (seq r s).ends c ↔ ∃ e ∈ r.ends c, d ∈ s.ends e := List.mem_flatMap

theorem mem_ends_lit {s : String} {c d : Place} :
    d ∈ (lit s).ends c ↔ Spans c d s.toList := by
  unfold lit
  induction s.toList generalizing c with
  | nil =>
    rw [List.foldr_nil, mem_ends_look, spans_nil_iff]
    exact and_iff_left rfl
  | cons x w ih =>
    rw [List.foldr_cons, mem_ends_seq, spans_cons_iff]
    refine exists_congr fun e => ?_
    rw [ih, char, mem_ends_set]
    refine and_congr_left fun _ => ?_
    constructor
    · rintro ⟨y, hy, hspans⟩
      rwa [beq_iff_eq.mp hy] at hspans
    · exact fun h => ⟨x, beq_self_eq_true x, h⟩

/-- A run of characters of a set. -/
theorem mem_ends_many {p : Char → Bool} {c d : Place} :
    d ∈ (many (set p)).ends c ↔ ∃ w, (∀ x ∈ w, p x = true) ∧ Spans c d w := by
  rw [ends]
  have hrun : ∀ (n : ℕ) (c : Place), c.after.length ≤ n →
      (d ∈ repeatFrom (set p).ends n c ↔ ∃ w, (∀ x ∈ w, p x = true) ∧ Spans c d w) := by
    intro n
    induction n with
    | zero =>
      intro c hc
      rw [repeatFrom, List.mem_singleton]
      constructor
      · rintro rfl
        exact ⟨[], fun x hx => absurd hx List.not_mem_nil, Spans.refl d⟩
      · rintro ⟨w, -, hw⟩
        have hlength := hw.length
        obtain rfl := List.length_eq_zero_iff.mp (by omega : w.length = 0)
        exact spans_nil_iff.mp hw
    | succ n ih =>
      intro c hc
      rw [mem_repeatFrom]
      constructor
      · rintro (⟨e, he, hless, hd⟩ | rfl)
        · obtain ⟨x, hx, hspans⟩ := mem_ends_set.mp he
          obtain ⟨w, hw, hrest⟩ := (ih e (by omega)).mp hd
          exact ⟨x :: w, List.forall_mem_cons.mpr ⟨hx, hw⟩, hspans.trans hrest⟩
        · exact ⟨[], fun x hx => absurd hx List.not_mem_nil, Spans.refl d⟩
      · rintro ⟨w, hw, hspans⟩
        cases w with
        | nil => exact .inr (spans_nil_iff.mp hspans)
        | cons x w =>
          obtain ⟨e, hx, hrest⟩ := spans_cons_iff.mp hspans
          have hlength := hx.length
          rw [List.length_singleton] at hlength
          obtain ⟨hpx, hw⟩ := List.forall_mem_cons.mp hw
          exact .inl ⟨e, mem_ends_set.mpr ⟨x, hpx, hx⟩, by omega,
            (ih e (by omega)).mpr ⟨w, hw, hrest⟩⟩
  exact hrun _ c le_rfl

/-- `r{n,}`. -/
def atLeast : ℕ → Regex → Regex
  | 0, r => .many r
  | n + 1, r => .seq r (atLeast n r)

end Ends

/-- A run of at least so many characters of a set. -/
theorem mem_ends_atLeast {n : ℕ} {p : Char → Bool} {c d : Place} :
    d ∈ (atLeast n (set p)).ends c ↔
      ∃ w, n ≤ w.length ∧ (∀ x ∈ w, p x = true) ∧ Spans c d w := by
  induction n generalizing c with
  | zero => simp [atLeast, mem_ends_many]
  | succ n ih =>
    rw [atLeast, mem_ends_seq]
    constructor
    · rintro ⟨e, he, hd⟩
      obtain ⟨x, hx, hspans⟩ := mem_ends_set.mp he
      obtain ⟨w, hlength, hw, hrest⟩ := ih.mp hd
      exact ⟨x :: w, Nat.succ_le_succ hlength, List.forall_mem_cons.mpr ⟨hx, hw⟩,
        hspans.trans hrest⟩
    · rintro ⟨w, hlength, hw, hspans⟩
      cases w with
      | nil => cases hlength
      | cons x w =>
        obtain ⟨e, hx, hrest⟩ := spans_cons_iff.mp hspans
        obtain ⟨hpx, hw⟩ := List.forall_mem_cons.mp hw
        exact ⟨e, mem_ends_set.mpr ⟨x, hpx, hx⟩,
          ih.mpr ⟨w, Nat.le_of_succ_le_succ hlength, hw, hrest⟩⟩

/-! ## The preferred match -/

/-- The preferred match from a place. -/
def first (r : Regex) (c : Place) : Option Place := (r.ends c).head?

theorem first_eq_none_iff {r : Regex} {c : Place} : r.first c = none ↔ ∀ d, d ∉ r.ends c := by
  rw [first, List.head?_eq_none_iff, List.eq_nil_iff_forall_not_mem]

theorem mem_of_first {r : Regex} {c d : Place} (h : r.first c = some d) : d ∈ r.ends c :=
  List.mem_of_mem_head? h

/-- The longer matches are preferred. -/
def Greedy (r : Regex) : Prop :=
  ∀ c, (r.ends c).Pairwise fun d e => d.after.length < e.after.length

/-- **The preferred match** is the longest one. -/
theorem Greedy.first_le {r : Regex} (hr : r.Greedy) {c d e : Place} (h : r.first c = some d)
    (he : e ∈ r.ends c) : d.after.length ≤ e.after.length := by
  have hpairs := hr c
  cases hends : r.ends c with
  | nil =>
    rw [hends] at he
    cases he
  | cons d' rest =>
    rw [first, hends] at h
    obtain rfl := Option.some.inj h
    rw [hends] at hpairs he
    rcases List.mem_cons.mp he with rfl | he
    · exact le_rfl
    · exact (List.rel_of_pairwise_cons hpairs he).le

theorem length_ends_set (p : Char → Bool) (c : Place) : ((set p).ends c).length ≤ 1 := by
  obtain ⟨before, after⟩ := c
  cases after with
  | nil => exact Nat.zero_le 1
  | cons x after =>
    rw [ends]
    split <;> simp

theorem length_ends_look (p : Place → Bool) (c : Place) : ((look p).ends c).length ≤ 1 := by
  rw [ends]
  split <;> simp

/-- An expression with one match at most, before a greedy one. -/
theorem Greedy.seq {r s : Regex} (hr : ∀ c, (r.ends c).length ≤ 1) (hs : s.Greedy) :
    (seq r s).Greedy := by
  intro c
  have hlength := hr c
  rw [ends]
  cases hends : r.ends c with
  | nil => exact List.Pairwise.nil
  | cons d rest =>
    rw [hends, List.length_cons] at hlength
    obtain rfl := List.length_eq_zero_iff.mp (by omega : rest.length = 0)
    rw [List.flatMap_singleton]
    exact hs d

theorem length_ends_seq {r s : Regex} (hr : ∀ c, (r.ends c).length ≤ 1)
    (hs : ∀ c, (s.ends c).length ≤ 1) (c : Place) : ((seq r s).ends c).length ≤ 1 := by
  have hlength := hr c
  rw [ends]
  cases hends : r.ends c with
  | nil => exact Nat.zero_le 1
  | cons d rest =>
    rw [hends, List.length_cons] at hlength
    obtain rfl := List.length_eq_zero_iff.mp (by omega : rest.length = 0)
    rw [List.flatMap_singleton]
    exact hs d

theorem length_ends_lit (s : String) (c : Place) : ((lit s).ends c).length ≤ 1 := by
  unfold lit
  induction s.toList generalizing c with
  | nil => exact length_ends_look _ c
  | cons x w ih => exact length_ends_seq (length_ends_set _) ih c

theorem greedy_many (p : Char → Bool) : (many (set p)).Greedy := by
  intro c
  rw [ends]
  generalize c.after.length = n
  induction n generalizing c with
  | zero => exact List.pairwise_singleton _ c
  | succ n ih =>
    rw [repeatFrom, List.pairwise_append]
    have hlength := length_ends_set p c
    refine ⟨?_, List.pairwise_singleton _ c, ?_⟩
    · cases hends : (set p).ends c with
      | nil => exact List.Pairwise.nil
      | cons d rest =>
        rw [hends, List.length_cons] at hlength
        obtain rfl := List.length_eq_zero_iff.mp (by omega : rest.length = 0)
        rw [List.filter_cons]
        split
        · rw [List.filter_nil, List.flatMap_singleton]
          exact ih d
        · exact List.Pairwise.nil
    · intro d hd e he
      rw [List.mem_singleton.mp he]
      obtain ⟨f, hf, hdf⟩ := List.mem_flatMap.mp hd
      obtain ⟨hmem, hless⟩ := List.mem_filter.mp hf
      rw [decide_eq_true_eq] at hless
      -- what follows only takes more
      have hle : d.after.length ≤ f.after.length := by
        clear hd hless hmem hf ih hlength
        induction n generalizing f with
        | zero => rw [List.mem_singleton.mp hdf]
        | succ n ih =>
          rcases mem_repeatFrom.mp hdf with ⟨g, hg, hless, hdg⟩ | rfl
          · exact (ih g hdg).trans hless.le
          · exact le_rfl
      omega

theorem greedy_atLeast (n : ℕ) (p : Char → Bool) : (atLeast n (set p)).Greedy := by
  induction n with
  | zero => exact greedy_many p
  | succ n ih => exact .seq (length_ends_set p) ih

/-- A condition at the end of a greedy expression. -/
theorem Greedy.seq_look {r : Regex} (hr : r.Greedy) (p : Place → Bool) :
    (Regex.seq r (look p)).Greedy := by
  intro c
  have hfilter : (Regex.seq r (look p)).ends c = (r.ends c).filter p := by
    rw [ends]
    induction r.ends c with
    | nil => rfl
    | cons d rest ih =>
      rw [List.flatMap_cons, ih, List.filter_cons, ends]
      split <;> rfl
  rw [hfilter]
  exact (hr c).sublist List.filter_sublist

/-- **A run before an expression** that matches nothing where the run could go on. -/
theorem Greedy.run_seq {s : Regex} (hs : s.Greedy) {p : Char → Bool} (n : ℕ)
    (hstop : ∀ c x after, c.after = x :: after → p x = true → s.ends c = []) :
    (Regex.seq (atLeast n (set p)) s).Greedy := by
  intro c
  rw [ends, List.pairwise_flatMap]
  refine ⟨fun e _ => hs e, ?_⟩
  refine ((greedy_atLeast n p) c).imp_of_mem ?_
  intro d e hd he hless x hx y hy
  -- the shorter run could go on
  obtain ⟨w, -, hw, hspans⟩ := mem_ends_atLeast.mp hd
  obtain ⟨v, -, -, hspans'⟩ := mem_ends_atLeast.mp he
  have heq := hspans.after.symm.trans hspans'.after
  rcases List.append_eq_append_iff.mp heq with ⟨m, -, hm⟩ | ⟨m, rfl, hm⟩
  · have hlength := congrArg List.length hm
    rw [List.length_append] at hlength
    omega
  · cases m with
    | nil =>
      rw [List.nil_append] at hm
      rw [hm] at hless
      exact absurd hless (lt_irrefl _)
    | cons z m =>
      rw [hstop e z (m ++ d.after) hm (hw z (by simp))] at hy
      cases hy

/-! ## Searching -/

/-- **What a search finds**: the preferred match from the first place that has one. -/
theorem searchFrom_eq_some_iff {r : Regex} {before after : List Char} {m : String} :
    r.searchFrom before after = some m ↔ ∃ u rest, after = u ++ rest ∧
      (r.first ⟨u.reverse ++ before, rest⟩).map (between ⟨u.reverse ++ before, rest⟩) = some m ∧
      ∀ u' rest', after = u' ++ rest' → u'.length < u.length →
        r.first ⟨u'.reverse ++ before, rest'⟩ = none := by
  induction after generalizing before with
  | nil =>
    rw [searchFrom]
    constructor
    · intro h
      exact ⟨[], [], rfl, h, fun u' _ _ hless => absurd hless (Nat.not_lt_zero _)⟩
    · rintro ⟨u, rest, happend, h, -⟩
      obtain ⟨rfl, rfl⟩ := List.append_eq_nil_iff.mp happend.symm
      exact h
  | cons c after ih =>
    rw [searchFrom]
    cases hfirst : (r.ends ⟨before, c :: after⟩).head? with
    | some d =>
      dsimp only
      constructor
      · intro h
        refine ⟨[], c :: after, rfl, ?_, fun u' _ _ hless => absurd hless (Nat.not_lt_zero _)⟩
        rw [List.reverse_nil, List.nil_append, first, hfirst]
        exact h
      · rintro ⟨u, rest, happend, h, hnone⟩
        cases u with
        | nil =>
          obtain rfl := happend
          rw [List.reverse_nil, List.nil_append, first, hfirst] at h
          exact h
        | cons x u =>
          have hstart := hnone [] (c :: after) rfl (Nat.succ_pos _)
          rw [List.reverse_nil, List.nil_append, first, hfirst] at hstart
          cases hstart
    | none =>
      dsimp only
      rw [ih]
      constructor
      · rintro ⟨u, rest, rfl, h, hnone⟩
        refine ⟨c :: u, rest, rfl, ?_, ?_⟩
        · rw [List.reverse_cons, List.append_assoc]
          exact h
        · intro u' rest' happend hless
          cases u' with
          | nil =>
            obtain rfl := happend
            exact hfirst
          | cons x u' =>
            obtain ⟨rfl, htail⟩ := List.cons.inj happend
            rw [List.reverse_cons, List.append_assoc]
            exact hnone u' rest' htail (Nat.lt_of_succ_lt_succ hless)
      · rintro ⟨u, rest, happend, h, hnone⟩
        cases u with
        | nil =>
          obtain rfl := happend
          rw [List.reverse_nil, List.nil_append, first, hfirst] at h
          cases h
        | cons x u =>
          obtain ⟨rfl, htail⟩ := List.cons.inj happend
          refine ⟨u, rest, htail, ?_, ?_⟩
          · rw [List.reverse_cons, List.append_assoc] at h
            exact h
          · intro u' rest' happend' hless
            have hnext := hnone (c :: u') rest' (by rw [happend', List.cons_append])
              (Nat.succ_lt_succ hless)
            rw [List.reverse_cons, List.append_assoc] at hnext
            exact hnext

theorem search_eq_some_iff {r : Regex} {s m : String} : r.search s = some m ↔
    ∃ u rest, s.toList = u ++ rest ∧
      (r.first ⟨u.reverse, rest⟩).map (between ⟨u.reverse, rest⟩) = some m ∧
      ∀ u' rest', s.toList = u' ++ rest' → u'.length < u.length →
        r.first ⟨u'.reverse, rest'⟩ = none := by
  rw [search, searchFrom_eq_some_iff]
  simp only [List.append_nil]

end Regex

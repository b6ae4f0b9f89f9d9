import Mathlib.Data.List.Sort

/-!
# Trails

A trail is a list of steps, each of which leads from one state to another. It links two states when
every step begins where the one before it ended.

## Main definitions

* `Trail.Links src dst s l t`: the steps of `l` lead from `s` to `t`, one after the other

## Main results

* `Trail.links_append`, `Trail.Links.unique`: trails put together, and where a trail ends
* `Trail.links_sorted`: when two loops and two steps, put in some order, link the ends of the steps
-/

namespace Trail

variable {α σ : Type} {src dst : α → σ}

/-- The steps lead from `s` to `t`, one after the other. -/
def Links (src dst : α → σ) (s : σ) : List α → σ → Prop
  | [], t => s = t
  | a :: l, t => src a = s ∧ Links src dst (dst a) l t

@[simp] theorem links_nil {s t : σ} : Links src dst s [] t ↔ s = t := Iff.rfl

@[simp] theorem links_cons {s t : σ} {a : α} {l : List α} :
    Links src dst s (a :: l) t ↔ src a = s ∧ Links src dst (dst a) l t := Iff.rfl

instance instDecidableLinks [DecidableEq σ] : ∀ (s : σ) (l : List α) (t : σ),
    Decidable (Links src dst s l t)
  | s, [], t => inferInstanceAs (Decidable (s = t))
  | s, a :: l, t =>
    have := instDecidableLinks (dst a) l t
    inferInstanceAs (Decidable (src a = s ∧ Links src dst (dst a) l t))

/-- Trails put together pass through a state. -/
theorem links_append {s t : σ} {l l' : List α} :
    Links src dst s (l ++ l') t ↔ ∃ m, Links src dst s l m ∧ Links src dst m l' t := by
  induction l generalizing s with
  | nil => simp
  | cons a l ih => simp [ih, and_assoc]

/-- **A trail ends** in one state. -/
theorem Links.unique {s t t' : σ} {l : List α} (h : Links src dst s l t)
    (h' : Links src dst s l t') : t = t' := by
  induction l generalizing s with
  | nil => exact h.symm.trans h'
  | cons a l ih => exact ih h.2 h'.2

/-- A trail that has come to `m` goes on from there. -/
theorem Links.append_iff {s m t : σ} {l l' : List α} (h : Links src dst s l m) :
    Links src dst s (l ++ l') t ↔ Links src dst m l' t := by
  rw [links_append]
  constructor
  · rintro ⟨m', hm, ht⟩
    rwa [h.unique hm]
  · exact fun ht => ⟨m, h, ht⟩

/-- **Two loops and two steps** in the order `le`: they link the ends of the steps when the second
step follows the first, and each loop comes before both or, where the ends are the same, after
both. -/
theorem links_sorted {le : α → α → Prop} [DecidableRel le]
    (htrans : ∀ {x y z}, le x y → le y z → le x z) {a b c d : α} {s p t : σ} (hs : s ≠ p)
    (ht : t ≠ p) (ha : src a = s) (ha' : dst a = s) (hb : src b = s) (hb' : dst b = s)
    (hc : src c = s) (hc' : dst c = p) (hd : src d = p) (hd' : dst d = t) :
    Links src dst s ([a, b, c, d].insertionSort le) t ↔
      le c d ∧ (le a c ∨ ¬le a d ∧ t = s) ∧ (le b c ∨ ¬le b d ∧ t = s) := by
  have habc : le a b → le b c → le a c := htrans
  simp only [List.insertionSort_cons, List.insertionSort_nil, List.orderedInsert_nil,
    List.orderedInsert_cons]
  by_cases hcd : le c d
  · -- each loop is put before both steps, between them or after both
    simp only [if_pos hcd, List.orderedInsert_cons, List.orderedInsert_nil]
    by_cases hbc : le b c
    · simp only [if_pos hbc, List.orderedInsert_cons, List.orderedInsert_nil]
      split_ifs <;> simp_all [eq_comm]
    · simp only [if_neg hbc]
      split_ifs <;> simp_all [List.orderedInsert_cons] <;> split_ifs <;> simp_all [eq_comm]
  · -- the second step comes before the first, which alone leads to its beginning
    simp only [if_neg hcd, List.orderedInsert_cons, List.orderedInsert_nil]
    split_ifs <;> simp_all [List.orderedInsert_cons] <;> split_ifs <;> simp_all [eq_comm]

end Trail

import Mathlib.Data.List.Perm.Basic
import Mathlib.Data.List.Sort

/-!
# Selecting rows

`SELECT … WHERE … ORDER BY … LIMIT … OFFSET …` over a table, and its pages put together.

## Main definitions

* `select p le limit offset rows`: one page of the rows that satisfy `p`, in the order `le`
* `pages limit count query`: the first `count` pages of a query

## Main results

* `pages_select`: enough pages hold exactly the rows that satisfy the condition, each once
* `filter_perm_filter`: two conditions select the same rows exactly when they agree on every row
-/

namespace Query

variable {α β : Type}

/-- At most `limit` rows after the first `offset`. -/
def page (limit offset : ℕ) (rows : List α) : List α := (rows.drop offset).take limit

/-- `SELECT * … WHERE p ORDER BY le LIMIT limit OFFSET offset`. -/
def select (p : α → Bool) (le : α → α → Prop) [DecidableRel le] (limit offset : ℕ)
    (rows : List α) : List α :=
  page limit offset ((rows.filter p).insertionSort le)

/-- The first `count` pages of `limit` rows. -/
def pages (limit count : ℕ) (query : ℕ → List α) : List α :=
  (List.range count).flatMap fun k => query (k * limit)

theorem pages_page (limit count : ℕ) (rows : List α) :
    pages limit count (fun offset => page limit offset rows) = rows.take (count * limit) := by
  induction count with
  | zero => simp [pages]
  | succ count ih =>
    rw [pages] at ih
    rw [pages, List.range_succ, List.flatMap_append, ih, Nat.succ_mul, List.take_add]
    simp [page]

/-- **Enough pages** hold the rows that satisfy the condition, each once. -/
theorem pages_select {p : α → Bool} {le : α → α → Prop} [DecidableRel le] {limit count : ℕ}
    {rows : List α} (h : rows.length ≤ count * limit) :
    (pages limit count fun offset => select p le limit offset rows).Perm (rows.filter p) := by
  have hlen : ((rows.filter p).insertionSort le).length ≤ count * limit := by
    rw [List.length_insertionSort]
    exact (List.length_filter_le p rows).trans h
  unfold select
  rw [pages_page, List.take_of_length_le hlen]
  exact List.perm_insertionSort le _

/-- A page is the start of a page one row longer. -/
theorem take_select (p : α → Bool) (le : α → α → Prop) [DecidableRel le] (limit offset : ℕ)
    (rows : List α) :
    (select p le (limit + 1) offset rows).take limit = select p le limit offset rows := by
  rw [select, select, page, page, List.take_take, min_eq_left (Nat.le_succ limit)]

/-- Rows that stand for values are selected as the values are. -/
theorem select_map (f : β → α) (p : α → Bool) (le : α → α → Prop) [DecidableRel le]
    (limit offset : ℕ) (rows : List β) :
    select p le limit offset (rows.map f) =
      (select (fun b => p (f b)) (fun a b => le (f a) (f b)) limit offset rows).map f := by
  rw [select, select, page, page, List.filter_map, List.map_take, List.map_drop]
  congr 2
  exact (List.map_insertionSort (fun a b => le (f a) (f b)) le f _ fun a _ b _ => Iff.rfl).symm

/-- Rows sort alike by orders that agree. -/
theorem insertionSort_congr {le le' : α → α → Prop} [DecidableRel le] [DecidableRel le']
    (h : ∀ a b, le a b ↔ le' a b) (rows : List α) :
    rows.insertionSort le = rows.insertionSort le' := by
  obtain rfl : le = le' := funext fun a => funext fun b => propext (h a b)
  congr

/-- **Rows that come after all others** are sorted on their own. -/
theorem insertionSort_append (le : α → α → Prop) [DecidableRel le] {rows new : List α}
    (h : ∀ a ∈ rows, ∀ b ∈ new, le a b) :
    (rows ++ new).insertionSort le = rows.insertionSort le ++ new.insertionSort le := by
  have hinsert : ∀ (a : α) (l l' : List α), (∀ b ∈ l', le a b) →
      (l ++ l').orderedInsert le a = l.orderedInsert le a ++ l' := by
    intro a l l' hle
    induction l with
    | nil =>
      cases l' with
      | nil => rfl
      | cons b l' =>
        rw [List.nil_append, List.orderedInsert_cons, if_pos (hle b (List.mem_cons_self ..))]
        rfl
    | cons b l ih =>
      rw [List.cons_append, List.orderedInsert_cons, List.orderedInsert_cons, ih]
      split <;> rfl
  induction rows with
  | nil => rfl
  | cons a rows ih =>
    rw [List.cons_append, List.insertionSort_cons, List.insertionSort_cons,
      ih fun b hb => h b (List.mem_cons_of_mem _ hb)]
    refine hinsert a _ _ fun b hb => h a (List.mem_cons_self ..) b ?_
    exact (List.perm_insertionSort le new).mem_iff.mp hb

/-- Rows that the condition leaves out anyway can be left out first. -/
theorem select_filter {p q : α → Bool} (le : α → α → Prop) [DecidableRel le] (limit offset : ℕ)
    {rows : List α} (h : ∀ a ∈ rows, p a = true → q a = true) :
    select p le limit offset (rows.filter q) = select p le limit offset rows := by
  have hfilter : (rows.filter q).filter p = rows.filter p := by
    rw [List.filter_filter]
    refine List.filter_congr fun a ha => ?_
    cases hp : p a with
    | false => rfl
    | true => rw [h a ha hp]; rfl
  rw [select, select, hfilter]

/-- What is on a page satisfies the condition and is a row. -/
theorem mem_of_mem_select {p : α → Bool} {le : α → α → Prop} [DecidableRel le] {limit offset : ℕ}
    {rows : List α} {a : α} (h : a ∈ select p le limit offset rows) : a ∈ rows ∧ p a = true := by
  have hsorted : a ∈ (rows.filter p).insertionSort le :=
    List.mem_of_mem_drop (List.mem_of_mem_take h)
  exact List.mem_filter.mp ((List.perm_insertionSort le _).mem_iff.mp hsorted)

/-- A row that satisfies the condition is on some page. -/
theorem exists_mem_select {p : α → Bool} {le : α → α → Prop} [DecidableRel le] {limit : ℕ}
    (hlimit : 1 ≤ limit) {rows : List α} {a : α} (ha : a ∈ rows) (hp : p a = true) :
    ∃ offset, a ∈ select p le limit offset rows := by
  have hsorted : a ∈ (rows.filter p).insertionSort le :=
    (List.perm_insertionSort le _).mem_iff.mpr (List.mem_filter.mpr ⟨ha, hp⟩)
  obtain ⟨offset, hlt, rfl⟩ := List.mem_iff_getElem.mp hsorted
  refine ⟨offset, ?_⟩
  rw [select, page, List.drop_eq_getElem_cons hlt]
  obtain ⟨n, rfl⟩ := Nat.exists_eq_succ_of_ne_zero (Nat.one_le_iff_ne_zero.mp hlimit)
  exact List.mem_cons_self ..

/-- **Two conditions select the same rows** exactly when they agree on every row. -/
theorem filter_perm_filter {p q : α → Bool} {rows : List α} :
    (rows.filter p).Perm (rows.filter q) ↔ ∀ a ∈ rows, p a = q a := by
  constructor
  · intro h a ha
    have hiff := h.mem_iff (a := a)
    simp only [List.mem_filter, ha, true_and] at hiff
    exact Bool.eq_iff_iff.mpr hiff
  · intro h
    exact .of_eq (List.filter_congr h)

end Query

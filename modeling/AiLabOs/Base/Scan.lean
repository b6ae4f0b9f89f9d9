import AiLabOs.Base.Query

/-!
# Scanning rows in batches

A loop that fetches batches of rows, handles them one after the other, and stops when it has enough
or when a batch is not full.

## Main definitions

* `Scan.rows`: the rows of one batch, until there is enough
* `Scan.batches`: batch after batch

## Main results

* `Scan.batches_eq`: how the rows fall into batches makes no difference
-/

namespace Scan

variable {α σ ε : Type}

/-- `for row in batch`, with a `break` as soon as there is enough. -/
def rows (step : σ → α → Except ε σ) (enough : σ → Bool) : List α → σ → Except ε σ
  | [], s => .ok s
  | row :: rest, s =>
    match step s row with
    | .error e => .error e
    | .ok s => if enough s then .ok s else rows step enough rest s

/-- `while not enough`: fetch a batch of `size` rows and handle it; stop after one that is not full.
No more batches are fetched than the fuel allows. -/
def batches (fetch : ℕ → List α) (size : ℕ) (step : σ → α → Except ε σ) (enough : σ → Bool) :
    (fuel offset : ℕ) → σ → Except ε σ
  | 0, _, s => .ok s
  | fuel + 1, offset, s =>
    if enough s then .ok s
    else
      let batch := fetch offset
      if batch.length = 0 then .ok s
      else
        match rows step enough batch s with
        | .error e => .error e
        | .ok s =>
          if enough s || batch.length < size then .ok s
          else batches fetch size step enough fuel (offset + batch.length) s

section Batches

variable {step : σ → α → Except ε σ} {enough : σ → Bool}

/-- Rows handled in two parts. -/
theorem rows_append (first second : List α) (s : σ) :
    rows step enough (first ++ second) s =
      match rows step enough first s with
      | .error e => .error e
      | .ok t => if first ≠ [] ∧ enough t = true then .ok t else rows step enough second t := by
  induction first generalizing s with
  | nil => simp [rows]
  | cons row first ih =>
    rw [List.cons_append, rows, rows]
    cases step s row with
    | error e => rfl
    | ok t =>
      dsimp only
      cases hdone : enough t with
      | true => simp [hdone]
      | false =>
        simp only [Bool.false_eq_true, if_false]
        rw [ih]
        cases hrest : rows step enough first t with
        | error e => rfl
        | ok u =>
          cases first with
          | nil =>
            obtain rfl : t = u := by simpa [rows] using hrest
            simp [hdone]
          | cons row' first => simp

/-- **How the rows fall into batches** makes no difference, with fuel for every row and one more. -/
theorem batches_eq {size : ℕ} (hsize : 1 ≤ size) {all : List α} {fetch : ℕ → List α}
    (hfetch : ∀ offset, fetch offset = Query.page size offset all) {fuel offset : ℕ} {s : σ}
    (hfuel : all.length < offset + fuel) (hs : enough s = false) :
    batches fetch size step enough fuel offset s = rows step enough (all.drop offset) s := by
  induction fuel generalizing offset s with
  | zero =>
    rw [List.drop_eq_nil_of_le (by omega)]
    rfl
  | succ fuel ih =>
    have hlength : (fetch offset).length = min size (all.length - offset) := by
      rw [hfetch, Query.page, List.length_take, List.length_drop]
    have hsplit : all.drop offset = fetch offset ++ all.drop (offset + size) := by
      rw [hfetch, Query.page, ← List.drop_drop, List.take_append_drop]
    rw [batches, if_neg (by simp [hs])]
    dsimp only
    split
    · rename_i hempty
      rw [List.drop_eq_nil_of_le (by omega)]
      rfl
    · rename_i hne
      have hnil : fetch offset ≠ [] := fun h => hne (by rw [h]; rfl)
      rw [hsplit, rows_append]
      cases rows step enough (fetch offset) s with
      | error e => rfl
      | ok t =>
        dsimp only
        cases hdone : enough t with
        | true => simp [hnil]
        | false =>
          simp only [Bool.false_or, decide_eq_true_eq, Bool.false_eq_true, and_false, if_false]
          split
          · rename_i hlast
            rw [List.drop_eq_nil_of_le (by omega)]
            rfl
          · rename_i hfull
            have hsizeEq : (fetch offset).length = size := by omega
            rw [hsizeEq]
            exact ih (by omega) hdone

end Batches

end Scan

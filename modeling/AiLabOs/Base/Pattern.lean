import Mathlib.Data.List.Basic
import Mathlib.Tactic.Ring

/-!
# Patterns that read a value

Regular expressions with groups, matched the way a backtracking matcher does: from a text, a pattern
gives the values it can read at the start of it, each with the text that is left, the preferred one
first.

## Main definitions

* `Pattern`: what can be read at the start of a text
* `Pattern.one`, `words`, `run`, `exactly`, `orElse`, `optional`: the expressions
* `Pattern.First`: the first place of a text where a pattern reads something
* `Pattern.search`: `re.search`
* `Decimals`: the decimal digits of Unicode

## Main results

* `Pattern.search_eq_some_iff`: a search finds what is read at the first place
* `Decimals.number_take_iff`: when six digits have the value of all of them
-/

/-- What can be read at the start of a text, with what is left of it. -/
def Pattern (α : Type) : Type := List Char → List (α × List Char)

namespace Pattern

variable {α β : Type}

instance : Monad Pattern where
  pure a := fun s => [(a, s)]
  bind r f := fun s => List.flatMap (fun m => f m.1 m.2) (r s)

/-- One character of a set. -/
def one (p : Char → Bool) : Pattern Char
  | [] => []
  | c :: s => if p c then [(c, s)] else []

/-- One of several texts, each with the value it stands for. -/
def words (entries : List (String × α)) : Pattern α := fun s =>
  entries.filterMap fun entry =>
    if entry.1.toList.isPrefixOf s then some (entry.2, s.drop entry.1.length) else none

/-- As many characters of a set as there are, or fewer. -/
def run (p : Char → Bool) : Pattern (List Char)
  | [] => [([], [])]
  | c :: s => (if p c then (run p s).map fun m => (c :: m.1, m.2) else []) ++ [([], c :: s)]

/-- So many characters of a set. -/
def exactly (p : Char → Bool) : ℕ → Pattern (List Char)
  | 0 => pure []
  | n + 1 => do
    let c ← one p
    let cs ← exactly p n
    return c :: cs

/-- `r|q`. -/
def orElse (r q : Pattern α) : Pattern α := fun s => r s ++ q s

/-- `r?`. -/
def optional (r : Pattern α) : Pattern (Option α) := fun s =>
  (r s).map (fun m => (some m.1, m.2)) ++ [(none, s)]

/-- `re.match`: what is read at the start of a text, and what is left. -/
def matchStart (r : Pattern α) (s : List Char) : Option (α × List Char) := (r s).head?

/-- The first place where something is read: the text before it, what is read, and what is left. -/
def searchFrom (r : Pattern α) (before : List Char) :
    List Char → Option (List Char × α × List Char)
  | [] => (r.matchStart []).map fun m => (before.reverse, m)
  | c :: s =>
    match r.matchStart (c :: s) with
    | some m => some (before.reverse, m)
    | none => searchFrom r (c :: before) s

/-- `re.search`. -/
@[irreducible] def search (r : Pattern α) (s : List Char) : Option (List Char × α × List Char) :=
  r.searchFrom [] s

/-- **The first place** of a text where a pattern reads something, with what it prefers to read. -/
structure First (r : Pattern α) (s before : List Char) (a : α) (after : List Char) : Prop where
  read : ∃ t, s = before ++ t ∧ r.matchStart t = some (a, after)
  least : ∀ u t, s = u ++ t → u.length < before.length → r.matchStart t = none

variable {r : Pattern α} {s u v : List Char} {a : α}

theorem searchFrom_eq_some_iff {before : List Char} : r.searchFrom before s = some (u, a, v) ↔
    ∃ w, u = before.reverse ++ w ∧ First r s w a v := by
  induction s generalizing before with
  | nil =>
    rw [searchFrom, Option.map_eq_some_iff]
    constructor
    · rintro ⟨m, hm, heq⟩
      cases heq
      exact ⟨[], (List.append_nil _).symm, ⟨[], rfl, hm⟩, fun u t _ hlt => absurd hlt (by simp)⟩
    · rintro ⟨w, rfl, ⟨t, ht, hread⟩, -⟩
      obtain ⟨rfl, rfl⟩ := List.append_eq_nil_iff.mp ht.symm
      exact ⟨(a, v), hread, by rw [List.append_nil]⟩
  | cons c s ih =>
    rw [searchFrom]
    cases hhere : r.matchStart (c :: s) with
    | some m =>
      constructor
      · intro h
        cases h
        exact ⟨[], (List.append_nil _).symm, ⟨c :: s, rfl, hhere⟩,
          fun u t _ hlt => absurd hlt (by simp)⟩
      · rintro ⟨w, rfl, ⟨t, ht, hread⟩, hleast⟩
        cases w with
        | nil =>
          rw [List.nil_append] at ht
          rw [← ht, hhere] at hread
          rw [Option.some.inj hread, List.append_nil]
        | cons x w =>
          rw [hleast [] (c :: s) rfl (by simp)] at hhere
          cases hhere
    | none =>
      refine ih.trans ⟨?_, ?_⟩
      · -- what is found further on is the first, as nothing is read here
        rintro ⟨w, rfl, ⟨t, ht, hread⟩, hleast⟩
        refine ⟨c :: w, by simp, ⟨t, by rw [ht, List.cons_append], hread⟩, ?_⟩
        intro u t' heq hlt
        cases u with
        | nil =>
          rw [List.nil_append] at heq
          rw [← heq]
          exact hhere
        | cons x u =>
          exact hleast u t' (List.cons.inj heq).2 (by simpa using hlt)
      · rintro ⟨w, rfl, ⟨t, ht, hread⟩, hleast⟩
        cases w with
        | nil =>
          rw [List.nil_append] at ht
          rw [← ht, hhere] at hread
          cases hread
        | cons x w =>
          obtain ⟨rfl, hs⟩ := List.cons.inj ht
          refine ⟨w, by simp, ⟨t, hs, hread⟩, fun u t' heq hlt => ?_⟩
          exact hleast (c :: u) t' (by rw [heq, List.cons_append]) (by simpa using hlt)

/-- **A search** finds what is read at the first place. -/
theorem search_eq_some_iff : r.search s = some (u, a, v) ↔ First r s u a v := by
  rw [search, searchFrom_eq_some_iff]
  simp

end Pattern

/-! ## Decimal digits -/

/-- The characters of `\d`, with their values. -/
structure Decimals where
  value : Char → Option ℕ
  value_lt : ∀ {c : Char} {n : ℕ}, value c = some n → n < 10
  value_ascii : ∀ {c : Char}, c.isDigit = true → value c = some (c.toNat - 48)

namespace Decimals

variable (decimals : Decimals)

/-- A character of `\d`. -/
def isDecimal (c : Char) : Bool := (decimals.value c).isSome

/-- `int(s)` of digits. -/
def number (s : List Char) : ℕ := s.foldl (fun n c => 10 * n + (decimals.value c).getD 0) 0

theorem number_append (s t : List Char) :
    decimals.number (s ++ t) = decimals.number s * 10 ^ t.length + decimals.number t := by
  have hfold : ∀ (t : List Char) (n : ℕ),
      t.foldl (fun n c => 10 * n + (decimals.value c).getD 0) n =
        n * 10 ^ t.length + decimals.number t := by
    intro t
    induction t with
    | nil => simp [number]
    | cons c t ih =>
      intro n
      rw [number, List.foldl_cons, List.foldl_cons, ih, ih (10 * 0 + _), List.length_cons,
        Nat.pow_succ]
      ring
  rw [number, List.foldl_append, hfold]
  rfl

theorem number_zeros (n : ℕ) : decimals.number (List.replicate n '0') = 0 := by
  induction n with
  | zero => rfl
  | succ n ih =>
    rw [List.replicate_succ', number_append, ih, number, List.foldl_cons, List.foldl_nil,
      decimals.value_ascii (by decide)]
    rfl

/-- **Six digits of a fraction** have the value of all if the others are zeros. -/
theorem number_take_iff (s : List Char) :
    decimals.number ((s ++ List.replicate 6 '0').take 6) * 10 ^ s.length =
      decimals.number s * 1000000 ↔ decimals.number (s.drop 6) = 0 := by
  rcases Nat.le_total s.length 6 with hle | hle
  · have hpow : 10 ^ (6 - s.length) * 10 ^ s.length = 1000000 := by
      rw [← Nat.pow_add, Nat.sub_add_cancel hle]
    have htake : (s ++ List.replicate 6 '0').take 6 = s ++ List.replicate (6 - s.length) '0' := by
      rw [List.take_append, List.take_of_length_le hle, List.take_replicate,
        Nat.min_eq_left (Nat.sub_le ..)]
    rw [htake, number_append, number_zeros, List.length_replicate, Nat.add_zero, Nat.mul_assoc,
      hpow, List.drop_eq_nil_of_le hle]
    exact iff_of_true rfl rfl
  · have hpow : 10 ^ s.length = 10 ^ (s.length - 6) * 1000000 := by
      rw [← Nat.sub_add_cancel hle, Nat.pow_add, Nat.add_sub_cancel]
    have hsplit := decimals.number_append (s.take 6) (s.drop 6)
    rw [List.take_append_drop, List.length_drop] at hsplit
    rw [List.take_append_of_le_length hle, hpow, hsplit, ← Nat.mul_assoc]
    omega

/-- The digits of ASCII only. -/
def ascii : Decimals where
  value c := if c.isDigit then some (c.toNat - 48) else none
  value_lt {c n} h := by
    split at h
    · rename_i hdigit
      obtain rfl := Option.some.inj h
      simp only [Char.isDigit, Bool.and_eq_true, decide_eq_true_eq] at hdigit
      have hle : c.toNat ≤ 57 := hdigit.2
      omega
    · cases h
  value_ascii h := if_pos h

end Decimals

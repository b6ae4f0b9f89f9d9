import Mathlib.Algebra.Order.Ring.Nat
import Mathlib.Data.String.Basic

/-!
# The order of fixed-width texts

A database compares text character by character. Texts that start with blocks of one width are
compared by these blocks first, and a number written with zeros on the left in a fixed width is
compared as the number. So a row of such numbers, whatever separators stand between them, has the
lexicographic order of the numbers.

## Main definitions

* `padded w n`: the last `w` decimal digits of `n`, as `%0wd` writes them
* `readPadded w`: reads `w` decimal digits and leaves the rest

## Main results

* `append_lt_append`: the first block decides, unless it is shared
* `padded_append_lt`: a fixed-width number as the first block
* `readPadded_padded`: what is written is read back
-/

namespace TextOrder

section Blocks

variable {α : Type} [LinearOrder α]

/-- Texts that begin with blocks of one length compare by these blocks first. -/
theorem append_lt_append {a b s t : List α} (h : a.length = b.length) :
    a ++ s < b ++ t ↔ a < b ∨ a = b ∧ s < t := by
  induction a generalizing b with
  | nil =>
    obtain rfl := List.length_eq_zero_iff.mp h.symm
    simp
  | cons x a ih =>
    cases b with
    | nil => simp at h
    | cons y b =>
      have hlen : a.length = b.length := by simpa using h
      rw [List.cons_append, List.cons_append, List.cons_lt_cons_iff, List.cons_lt_cons_iff, ih hlen]
      simp only [List.cons.injEq]
      tauto

/-- A shared first character decides nothing. -/
theorem cons_lt_cons_self {x : α} {s t : List α} : x :: s < x :: t ↔ s < t := by
  rw [List.cons_lt_cons_iff]
  simp

end Blocks

/-- The character of a decimal digit. -/
def digitChar (n : ℕ) : Char := Char.ofNat ('0'.toNat + n)

theorem digitChar_toNat {n : ℕ} (h : n < 10) : (digitChar n).toNat = '0'.toNat + n := by
  revert n
  decide

theorem digitChar_lt {m n : ℕ} (hm : m < 10) (hn : n < 10) : digitChar m < digitChar n ↔ m < n := by
  show (digitChar m).toNat < (digitChar n).toNat ↔ m < n
  rw [digitChar_toNat hm, digitChar_toNat hn]
  omega

theorem digitChar_inj {m n : ℕ} (hm : m < 10) (hn : n < 10) (h : digitChar m = digitChar n) :
    m = n := by
  have := congrArg Char.toNat h
  rw [digitChar_toNat hm, digitChar_toNat hn] at this
  omega

/-- The last `w` decimal digits of a number, zeros on the left. -/
def padded : ℕ → ℕ → List Char
  | 0, _ => []
  | w + 1, n => padded w (n / 10) ++ [digitChar (n % 10)]

@[simp] theorem length_padded (w n : ℕ) : (padded w n).length = w := by
  induction w generalizing n with
  | zero => rfl
  | succ w ih => simp [padded, ih]

theorem padded_inj {w m n : ℕ} (hm : m < 10 ^ w) (hn : n < 10 ^ w) (h : padded w m = padded w n) :
    m = n := by
  induction w generalizing m n with
  | zero => omega
  | succ w ih =>
    have hm' : m / 10 < 10 ^ w := by rw [pow_succ] at hm; omega
    have hn' : n / 10 < 10 ^ w := by rw [pow_succ] at hn; omega
    obtain ⟨hhigh, hlow⟩ := List.append_inj h (by simp)
    have hq := ih hm' hn' hhigh
    have hr := digitChar_inj (Nat.mod_lt m (by omega)) (Nat.mod_lt n (by omega))
      (List.singleton_inj.mp hlow)
    omega

/-- Numbers of a fixed width are compared as numbers. -/
theorem padded_lt {w m n : ℕ} (hm : m < 10 ^ w) (hn : n < 10 ^ w) :
    padded w m < padded w n ↔ m < n := by
  induction w generalizing m n with
  | zero => simp [padded]; omega
  | succ w ih =>
    have hm' : m / 10 < 10 ^ w := by rw [pow_succ] at hm; omega
    have hn' : n / 10 < 10 ^ w := by rw [pow_succ] at hn; omega
    have heq : padded w (m / 10) = padded w (n / 10) ↔ m / 10 = n / 10 :=
      ⟨padded_inj hm' hn', fun h => by rw [h]⟩
    rw [padded, padded, append_lt_append (by simp), ih hm' hn', heq, List.cons_lt_cons_iff,
      digitChar_lt (Nat.mod_lt m (by omega)) (Nat.mod_lt n (by omega))]
    simp only [List.not_lt_nil, and_false, or_false]
    omega

/-- **Fixed-width numbers first**: the number decides, unless it is shared. -/
theorem padded_append_lt {w m n : ℕ} {s t : List Char} (hm : m < 10 ^ w) (hn : n < 10 ^ w) :
    padded w m ++ s < padded w n ++ t ↔ m < n ∨ m = n ∧ s < t := by
  have heq : padded w m = padded w n ↔ m = n := ⟨padded_inj hm hn, fun h => by rw [h]⟩
  rw [append_lt_append (by simp), padded_lt hm hn, heq]

/-! ## Reading -/

/-- The number a list of digits adds to what was read before. -/
def readDigits (acc : ℕ) : List Char → Option ℕ
  | [] => some acc
  | c :: cs =>
    if '0'.toNat ≤ c.toNat ∧ c.toNat < '0'.toNat + 10 then
      readDigits (acc * 10 + (c.toNat - '0'.toNat)) cs
    else none

/-- Reads `w` decimal digits and leaves the rest. -/
def readPadded (w : ℕ) (cs : List Char) : Option (ℕ × List Char) :=
  if w ≤ cs.length then (readDigits 0 (cs.take w)).map fun n => (n, cs.drop w) else none

theorem readDigits_append (acc : ℕ) (a b : List Char) :
    readDigits acc (a ++ b) = (readDigits acc a).bind fun acc' => readDigits acc' b := by
  induction a generalizing acc with
  | nil => rfl
  | cons c a ih =>
    simp only [List.cons_append, readDigits]
    split
    · exact ih _
    · rfl

theorem readDigits_padded (acc w n : ℕ) (h : n < 10 ^ w) :
    readDigits acc (padded w n) = some (acc * 10 ^ w + n) := by
  induction w generalizing n with
  | zero =>
    obtain rfl : n = 0 := by omega
    simp [padded, readDigits]
  | succ w ih =>
    have hq : n / 10 < 10 ^ w := by rw [pow_succ] at h; omega
    have hr : n % 10 < 10 := Nat.mod_lt n (by omega)
    rw [padded, readDigits_append, ih _ hq, Option.bind_some, readDigits, digitChar_toNat hr,
      if_pos (by omega), readDigits, pow_succ]
    congr 1
    have hn := Nat.div_add_mod n 10
    rw [show acc * (10 ^ w * 10) = acc * 10 ^ w * 10 from (mul_assoc _ _ _).symm]
    omega

/-- **Round trip**: what is written in a fixed width is read back. -/
@[simp] theorem readPadded_padded {w n : ℕ} (s : List Char) (h : n < 10 ^ w) :
    readPadded w (padded w n ++ s) = some (n, s) := by
  have htake : (padded w n ++ s).take w = padded w n := by
    rw [List.take_append_of_le_length (by simp), List.take_of_length_le (by simp)]
  have hdrop : (padded w n ++ s).drop w = s := by
    rw [List.drop_append_of_le_length (by simp), List.drop_eq_nil_of_le (by simp), List.nil_append]
  rw [readPadded, if_pos (by simp), htake, hdrop, readDigits_padded 0 w n h]
  simp

end TextOrder

import Mathlib.Data.List.Basic
import Mathlib.Data.Nat.Notation

/-!
# Base 64

The alphabet is the one for URLs. The decoder is lenient: it also knows the two other characters of
the common alphabet, leaves out what is in neither, and stops at the end of the padding.

## Main definitions

* `Base64.digits`, `Base64.encode`: the digits of bytes, and with their padding
* `Base64.decode`: the bytes of a text

## Main results

* `Base64.decode_encode`: what is encoded is read back
* `Base64.stripped_encode`: the text without its padding
-/

namespace Base64

/-- The digit of a value below 64. -/
def digit (v : ℕ) : Char :=
  if v < 26 then Char.ofNat (65 + v)
  else if v < 52 then Char.ofNat (71 + v)
  else if v < 62 then Char.ofNat (v - 4)
  else if v = 62 then '-'
  else '_'

/-- The value of a digit, of either alphabet. -/
def value (c : Char) : Option ℕ :=
  if 'A' ≤ c ∧ c ≤ 'Z' then some (c.toNat - 65)
  else if 'a' ≤ c ∧ c ≤ 'z' then some (c.toNat - 71)
  else if '0' ≤ c ∧ c ≤ '9' then some (c.toNat + 4)
  else if c = '-' ∨ c = '+' then some 62
  else if c = '_' ∨ c = '/' then some 63
  else none

/-- The digits of bytes, four for three bytes. -/
def digits : List UInt8 → List Char
  | a :: b :: c :: data =>
    digit (a.toNat / 4) :: digit (a.toNat % 4 * 16 + b.toNat / 16) ::
      digit (b.toNat % 16 * 4 + c.toNat / 64) :: digit (c.toNat % 64) :: digits data
  | [a, b] =>
    [digit (a.toNat / 4), digit (a.toNat % 4 * 16 + b.toNat / 16), digit (b.toNat % 16 * 4)]
  | [a] => [digit (a.toNat / 4), digit (a.toNat % 4 * 16)]
  | [] => []

/-- How many characters are missing to a multiple of four. -/
def missing (s : List Char) : ℕ := (4 - s.length % 4) % 4

/-- `urlsafe_b64encode(data)`: the digits, padded to a multiple of four. -/
def encode (data : List UInt8) : List Char :=
  digits data ++ List.replicate (missing (digits data)) '='

/-- The bytes of a text after some digits of a group of four, the bits that are left of these, and
so many characters of padding. -/
def decodeFrom (quad left pads : ℕ) : List Char → Option (List UInt8)
  | [] => if quad = 0 then some [] else none
  | c :: s =>
    if c = '=' then
      if 2 ≤ quad ∧ 4 ≤ quad + (pads + 1) then some []
      else decodeFrom quad left (if 2 ≤ quad then pads + 1 else pads) s
    else
      match value c with
      | none => decodeFrom quad left pads s
      | some v =>
        match quad with
        | 0 => decodeFrom 1 v 0 s
        | 1 => (decodeFrom 2 (v % 16) 0 s).map (UInt8.ofNat (left * 4 + v / 16) :: ·)
        | 2 => (decodeFrom 3 (v % 4) 0 s).map (UInt8.ofNat (left * 16 + v / 4) :: ·)
        | _ => (decodeFrom 0 0 0 s).map (UInt8.ofNat (left * 64 + v) :: ·)

/-- `urlsafe_b64decode(s)`; it raises where there is no value. -/
def decode (s : List Char) : Option (List UInt8) :=
  if s.all fun c => c.toNat < 128 then decodeFrom 0 0 0 s else none

/-! ## Digits -/

theorem value_digit : ∀ v < 64, value (digit v) = some v := by decide

theorem digit_ne_pad : ∀ v < 64, digit v ≠ '=' := by decide

theorem digit_ascii : ∀ v < 64, (digit v).toNat < 128 := by decide

theorem digit_ne_colon : ∀ v < 64, digit v ≠ ':' := by decide

/-- All characters of encoded bytes are digits. -/
theorem mem_digits {data : List UInt8} {c : Char} (h : c ∈ digits data) :
    ∃ v < 64, c = digit v := by
  fun_induction digits data with
  | case1 a b d data ih =>
    have ha := a.toNat_lt
    have hb := b.toNat_lt
    have hd := d.toNat_lt
    simp only [List.mem_cons] at h
    rcases h with rfl | rfl | rfl | rfl | h
    · exact ⟨_, by omega, rfl⟩
    · exact ⟨_, by omega, rfl⟩
    · exact ⟨_, by omega, rfl⟩
    · exact ⟨_, by omega, rfl⟩
    · exact ih h
  | case2 a b =>
    have ha := a.toNat_lt
    have hb := b.toNat_lt
    simp only [List.mem_cons, List.not_mem_nil, or_false] at h
    rcases h with rfl | rfl | rfl
    · exact ⟨_, by omega, rfl⟩
    · exact ⟨_, by omega, rfl⟩
    · exact ⟨_, by omega, rfl⟩
  | case3 a =>
    have ha := a.toNat_lt
    simp only [List.mem_cons, List.not_mem_nil, or_false] at h
    rcases h with rfl | rfl
    · exact ⟨_, by omega, rfl⟩
    · exact ⟨_, by omega, rfl⟩
  | case4 => cases h

/-- A digit goes on with the group. -/
theorem decodeFrom_digit {quad left pads v : ℕ} (hv : v < 64) (s : List Char) :
    decodeFrom quad left pads (digit v :: s) =
      match quad with
      | 0 => decodeFrom 1 v 0 s
      | 1 => (decodeFrom 2 (v % 16) 0 s).map (UInt8.ofNat (left * 4 + v / 16) :: ·)
      | 2 => (decodeFrom 3 (v % 4) 0 s).map (UInt8.ofNat (left * 16 + v / 4) :: ·)
      | _ => (decodeFrom 0 0 0 s).map (UInt8.ofNat (left * 64 + v) :: ·) := by
  rw [decodeFrom, if_neg (digit_ne_pad v hv), value_digit v hv]

/-- The first digit of a group. -/
theorem decodeFrom_first {left pads v : ℕ} (hv : v < 64) (s : List Char) :
    decodeFrom 0 left pads (digit v :: s) = decodeFrom 1 v 0 s :=
  decodeFrom_digit hv s

/-- The second digit of a group completes its first byte. -/
theorem decodeFrom_second {left pads v : ℕ} (hv : v < 64) (s : List Char) :
    decodeFrom 1 left pads (digit v :: s) =
      (decodeFrom 2 (v % 16) 0 s).map (UInt8.ofNat (left * 4 + v / 16) :: ·) :=
  decodeFrom_digit hv s

/-- The third digit completes the second byte. -/
theorem decodeFrom_third {left pads v : ℕ} (hv : v < 64) (s : List Char) :
    decodeFrom 2 left pads (digit v :: s) =
      (decodeFrom 3 (v % 4) 0 s).map (UInt8.ofNat (left * 16 + v / 4) :: ·) :=
  decodeFrom_digit hv s

/-- The last digit completes the group. -/
theorem decodeFrom_fourth {left pads v : ℕ} (hv : v < 64) (s : List Char) :
    decodeFrom 3 left pads (digit v :: s) =
      (decodeFrom 0 0 0 s).map (UInt8.ofNat (left * 64 + v) :: ·) :=
  decodeFrom_digit hv s

theorem ofNat_of_eq {n : ℕ} {a : UInt8} (h : n = a.toNat) : UInt8.ofNat n = a := by
  rw [h, UInt8.ofNat_toNat]

/-! ## What is encoded is read back -/

/-- The digits with their padding are read back. -/
theorem decodeFrom_encode (data : List UInt8) : decodeFrom 0 0 0 (encode data) = some data := by
  unfold encode
  fun_induction digits data with
  | case1 a b c data ih =>
    have ha := a.toNat_lt
    have hb := b.toNat_lt
    have hc := c.toNat_lt
    have hmissing : missing (digit (a.toNat / 4) :: digit (a.toNat % 4 * 16 + b.toNat / 16) ::
        digit (b.toNat % 16 * 4 + c.toNat / 64) :: digit (c.toNat % 64) :: digits data) =
        missing (digits data) := by
      simp only [missing, List.length_cons]
      omega
    rw [hmissing]
    simp only [List.cons_append]
    rw [decodeFrom_first (by omega), decodeFrom_second (by omega), decodeFrom_third (by omega),
      decodeFrom_fourth (by omega), ih]
    simp only [Option.map_some]
    rw [ofNat_of_eq (a := a) (by omega), ofNat_of_eq (a := b) (by omega),
      ofNat_of_eq (a := c) (by omega)]
  | case2 a b =>
    have ha := a.toNat_lt
    have hb := b.toNat_lt
    have hend : decodeFrom 3 (b.toNat % 16 * 4 % 4) 0 ['='] = some [] := rfl
    change decodeFrom 0 0 0 [_, _, _, '='] = _
    rw [decodeFrom_first (by omega), decodeFrom_second (by omega), decodeFrom_third (by omega),
      hend]
    simp only [Option.map_some]
    rw [ofNat_of_eq (a := a) (by omega), ofNat_of_eq (a := b) (by omega)]
  | case3 a =>
    have ha := a.toNat_lt
    have hend : decodeFrom 2 (a.toNat % 4 * 16 % 16) 0 ['=', '='] = some [] := rfl
    change decodeFrom 0 0 0 [_, _, '=', '='] = _
    rw [decodeFrom_first (by omega), decodeFrom_second (by omega), hend]
    simp only [Option.map_some]
    rw [ofNat_of_eq (a := a) (by omega)]
  | case4 => rfl

/-- **What is encoded is read back**. -/
theorem decode_encode (data : List UInt8) : decode (encode data) = some data := by
  have hascii : (encode data).all fun c => c.toNat < 128 := by
    rw [List.all_eq_true]
    intro c hc
    rw [decide_eq_true_eq]
    rcases List.mem_append.mp hc with h | h
    · obtain ⟨v, hv, rfl⟩ := mem_digits h
      exact digit_ascii v hv
    · rw [List.eq_of_mem_replicate h]
      decide
  rw [decode, if_pos hascii, decodeFrom_encode]

/-- **Without its padding** an encoded text is the digits. -/
theorem stripped_encode (data : List UInt8) :
    ((encode data).reverse.dropWhile (· = '=')).reverse = digits data := by
  have hpad : ∀ n : ℕ, (List.replicate n '=' ++ (digits data).reverse).dropWhile (· = '=') =
      (digits data).reverse := by
    intro n
    induction n with
    | zero =>
      cases hdigits : (digits data).reverse with
      | nil => rfl
      | cons c rest =>
        have hmem : c ∈ digits data := by
          rw [← List.mem_reverse, hdigits]
          exact List.mem_cons_self ..
        obtain ⟨v, hv, rfl⟩ := mem_digits hmem
        rw [List.replicate_zero, List.nil_append, List.dropWhile_cons_of_neg]
        simpa using digit_ne_pad v hv
    | succ n ih =>
      rw [List.replicate_succ, List.cons_append, List.dropWhile_cons_of_pos (by decide), ih]
  rw [encode, List.reverse_append, List.reverse_replicate, hpad, List.reverse_reverse]

end Base64

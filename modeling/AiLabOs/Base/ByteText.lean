import Mathlib.Data.List.Basic
import Mathlib.Data.Nat.Notation

/-!
# Bytes as texts and as fields

## Main definitions

* `hexdigest`, `base32`: the digits of bytes, in base 16 and in base 32
* `packUInt32`: the four bytes of a number
* `framed`: bytes after their number

## Main results

* `base32_injective`, `base32_lower_inj`: the digits in base 32 determine the bytes, in lower case
  too
* `hexdigest_injective`: so do those in base 16
* `framed_append_inj`: a framed field ends where its number says, whatever follows it
-/

/-! ## Base 16 -/

/-- A digit of `hexdigest()`. -/
def hexDigit (v : ℕ) : Char := if v < 10 then Char.ofNat (48 + v) else Char.ofNat (87 + v)

/-- `data.hex()`. -/
def hexdigest (data : List UInt8) : List Char :=
  data.flatMap fun a => [hexDigit (a.toNat / 16), hexDigit (a.toNat % 16)]

theorem hexDigit_inj : ∀ v < 16, ∀ w < 16, hexDigit v = hexDigit w → v = w := by decide

/-- **The digits in base 16** determine the bytes. -/
theorem hexdigest_injective : Function.Injective hexdigest := by
  intro xs
  induction xs with
  | nil =>
    intro ys h
    cases ys with
    | nil => rfl
    | cons b ys => cases h
  | cons a xs ih =>
    intro ys h
    cases ys with
    | nil => cases h
    | cons b ys =>
      have ha := a.toNat_lt
      have hb := b.toNat_lt
      simp only [hexdigest, List.flatMap_cons, List.cons_append, List.nil_append,
        List.cons.injEq] at h
      have hhigh := hexDigit_inj _ (by omega) _ (by omega) h.1
      have hlow := hexDigit_inj _ (by omega) _ (by omega) h.2.1
      have hbyte : a = b := by
        rw [← UInt8.toNat_inj]
        omega
      rw [hbyte, ih h.2.2]

/-! ## Base 32 -/

/-- The bits of a byte, the highest first. -/
def byteBits (a : UInt8) : List Bool :=
  [a.toNat.testBit 7, a.toNat.testBit 6, a.toNat.testBit 5, a.toNat.testBit 4,
    a.toNat.testBit 3, a.toNat.testBit 2, a.toNat.testBit 1, a.toNat.testBit 0]

/-- The bits of bytes. -/
def bits (data : List UInt8) : List Bool := data.flatMap byteBits

/-- A digit of the alphabet, for five bits. -/
def base32Digit (b₄ b₃ b₂ b₁ b₀ : Bool) : Char :=
  let v := b₄.toNat * 16 + b₃.toNat * 8 + b₂.toNat * 4 + b₁.toNat * 2 + b₀.toNat
  if v < 26 then Char.ofNat (65 + v) else Char.ofNat (24 + v)

/-- A digit for five bits, and one for what is left, filled up with zeros. -/
def base32Digits : List Bool → List Char
  | b₄ :: b₃ :: b₂ :: b₁ :: b₀ :: rest => base32Digit b₄ b₃ b₂ b₁ b₀ :: base32Digits rest
  | [b₄, b₃, b₂, b₁] => [base32Digit b₄ b₃ b₂ b₁ false]
  | [b₄, b₃, b₂] => [base32Digit b₄ b₃ b₂ false false]
  | [b₄, b₃] => [base32Digit b₄ b₃ false false false]
  | [b₄] => [base32Digit b₄ false false false false]
  | [] => []

/-- `b32encode(data)` without its padding. -/
def base32 (data : List UInt8) : List Char := base32Digits (bits data)

theorem length_bits (data : List UInt8) : (bits data).length = 8 * data.length := by
  induction data with
  | nil => rfl
  | cons a data ih =>
    rw [bits, List.flatMap_cons, List.length_append, ← bits, ih, List.length_cons, byteBits]
    simp only [List.length_cons, List.length_nil]
    omega

theorem length_base32Digits (xs : List Bool) : (base32Digits xs).length = (xs.length + 4) / 5 := by
  fun_induction base32Digits xs with
  | case1 b₄ b₃ b₂ b₁ b₀ rest ih =>
    simp only [List.length_cons, ih]
    omega
  | case2 | case3 | case4 | case5 | case6 => simp

theorem base32Digit_inj : ∀ a₄ a₃ a₂ a₁ a₀ b₄ b₃ b₂ b₁ b₀ : Bool,
    base32Digit a₄ a₃ a₂ a₁ a₀ = base32Digit b₄ b₃ b₂ b₁ b₀ →
      a₄ = b₄ ∧ a₃ = b₃ ∧ a₂ = b₂ ∧ a₁ = b₁ ∧ a₀ = b₀ := by decide +kernel

/-- Bits of one length are determined by their digits. -/
theorem eq_of_base32Digits {xs ys : List Bool} (hlength : xs.length = ys.length)
    (h : base32Digits xs = base32Digits ys) : xs = ys := by
  fun_induction base32Digits xs generalizing ys with
  | case1 a₄ a₃ a₂ a₁ a₀ rest ih =>
    match ys, hlength with
    | b₄ :: b₃ :: b₂ :: b₁ :: b₀ :: rest', hlength =>
      rw [base32Digits, List.cons.injEq] at h
      obtain ⟨rfl, rfl, rfl, rfl, rfl⟩ := base32Digit_inj _ _ _ _ _ _ _ _ _ _ h.1
      rw [ih (by simpa using hlength) h.2]
  | case2 a₄ a₃ a₂ a₁ =>
    match ys, hlength with
    | [b₄, b₃, b₂, b₁], _ =>
      obtain ⟨rfl, rfl, rfl, rfl, -⟩ := base32Digit_inj _ _ _ _ _ _ _ _ _ _ (List.cons.inj h).1
      rfl
  | case3 a₄ a₃ a₂ =>
    match ys, hlength with
    | [b₄, b₃, b₂], _ =>
      obtain ⟨rfl, rfl, rfl, -, -⟩ := base32Digit_inj _ _ _ _ _ _ _ _ _ _ (List.cons.inj h).1
      rfl
  | case4 a₄ a₃ =>
    match ys, hlength with
    | [b₄, b₃], _ =>
      obtain ⟨rfl, rfl, -, -, -⟩ := base32Digit_inj _ _ _ _ _ _ _ _ _ _ (List.cons.inj h).1
      rfl
  | case5 a₄ =>
    match ys, hlength with
    | [b₄], _ =>
      obtain ⟨rfl, -, -, -, -⟩ := base32Digit_inj _ _ _ _ _ _ _ _ _ _ (List.cons.inj h).1
      rfl
  | case6 =>
    match ys, hlength with
    | [], _ => rfl

theorem ofNat_byteBits : ∀ n < 256,
    (byteBits (UInt8.ofNat n)).foldl (fun v b => 2 * v + b.toNat) 0 = n := by decide +kernel

/-- The bits of a byte determine it. -/
theorem byteBits_injective : Function.Injective byteBits := by
  intro a b h
  have ha := ofNat_byteBits a.toNat a.toNat_lt
  have hb := ofNat_byteBits b.toNat b.toNat_lt
  rw [UInt8.ofNat_toNat] at ha hb
  rw [← UInt8.toNat_inj, ← ha, ← hb, h]

theorem bits_injective : Function.Injective bits := by
  intro xs
  induction xs with
  | nil =>
    intro ys h
    cases ys with
    | nil => rfl
    | cons b ys => cases h
  | cons a xs ih =>
    intro ys h
    cases ys with
    | nil => cases h
    | cons b ys =>
      rw [bits, bits, List.flatMap_cons, List.flatMap_cons] at h
      obtain ⟨hbyte, hrest⟩ := List.append_inj h rfl
      rw [byteBits_injective hbyte, ih hrest]

/-- **The digits in base 32** determine the bytes. -/
theorem base32_injective : Function.Injective base32 := by
  intro xs ys h
  have hlength : xs.length = ys.length := by
    have hdigits := congrArg List.length h
    rw [base32, base32, length_base32Digits, length_base32Digits, length_bits, length_bits]
      at hdigits
    omega
  exact bits_injective (eq_of_base32Digits (by rw [length_bits, length_bits, hlength]) h)

theorem base32Digit_upper : ∀ b₄ b₃ b₂ b₁ b₀ : Bool,
    (base32Digit b₄ b₃ b₂ b₁ b₀).toLower.toUpper = base32Digit b₄ b₃ b₂ b₁ b₀ := by decide +kernel

/-- Digits in lower case are read in upper case again. -/
theorem base32Digits_upper (xs : List Bool) :
    ((base32Digits xs).map Char.toLower).map Char.toUpper = base32Digits xs := by
  fun_induction base32Digits xs with
  | case1 b₄ b₃ b₂ b₁ b₀ rest ih =>
    rw [List.map_cons, List.map_cons, base32Digit_upper, ih]
  | case2 | case3 | case4 | case5 =>
    rw [List.map_singleton, List.map_singleton, base32Digit_upper]
  | case6 => rfl

/-- **The digits in lower case** determine the bytes. -/
theorem base32_lower_inj {xs ys : List UInt8}
    (h : (base32 xs).map Char.toLower = (base32 ys).map Char.toLower) : xs = ys := by
  have hupper := congrArg (List.map Char.toUpper) h
  rw [base32, base32, base32Digits_upper, base32Digits_upper] at hupper
  exact base32_injective hupper

/-! ## Fields -/

/-- `struct.pack(">I", n)`; it raises from `2 ** 32` on. -/
def packUInt32 (n : ℕ) : Option (List UInt8) :=
  if n < 4294967296 then
    some [UInt8.ofNat (n / 16777216), UInt8.ofNat (n / 65536 % 256), UInt8.ofNat (n / 256 % 256),
      UInt8.ofNat (n % 256)]
  else none

/-- Bytes after their number. -/
def framed (data : List UInt8) : Option (List UInt8) :=
  (packUInt32 data.length).map (· ++ data)

/-- Four bytes determine their number. -/
theorem packUInt32_inj {m n : ℕ} {bytes : List UInt8} (hm : packUInt32 m = some bytes)
    (hn : packUInt32 n = some bytes) : m = n := by
  unfold packUInt32 at hm hn
  split at hm <;> split at hn
  case isTrue.isTrue hm' hn' =>
    have h := (Option.some.inj hm).trans (Option.some.inj hn).symm
    simp only [List.cons.injEq, ← UInt8.toNat_inj, UInt8.toNat_ofNat'] at h
    omega
  all_goals contradiction

theorem length_packUInt32 {n : ℕ} {bytes : List UInt8} (h : packUInt32 n = some bytes) :
    bytes.length = 4 := by
  unfold packUInt32 at h
  split at h
  · rw [← Option.some.inj h]
    rfl
  · cases h

/-- When bytes can be framed. -/
theorem framed_isSome_iff {data : List UInt8} :
    (framed data).isSome ↔ data.length < 4294967296 := by
  unfold framed packUInt32
  by_cases h : data.length < 4294967296
  · simp [h]
  · simp [h]

/-- **A framed field** ends where its number says. -/
theorem framed_append_inj {data data' field field' rest rest' : List UInt8}
    (h : framed data = some field) (h' : framed data' = some field')
    (heq : field ++ rest = field' ++ rest') : data = data' ∧ rest = rest' := by
  unfold framed at h h'
  rw [Option.map_eq_some_iff] at h h'
  obtain ⟨head, hhead, rfl⟩ := h
  obtain ⟨head', hhead', rfl⟩ := h'
  rw [List.append_assoc, List.append_assoc] at heq
  obtain ⟨rfl, hbody⟩ := List.append_inj heq
    ((length_packUInt32 hhead).trans (length_packUInt32 hhead').symm)
  exact List.append_inj hbody (packUInt32_inj hhead hhead')

/-- The bytes of a framed field determine it. -/
theorem framed_inj {data data' field : List UInt8} (h : framed data = some field)
    (h' : framed data' = some field) : data = data' :=
  (framed_append_inj h h' (Eq.refl (field ++ []))).1

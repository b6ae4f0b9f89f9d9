import Mathlib.Order.Lattice
import Mathlib.Data.String.Basic

/-!
# UTF-8

## Main definitions

* `utf8`: the bytes of a text
* `Ascii`: a text of ASCII characters

## Main results

* `utf8_injective`: the bytes determine the text
* `utf8_lt_iff`: bytes of ASCII texts have the order of the texts
-/

/-- `s.encode("utf-8")`. -/
def utf8 (s : List Char) : List UInt8 := s.flatMap String.utf8EncodeChar

/-- A text of ASCII characters. -/
def Ascii (s : List Char) : Prop := ∀ c ∈ s, c.toNat < 128

variable {s t : List Char} {c : Char}

@[simp] theorem utf8_nil : utf8 [] = [] := rfl

theorem utf8_cons (c : Char) (s : List Char) : utf8 (c :: s) = String.utf8EncodeChar c ++ utf8 s :=
  List.flatMap_cons ..

/-- **The bytes determine** the text. -/
theorem utf8_injective : Function.Injective utf8 := by
  intro s t h
  have hbytes : (String.ofList s).toByteArray = (String.ofList t).toByteArray :=
    congrArg List.toByteArray h
  exact String.ofList_injective (String.toByteArray_inj.mp hbytes)

/-! ## ASCII -/

theorem utf8EncodeChar_ascii (h : c.toNat < 128) :
    String.utf8EncodeChar c = [UInt8.ofNat c.toNat] :=
  if_pos (Nat.le_of_lt_succ h)

/-- An ASCII character is one byte. -/
theorem utf8_ascii (h : Ascii s) : utf8 s = s.map fun c => UInt8.ofNat c.toNat := by
  induction s with
  | nil => rfl
  | cons c s ih =>
    rw [utf8_cons, utf8EncodeChar_ascii (h c (List.mem_cons_self ..)),
      ih fun d hd => h d (List.mem_cons_of_mem _ hd)]
    rfl

theorem ofNat_inj_iff {m n : ℕ} (hm : m < 128) (hn : n < 128) :
    UInt8.ofNat m = UInt8.ofNat n ↔ m = n := by
  rw [← UInt8.toNat_inj, UInt8.toNat_ofNat', UInt8.toNat_ofNat', Nat.mod_eq_of_lt (by omega),
    Nat.mod_eq_of_lt (by omega)]

theorem ofNat_lt_iff {m n : ℕ} (hm : m < 128) (hn : n < 128) :
    UInt8.ofNat m < UInt8.ofNat n ↔ m < n := by
  rw [UInt8.lt_iff_toNat_lt, UInt8.toNat_ofNat', UInt8.toNat_ofNat', Nat.mod_eq_of_lt (by omega),
    Nat.mod_eq_of_lt (by omega)]

/-- **Bytes of ASCII texts** have the order of the texts. -/
theorem utf8_lt_iff (hs : Ascii s) (ht : Ascii t) : utf8 s < utf8 t ↔ s < t := by
  rw [utf8_ascii hs, utf8_ascii ht]
  induction s generalizing t with
  | nil =>
    cases t <;> simp
  | cons c s ih =>
    cases t with
    | nil => simp
    | cons d t =>
      have hc := hs c (List.mem_cons_self ..)
      have hd := ht d (List.mem_cons_self ..)
      have hrest := ih (fun x hx => hs x (List.mem_cons_of_mem _ hx)) (t := t)
        (fun x hx => ht x (List.mem_cons_of_mem _ hx))
      rw [List.map_cons, List.map_cons, List.cons_lt_cons_iff, List.cons_lt_cons_iff, hrest,
        ofNat_lt_iff hc hd, ofNat_inj_iff hc hd, Char.toNat_inj]
      exact Iff.rfl

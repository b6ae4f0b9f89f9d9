import Mathlib.Logic.Function.Basic

/-!
# Payload digests

The services hash the canonical JSON text of a payload with SHA-256 and compare the digests. A
digest is never empty; that different payloads have different digests is an assumption, named
where it is needed. `Sha256.reference` is a hash that meets it and can be run.

## Main definitions

* `Value`, `Payload`: the labelled values a digest is taken over
* `Sha256`, `Sha256.CollisionFree`: a hash of payloads, and that it separates them
* `Sha256.reference`: the payload itself, in a self-delimiting encoding

## Main results

* `PrefixFree.of_list`, `PrefixFree.of_pair`: the encodings compose
* `Sha256.reference_collisionFree`
-/

/-- A JSON document, by its canonical text: sorted keys, no spaces. -/
structure JsonDoc where
  text : String
deriving DecidableEq, Repr

/-- A dictionary of strings, by its entries in the order of their keys. -/
abbrev Dict := List (String × String)

/-- The dictionary with one entry set. -/
def Dict.set : Dict → String → String → Dict
  | [], k, v => [(k, v)]
  | (k', v') :: d, k, v =>
    if k < k' then (k, v) :: (k', v') :: d
    else if k = k' then (k, v) :: d
    else (k', v') :: Dict.set d k v

/-- One value of a payload. -/
inductive Value where
  | none
  | bool (b : Bool)
  | int (n : Int)
  | seconds (n : Int)
  | str (s : String)
  | strs (l : List String)
  | dict (d : Dict)
  | doc (d : JsonDoc)
deriving DecidableEq, Repr

/-- A payload: its keys, in the order the code lists them, and their values. -/
abbrev Payload := List (String × Value)

/-- An optional string of a payload. -/
def Value.ofOption : Option String → Value
  | .none => .none
  | .some s => .str s

/-- An optional number of a payload. -/
def Value.ofIntOption : Option Int → Value
  | .none => .none
  | .some n => .int n

/-- The natural number nearest to `a / b`, the even one where two are. -/
def roundHalfEven (a b : Nat) : Nat :=
  let q := a / b
  let r := a % b
  if 2 * r < b then q else if b < 2 * r then q + 1 else q + q % 2

/-- `timedelta.total_seconds()` of a number of microseconds: the nearest double, in units of
`2 ^ -72` seconds. -/
def totalSeconds (microseconds : Int) : Value :=
  let scaled := microseconds.natAbs * Nat.pow 2 72
  let ulp := Nat.pow 2 (Nat.log2 (scaled / 1000000) - 52)
  .seconds (microseconds.sign * (roundHalfEven scaled (1000000 * ulp) * ulp : Nat))

/-- `hashlib.sha256(...).hexdigest()` over canonical JSON. -/
structure Sha256 where
  hexdigest : Payload → String
  nonempty : ∀ p, hexdigest p ≠ ""

/-- Different payloads have different digests. -/
def Sha256.CollisionFree (sha : Sha256) : Prop := Function.Injective sha.hexdigest

/-! ## Self-delimiting encodings -/

/-- No code is a proper prefix of another. -/
def PrefixFree {α : Type} (f : α → List Char) : Prop :=
  ∀ a b r s, f a ++ r = f b ++ s → a = b ∧ r = s

namespace PrefixFree

variable {α β : Type}

/-- A list, each element announced and the end marked. -/
def list (f : α → List Char) : List α → List Char
  | [] => ['.']
  | a :: l => ',' :: (f a ++ list f l)

/-- One code after the other. -/
def pair (f : α → List Char) (g : β → List Char) (p : α × β) : List Char := f p.1 ++ g p.2

theorem char : PrefixFree fun c : Char => [c] := by
  intro a b r s h
  simpa using h

theorem of_list {f : α → List Char} (hf : PrefixFree f) : PrefixFree (list f) := by
  intro a
  induction a with
  | nil =>
    intro b r s h
    cases b with
    | nil => exact ⟨rfl, by simpa [list] using h⟩
    | cons b bs => simp [list] at h
  | cons a as ih =>
    intro b r s h
    cases b with
    | nil => simp [list] at h
    | cons b bs =>
      simp only [list, List.cons_append, List.append_assoc, List.cons.injEq, true_and] at h
      obtain ⟨rfl, h'⟩ := hf a b _ _ h
      obtain ⟨rfl, h''⟩ := ih bs r s h'
      exact ⟨rfl, h''⟩

theorem of_pair {f : α → List Char} {g : β → List Char} (hf : PrefixFree f) (hg : PrefixFree g) :
    PrefixFree (pair f g) := by
  intro a b r s h
  simp only [pair, List.append_assoc] at h
  obtain ⟨h₁, h⟩ := hf _ _ _ _ h
  obtain ⟨h₂, h⟩ := hg _ _ _ _ h
  exact ⟨Prod.ext h₁ h₂, h⟩

theorem comap {f : β → List Char} (hf : PrefixFree f) {g : α → β} (hg : Function.Injective g) :
    PrefixFree (f ∘ g) := by
  intro a b r s h
  obtain ⟨hab, hrs⟩ := hf _ _ _ _ h
  exact ⟨hg hab, hrs⟩

theorem injective {f : α → List Char} (hf : PrefixFree f) : Function.Injective f := by
  intro a b h
  exact (hf a b [] [] (by rw [h])).1

end PrefixFree

namespace Sha256

/-- A string, character by character. -/
def encodeString : String → List Char := PrefixFree.list (fun c => [c]) ∘ String.toList

/-- A natural number, by its decimal digits. -/
def encodeNat : Nat → List Char := PrefixFree.list (fun c => [c]) ∘ Nat.toDigits 10

/-- An integer, its sign first. -/
def encodeInt : Int → List Char
  | .ofNat n => '+' :: encodeNat n
  | .negSucc n => '-' :: encodeNat n

/-- One value, after a tag for its kind. -/
def encodeValue : Value → List Char
  | .none => ['n']
  | .bool true => ['t']
  | .bool false => ['f']
  | .int n => 'i' :: encodeInt n
  | .seconds n => 'r' :: encodeInt n
  | .str s => 's' :: encodeString s
  | .strs l => 'l' :: PrefixFree.list encodeString l
  | .dict d => 'o' :: PrefixFree.list (PrefixFree.pair encodeString encodeString) d
  | .doc d => 'j' :: encodeString d.text

/-- A payload, key by key. -/
def encodePayload : Payload → List Char :=
  PrefixFree.list (PrefixFree.pair encodeString encodeValue)

theorem encodeString_prefixFree : PrefixFree encodeString :=
  PrefixFree.char.of_list.comap fun _ _ h => String.toList_inj.mp h

theorem encodeNat_prefixFree : PrefixFree encodeNat := by
  refine PrefixFree.char.of_list.comap fun m n h => ?_
  have hm := Nat.ofDigitChars_toDigits (b := 10) (n := m) (by omega) (by omega)
  have hn := Nat.ofDigitChars_toDigits (b := 10) (n := n) (by omega) (by omega)
  rw [← hm, ← hn, h]

theorem encodeInt_prefixFree : PrefixFree encodeInt := by
  rintro (m | m) (n | n) r s h <;>
    simp only [encodeInt, List.cons_append, List.cons.injEq, true_and, Char.reduceEq,
      false_and] at h
  · obtain ⟨rfl, h'⟩ := encodeNat_prefixFree _ _ _ _ h
    exact ⟨rfl, h'⟩
  · obtain ⟨rfl, h'⟩ := encodeNat_prefixFree _ _ _ _ h
    exact ⟨rfl, h'⟩

theorem encodeValue_prefixFree : PrefixFree encodeValue := by
  have hstrs := encodeString_prefixFree.of_list
  have hdict := (encodeString_prefixFree.of_pair encodeString_prefixFree).of_list
  rintro a b r s h
  rcases a with _ | (_ | _) | m | m | x | x | x | ⟨⟨x⟩⟩ <;>
    rcases b with _ | (_ | _) | n | n | y | y | y | ⟨⟨y⟩⟩ <;>
    simp only [encodeValue, List.cons_append, List.nil_append, List.cons.injEq, true_and,
      Char.reduceEq, false_and] at h
  · exact ⟨rfl, h⟩
  · exact ⟨rfl, h⟩
  · exact ⟨rfl, h⟩
  · obtain ⟨rfl, h'⟩ := encodeInt_prefixFree _ _ _ _ h
    exact ⟨rfl, h'⟩
  · obtain ⟨rfl, h'⟩ := encodeInt_prefixFree _ _ _ _ h
    exact ⟨rfl, h'⟩
  · obtain ⟨rfl, h'⟩ := encodeString_prefixFree _ _ _ _ h
    exact ⟨rfl, h'⟩
  · obtain ⟨rfl, h'⟩ := hstrs _ _ _ _ h
    exact ⟨rfl, h'⟩
  · obtain ⟨rfl, h'⟩ := hdict _ _ _ _ h
    exact ⟨rfl, h'⟩
  · obtain ⟨rfl, h'⟩ := encodeString_prefixFree _ _ _ _ h
    exact ⟨rfl, h'⟩

theorem encodePayload_prefixFree : PrefixFree encodePayload :=
  (encodeString_prefixFree.of_pair encodeValue_prefixFree).of_list

/-- A hash that can be run: the encoded payload. -/
def reference : Sha256 where
  hexdigest p := String.ofList (encodePayload p)
  nonempty p h := by
    have hnil : encodePayload p = [] := String.ofList_injective h
    cases p <;> simp [encodePayload, PrefixFree.list] at hnil

theorem reference_collisionFree : reference.CollisionFree :=
  fun _ _ h => encodePayload_prefixFree.injective (String.ofList_injective h)

end Sha256

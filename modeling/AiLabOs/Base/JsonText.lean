import AiLabOs.Base.Digest
import AiLabOs.Base.Json
import Mathlib.Data.List.Sort
import Mathlib.Data.String.Basic

/-!
# JSON texts

The canonical text of a dictionary of texts, and what a canonical text is read as. Keys stand in
their order and only what must be escaped is.

## Main definitions

* `JsonText.ofTexts`: the document of a dictionary of texts
* `JsonText.fieldsOf`: the entries of a document that is an object

## Main results

* `JsonText.fieldsOf_ofTexts`: a dictionary of texts is read back, its keys in their order
-/

namespace JsonText

def quote : Char := Char.ofNat 34

def backslash : Char := Char.ofNat 92

/-- The escapes of one letter, with what they stand for. -/
def shortEscapes : List (Char × Char) :=
  [(quote, quote), (backslash, backslash), ('b', Char.ofNat 8), ('f', Char.ofNat 12),
    ('n', Char.ofNat 10), ('r', Char.ofNat 13), ('t', Char.ofNat 9)]

def hexDigit (n : ℕ) : Char := Nat.digitChar n

def hexValue (c : Char) : Option ℕ :=
  if '0' ≤ c ∧ c ≤ '9' then some (c.toNat - 48)
  else if 'a' ≤ c ∧ c ≤ 'f' then some (c.toNat - 87)
  else if 'A' ≤ c ∧ c ≤ 'F' then some (c.toNat - 55)
  else none

/-- The character of an escape of four digits, unless it is one half of a surrogate pair. -/
def escaped (a b c d : Char) : Option Char := do
  let n := 4096 * (← hexValue a) + 256 * (← hexValue b) + 16 * (← hexValue c) + (← hexValue d)
  if n.isValidChar then some (Char.ofNat n) else none

/-! ## Writing -/

/-- A character inside a text. -/
def writeChar (c : Char) : List Char :=
  match shortEscapes.find? fun e => e.2 = c with
  | some e => [backslash, e.1]
  | none =>
    if c.toNat < 32 then
      [backslash, 'u', '0', '0', hexDigit (c.toNat / 16), hexDigit (c.toNat % 16)]
    else [c]

def writeText (s : String) : List Char := quote :: (s.toList.flatMap writeChar ++ [quote])

/-- What is left of an object after its opening brace. -/
def writeMembers : List (String × String) → List Char
  | [] => ['}']
  | [m] => writeText m.1 ++ ':' :: (writeText m.2 ++ ['}'])
  | m :: m' :: ms => writeText m.1 ++ ':' :: (writeText m.2 ++ ',' :: writeMembers (m' :: ms))

/-- A dictionary with its keys in their order. -/
def sorted (d : List (String × String)) : List (String × String) :=
  d.insertionSort fun m m' => m.1 ≤ m'.1

/-- `json.dumps` of a dictionary of texts, its keys sorted. -/
def ofTexts (d : List (String × String)) : JsonDoc :=
  ⟨String.ofList ('{' :: writeMembers (sorted d))⟩

/-! ## Reading -/

/-- A text read after one more character. -/
def push (c : Char) (p : List Char × List Char) : List Char × List Char := (c :: p.1, p.2)

/-- The character of an escape of one letter. -/
def unescaped (e : Char) : Option Char := if e = '/' then some e else shortEscapes.lookup e

/-- The rest of a text, after its opening quote. -/
def readText : List Char → Option (List Char × List Char)
  | [] => none
  | c :: cs =>
    if c = quote then some ([], cs)
    else if c ≠ backslash then (readText cs).map (push c)
    else
      match cs with
      | 'u' :: a :: b :: x :: y :: rest =>
        (escaped a b x y).bind fun d => (readText rest).map (push d)
      | e :: rest => (unescaped e).bind fun d => (readText rest).map (push d)
      | [] => none

/-- A character that a number may have. -/
def isNumeric (c : Char) : Bool := ('0' ≤ c && c ≤ '9') || c ∈ ['-', '+', '.', 'e', 'E']

mutual

/-- A value and what follows it. -/
def readValue : ℕ → List Char → Option (Json × List Char)
  | 0, _ => none
  | _ + 1, 'n' :: 'u' :: 'l' :: 'l' :: cs => some (.null, cs)
  | _ + 1, 't' :: 'r' :: 'u' :: 'e' :: cs => some (.bool true, cs)
  | _ + 1, 'f' :: 'a' :: 'l' :: 's' :: 'e' :: cs => some (.bool false, cs)
  | _ + 1, '[' :: ']' :: cs => some (.array [], cs)
  | n + 1, '[' :: cs => (readItems n cs).map fun p => (.array p.1, p.2)
  | _ + 1, '{' :: '}' :: cs => some (.object [], cs)
  | n + 1, '{' :: cs => (readMembers n cs).map fun p => (.object p.1, p.2)
  | _ + 1, c :: cs =>
    if c = quote then (readText cs).map fun p => (.text (String.ofList p.1), p.2)
    else if isNumeric c then
      some (.number (String.ofList ((c :: cs).takeWhile isNumeric)), cs.dropWhile isNumeric)
    else none
  | _ + 1, [] => none

/-- The values of an array that has one, up to its end. -/
def readItems : ℕ → List Char → Option (List Json × List Char)
  | 0, _ => none
  | n + 1, cs => do
    let value ← readValue n cs
    match value.2 with
    | ']' :: rest => return ([value.1], rest)
    | ',' :: rest =>
      let items ← readItems n rest
      return (value.1 :: items.1, items.2)
    | _ => none

/-- The entries of an object that has one, up to its end. -/
def readMembers : ℕ → List Char → Option (List (String × Json) × List Char)
  | 0, _ => none
  | _ + 1, [] => none
  | n + 1, c :: cs =>
    if c ≠ quote then none
    else do
      let key ← readText cs
      match key.2 with
      | ':' :: rest =>
        let value ← readValue n rest
        match value.2 with
        | '}' :: rest => return ([(String.ofList key.1, value.1)], rest)
        | ',' :: rest =>
          let members ← readMembers n rest
          return ((String.ofList key.1, value.1) :: members.1, members.2)
        | _ => none
      | _ => none

end

/-- The entries of a document that is an object. -/
def fieldsOf (doc : JsonDoc) : List (String × Json) :=
  match readValue (doc.text.length + 1) doc.text.toList with
  | some (.object fields, []) => fields
  | _ => []

/-! ## Round trip -/

theorem hexValue_hexDigit : ∀ n < 16, hexValue (hexDigit n) = some n := by
  decide

/-- A control character is read from its escape. -/
theorem escaped_control {c : Char} (h : c.toNat < 32) :
    escaped '0' '0' (hexDigit (c.toNat / 16)) (hexDigit (c.toNat % 16)) = some c := by
  have hzero : hexValue '0' = some 0 := rfl
  have hhigh := hexValue_hexDigit (c.toNat / 16) (by omega)
  have hlow := hexValue_hexDigit (c.toNat % 16) (by omega)
  have hcode : 16 * (c.toNat / 16) + c.toNat % 16 = c.toNat := Nat.div_add_mod ..
  have hvalid : c.toNat.isValidChar := c.valid
  simp only [escaped, hzero, hhigh, hlow, Option.bind_eq_bind, Option.bind_some, Nat.mul_zero,
    Nat.zero_add, hcode, if_pos hvalid, Char.ofNat_toNat]

/-- What a short escape stands for is found again under its letter, which starts no other escape. -/
theorem unescaped_of_find {c : Char} {e : Char × Char}
    (h : shortEscapes.find? (fun e => e.2 = c) = some e) :
    unescaped e.1 = some c ∧ e.1 ≠ 'u' := by
  have hmem := List.mem_of_find?_eq_some h
  have hc : e.2 = c := by simpa using List.find?_some h
  subst hc
  simp only [shortEscapes, List.mem_cons, List.not_mem_nil, or_false] at hmem
  rcases hmem with rfl | rfl | rfl | rfl | rfl | rfl | rfl <;> decide

attribute [local simp] readText readValue readMembers

theorem readText_quote (rest : List Char) : readText (quote :: rest) = some ([], rest) := by
  rw [readText.eq_def]
  exact if_pos rfl

theorem readText_plain {c : Char} (rest : List Char) (hq : c ≠ quote) (hb : c ≠ backslash) :
    readText (c :: rest) = (readText rest).map (push c) := by
  rw [readText.eq_def]
  simp only [hq, hb, ↓reduceIte, ne_eq, not_false_eq_true]

theorem readText_escaped {a b x y d : Char} (rest : List Char) (h : escaped a b x y = some d) :
    readText (backslash :: 'u' :: a :: b :: x :: y :: rest) = (readText rest).map (push d) := by
  have hne : backslash ≠ quote := by decide
  rw [readText.eq_def]
  simp only [hne, ↓reduceIte, ne_eq, not_true_eq_false, h, Option.bind_some]

theorem readText_short {e d : Char} (rest : List Char) (hu : e ≠ 'u') (h : unescaped e = some d) :
    readText (backslash :: e :: rest) = (readText rest).map (push d) := by
  have hne : backslash ≠ quote := by decide
  rw [readText.eq_def]
  simp only [hne, ↓reduceIte, ne_eq, not_true_eq_false]
  split
  · rename_i heq
    exact absurd (List.cons.inj heq).1 hu
  · rename_i heq
    obtain ⟨rfl, rfl⟩ := List.cons.inj heq
    rw [h, Option.bind_some]
  · contradiction

/-- **A written character is read back.** -/
theorem readText_writeChar (c : Char) (rest : List Char) :
    readText (writeChar c ++ rest) = (readText rest).map (push c) := by
  unfold writeChar
  split
  · rename_i e h
    obtain ⟨hlookup, hu⟩ := unescaped_of_find h
    exact readText_short rest hu hlookup
  · rename_i h
    rw [List.find?_eq_none] at h
    split
    · exact readText_escaped rest (escaped_control ‹_›)
    · have hq : c ≠ quote := by
        rintro rfl
        exact h (quote, quote) (by decide) (by decide)
      have hb : c ≠ backslash := by
        rintro rfl
        exact h (backslash, backslash) (by decide) (by decide)
      exact readText_plain rest hq hb

theorem readText_flatMap (cs rest : List Char) :
    readText (cs.flatMap writeChar ++ quote :: rest) = some (cs, rest) := by
  induction cs with
  | nil => exact readText_quote rest
  | cons c cs ih =>
    rw [List.flatMap_cons, List.append_assoc, readText_writeChar, ih]
    rfl

/-- A dictionary of texts, as a dictionary of values. -/
def texts (d : List (String × String)) : List (String × Json) := d.map fun m => (m.1, .text m.2)

/-- **A written text is read back.** -/
theorem readValue_writeText (n : ℕ) (s : String) (rest : List Char) :
    readValue (n + 1) (writeText s ++ rest) = some (.text s, rest) := by
  have h := readText_flatMap s.toList rest
  rw [writeText, List.cons_append, List.append_assoc, List.singleton_append]
  have hq : readValue (n + 1) (quote :: (s.toList.flatMap writeChar ++ quote :: rest)) =
      (readText (s.toList.flatMap writeChar ++ quote :: rest)).map
        fun p => (.text (String.ofList p.1), p.2) := by
    rw [readValue.eq_def]
    exact if_pos rfl
  rw [hq, h, Option.map_some, String.ofList_toList]

/-- **A written entry is read back**, and then what follows it. -/
theorem readMembers_writeText (n : ℕ) (m : String × String) (rest : List Char) :
    readMembers (n + 2) (writeText m.1 ++ ':' :: (writeText m.2 ++ rest)) =
      match rest with
      | '}' :: rest => some ([(m.1, .text m.2)], rest)
      | ',' :: rest => (readMembers (n + 1) rest).map fun p => ((m.1, .text m.2) :: p.1, p.2)
      | _ => none := by
  have hkey := readText_flatMap m.1.toList (':' :: (writeText m.2 ++ rest))
  have hvalue := readValue_writeText n m.2 rest
  rw [writeText, List.cons_append, List.append_assoc, List.singleton_append]
  rw [readMembers.eq_def]
  simp only [ne_eq, not_true_eq_false, ↓reduceIte, hkey, Option.bind_eq_bind, Option.bind_some,
    hvalue, String.ofList_toList]
  split
  · rfl
  · exact Option.map_eq_bind.symm
  · rfl

/-- **Written entries are read back.** -/
theorem readMembers_writeMembers (m : String × String) (ms : List (String × String)) (n : ℕ)
    (h : ms.length + 2 ≤ n) :
    readMembers n (writeMembers (m :: ms)) = some (texts (m :: ms), []) := by
  induction ms generalizing m n with
  | nil =>
    obtain ⟨n, rfl⟩ := Nat.exists_eq_add_of_le' h
    exact readMembers_writeText n m ['}']
  | cons m' ms ih =>
    obtain ⟨n, rfl⟩ := Nat.exists_eq_add_of_le' (Nat.le_trans (by simp) h : 2 ≤ n)
    have hrest := ih m' (n + 1) (by simp only [List.length_cons] at h; omega)
    refine (readMembers_writeText n m (',' :: writeMembers (m' :: ms))).trans ?_
    simp only [hrest, Option.map_some]
    rfl

theorem length_writeMembers (ms : List (String × String)) :
    ms.length + 1 ≤ (writeMembers ms).length := by
  induction ms with
  | nil => simp [writeMembers]
  | cons m ms ih =>
    cases ms with
    | nil =>
      simp only [writeMembers, List.length_append, List.length_cons, List.length_nil]
      omega
    | cons m' ms =>
      simp only [writeMembers, List.length_append, List.length_cons] at ih ⊢
      omega

/-- **A dictionary of texts is read back**, its keys in their order. -/
theorem fieldsOf_ofTexts (d : List (String × String)) :
    fieldsOf (ofTexts d) = texts (sorted d) := by
  unfold fieldsOf ofTexts
  rw [String.toList_ofList, String.length_ofList, List.length_cons]
  cases h : sorted d with
  | nil => rfl
  | cons m ms =>
    have hlen := length_writeMembers (m :: ms)
    have hread := readMembers_writeMembers m ms ((writeMembers (m :: ms)).length + 1)
      (by simp only [List.length_cons] at hlen ⊢; omega)
    have hopen : readValue ((writeMembers (m :: ms)).length + 1 + 1)
        ('{' :: writeMembers (m :: ms)) =
        (readMembers ((writeMembers (m :: ms)).length + 1) (writeMembers (m :: ms))).map
          fun p => (.object p.1, p.2) := by
      have hhead : ∃ cs, writeMembers (m :: ms) = quote :: cs := by
        cases ms <;> exact ⟨_, rfl⟩
      obtain ⟨cs, hcs⟩ := hhead
      rw [hcs]
      rfl
    rw [hopen, hread]
    rfl

/-- The keys of a dictionary of texts are read back. -/
theorem mem_fieldsOf_ofTexts {d : List (String × String)} {m : String × String} (h : m ∈ d) :
    (m.1, .text m.2) ∈ fieldsOf (ofTexts d) := by
  rw [fieldsOf_ofTexts]
  exact List.mem_map.mpr ⟨m, (List.perm_insertionSort _ d).mem_iff.mpr h, rfl⟩

example : (fieldsOf (ofTexts [("b", "1\n2"), ("a", "é")])).map (fun m => (m.1, m.2.text?)) =
    [("a", some "é"), ("b", some "1\n2")] := by
  decide +kernel

end JsonText

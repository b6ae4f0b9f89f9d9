import AiLabOs.Base.Text
import Mathlib.Data.List.Infix

/-!
# Parts of texts

## Main definitions

* `Text.startsWith`, `Text.contains`: a text begins with another, holds another
* `Text.truncate`: at most so many characters of a text
* `Text.stripOrNone`: a stripped text, unless nothing is left of it
* `Text.replace`: each occurrence of a part replaced
* `Text.removePrefix`: a text without a prefix
-/

namespace Text

/-- `s.startswith(lead)`. -/
def startsWith (s lead : String) : Bool := lead.toList.isPrefixOf s.toList

/-- `part in s`. -/
def contains (s part : String) : Bool := decide (part.toList <:+: s.toList)

/-- `any(part in s for part in parts)`. -/
def containsAny (s : String) (parts : List String) : Bool := parts.any (contains s)

/-- `s.startswith(leads)`. -/
def startsWithAny (s : String) (leads : List String) : Bool := leads.any (startsWith s)

/-- `s.endswith(last)`. -/
def endsWith (s last : String) : Bool := last.toList.isSuffixOf s.toList

/-- `s[n:]`. -/
def dropFirst (n : ℕ) (s : String) : String := String.ofList (s.toList.drop n)

/-- `s.removeprefix(lead)`. -/
def removePrefix (lead s : String) : String :=
  if startsWith s lead then dropFirst lead.toList.length s else s

/-- `text.replace(old, new)`, with so many characters of a part that is replaced to come. -/
def replaceFrom (old new : List Char) : ℕ → List Char → List Char
  | _, [] => []
  | skip + 1, _ :: text => replaceFrom old new skip text
  | 0, c :: text =>
    if old.isPrefixOf (c :: text) then new ++ replaceFrom old new (old.length - 1) text
    else c :: replaceFrom old new 0 text

/-- `text.replace(old, new)`. -/
def replace (old new text : String) : String :=
  String.ofList (replaceFrom old.toList new.toList 0 text.toList)

/-- `s.lstrip(chars)`. -/
def dropLeading (chars : List Char) (s : String) : String :=
  String.ofList (s.toList.dropWhile (· ∈ chars))

/-- `re.sub("[...]+$", "", s)`: without the last characters that meet a condition. -/
def dropTrailing (p : Char → Bool) (s : String) : String :=
  String.ofList (s.toList.reverse.dropWhile p).reverse

/-- `s[:n]`. -/
def truncate (n : ℕ) (s : String) : String := String.ofList (s.toList.take n)

/-- `s.strip() or None`. -/
def stripOrNone (s : String) : Option String := if blank s then none else some (strip s)

/-- What is left without a prefix, and the prefix that may have stood before it. -/
theorem eq_or_of_removePrefix {lead s rest : String} (h : removePrefix lead s = rest) :
    s = rest ∨ s = lead ++ rest := by
  unfold removePrefix at h
  split at h
  case isTrue hlead =>
    obtain ⟨t, ht⟩ := List.isPrefixOf_iff_prefix.mp hlead
    have hrest : rest.toList = t := by
      rw [← h, dropFirst, String.toList_ofList, ← ht, List.drop_left]
    right
    rw [← String.toList_inj, String.toList_append, hrest, ht]
  case isFalse => exact .inl h

/-- A prefix is removed. -/
theorem removePrefix_append (lead s : String) : removePrefix lead (lead ++ s) = s := by
  have hlead : startsWith (lead ++ s) lead = true := by
    rw [startsWith, String.toList_append]
    exact List.isPrefixOf_iff_prefix.mpr (List.prefix_append _ _)
  rw [removePrefix, if_pos hlead, dropFirst, String.toList_append, List.drop_left,
    String.ofList_toList]

/-- What a stripped text holds, the text holds. -/
theorem contains_of_strip {s part : String} (h : contains (strip s) part = true) :
    contains s part = true := by
  unfold contains strip at *
  rw [decide_eq_true_eq, String.toList_ofList] at h
  rw [decide_eq_true_eq]
  refine h.trans ?_
  have hlast : ((s.toList.dropWhile isSpace).reverse.dropWhile isSpace).reverse <+:
      s.toList.dropWhile isSpace := by
    rw [← List.reverse_suffix, List.reverse_reverse]
    exact List.dropWhile_suffix _
  exact hlast.isInfix.trans (List.dropWhile_suffix _).isInfix

end Text

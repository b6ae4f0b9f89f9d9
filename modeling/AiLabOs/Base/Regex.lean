import Mathlib.Data.Nat.Notation

/-!
# Regular expressions

Expressions over characters, matched the way a backtracking matcher does: a match is a place in the
text, and an expression gives the places it can end at, the preferred one first.

## Main definitions

* `Regex.Place`: a place in a text
* `Regex`, `Regex.ends`: expressions, and where a match from a place can end
* `Regex.search`: the text of the first match
-/

/-- A place in a text: the characters before it, the last first, and those after it. -/
structure Regex.Place where
  before : List Char
  after : List Char

inductive Regex where
  | set (p : Char → Bool)
  | look (p : Regex.Place → Bool)
  | seq (r s : Regex)
  | alt (r s : Regex)
  | many (r : Regex)

namespace Regex

/-- As many steps as there are, those that take more first; a step must move on. -/
def repeatFrom (step : Place → List Place) : ℕ → Place → List Place
  | 0, c => [c]
  | n + 1, c =>
    ((step c).filter fun d => d.after.length < c.after.length).flatMap (repeatFrom step n) ++ [c]

/-- Where a match from a place can end, in the order of preference. -/
def ends : Regex → Place → List Place
  | .set p, ⟨before, c :: after⟩ => if p c then [⟨c :: before, after⟩] else []
  | .set _, ⟨_, []⟩ => []
  | .look p, c => if p c then [c] else []
  | .seq r s, c => (r.ends c).flatMap s.ends
  | .alt r s, c => r.ends c ++ s.ends c
  | .many r, c => repeatFrom r.ends c.after.length c

/-- The text between two places. -/
def between (c d : Place) : String := String.ofList (c.after.take (c.after.length - d.after.length))

/-- The first match from one of the places that follow. -/
def searchFrom (r : Regex) (before : List Char) : List Char → Option String
  | [] => (r.ends ⟨before, []⟩).head?.map (between ⟨before, []⟩)
  | c :: after =>
    match (r.ends ⟨before, c :: after⟩).head? with
    | some d => some (between ⟨before, c :: after⟩ d)
    | none => searchFrom r (c :: before) after

/-- `re.search(r, s).group(0)`. -/
def search (r : Regex) (s : String) : Option String := r.searchFrom [] s.toList

/-! ## Derived expressions -/

/-- One character. -/
def char (c : Char) : Regex := .set (· == c)

/-- A text, literally. -/
def lit (s : String) : Regex := s.toList.foldr (fun c r => .seq (char c) r) (.look fun _ => true)

/-- `r+`. -/
def plus (r : Regex) : Regex := .seq r (.many r)

/-- `\b`, for the characters of words. -/
def boundary (isWord : Char → Bool) : Regex :=
  .look fun c => (c.before.head?.any isWord) != (c.after.head?.any isWord)

end Regex

/-!
# JSON values

## Main definitions

* `Json`: a JSON value
* `Json.field?`, `Json.text?`, `Json.textAt`: what a value holds under a key, as a text, on a path
* `Json.decEq`: whether two values are equal
-/

/-- A JSON value. Numbers are kept as they are written. -/
inductive Json where
  | null
  | bool (value : Bool)
  | number (literal : String)
  | text (value : String)
  | array (items : List Json)
  | object (fields : List (String × Json))

namespace Json

/-- `value.get(key)`, of a dictionary. -/
def field? (key : String) : Json → Option Json
  | .object fields => fields.lookup key
  | _ => none

/-- The value is a text. -/
def text? : Json → Option String
  | .text s => some s
  | _ => none

/-- The value at the end of a path of keys is a text. -/
def textAt : List String → Json → Option String
  | [], value => value.text?
  | key :: path, value => value.field? key >>= textAt path

/-- Python's truth value. -/
def truthy : Json → Bool
  | .null => false
  | .bool b => b
  | .number literal =>
    (literal.toList.takeWhile fun c => c != 'e' && c != 'E').any fun c => '1' ≤ c && c ≤ '9'
  | .text s => s != ""
  | .array items => !items.isEmpty
  | .object fields => !fields.isEmpty

/-- An optional value, as JSON. -/
def ofOption (f : α → Json) : Option α → Json
  | none => .null
  | some a => f a

mutual

/-- Whether two values are equal. -/
def decEq : (a b : Json) → Decidable (a = b)
  | .null, .null => isTrue rfl
  | .bool a, .bool b => decidable_of_iff (a = b) (Json.bool.injEq a b ▸ Iff.rfl)
  | .number a, .number b => decidable_of_iff (a = b) (Json.number.injEq a b ▸ Iff.rfl)
  | .text a, .text b => decidable_of_iff (a = b) (Json.text.injEq a b ▸ Iff.rfl)
  | .array a, .array b =>
    have := decEqItems a b
    decidable_of_iff (a = b) (Json.array.injEq a b ▸ Iff.rfl)
  | .object a, .object b =>
    have := decEqFields a b
    decidable_of_iff (a = b) (Json.object.injEq a b ▸ Iff.rfl)
  | .null, .bool _ | .null, .number _ | .null, .text _ | .null, .array _ | .null, .object _
  | .bool _, .null | .bool _, .number _ | .bool _, .text _ | .bool _, .array _ | .bool _, .object _
  | .number _, .null | .number _, .bool _ | .number _, .text _ | .number _, .array _
  | .number _, .object _
  | .text _, .null | .text _, .bool _ | .text _, .number _ | .text _, .array _ | .text _, .object _
  | .array _, .null | .array _, .bool _ | .array _, .number _ | .array _, .text _
  | .array _, .object _
  | .object _, .null | .object _, .bool _ | .object _, .number _ | .object _, .text _
  | .object _, .array _ => isFalse nofun

def decEqItems : (a b : List Json) → Decidable (a = b)
  | [], [] => isTrue rfl
  | [], _ :: _ | _ :: _, [] => isFalse nofun
  | x :: a, y :: b =>
    have := decEq x y
    have := decEqItems a b
    decidable_of_iff (x = y ∧ a = b) (List.cons.injEq x a y b ▸ Iff.rfl)

def decEqFields : (a b : List (String × Json)) → Decidable (a = b)
  | [], [] => isTrue rfl
  | [], _ :: _ | _ :: _, [] => isFalse nofun
  | (k, x) :: a, (l, y) :: b =>
    have := decEq x y
    have := decEqFields a b
    decidable_of_iff (k = l ∧ x = y ∧ a = b)
      (by simp only [List.cons.injEq, Prod.mk.injEq, and_assoc])

end

instance : DecidableEq Json := decEq

end Json

import AiLabOs.Tools.Expressions

/-!
# Tools: the built-in types of Python

Which operations the built-in types have, and of what type the results are. Where a number may be of
one of several types, the tables have the one with the most operations, and an object of which
nothing is known has them all.

## Main definitions

* `UnaryOp.kind`, `BinaryOp.kind`, `itemKind`, `DisplayKind.kind`: the operations
* `listedCall`: the calls of listed functions
* `Kind.Covers`: a type that has the operations of another
* `Python.BuiltIn`: objects that keep to the tables

## Main results

* `UnaryOp.kind_covers`, `BinaryOp.kind_covers`, `itemKind_covers`, `listedCall_covers`: what a type
  has not, the types it covers have not
-/

namespace Tools

/-! ## The tables -/

namespace Kind

def isNumber : Kind → Bool
  | .int | .float | .complex => true
  | _ => false

/-- The texts and lists. -/
def isSequence : Kind → Bool
  | .str | .bytes | .list | .tuple => true
  | _ => false

/-- The numbers that have an order. -/
def isReal : Kind → Bool
  | .int | .float => true
  | _ => false

/-- Objects that can be iterated over. -/
def isIterable : Kind → Bool
  | .str | .bytes | .list | .tuple | .set | .dict | .generator | .other => true
  | _ => false

/-- Objects that may be keys. -/
def isKey : Kind → Bool
  | .list | .set | .dict => false
  | _ => true

/-- The number type of a result. -/
def join (a b : Kind) : Kind :=
  if a = .complex ∨ b = .complex then .complex
  else if a = .float ∨ b = .float then .float
  else .int

/-- A type has the operations of another, and its values may be of that type. -/
def Covers (a b : Kind) : Prop :=
  a = b ∨ a = .other ∨ (a = .int ∧ b = .float) ∨ (a = .int ∧ b = .complex) ∨
    (a = .float ∧ b = .complex)

instance (a b : Kind) : Decidable (a.Covers b) := by
  unfold Covers
  infer_instance

theorem Covers.refl (a : Kind) : a.Covers a := .inl rfl

end Kind

/-- The type of a literal that is no number. -/
def Constant.kind : Constant → Kind
  | .str _ => .str
  | .bytes _ => .bytes
  | .bool _ => .int
  | .none => .none
  | .ellipsis => .ellipsis

/-- The type of a number literal. -/
def literalKind (literal : String) : Kind :=
  let text := literal.toList.map Char.toLower
  if text.getLast? = some 'j' then .complex
  else if text.take 2 = ['0', 'x'] then .int
  else if '.' ∈ text ∨ 'e' ∈ text then .float
  else .int

/-- The result of a unary operator, if the type has it. -/
def UnaryOp.kind (op : UnaryOp) (a : Kind) : Option Kind :=
  match op with
  | .not => some .int
  | .uAdd | .uSub => if a = .other ∨ a.isNumber then some a else none
  | .invert => if a = .other ∨ a = .int then some a else none

/-- The result of an operator on numbers. -/
def BinaryOp.numberKind (op : BinaryOp) (a : Kind) : Option Kind :=
  match op with
  | .add | .sub | .mult | .pow => some a
  | .div => some (a.join .float)
  | .mod | .floorDiv => if a = .complex then none else some a
  | .lShift | .rShift | .bitOr | .bitXor | .bitAnd => if a = .int then some a else none
  | .matMult => none

/-- The result of an operator on other objects. -/
def BinaryOp.objectKind (op : BinaryOp) (a b : Kind) : Option Kind :=
  match op with
  | .add => if a = b ∧ a.isSequence then some a else none
  | .mult =>
    if a.isSequence ∧ b = .int then some a
    else if b.isSequence ∧ a = .int then some b
    else none
  | .mod => if a = .str ∨ a = .bytes then some a else none
  | .sub | .bitXor | .bitAnd => if a = .set ∧ b = .set then some .set else none
  | .bitOr => if a = b ∧ (a = .set ∨ a = .dict) then some a else none
  | _ => none

/-- **The result of a binary operator**, if the types have it. -/
def BinaryOp.kind (op : BinaryOp) (a b : Kind) : Option Kind :=
  if a = .other ∨ b = .other then some .other
  else if a.isNumber && b.isNumber then op.numberKind (a.join b)
  else op.objectKind a b

/-- The result of a subscript, if the types have it. -/
def itemKind (a b : Kind) : Option Kind :=
  match a with
  | .str => if b = .int ∨ b = .slice ∨ b = .other then some .str else none
  | .bytes =>
    if b = .int then some .int
    else if b = .slice then some .bytes
    else if b = .other then some .other
    else none
  | .list | .tuple =>
    if b = .slice then some a
    else if b = .int ∨ b = .other then some .other
    else none
  | .dict => if b.isKey then some .other else none
  | .other => some .other
  | _ => none

/-- The items of a dictionary that are its keys. -/
def keysOf : List Kind → List Kind
  | key :: _ :: items => key :: keysOf items
  | _ => []

/-- The type of a display, if its items may be in it. -/
def DisplayKind.kind (kind : DisplayKind) (items : List Kind) : Option Kind :=
  match kind with
  | .list => some .list
  | .tuple => some .tuple
  | .slice => some .slice
  | .set => if items.all Kind.isKey then some .set else none
  | .dict => if (keysOf items).all Kind.isKey then some .dict else none

/-- The smaller of two values, if they have an order. -/
def orderKind (a b : Kind) : Option Kind :=
  if a.isReal && b.isReal then some (if a = .int ∨ b = .int then .int else .float)
  else if a = b ∧ (a.isSequence ∨ a = .set ∨ a = .slice) then some a
  else none

/-- The smallest item of an iterable. -/
def smallestKind : Kind → Option Kind
  | .str => some .str
  | .bytes => some .int
  | .list | .tuple | .set | .dict => some .other
  | _ => none

/-- The smallest of several values. -/
def smallestOf (first : Kind) : List Kind → Option Kind
  | [] => some first
  | next :: rest => (orderKind first next).bind fun least => smallestOf least rest

/-- `round` with a number of digits. -/
def roundKind (a digits : Kind) : Option Kind :=
  if a.isReal ∧ digits = .int then some a
  else if a.isReal ∧ digits = .none then some .int
  else none

/-- The result of a listed function, if it takes such arguments. -/
def positionalCall (name : String) (args : List Kind) : Option Kind :=
  if name = "min" ∨ name = "max" then
    match args with
    | [] => none
    | [a] => smallestKind a
    | a :: rest => smallestOf a rest
  else match args with
    | [a] =>
      if name = "abs" then if a.isReal then some a else if a = .complex then some .float else none
      else if name = "round" ∨ name = "ceil" ∨ name = "floor" then
        if a.isReal then some .int else none
      else if name = "sqrt" then if a.isReal then some .float else none
      else none
    | [a, b] =>
      if name = "round" then roundKind a b
      else if name = "pow" then if a.isReal && b.isReal then some .float else none
      else none
    | _ => none

/-- The smallest item of an iterable, or the default. -/
def defaultOrder : List Kind → Option Kind
  | [a] => (smallestKind a).map fun _ => .other
  | _ => none

/-- `min` and `max` with keywords: a key may be called, and a default stands for no item. -/
def keywordOrder (args : List (Option String × Kind)) : Option (Option Kind) :=
  if args.any fun arg => arg.1 = some "key" then none
  else if args.all fun arg => arg.1 = .none ∨ arg.1 = some "default" then
    some (defaultOrder ((args.filter fun arg => arg.1 = .none).map Prod.snd))
  else some none

/-- **A call of a listed function**: none if it may call what it is given, and otherwise its result,
if it takes such arguments. -/
def listedCall (name : String) (args : List (Option String × Kind)) : Option (Option Kind) :=
  if args.any fun arg => arg.2 = .other || arg.2 = .generator then none
  else if args.all fun arg => arg.1 = .none then some (positionalCall name (args.map Prod.snd))
  else if name = "min" ∨ name = "max" then keywordOrder args
  else if name = "round" ∧ args.all fun arg => arg.2.isReal || arg.2 = .none then some (some .int)
  else some none

/-! ## What a type covers -/

/-- A result is covered by another one: it fails where that fails. -/
def CoversResult : Option Kind → Option Kind → Prop
  | none, b => b = none
  | some a, b => ∀ k, b = some k → a.Covers k

instance (a b : Option Kind) : Decidable (CoversResult a b) :=
  match a, b with
  | none, b => inferInstanceAs (Decidable (b = none))
  | some _, none => .isTrue fun _ h => by cases h
  | some a, some k => decidable_of_iff (a.Covers k) ⟨fun h _ heq => Option.some.inj heq ▸ h,
      fun h => h k rfl⟩

theorem CoversResult.none (a : Option Kind) : CoversResult a none := by
  cases a with
  | none => rfl
  | some a => exact fun _ h => by cases h

theorem CoversResult.refl (a : Option Kind) : CoversResult a a := by
  cases a with
  | none => rfl
  | some a => exact fun _ h => Option.some.inj h ▸ .refl a

/-- An object of which nothing is known covers every result. -/
theorem CoversResult.other (b : Option Kind) : CoversResult (some .other) b :=
  fun _ _ => .inr (.inl rfl)

theorem CoversResult.bind {a b : Option Kind} (h : CoversResult a b)
    {f g : Kind → Option Kind} (hfg : ∀ x y, a = some x → x.Covers y → CoversResult (f x) (g y)) :
    CoversResult (a.bind f) (b.bind g) := by
  cases b with
  | none => exact .none _
  | some y =>
    cases a with
    | none => cases h
    | some x => exact hfg x y rfl (h y rfl)

namespace Kind

/-- The types. -/
def all : List Kind :=
  [.int, .float, .complex, .str, .bytes, .none, .ellipsis, .list, .tuple, .set, .dict, .slice,
    .function, .generator, .other]

theorem mem_all (a : Kind) : a ∈ all := by
  cases a <;> decide

/-- A number type and another one that it covers. -/
def numbers : List (Kind × Kind) := [(.int, .float), (.int, .complex), (.float, .complex)]

theorem covers_iff {a b : Kind} : a.Covers b ↔ a = b ∨ a = .other ∨ (a, b) ∈ numbers := by
  simp [Covers, numbers]

theorem Covers.trans {a b c : Kind} (h : a.Covers b) (h' : b.Covers c) : a.Covers c := by
  rcases covers_iff.mp h with rfl | rfl | hab
  · exact h'
  · exact .inr (.inl rfl)
  · have hall : ∀ p ∈ numbers, ∀ c ∈ all, p.2.Covers c → p.1.Covers c := by decide
    exact hall _ hab c (mem_all c) h'

/-- A known type covers a type. -/
def Within (a b : Kind) : Prop := a.Covers b ∧ a ≠ .other

instance (a b : Kind) : Decidable (a.Within b) := by
  unfold Within
  infer_instance

end Kind

theorem CoversResult.trans {a b c : Option Kind} (h : CoversResult a b) (h' : CoversResult b c) :
    CoversResult a c := by
  cases b with
  | none =>
    obtain rfl : c = .none := h'
    exact h
  | some y =>
    cases a with
    | none => cases h
    | some x => exact fun k hk => (h y rfl).trans (h' k hk)

/-- **What covers among known types**: it is enough to look at numbers. -/
theorem CoversResult.of_within {f : Kind → Option Kind}
    (hnumbers : ∀ p ∈ Kind.numbers, CoversResult (f p.1) (f p.2)) {a b : Kind}
    (h : a.Within b) : CoversResult (f a) (f b) := by
  rcases Kind.covers_iff.mp h.1 with rfl | hother | hab
  · exact .refl _
  · exact absurd hother h.2
  · exact hnumbers _ hab

/-- **What covers among all types**: it is enough to look at numbers and at an object of which
nothing is known. -/
theorem CoversResult.of_covers {f : Kind → Option Kind}
    (hother : ∀ b ∈ Kind.all, CoversResult (f .other) (f b))
    (hnumbers : ∀ p ∈ Kind.numbers, CoversResult (f p.1) (f p.2)) {a b : Kind}
    (h : a.Covers b) : CoversResult (f a) (f b) := by
  by_cases ha : a = .other
  · exact ha ▸ hother b (Kind.mem_all b)
  · exact of_within hnumbers ⟨h, ha⟩

section Operands

variable {f : Kind → Kind → Option Kind} {a b a' b' : Kind}
  (hleft : ∀ p ∈ Kind.numbers, ∀ b ∈ Kind.all, CoversResult (f p.1 b) (f p.2 b))
  (hright : ∀ p ∈ Kind.numbers, ∀ a ∈ Kind.all, CoversResult (f a p.1) (f a p.2))

include hleft hright

/-- Of two operands one is covered, and then the other. -/
theorem CoversResult.of_within₂ (ha : a.Within a') (hb : b.Within b') :
    CoversResult (f a b) (f a' b') := by
  have hfirst : CoversResult (f a b) (f a' b) :=
    .of_within (f := (f · b)) (fun p hp => hleft p hp b b.mem_all) ha
  exact hfirst.trans (.of_within (fun p hp => hright p hp a' a'.mem_all) hb)

theorem CoversResult.of_covers₂
    (hother : ∀ a ∈ Kind.all, ∀ b ∈ Kind.all,
      CoversResult (f .other b) (f a b) ∧ CoversResult (f a .other) (f a b))
    (ha : a.Covers a') (hb : b.Covers b') : CoversResult (f a b) (f a' b') := by
  have hfirst : CoversResult (f a b) (f a' b) :=
    .of_covers (f := (f · b)) (fun c hc => (hother c hc b b.mem_all).1)
      (fun p hp => hleft p hp b b.mem_all) ha
  exact hfirst.trans (.of_covers (fun c hc => (hother a' a'.mem_all c hc).2)
    (fun p hp => hright p hp a' a'.mem_all) hb)

end Operands

theorem UnaryOp.kind_covers (op : UnaryOp) {a b : Kind} (h : a.Covers b) :
    CoversResult (op.kind a) (op.kind b) := by
  refine .of_covers ?_ ?_ h
  · cases op <;> decide
  · cases op <;> decide

theorem BinaryOp.kind_covers (op : BinaryOp) {a b a' b' : Kind} (ha : a.Covers a')
    (hb : b.Covers b') : CoversResult (op.kind a b) (op.kind a' b') := by
  have hother : ∀ a b, a = .other ∨ b = .other → op.kind a b = some .other :=
    fun _ _ hunknown => if_pos hunknown
  refine .of_covers₂ ?_ ?_ (fun a _ b _ => ⟨?_, ?_⟩) ha hb
  · cases op <;> decide +kernel
  · cases op <;> decide +kernel
  · exact hother .other b (.inl rfl) ▸ .other _
  · exact hother a .other (.inr rfl) ▸ .other _

theorem itemKind_covers {a b a' b' : Kind} (ha : a.Covers a') (hb : b.Covers b') :
    CoversResult (itemKind a b) (itemKind a' b') := by
  refine .of_covers₂ ?_ ?_ ?_ ha hb
  · decide +kernel
  · decide +kernel
  · decide +kernel

/-- Types that cover types, one after the other. -/
abbrev CoverAll (as bs : List Kind) : Prop := List.Forall₂ Kind.Covers as bs

theorem isKey_of_covers {a b : Kind} (h : a.Covers b) (hkey : b.isKey = true) : a.isKey = true := by
  rcases Kind.covers_iff.mp h with rfl | rfl | hab
  · exact hkey
  · rfl
  · have hall : ∀ p ∈ Kind.numbers, p.1.isKey = true := by decide
    exact hall _ hab

theorem not_isIterable_of_covers {a b : Kind} (h : a.Covers b) (ha : a.isIterable = false) :
    b.isIterable = false := by
  rcases Kind.covers_iff.mp h with rfl | rfl | hab
  · exact ha
  · cases ha
  · have hall : ∀ p ∈ Kind.numbers, p.2.isIterable = false := by decide
    exact hall _ hab

theorem all_isKey_of_covers {as bs : List Kind} (h : CoverAll as bs)
    (hkeys : bs.all Kind.isKey = true) : as.all Kind.isKey = true := by
  induction h with
  | nil => rfl
  | cons hab _ ih =>
    rw [List.all_cons, Bool.and_eq_true] at hkeys ⊢
    exact ⟨isKey_of_covers hab hkeys.1, ih hkeys.2⟩

theorem keysOf_covers {as bs : List Kind} (h : CoverAll as bs) :
    CoverAll (keysOf as) (keysOf bs) := by
  induction as using keysOf.induct generalizing bs with
  | case1 key item items ih =>
    cases h with
    | cons hkey hrest =>
      cases hrest with
      | cons _ hrest => exact .cons hkey (ih hrest)
  | case2 items hne =>
    cases h with
    | nil => exact .nil
    | cons hkey hrest =>
      cases hrest with
      | nil => exact .nil
      | cons hitem hrest => exact absurd rfl (hne _ _ _)

theorem DisplayKind.kind_covers (kind : DisplayKind) {as bs : List Kind} (h : CoverAll as bs) :
    CoversResult (kind.kind as) (kind.kind bs) := by
  have hif : ∀ {k : Kind} {p q : Bool}, (q = true → p = true) →
      CoversResult (if p then some k else none) (if q then some k else none) := by
    intro k p q hpq
    cases q with
    | false => exact .none _
    | true =>
      rw [if_pos (hpq rfl), if_pos rfl]
      exact fun _ hk => Option.some.inj hk ▸ .refl k
  cases kind with
  | list | tuple | slice => exact fun _ hk => Option.some.inj hk ▸ .refl _
  | set => exact hif (all_isKey_of_covers h)
  | dict => exact hif (all_isKey_of_covers (keysOf_covers h))

/-! ## Calls of listed functions -/

theorem orderKind_within {a b a' b' : Kind} (ha : a.Within a') (hb : b.Within b') :
    CoversResult (orderKind a b) (orderKind a' b') ∧ orderKind a b ≠ some .other := by
  have hknown : ∀ a ∈ Kind.all, ∀ b ∈ Kind.all, orderKind a b ≠ some .other := by
    decide +kernel
  refine ⟨.of_within₂ ?_ ?_ ha hb, hknown a a.mem_all b b.mem_all⟩
  · decide +kernel
  · decide +kernel

theorem smallestOf_within {as bs : List Kind} (h : List.Forall₂ Kind.Within as bs) {a b : Kind}
    (hab : a.Within b) : CoversResult (smallestOf a as) (smallestOf b bs) := by
  induction h generalizing a b with
  | nil => exact fun _ hk => Option.some.inj hk ▸ hab.1
  | cons hnext _ ih =>
    obtain ⟨hcovers, hknown⟩ := orderKind_within hab hnext
    exact hcovers.bind fun x y hx hxy => ih ⟨hxy, fun hother => hknown (hother ▸ hx)⟩

theorem positionalCall_within {name : String} (hname : name ∈ allowedFuncs) {as bs : List Kind}
    (h : List.Forall₂ Kind.Within as bs) :
    CoversResult (positionalCall name as) (positionalCall name bs) := by
  have hsmallest : ∀ p ∈ Kind.numbers, CoversResult (smallestKind p.1) (smallestKind p.2) := by
    decide
  have hone : ∀ name ∈ allowedFuncs, ¬(name = "min" ∨ name = "max") → ∀ p ∈ Kind.numbers,
      CoversResult (positionalCall name [p.1]) (positionalCall name [p.2]) := by
    decide +kernel
  have hfirst : ∀ name ∈ allowedFuncs, ¬(name = "min" ∨ name = "max") → ∀ p ∈ Kind.numbers,
      ∀ b ∈ Kind.all,
      CoversResult (positionalCall name [p.1, b]) (positionalCall name [p.2, b]) := by
    decide +kernel
  have hsecond : ∀ name ∈ allowedFuncs, ¬(name = "min" ∨ name = "max") → ∀ p ∈ Kind.numbers,
      ∀ a ∈ Kind.all,
      CoversResult (positionalCall name [a, p.1]) (positionalCall name [a, p.2]) := by
    decide +kernel
  by_cases horder : name = "min" ∨ name = "max"
  · cases h with
    | nil => simp [positionalCall, horder, CoversResult]
    | cons hab hrest =>
      cases hrest with
      | nil =>
        simp only [positionalCall, if_pos horder]
        exact .of_within hsmallest hab
      | cons hab' hrest' =>
        simp only [positionalCall, if_pos horder]
        exact smallestOf_within (.cons hab' hrest') hab
  · cases h with
    | nil => simp [positionalCall, horder, CoversResult]
    | cons hab hrest =>
      cases hrest with
      | nil => exact .of_within (f := fun k => positionalCall name [k]) (hone name hname horder) hab
      | cons hab' hrest' =>
        cases hrest' with
        | nil =>
          exact .of_within₂ (f := fun a b => positionalCall name [a, b])
            (hfirst name hname horder) (hsecond name hname horder) hab hab'
        | cons hab'' hrest'' => simp [positionalCall, horder, CoversResult]

/-- Arguments whose types cover those of others. -/
abbrev CoverArgs (as bs : List (Option String × Kind)) : Prop :=
  List.Forall₂ (fun a b => a.1 = b.1 ∧ a.2.Covers b.2) as bs

/-- Arguments of known types whose types cover those of others. -/
abbrev WithinArgs (as bs : List (Option String × Kind)) : Prop :=
  List.Forall₂ (fun a b => a.1 = b.1 ∧ a.2.Within b.2) as bs

section Args

variable {as bs : List (Option String × Kind)}

/-- Arguments that are covered by known ones are known. -/
theorem CoverArgs.within (h : CoverArgs as bs)
    (hknown : ¬(as.any fun arg => arg.2 = .other || arg.2 = .generator) = true) :
    WithinArgs as bs ∧ ¬(bs.any fun arg => arg.2 = .other || arg.2 = .generator) = true := by
  induction h with
  | nil => exact ⟨.nil, hknown⟩
  | @cons a b as bs hab _ ih =>
    rw [List.any_cons, Bool.or_eq_true, not_or, Bool.not_eq_true] at hknown
    obtain ⟨hrest, hknown'⟩ := ih hknown.2
    have hother : a.2 ≠ .other := of_decide_eq_false (Bool.or_eq_false_iff.mp hknown.1).1
    refine ⟨.cons ⟨hab.1, hab.2, hother⟩ hrest, ?_⟩
    rw [List.any_cons, Bool.or_eq_true, not_or, Bool.not_eq_true]
    refine ⟨?_, hknown'⟩
    rcases Kind.covers_iff.mp hab.2 with heq | heq | hnumbers
    · exact heq ▸ hknown.1
    · exact absurd heq hother
    · have hall : ∀ p ∈ Kind.numbers, (p.2 = .other || p.2 = .generator) = false := by decide
      exact hall _ hnumbers

theorem WithinArgs.all_eq (h : WithinArgs as bs) (p : Option String → Bool) :
    (as.all fun arg => p arg.1) = bs.all fun arg => p arg.1 := by
  induction h with
  | nil => rfl
  | cons hab _ ih => rw [List.all_cons, List.all_cons, hab.1, ih]

theorem WithinArgs.any_eq (h : WithinArgs as bs) (p : Option String → Bool) :
    (as.any fun arg => p arg.1) = bs.any fun arg => p arg.1 := by
  induction h with
  | nil => rfl
  | cons hab _ ih => rw [List.any_cons, List.any_cons, hab.1, ih]

theorem WithinArgs.kinds (h : WithinArgs as bs) :
    List.Forall₂ Kind.Within (as.map Prod.snd) (bs.map Prod.snd) := by
  induction h with
  | nil => exact .nil
  | cons hab _ ih => exact .cons hab.2 ih

theorem WithinArgs.positional (h : WithinArgs as bs) :
    WithinArgs (as.filter fun arg => arg.1 = .none) (bs.filter fun arg => arg.1 = .none) := by
  induction h with
  | nil => exact .nil
  | @cons a b as bs hab _ ih =>
    by_cases hnone : a.1 = none
    · rw [List.filter_cons_of_pos (by simpa using hnone),
        List.filter_cons_of_pos (by simpa [← hab.1] using hnone)]
      exact .cons hab ih
    · rw [List.filter_cons_of_neg (by simpa using hnone),
        List.filter_cons_of_neg (by simpa [← hab.1] using hnone)]
      exact ih

theorem defaultOrder_within {as bs : List Kind} (h : List.Forall₂ Kind.Within as bs) :
    CoversResult (defaultOrder as) (defaultOrder bs) := by
  have hall : ∀ p ∈ Kind.numbers, CoversResult (defaultOrder [p.1]) (defaultOrder [p.2]) := by
    decide
  cases h with
  | nil => rfl
  | cons hab hrest =>
    cases hrest with
    | nil => exact .of_within (f := fun k => defaultOrder [k]) hall hab
    | cons _ _ => rfl

theorem keywordOrder_within (h : WithinArgs as bs) {r : Option Kind}
    (hcall : keywordOrder as = some r) :
    ∃ r', keywordOrder bs = some r' ∧ CoversResult r r' := by
  unfold keywordOrder at hcall ⊢
  rw [h.any_eq (· = some "key"), h.all_eq fun keyword => keyword = none ∨ keyword = some "default"]
    at hcall
  split at hcall
  · cases hcall
  · rw [if_neg ‹_›]
    split at hcall
    · rw [if_pos ‹_›]
      obtain rfl := Option.some.inj hcall
      exact ⟨_, rfl, defaultOrder_within h.positional.kinds⟩
    · rw [if_neg ‹_›]
      obtain rfl := Option.some.inj hcall
      exact ⟨none, rfl, rfl⟩

theorem WithinArgs.all_rounded (h : WithinArgs as bs)
    (hall : (bs.all fun arg => arg.2.isReal || arg.2 = .none) = true) :
    (as.all fun arg => arg.2.isReal || arg.2 = .none) = true := by
  induction h with
  | nil => rfl
  | @cons a b as bs hab _ ih =>
    rw [List.all_cons, Bool.and_eq_true] at hall ⊢
    refine ⟨?_, ih hall.2⟩
    rcases Kind.covers_iff.mp hab.2.1 with heq | heq | hnumbers
    · exact heq ▸ hall.1
    · exact absurd heq hab.2.2
    · have hreal : ∀ p ∈ Kind.numbers, (p.1.isReal || p.1 = .none) = true := by decide
      exact hreal _ hnumbers

/-- **A call** that is not able to do more for any covering arguments is none for the arguments. -/
theorem listedCall_covers {name : String} (hname : name ∈ allowedFuncs) (h : CoverArgs as bs)
    {r : Option Kind} (hcall : listedCall name as = some r) :
    ∃ r', listedCall name bs = some r' ∧ CoversResult r r' := by
  unfold listedCall at hcall ⊢
  split at hcall
  · cases hcall
  rename_i hknown
  obtain ⟨hwithin, hknown'⟩ := h.within hknown
  rw [if_neg hknown']
  rw [hwithin.all_eq (· = none)] at hcall
  split at hcall
  · rw [if_pos ‹_›]
    obtain rfl := Option.some.inj hcall
    exact ⟨_, rfl, positionalCall_within hname hwithin.kinds⟩
  rw [if_neg ‹_›]
  split at hcall
  · rw [if_pos ‹_›]
    exact keywordOrder_within hwithin hcall
  rw [if_neg ‹_›]
  split at hcall
  · obtain rfl := Option.some.inj hcall
    split
    · exact ⟨_, rfl, fun k hk => Option.some.inj hk ▸ .refl _⟩
    · exact ⟨_, rfl, .none _⟩
  · rename_i hnot
    obtain rfl := Option.some.inj hcall
    rw [if_neg fun hround => hnot ⟨hround.1, hwithin.all_rounded hround.2⟩]
    exact ⟨none, rfl, rfl⟩

end Args

/-! ## Objects of the built-in types -/

namespace Python

variable (py : Python)

/-- The type of a value. -/
def kindOf : py.Val → Kind
  | .fn _ => .function
  | .obj o => py.kind o

/-- The result of an operation is of a type, or the types do not have the operation. -/
def Yields (result : Option Kind) (outcome : Except String py.Val) : Prop :=
  match result with
  | some k => ∀ v, outcome = .ok v → k.Covers (py.kindOf v)
  | none => ∃ e, outcome = .error e

/-- The types of arguments. -/
def kindsOf (args : List (Option String × py.Val)) : List (Option String × Kind) :=
  args.map fun arg => (arg.1, py.kindOf arg.2)

/-- **The objects keep to the tables**: literals are of their types, operations that a type does not
have raise, and a listed function that cannot call what it is given does nothing else. -/
structure BuiltIn : Prop where
  number : ∀ literal, py.kind (py.number literal) = literalKind literal
  literal : ∀ value, py.kind (py.literal value) = value.kind
  operator : ∀ id, py.kind (py.operator id) = .function
  builtins : py.kind py.builtins = .dict
  function : ∀ text targets defaults, py.kind (py.function text targets defaults) = .function
  unary : ∀ op v, py.Yields (op.kind (py.kindOf v)) (py.unary op v)
  binary : ∀ op a b, py.Yields (op.kind (py.kindOf a) (py.kindOf b)) (py.binary op a b)
  getitem : ∀ a b, py.Yields (itemKind (py.kindOf a) (py.kindOf b)) (py.getitem a b)
  build : ∀ kind items,
    py.Yields (kind.kind (items.map py.kindOf)) ((py.build kind items).map .obj)
  callListed : ∀ name ∈ allowedFuncs, ∀ args result,
    listedCall name (py.kindsOf args) = some result →
    (py.callListed name args).Quiet Event.Foreign ∧
      py.Yields result (py.callListed name args).outcome
  iterate : ∀ v, (py.kindOf v).isIterable = false →
    (py.iterate v).Quiet Event.Foreign ∧ (py.iterate v).Fails

variable {py}

/-- What an operation does that is described by more capable types. -/
theorem Yields.of_covers {a b : Option Kind} (hab : CoversResult a b)
    {outcome : Except String py.Val} (h : py.Yields b outcome) : py.Yields a outcome := by
  cases b with
  | none =>
    obtain ⟨e, rfl⟩ := h
    cases a with
    | none => exact ⟨e, rfl⟩
    | some a => exact fun v hv => by cases hv
  | some b =>
    cases a with
    | none => cases hab
    | some a => exact fun v hv => (hab b rfl).trans (h v hv)

end Python

end Tools

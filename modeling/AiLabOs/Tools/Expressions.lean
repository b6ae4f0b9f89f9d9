import AiLabOs.Base.Assoc
import AiLabOs.Base.Traced

/-!
# Tools: Python expressions

The expressions of Python, and their evaluation as `eval` evaluates them: operands from left to
right, and names where they are bound. What objects do is Python's. Attribute access and calls leave
events.

## Main definitions

* `Expr`, `Args`, `Clauses`: the syntax trees
* `Kind`: the built-in types
* `Python`: the operations of Python's objects
* `Python.eval`: the evaluation of an expression
-/

namespace Tools

/-! ## Syntax -/

inductive UnaryOp where
  | uAdd
  | uSub
  | invert
  | not
deriving DecidableEq, Repr

inductive BinaryOp where
  | add
  | sub
  | mult
  | div
  | mod
  | pow
  | floorDiv
  | matMult
  | lShift
  | rShift
  | bitOr
  | bitXor
  | bitAnd
deriving DecidableEq, Repr

/-- A literal that is no number. -/
inductive Constant where
  | str (value : String)
  | bytes (value : List UInt8)
  | bool (value : Bool)
  | none
  | ellipsis
deriving DecidableEq, Repr

/-- A display, or the slice of a subscript. -/
inductive DisplayKind where
  | list
  | tuple
  | set
  | dict
  | slice
deriving DecidableEq, Repr

inductive ComprehensionKind where
  | list
  | set
  | dict
  | generator
deriving DecidableEq, Repr

mutual

/-- An expression. -/
inductive Expr where
  | number (literal : String)
  | constant (value : Constant)
  | name (id : String)
  | unary (op : UnaryOp) (operand : Expr)
  | binary (op : BinaryOp) (left right : Expr)
  | call (func : Expr) (args : Args)
  | attribute (value : Expr) (attr : String)
  | subscript (value index : Expr)
  | lambda (params : List String) (defaults : Args) (body : Expr)
  /-- The items of a dictionary are its keys and values in turn. -/
  | display (kind : DisplayKind) (items : Args)
  /-- `element for targets in iter if conditions …`. -/
  | comprehension (kind : ComprehensionKind) (elements : Args) (targets : List String)
      (iter : Expr) (conditions : Args) (clauses : Clauses)

/-- Expressions in the order of their evaluation, as arguments with their keywords. -/
inductive Args where
  | nil
  | cons (keyword : Option String) (arg : Expr) (args : Args)

/-- The further clauses of a comprehension. -/
inductive Clauses where
  | nil
  | cons (targets : List String) (iter : Expr) (conditions : Args) (clauses : Clauses)

end

/-! ## Objects -/

/-- What an evaluation does on its way: an attribute is accessed, or an object is called, which has
its name here if it is a listed function. -/
inductive Event where
  | attribute (attr : String)
  | call (listed : Option String)
deriving DecidableEq, Repr

/-- An attribute access, or a call of anything but a listed function. -/
def Event.Foreign : Event → Prop
  | .attribute _ => True
  | .call listed => listed = none

/-- The built-in type of an object. The truth values are whole numbers. -/
inductive Kind where
  | int
  | float
  | complex
  | str
  | bytes
  | none
  | ellipsis
  | list
  | tuple
  | set
  | dict
  | slice
  | function
  | generator
  /-- An object of any type. -/
  | other
deriving DecidableEq, Repr

/-- A value: a listed function or another object. -/
inductive Value (Obj : Type) where
  | fn (name : String)
  | obj (o : Obj)

/-- An evaluation; an exception is its text. -/
abbrev Eval (α : Type) := Traced Event String α

/-- **What objects do**, as far as Python's interpreter decides it. -/
structure Python where
  Obj : Type
  kind : Obj → Kind
  parse : String → Except String Expr
  number : String → Obj
  /-- The other literals. -/
  literal : Constant → Obj
  /-- The constant `__debug__`. -/
  debug : Bool
  /-- The functions of the module `operator`, by the operators they are listed under. -/
  operator : String → Obj
  /-- The dictionary `__builtins__`. -/
  builtins : Obj
  /-- Comprehensions see the names of the expression they are in. -/
  inlined : Bool
  unary : UnaryOp → Value Obj → Except String (Value Obj)
  binary : BinaryOp → Value Obj → Value Obj → Except String (Value Obj)
  /-- A listed function may call what it is given. -/
  callListed : String → List (Option String × Value Obj) → Eval (Value Obj)
  callObj : Value Obj → List (Option String × Value Obj) → Eval (Value Obj)
  getattr : Value Obj → String → Except String (Value Obj)
  getitem : Value Obj → Value Obj → Except String (Value Obj)
  build : DisplayKind → List (Value Obj) → Except String Obj
  /-- A function, of its text and its default values. -/
  function : Expr → List (String × Value Obj) → List (Option String × Value Obj) → Obj
  generator : Expr → List (String × Value Obj) → Value Obj → Eval Obj
  iterate : Value Obj → Eval (List (Value Obj))
  /-- The values that several targets are given. -/
  unpack : ℕ → Value Obj → Eval (List (Value Obj))
  truth : Value Obj → Bool
  collect : ComprehensionKind → List (List (Value Obj)) → Except String Obj

/-- The listed functions: `_ALLOWED_FUNCS`. -/
def allowedFuncs : List String := ["abs", "round", "min", "max", "sqrt", "pow", "ceil", "floor"]

/-- The listed operators: `_ALLOWED_OPS`. -/
def allowedOps : List String := ["+", "-", "*", "/", "**", "%"]

namespace Python

variable (py : Python)

abbrev Val := Value py.Obj

/-- The names that are bound in a place: the targets of comprehensions around it. -/
structure Scope where
  targets : List (String × py.Val) := []
  /-- The place is in a comprehension. -/
  nested : Bool := false

/-- The name among the locals that the calculator gives to `eval`. -/
def locals (id : String) : Option py.Val :=
  if id ∈ allowedFuncs then some (.fn id)
  else if id ∈ allowedOps then some (.obj (py.operator id))
  else none

/-- The name among its globals, where `__builtins__` is an empty dictionary. -/
def globals (id : String) : Option py.Val :=
  if id = "__builtins__" then some (.obj py.builtins) else none

/-- The value of a name. The compiler puts `__debug__` in as a constant. -/
def load (scope : py.Scope) (id : String) : Eval py.Val :=
  if id = "__debug__" then .lift (.ok (.obj (py.literal (.bool py.debug))))
  else match (Assoc.get scope.targets id).or
      ((if scope.nested && !py.inlined then none else py.locals id).or (py.globals id)) with
  | some value => .lift (.ok value)
  | none => .lift (.error ("name '" ++ id ++ "' is not defined"))

/-- A call. -/
def call : py.Val → List (Option String × py.Val) → Eval py.Val
  | .fn name, args => do
    Traced.emit (.call (some name))
    py.callListed name args
  | .obj callee, args => do
    Traced.emit (.call none)
    py.callObj (.obj callee) args

/-- An attribute access. -/
def getAttribute (value : py.Val) (attr : String) : Eval py.Val := do
  Traced.emit (.attribute attr)
  .lift (py.getattr value attr)

/-- The targets of a comprehension, with an item. -/
def assign (targets : List String) (item : py.Val) : Eval (List (String × py.Val)) :=
  match targets with
  | [target] => .lift (.ok [(target, item)])
  | targets => do
    let values ← py.unpack targets.length item
    return targets.zip values

variable {py} in
/-- What a loop over items collects. -/
def overItems {α : Type} (body : py.Val → Eval (List α)) : List py.Val → Eval (List α)
  | [] => .lift (.ok [])
  | item :: items => do
    let rows ← body item
    let rest ← overItems body items
    return rows ++ rest

mutual

/-- **The evaluation of an expression**. -/
def eval (scope : py.Scope) : Expr → Eval py.Val
  | .number literal => .lift (.ok (.obj (py.number literal)))
  | .constant value => .lift (.ok (.obj (py.literal value)))
  | .name id => py.load scope id
  | .unary op operand => do
    let value ← eval scope operand
    .lift (py.unary op value)
  | .binary op left right => do
    let a ← eval scope left
    let b ← eval scope right
    .lift (py.binary op a b)
  | .call func args => do
    let callee ← eval scope func
    let values ← evalArgs scope args
    py.call callee values
  | .attribute value attr => do
    let object ← eval scope value
    py.getAttribute object attr
  | .subscript value index => do
    let object ← eval scope value
    let key ← eval scope index
    .lift (py.getitem object key)
  | .lambda params defaults body => do
    let values ← evalArgs scope defaults
    .lift (.ok (.obj (py.function (.lambda params defaults body) scope.targets values)))
  | .display kind items => do
    let values ← evalArgs scope items
    .lift ((py.build kind (values.map Prod.snd)).map .obj)
  | .comprehension kind elements targets iter conditions clauses => do
    let iterable ← eval scope iter
    if kind = .generator then
      let object ← py.generator (.comprehension kind elements targets iter conditions clauses)
        scope.targets iterable
      return .obj object
    else
      let items ← py.iterate iterable
      let rows ← overItems (fun item => do
        let bound ← py.assign targets item
        let inner : py.Scope := { targets := bound ++ scope.targets, nested := true }
        let holds ← evalConditions inner conditions
        if holds then
          evalClauses (fun place => do
            let values ← evalArgs place elements
            return [values.map Prod.snd]) inner clauses
        else return []) items
      .lift ((py.collect kind rows).map .obj)

/-- The values of expressions, one after the other. -/
def evalArgs (scope : py.Scope) : Args → Eval (List (Option String × py.Val))
  | .nil => .lift (.ok [])
  | .cons keyword arg args => do
    let value ← eval scope arg
    let values ← evalArgs scope args
    return (keyword, value) :: values

/-- Whether all conditions of a clause hold, up to the first that does not. -/
def evalConditions (scope : py.Scope) : Args → Eval Bool
  | .nil => .lift (.ok true)
  | .cons _ condition conditions => do
    let value ← eval scope condition
    if py.truth value then evalConditions scope conditions else return false

/-- What the body of a comprehension gives under its further clauses. -/
def evalClauses (body : py.Scope → Eval (List (List py.Val))) (scope : py.Scope) :
    Clauses → Eval (List (List py.Val))
  | .nil => body scope
  | .cons targets iter conditions clauses => do
    let iterable ← eval scope iter
    let items ← py.iterate iterable
    overItems (fun item => do
      let bound ← py.assign targets item
      let inner : py.Scope := { targets := bound ++ scope.targets, nested := true }
      let holds ← evalConditions inner conditions
      if holds then evalClauses body inner clauses else return []) items

end

end Python

end Tools

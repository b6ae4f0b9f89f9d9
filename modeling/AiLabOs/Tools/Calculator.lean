import AiLabOs.Tools.Kinds

/-!
# Tools: the calculator

The calculator hands its expression to `eval` with an empty table of builtins. So it computes every
expression of Python that gets by without an unbound name, also if it is none of arithmetic.

## Main definitions

* `CalculatorTool.execute`: the tool
* `Expr.arithmetic`: the expressions it is meant for
* `OnlyArithmetic`: it succeeds on these only, and rejects the others without running them
* `Expr.verdict`: what the evaluation of an expression does first

## Main results

* `kind_sound`, `eval_sound`: types and verdict hold for all objects of the built-in types
* `builtIn_permissive`, `eval_exact`: there are such objects by which the verdict is met
* `onlyArithmetic_iff`: when the calculator keeps to arithmetic
-/

namespace Tools

/-- `ToolResult`. -/
structure ToolResult (Output : Type) where
  success : Bool
  output : Option Output := none
  error : Option String := none

/-- `CalculatorTool.execute`: the events of the evaluation, and the result. -/
def CalculatorTool.execute (py : Python) (expr : String) : List Event × ToolResult py.Val :=
  let failed (message : String) : ToolResult py.Val :=
    { success := false, error := some ("Calculation error: " ++ message) }
  if expr = "" then ([], { success := false, error := some "Expression is empty" })
  else match py.parse expr with
    | .error message => ([], failed message)
    | .ok tree =>
      let run := py.eval {} tree
      match run.outcome with
      | .ok result => (run.trace, { success := true, output := some result })
      | .error message => (run.trace, failed message)

/-! ## Arithmetic -/

/-- `+` and `-`. -/
def UnaryOp.isAllowed : UnaryOp → Bool
  | .uAdd | .uSub => true
  | _ => false

/-- `+`, `-`, `*`, `/`, `**` and `%`. -/
def BinaryOp.isAllowed : BinaryOp → Bool
  | .add | .sub | .mult | .div | .pow | .mod => true
  | _ => false

/-- The name of a listed function. -/
def Expr.listed : Expr → Bool
  | .name id => id ∈ allowedFuncs
  | _ => false

mutual

/-- **An expression of arithmetic**. -/
def Expr.arithmetic : Expr → Bool
  | .number _ => true
  | .unary op operand => op.isAllowed && operand.arithmetic
  | .binary op left right => op.isAllowed && left.arithmetic && right.arithmetic
  | .call func args => func.listed && args.arithmetic
  | _ => false

def Args.arithmetic : Args → Bool
  | .nil => true
  | .cons _ arg args => arg.arithmetic && args.arithmetic

end

/-- **The calculator keeps to arithmetic** on an expression: it succeeds only if this is one of
arithmetic, and any other is rejected without an attribute access or a call of anything but a listed
function. -/
structure OnlyArithmetic (tree : Expr) {Output : Type} (run : List Event × ToolResult Output) :
    Prop where
  success : run.2.success = true → tree.arithmetic = true
  rejected : tree.arithmetic = false →
    run.2.success = false ∧ ∀ event ∈ run.1, ¬event.Foreign

/-! ## Verdicts -/

/-- The name is bound where the expression is evaluated. -/
def bound (id : String) : Bool :=
  id ∈ allowedFuncs ++ allowedOps ++ ["__builtins__", "__debug__"]

/-- The type of what a name is bound to. -/
def nameKind (id : String) : Kind :=
  if id ∈ allowedFuncs ++ allowedOps then .function
  else if id = "__builtins__" then .dict
  else if id = "__debug__" then .int
  else .other

/-- The types of the results of a call: of a listed function, as the tables have it. -/
def callResult (func : Expr) (args : List (Option String × Kind)) : Option (Option Kind) :=
  match func with
  | .name id => if id ∈ allowedFuncs then listedCall id args else none
  | _ => none

mutual

/-- **The type of an expression**, as its operators have it. -/
def Expr.kind : Expr → Kind
  | .number literal => literalKind literal
  | .constant value => value.kind
  | .name id => nameKind id
  | .unary op operand => (op.kind operand.kind).getD .other
  | .binary op left right => (op.kind left.kind right.kind).getD .other
  | .call func args => ((callResult func args.kinds).bind id).getD .other
  | .attribute _ _ => .other
  | .subscript value index => (itemKind value.kind index.kind).getD .other
  | .lambda _ _ _ => .function
  | .display kind items => (kind.kind (items.kinds.map Prod.snd)).getD .other
  | .comprehension _ _ _ _ _ _ => .other

def Args.kinds : Args → List (Option String × Kind)
  | .nil => []
  | .cons keyword arg args => (keyword, arg.kind) :: args.kinds

end

/-- An operation that the types do not have is refused. -/
def resultVerdict : Option Kind → Verdict
  | some _ => .passes
  | none => .refused

/-- A call of anything but a listed function is not wanted, nor one that may call its arguments. -/
def callVerdict : Option (Option Kind) → Verdict
  | some result => resultVerdict result
  | none => .unwanted

mutual

/-- **What the evaluation does first**: it is refused at a name that is not bound and at an
operation that the types of its operands do not have, and may do something unwanted at an attribute
access, a comprehension, a call of anything but a listed function, or a listed function that may
call what it is given. -/
def Expr.verdict : Expr → Verdict
  | .number _ => .passes
  | .constant _ => .passes
  | .name id => if bound id then .passes else .refused
  | .unary op operand => operand.verdict.seq (resultVerdict (op.kind operand.kind))
  | .binary op left right =>
    left.verdict.seq (right.verdict.seq (resultVerdict (op.kind left.kind right.kind)))
  | .call func args =>
    func.verdict.seq (args.verdict.seq (callVerdict (callResult func args.kinds)))
  | .attribute value _ => value.verdict.seq .unwanted
  | .subscript value index =>
    value.verdict.seq (index.verdict.seq (resultVerdict (itemKind value.kind index.kind)))
  | .lambda _ defaults _ => defaults.verdict.seq .passes
  | .display kind items =>
    items.verdict.seq (resultVerdict (kind.kind (items.kinds.map Prod.snd)))
  | .comprehension kind _ _ iter _ _ =>
    iter.verdict.seq (if kind = .generator ∨ iter.kind.isIterable then .unwanted else .refused)

def Args.verdict : Args → Verdict
  | .nil => .passes
  | .cons _ arg args => arg.verdict.seq (args.verdict.seq .passes)

end

/-! ## Any objects of the built-in types -/

section Sound

variable {py : Python}

theorem load_top (id : String) : py.load {} id =
    if id = "__debug__" then .lift (.ok (.obj (py.literal (.bool py.debug))))
    else if id ∈ allowedFuncs then .lift (.ok (.fn id))
    else if id ∈ allowedOps then .lift (.ok (.obj (py.operator id)))
    else if id = "__builtins__" then .lift (.ok (.obj py.builtins))
    else .lift (.error ("name '" ++ id ++ "' is not defined")) := by
  unfold Python.load Python.locals Python.globals
  by_cases hdebug : id = "__debug__"
  · simp [hdebug]
  · by_cases hfuncs : id ∈ allowedFuncs
    · simp [hdebug, hfuncs]
    · by_cases hops : id ∈ allowedOps
      · simp [hdebug, hfuncs, hops]
      · by_cases hbuiltins : id = "__builtins__"
        · subst hbuiltins
          simp [allowedFuncs, allowedOps]
        · simp [hdebug, hfuncs, hops, hbuiltins]

/-- What a name is bound to is of its type. -/
theorem load_cases (h : py.BuiltIn) (id : String) :
    (bound id = true ∧ ∃ v, py.load {} id = .lift (.ok v) ∧ py.kindOf v = nameKind id ∧
      (id ∈ allowedFuncs → v = .fn id)) ∨
    (bound id = false ∧ ∃ e, py.load {} id = .lift (.error e)) := by
  rw [load_top]
  by_cases hdebug : id = "__debug__"
  · subst hdebug
    exact .inl ⟨by decide, _, rfl, h.literal _, fun hmem => absurd hmem (by decide)⟩
  rw [if_neg hdebug]
  by_cases hfuncs : id ∈ allowedFuncs
  · exact .inl ⟨by simp [bound, hfuncs], .fn id, by rw [if_pos hfuncs],
      by simp [nameKind, hfuncs, Python.kindOf], fun _ => rfl⟩
  rw [if_neg hfuncs]
  by_cases hops : id ∈ allowedOps
  · refine .inl ⟨by simp [bound, hops], .obj (py.operator id), by rw [if_pos hops], ?_,
      fun hmem => absurd hmem hfuncs⟩
    exact (h.operator id).trans (by simp [nameKind, hops])
  rw [if_neg hops]
  by_cases hbuiltins : id = "__builtins__"
  · subst hbuiltins
    exact .inl ⟨by decide, _, rfl, h.builtins, fun hmem => absurd hmem (by decide)⟩
  · exact .inr ⟨by simp [bound, hdebug, hfuncs, hops, hbuiltins], _, by rw [if_neg hbuiltins]⟩

/-- A call that the tables have is of a listed function. -/
theorem callResult_eq_some {func : Expr} {args : List (Option String × Kind)}
    {result : Option Kind} (h : callResult func args = some result) :
    ∃ id ∈ allowedFuncs, func = .name id ∧ listedCall id args = some result := by
  cases func with
  | name id =>
    by_cases hid : id ∈ allowedFuncs
    · rw [callResult, if_pos hid] at h
      exact ⟨id, hid, rfl, h⟩
    · rw [callResult, if_neg hid] at h
      cases h
  | _ => cases h

theorem eval_listed (h : py.BuiltIn) {id : String} (hid : id ∈ allowedFuncs) {callee : py.Val}
    (heval : (py.eval {} (.name id)).outcome = .ok callee) : callee = .fn id := by
  rw [Python.eval] at heval
  rcases load_cases h id with ⟨-, v, hload, -, hfn⟩ | ⟨-, e, hload⟩
  · rw [hload] at heval
    exact (Except.ok.inj heval).symm.trans (hfn hid)
  · rw [hload] at heval
    cases heval

/-- **A call of a listed function** that cannot call its arguments. -/
theorem call_listed (h : py.BuiltIn) {func : Expr} {kinds : List (Option String × Kind)}
    {result : Option Kind} (hresult : callResult func kinds = some result) {callee : py.Val}
    (hcallee : (py.eval {} func).outcome = .ok callee) {args : List (Option String × py.Val)}
    (hargs : CoverArgs kinds (py.kindsOf args)) :
    (py.call callee args).Quiet Event.Foreign ∧ py.Yields result (py.call callee args).outcome := by
  obtain ⟨id, hid, rfl, hlisted⟩ := callResult_eq_some hresult
  obtain rfl := eval_listed h hid hcallee
  obtain ⟨result', hlisted', hcovers⟩ := listedCall_covers hid hargs hlisted
  obtain ⟨hquiet, hyields⟩ := h.callListed id hid args result' hlisted'
  refine ⟨(Traced.Quiet.emit fun hforeign => by cases hforeign).bind fun _ _ => hquiet, ?_⟩
  rw [Python.call, Traced.bind_of_ok rfl]
  exact hyields.of_covers hcovers

/-- What an operation yields that the types of an expression have. -/
theorem covers_of_yields {k : Option Kind} {outcome : Except String py.Val} {v : py.Val}
    (h : py.Yields k outcome) (hv : outcome = .ok v) : (k.getD .other).Covers (py.kindOf v) := by
  cases k with
  | some k => exact h v hv
  | none =>
    obtain ⟨e, he⟩ := h
    rw [he] at hv
    cases hv

theorem kindsOf_snd (args : List (Option String × py.Val)) :
    (py.kindsOf args).map Prod.snd = (args.map Prod.snd).map py.kindOf := by
  simp [Python.kindsOf]

theorem CoverArgs.snd {as bs : List (Option String × Kind)} (h : CoverArgs as bs) :
    CoverAll (as.map Prod.snd) (bs.map Prod.snd) := by
  induction h with
  | nil => exact .nil
  | cons hab _ ih => exact .cons hab.2 ih

/-- A display of items that were evaluated. -/
theorem build_yields (h : py.BuiltIn) {kind : DisplayKind} {kinds : List (Option String × Kind)}
    {items : List (Option String × py.Val)} (hitems : CoverArgs kinds (py.kindsOf items)) :
    py.Yields (kind.kind (kinds.map Prod.snd))
      ((py.build kind (items.map Prod.snd)).map .obj) := by
  refine (h.build kind (items.map Prod.snd)).of_covers ?_
  rw [← kindsOf_snd]
  exact kind.kind_covers hitems.snd

mutual

/-- **What an expression evaluates to** is of its type. -/
theorem kind_sound (h : py.BuiltIn) : ∀ (e : Expr) (v : py.Val),
    (py.eval {} e).outcome = .ok v → e.kind.Covers (py.kindOf v)
  | .number literal, v, hv => by
    rw [Python.eval] at hv
    obtain rfl := Except.ok.inj hv
    exact .inl (h.number literal).symm
  | .constant value, v, hv => by
    rw [Python.eval] at hv
    obtain rfl := Except.ok.inj hv
    exact .inl (h.literal value).symm
  | .name id, v, hv => by
    rw [Python.eval] at hv
    rcases load_cases h id with ⟨-, w, hload, hkind, -⟩ | ⟨-, e, hload⟩
    · rw [hload] at hv
      obtain rfl := Except.ok.inj hv
      exact .inl hkind.symm
    · rw [hload] at hv
      cases hv
  | .unary op operand, v, hv => by
    rw [Python.eval] at hv
    obtain ⟨a, ha, hv⟩ := Traced.bind_eq_ok hv
    exact covers_of_yields
      ((h.unary op a).of_covers (op.kind_covers (kind_sound h operand a ha))) hv
  | .binary op left right, v, hv => by
    rw [Python.eval] at hv
    obtain ⟨a, ha, hv⟩ := Traced.bind_eq_ok hv
    obtain ⟨b, hb, hv⟩ := Traced.bind_eq_ok hv
    exact covers_of_yields ((h.binary op a b).of_covers
      (op.kind_covers (kind_sound h left a ha) (kind_sound h right b hb))) hv
  | .call func args, v, hv => by
    rw [Python.eval] at hv
    obtain ⟨callee, hcallee, hv⟩ := Traced.bind_eq_ok hv
    obtain ⟨values, hvalues, hv⟩ := Traced.bind_eq_ok hv
    rw [Expr.kind]
    -- only a listed function that cannot call what it is given has a known result
    cases hresult : callResult func args.kinds with
    | none => exact .inr (.inl rfl)
    | some result =>
      exact covers_of_yields (call_listed h hresult hcallee (kinds_sound h args values hvalues)).2
        hv
  | .attribute value attr, v, hv => .inr (.inl rfl)
  | .subscript value index, v, hv => by
    rw [Python.eval] at hv
    obtain ⟨a, ha, hv⟩ := Traced.bind_eq_ok hv
    obtain ⟨b, hb, hv⟩ := Traced.bind_eq_ok hv
    exact covers_of_yields ((h.getitem a b).of_covers
      (itemKind_covers (kind_sound h value a ha) (kind_sound h index b hb))) hv
  | .lambda params defaults body, v, hv => by
    rw [Python.eval] at hv
    obtain ⟨values, -, hv⟩ := Traced.bind_eq_ok hv
    obtain rfl := Except.ok.inj hv
    exact .inl (h.function _ _ _).symm
  | .display kind items, v, hv => by
    rw [Python.eval] at hv
    obtain ⟨values, hvalues, hv⟩ := Traced.bind_eq_ok hv
    exact covers_of_yields (build_yields h (kinds_sound h items values hvalues)) hv
  | .comprehension _ _ _ _ _ _, v, hv => .inr (.inl rfl)

/-- So are arguments. -/
theorem kinds_sound (h : py.BuiltIn) : ∀ (args : Args) (values : List (Option String × py.Val)),
    (py.evalArgs {} args).outcome = .ok values → CoverArgs args.kinds (py.kindsOf values)
  | .nil, values, hvalues => by
    rw [Python.evalArgs] at hvalues
    obtain rfl := Except.ok.inj hvalues
    exact .nil
  | .cons keyword arg args, values, hvalues => by
    rw [Python.evalArgs] at hvalues
    obtain ⟨value, hvalue, hvalues⟩ := Traced.bind_eq_ok hvalues
    obtain ⟨rest, hrest, hvalues⟩ := Traced.bind_eq_ok hvalues
    obtain rfl := Except.ok.inj hvalues
    exact .cons ⟨rfl, kind_sound h arg value hvalue⟩ (kinds_sound h args rest hrest)

end

/-- An operation meets the verdict on its result. -/
theorem sound_of_yields {result : Option Kind} {x : Eval py.Val} (hquiet : x.Quiet Event.Foreign)
    (h : py.Yields result x.outcome) : (resultVerdict result).Sound Event.Foreign x := by
  cases result with
  | some k => exact hquiet
  | none => exact ⟨hquiet, h⟩

mutual

/-- **The verdict holds**, whatever objects of the built-in types do. -/
theorem eval_sound (h : py.BuiltIn) : ∀ e : Expr, e.verdict.Sound Event.Foreign (py.eval {} e)
  | .number _ | .constant _ => by
    rw [Python.eval, Expr.verdict]
    exact Traced.Quiet.lift _
  | .name id => by
    rw [Python.eval, Expr.verdict]
    rcases load_cases h id with ⟨hbound, v, hload, -⟩ | ⟨hbound, e, hload⟩
    · rw [hbound, hload]
      exact Traced.Quiet.lift _
    · rw [hbound, hload]
      exact ⟨Traced.Quiet.lift _, e, rfl⟩
  | .unary op operand => by
    rw [Python.eval, Expr.verdict]
    exact (eval_sound h operand).bind fun a ha => sound_of_yields (.lift _)
      ((h.unary op a).of_covers (op.kind_covers (kind_sound h operand a ha)))
  | .binary op left right => by
    rw [Python.eval, Expr.verdict]
    exact (eval_sound h left).bind fun a ha => (eval_sound h right).bind fun b hb =>
      sound_of_yields (.lift _) ((h.binary op a b).of_covers
        (op.kind_covers (kind_sound h left a ha) (kind_sound h right b hb)))
  | .call func args => by
    rw [Python.eval, Expr.verdict]
    refine (eval_sound h func).bind fun callee hcallee =>
      (evalArgs_sound h args).bind fun values hvalues => ?_
    cases hresult : callResult func args.kinds with
    | none => trivial
    | some result =>
      obtain ⟨hquiet, hyields⟩ :=
        call_listed h hresult hcallee (kinds_sound h args values hvalues)
      exact sound_of_yields hquiet hyields
  | .attribute value _ => by
    rw [Python.eval, Expr.verdict]
    exact (eval_sound h value).bind fun _ _ => trivial
  | .subscript value index => by
    rw [Python.eval, Expr.verdict]
    exact (eval_sound h value).bind fun a ha => (eval_sound h index).bind fun b hb =>
      sound_of_yields (.lift _) ((h.getitem a b).of_covers
        (itemKind_covers (kind_sound h value a ha) (kind_sound h index b hb)))
  | .lambda _ defaults _ => by
    rw [Python.eval, Expr.verdict]
    exact (evalArgs_sound h defaults).bind fun _ _ => Traced.Quiet.lift _
  | .display kind items => by
    rw [Python.eval, Expr.verdict]
    exact (evalArgs_sound h items).bind fun values hvalues => sound_of_yields (.lift _)
      (build_yields h (kinds_sound h items values hvalues))
  | .comprehension kind _ _ iter _ _ => by
    rw [Python.eval, Expr.verdict]
    refine (eval_sound h iter).bind fun iterable hiter => ?_
    split
    case isTrue => trivial
    case isFalse hnot =>
      rw [not_or, Bool.not_eq_true] at hnot
      -- what is no iterable by its type is none
      have hiterable : (py.kindOf iterable).isIterable = false :=
        not_isIterable_of_covers (kind_sound h iter iterable hiter) hnot.2
      obtain ⟨hquiet, e, he⟩ := h.iterate iterable hiterable
      rw [if_neg hnot.1, Traced.bind_of_error he]
      exact ⟨hquiet, e, rfl⟩

theorem evalArgs_sound (h : py.BuiltIn) :
    ∀ args : Args, args.verdict.Sound Event.Foreign (py.evalArgs {} args)
  | .nil => by
    rw [Python.evalArgs, Args.verdict]
    exact Traced.Quiet.lift _
  | .cons _ arg args => by
    rw [Python.evalArgs, Args.verdict]
    exact (eval_sound h arg).bind fun _ _ =>
      (evalArgs_sound h args).bind fun _ _ => Traced.Quiet.pure _

end

end Sound

/-! ## Objects that fail only where their types do -/

/-- The outcome of an operation that returns where the types have it. -/
def outcomeOf (result : Option Kind) : Except String (Value Kind) :=
  match result with
  | some k => .ok (.obj k)
  | none => .error "TypeError"

def Value.kind : Value Kind → Kind
  | .fn _ => .function
  | .obj k => k

/-- A listed function, by the tables. -/
def callTables (name : String) (args : List (Option String × Value Kind)) : Eval (Value Kind) :=
  match listedCall name (args.map fun arg => (arg.1, arg.2.kind)) with
  | some result => .lift (outcomeOf result)
  | none => ⟨[.call none], .ok (.obj .other)⟩

/-- A display, by the tables. -/
def buildTables (kind : DisplayKind) (items : List (Value Kind)) : Except String Kind :=
  match kind.kind (items.map Value.kind) with
  | some k => .ok k
  | none => .error "TypeError"

/-- Objects that are their types: an operation that the types have returns, and calls, iterations
and attributes run what they are given. -/
def permissive (tree : Expr) : Python where
  Obj := Kind
  kind := id
  parse _ := .ok tree
  number := literalKind
  literal := Constant.kind
  debug := true
  operator _ := .function
  builtins := .dict
  inlined := true
  unary op v := outcomeOf (op.kind v.kind)
  binary op a b := outcomeOf (op.kind a.kind b.kind)
  callListed := callTables
  callObj _ _ := ⟨[.call none], .ok (.obj .other)⟩
  getattr _ _ := .ok (.obj .other)
  getitem a b := outcomeOf (itemKind a.kind b.kind)
  build := buildTables
  function _ _ _ := .function
  generator _ _ _ := ⟨[.call none], .ok .other⟩
  iterate v :=
    if v.kind.isIterable then ⟨[.call none], .ok []⟩ else .lift (.error "TypeError")
  unpack _ _ := .lift (.ok [])
  truth _ := true
  collect _ _ := .ok .other

section Exact

variable {tree : Expr}

theorem outcomeOf_eq_ok {result : Option Kind} {v : Value Kind} (h : outcomeOf result = .ok v) :
    ∃ k, result = some k ∧ v = .obj k := by
  cases result with
  | some k => exact ⟨k, rfl, (Except.ok.inj h).symm⟩
  | none => cases h

theorem callTables_of_some {name : String} {args : List (Option String × Value Kind)}
    {result : Option Kind}
    (h : listedCall name (args.map fun arg => (arg.1, arg.2.kind)) = some result) :
    callTables name args = .lift (outcomeOf result) := by
  rw [callTables, h]

theorem callTables_of_none {name : String} {args : List (Option String × Value Kind)}
    (h : listedCall name (args.map fun arg => (arg.1, arg.2.kind)) = none) :
    callTables name args = ⟨[.call none], .ok (.obj .other)⟩ := by
  rw [callTables, h]

theorem buildTables_map (kind : DisplayKind) (items : List (Value Kind)) :
    (buildTables kind items).map Value.obj = outcomeOf (kind.kind (items.map Value.kind)) := by
  unfold buildTables outcomeOf
  cases kind.kind (items.map Value.kind) <;> rfl

theorem map_snd_kinds (args : List (Option String × Value Kind)) :
    (args.map fun arg => (arg.1, arg.2.kind)).map Prod.snd =
      (args.map Prod.snd).map Value.kind := by
  rw [List.map_map, List.map_map]
  rfl

theorem kindOf_permissive (v : (permissive tree).Val) : (permissive tree).kindOf v = v.kind := by
  cases v <;> rfl

theorem kindsOf_permissive (args : List (Option String × (permissive tree).Val)) :
    (permissive tree).kindsOf args = args.map fun arg => (arg.1, arg.2.kind) :=
  List.map_congr_left fun arg _ => by rw [kindOf_permissive]

theorem yields_outcomeOf (result : Option Kind) :
    (permissive tree).Yields result (outcomeOf result) := by
  cases result with
  | some k =>
    intro v hv
    obtain rfl := Except.ok.inj hv
    exact .refl k
  | none => exact ⟨_, rfl⟩

/-- **Such objects** keep to the tables. -/
theorem builtIn_permissive (tree : Expr) : (permissive tree).BuiltIn where
  number _ := rfl
  literal _ := rfl
  operator _ := rfl
  builtins := rfl
  function _ _ _ := rfl
  unary op v := by
    rw [kindOf_permissive]
    exact yields_outcomeOf _
  binary op a b := by
    rw [kindOf_permissive, kindOf_permissive]
    exact yields_outcomeOf _
  getitem a b := by
    rw [kindOf_permissive, kindOf_permissive]
    exact yields_outcomeOf _
  build kind items := by
    have hkinds : items.map (permissive tree).kindOf = items.map Value.kind :=
      List.map_congr_left fun v _ => kindOf_permissive v
    have hbuild : ((permissive tree).build kind items).map Value.obj =
        outcomeOf (kind.kind (items.map Value.kind)) := buildTables_map kind items
    rw [hkinds, hbuild]
    exact yields_outcomeOf _
  callListed name _ args result hresult := by
    rw [kindsOf_permissive] at hresult
    have hcall : (permissive tree).callListed name args = .lift (outcomeOf result) :=
      callTables_of_some hresult
    rw [hcall]
    exact ⟨.lift _, yields_outcomeOf _⟩
  iterate v hv := by
    rw [kindOf_permissive] at hv
    have hiterate : (permissive tree).iterate v = .lift (.error "TypeError") := by
      simp only [permissive, hv]
      rfl
    rw [hiterate]
    exact ⟨.lift _, _, rfl⟩

/-- A value is of the type of its expression, and a listed function is from its name. -/
structure OfType (e : Expr) (v : Value Kind) : Prop where
  kind : v.kind = e.kind
  fn : ∀ name, v = .fn name → e = .name name ∧ name ∈ allowedFuncs

theorem ofType_obj {e : Expr} {k : Kind} (h : k = e.kind) : OfType e (.obj k) :=
  ⟨h, fun _ hfn => by cases hfn⟩

/-- A result that the tables have is of the type that they give it. -/
theorem ofType_outcomeOf {e : Expr} {result : Option Kind} {v : Value Kind}
    (hkind : e.kind = result.getD .other) (hv : outcomeOf result = .ok v) : OfType e v := by
  obtain ⟨k, rfl, rfl⟩ := outcomeOf_eq_ok hv
  exact ofType_obj hkind.symm

section Calls

variable {func : Expr} {kinds : List (Option String × Kind)} {callee : (permissive tree).Val}
  {args : List (Option String × (permissive tree).Val)}

/-- A call that the tables have. -/
theorem call_of_some {result : Option Kind} (h : callResult func kinds = some result)
    (hcallee : ((permissive tree).eval {} func).outcome = .ok callee)
    (hargs : (args.map fun arg => (arg.1, arg.2.kind)) = kinds) :
    ((permissive tree).call callee args).outcome = outcomeOf result := by
  obtain ⟨id, hid, rfl, hlisted⟩ := callResult_eq_some h
  obtain rfl := eval_listed (builtIn_permissive tree) hid hcallee
  have hcall : (permissive tree).callListed id args = .lift (outcomeOf result) :=
    callTables_of_some (hargs ▸ hlisted)
  rw [Python.call, Traced.bind_of_ok rfl, hcall]
  rfl

/-- A call that they do not have runs what it is given. -/
theorem call_of_none (h : callResult func kinds = none) (hfunc : OfType func callee)
    (hargs : (args.map fun arg => (arg.1, arg.2.kind)) = kinds) :
    ((permissive tree).call callee args).outcome = .ok (.obj .other) ∧
      .call none ∈ ((permissive tree).call callee args).trace := by
  cases callee with
  | obj o => exact ⟨rfl, List.mem_cons_self ..⟩
  | fn name =>
    obtain ⟨rfl, hid⟩ := hfunc.fn name rfl
    rw [callResult, if_pos hid] at h
    have hcall : (permissive tree).callListed name args = ⟨[.call none], .ok (.obj .other)⟩ :=
      callTables_of_none (hargs ▸ h)
    rw [Python.call, Traced.bind_of_ok rfl, hcall]
    exact ⟨rfl, List.mem_append_right _ (List.mem_singleton_self _)⟩

end Calls

mutual

/-- **Each value** is of the type of its expression. -/
theorem ofType_eval : ∀ (e : Expr) (v : (permissive tree).Val),
    ((permissive tree).eval {} e).outcome = .ok v → OfType e v
  | .number _, v, h => by
    rw [Python.eval] at h
    obtain rfl := Except.ok.inj h
    exact ofType_obj rfl
  | .constant value, v, h => by
    rw [Python.eval] at h
    obtain rfl := Except.ok.inj h
    exact ofType_obj rfl
  | .name id, v, h => by
    rw [Python.eval] at h
    rcases load_cases (builtIn_permissive tree) id with ⟨-, w, hload, hkind, -⟩ | ⟨-, e, hload⟩
    · rw [hload] at h
      obtain rfl := Except.ok.inj h
      refine ⟨(kindOf_permissive w).symm.trans hkind, fun name hname => ?_⟩
      -- of the names only those of the listed functions are loaded as functions
      subst hname
      rw [load_top] at hload
      split at hload
      · cases hload
      · split at hload
        · cases hload
          exact ⟨rfl, ‹_›⟩
        · split at hload
          · cases hload
          · split at hload <;> cases hload
    · rw [hload] at h
      cases h
  | .unary op operand, v, h => by
    rw [Python.eval] at h
    obtain ⟨a, ha, h⟩ := Traced.bind_eq_ok h
    refine ofType_outcomeOf ?_ h
    rw [Expr.kind, (ofType_eval operand a ha).kind]
  | .binary op left right, v, h => by
    rw [Python.eval] at h
    obtain ⟨a, ha, h⟩ := Traced.bind_eq_ok h
    obtain ⟨b, hb, h⟩ := Traced.bind_eq_ok h
    refine ofType_outcomeOf ?_ h
    rw [Expr.kind, (ofType_eval left a ha).kind, (ofType_eval right b hb).kind]
  | .call func args, v, h => by
    rw [Python.eval] at h
    obtain ⟨callee, hcallee, h⟩ := Traced.bind_eq_ok h
    obtain ⟨values, hvalues, h⟩ := Traced.bind_eq_ok h
    have hargs := kinds_evalArgs args values hvalues
    cases hresult : callResult func args.kinds with
    | some result =>
      rw [call_of_some hresult hcallee hargs] at h
      refine ofType_outcomeOf ?_ h
      rw [Expr.kind, hresult]
      rfl
    | none =>
      rw [(call_of_none hresult (ofType_eval func callee hcallee) hargs).1] at h
      obtain rfl := Except.ok.inj h
      refine ofType_obj ?_
      rw [Expr.kind, hresult]
      rfl
  | .attribute value attr, v, h => by
    rw [Python.eval] at h
    obtain ⟨a, -, h⟩ := Traced.bind_eq_ok h
    obtain rfl := Except.ok.inj h
    exact ofType_obj rfl
  | .subscript value index, v, h => by
    rw [Python.eval] at h
    obtain ⟨a, ha, h⟩ := Traced.bind_eq_ok h
    obtain ⟨b, hb, h⟩ := Traced.bind_eq_ok h
    refine ofType_outcomeOf ?_ h
    rw [Expr.kind, (ofType_eval value a ha).kind, (ofType_eval index b hb).kind]
  | .lambda params defaults body, v, h => by
    rw [Python.eval] at h
    obtain ⟨a, -, h⟩ := Traced.bind_eq_ok h
    obtain rfl := Except.ok.inj h
    exact ofType_obj rfl
  | .display kind items, v, h => by
    rw [Python.eval] at h
    obtain ⟨values, hvalues, h⟩ := Traced.bind_eq_ok h
    have hbuild : outcomeOf (kind.kind ((values.map Prod.snd).map Value.kind)) = .ok v :=
      (buildTables_map kind (values.map Prod.snd)).symm.trans h
    refine ofType_outcomeOf ?_ hbuild
    rw [Expr.kind, ← kinds_evalArgs items values hvalues]
    exact congrArg (fun kinds => (kind.kind kinds).getD .other) (map_snd_kinds values)
  | .comprehension kind elements targets iter conditions clauses, v, h => by
    rw [Python.eval] at h
    obtain ⟨a, -, h⟩ := Traced.bind_eq_ok h
    split at h
    · obtain ⟨object, hobject, h⟩ := Traced.bind_eq_ok h
      obtain rfl := Except.ok.inj hobject
      obtain rfl := Except.ok.inj h
      exact ofType_obj rfl
    · obtain ⟨items, -, h⟩ := Traced.bind_eq_ok h
      obtain ⟨rows, -, h⟩ := Traced.bind_eq_ok h
      obtain rfl := Except.ok.inj h
      exact ofType_obj rfl

theorem kinds_evalArgs : ∀ (args : Args) (values : List (Option String × (permissive tree).Val)),
    ((permissive tree).evalArgs {} args).outcome = .ok values →
      (values.map fun arg => (arg.1, arg.2.kind)) = args.kinds
  | .nil, values, h => by
    rw [Python.evalArgs] at h
    obtain rfl := Except.ok.inj h
    rfl
  | .cons keyword arg args, values, h => by
    rw [Python.evalArgs] at h
    obtain ⟨value, hvalue, h⟩ := Traced.bind_eq_ok h
    obtain ⟨rest, hrest, h⟩ := Traced.bind_eq_ok h
    obtain rfl := Except.ok.inj h
    rw [Args.kinds, ← kinds_evalArgs args rest hrest, ← (ofType_eval arg value hvalue).kind]
    rfl

end

/-- What the tables have returns. -/
theorem exact_outcomeOf {result : Option Kind} {x : Eval (Value Kind)}
    (h : x.outcome = outcomeOf result) : (resultVerdict result).Exact Event.Foreign x := by
  cases result with
  | some k => exact ⟨_, h⟩
  | none => trivial

mutual

/-- **The verdict is met** by these objects. -/
theorem eval_exact : ∀ e : Expr, e.verdict.Exact Event.Foreign ((permissive tree).eval {} e)
  | .number _ | .constant _ => by
    rw [Python.eval, Expr.verdict]
    exact ⟨_, rfl⟩
  | .name id => by
    rw [Python.eval, Expr.verdict]
    rcases load_cases (builtIn_permissive tree) id with ⟨hbound, v, hload, -⟩ | ⟨hbound, e, hload⟩
    · rw [hbound, hload]
      exact ⟨v, rfl⟩
    · rw [hbound]
      trivial
  | .unary op operand => by
    rw [Python.eval, Expr.verdict]
    refine (eval_exact operand).bind fun a ha => exact_outcomeOf ?_
    rw [← (ofType_eval operand a ha).kind]
    rfl
  | .binary op left right => by
    rw [Python.eval, Expr.verdict]
    refine (eval_exact left).bind fun a ha => (eval_exact right).bind fun b hb =>
      exact_outcomeOf ?_
    rw [← (ofType_eval left a ha).kind, ← (ofType_eval right b hb).kind]
    rfl
  | .call func args => by
    rw [Python.eval, Expr.verdict]
    refine (eval_exact func).bind fun callee hcallee =>
      (evalArgs_exact args).bind fun values hvalues => ?_
    have hargs := kinds_evalArgs args values hvalues
    cases hresult : callResult func args.kinds with
    | some result => exact exact_outcomeOf (call_of_some hresult hcallee hargs)
    | none =>
      -- the callee runs what it is given
      exact ⟨_, (call_of_none hresult (ofType_eval func callee hcallee) hargs).2, rfl⟩
  | .attribute value attr => by
    rw [Python.eval, Expr.verdict]
    exact (eval_exact value).bind fun _ _ => ⟨.attribute attr, List.mem_cons_self .., trivial⟩
  | .subscript value index => by
    rw [Python.eval, Expr.verdict]
    refine (eval_exact value).bind fun a ha => (eval_exact index).bind fun b hb =>
      exact_outcomeOf ?_
    rw [← (ofType_eval value a ha).kind, ← (ofType_eval index b hb).kind]
    rfl
  | .lambda params defaults body => by
    rw [Python.eval, Expr.verdict]
    exact (evalArgs_exact defaults).bind fun _ _ => ⟨_, rfl⟩
  | .display kind items => by
    rw [Python.eval, Expr.verdict]
    refine (evalArgs_exact items).bind fun values hvalues => exact_outcomeOf ?_
    rw [← kinds_evalArgs items values hvalues]
    exact (buildTables_map kind (values.map Prod.snd)).trans
      (congrArg (fun kinds => outcomeOf (kind.kind kinds)) (map_snd_kinds values)).symm
  | .comprehension kind elements targets iter conditions clauses => by
    rw [Python.eval, Expr.verdict]
    refine (eval_exact iter).bind fun iterable hiter => ?_
    have hkind := (ofType_eval iter iterable hiter).kind
    by_cases hgenerator : kind = .generator
    · rw [if_pos (.inl hgenerator), if_pos hgenerator]
      exact ⟨.call none, List.mem_cons_self .., rfl⟩
    · by_cases hiterable : iter.kind.isIterable = true
      · rw [if_pos (.inr hiterable), if_neg hgenerator]
        have hiterate : (permissive tree).iterate iterable = ⟨[.call none], .ok []⟩ := by
          simp only [permissive, hkind, hiterable]
          rfl
        rw [hiterate]
        exact ⟨.call none, List.mem_cons_self .., rfl⟩
      · rw [if_neg (by simp [hgenerator, hiterable])]
        trivial

theorem evalArgs_exact : ∀ args : Args,
    args.verdict.Exact Event.Foreign ((permissive tree).evalArgs {} args)
  | .nil => by
    rw [Python.evalArgs, Args.verdict]
    exact ⟨_, rfl⟩
  | .cons keyword arg args => by
    rw [Python.evalArgs, Args.verdict]
    exact (eval_exact arg).bind fun _ _ => (evalArgs_exact args).bind fun _ _ => ⟨_, rfl⟩

end

end Exact

/-! ## The calculator -/

/-- What the calculator does with an expression. -/
theorem execute_of_parse {py : Python} {expr : String} {tree : Expr} (hne : expr ≠ "")
    (hparse : py.parse expr = .ok tree) :
    (CalculatorTool.execute py expr).1 = (py.eval {} tree).trace ∧
      ((CalculatorTool.execute py expr).2.success = true ↔
        ∃ v, (py.eval {} tree).outcome = .ok v) := by
  unfold CalculatorTool.execute
  simp only [if_neg hne, hparse]
  cases hrun : (py.eval {} tree).outcome with
  | ok v => exact ⟨rfl, fun _ => ⟨v, rfl⟩, fun _ => rfl⟩
  | error message => exact ⟨rfl, nofun, nofun⟩

/-- A refused expression is rejected before anything foreign happens. -/
theorem onlyArithmetic_of_refused {py : Python} (hpy : py.BuiltIn) {expr : String} {tree : Expr}
    (hparse : py.parse expr = .ok tree) (h : tree.verdict = .refused) :
    OnlyArithmetic tree (CalculatorTool.execute py expr) := by
  by_cases hne : expr = ""
  · subst hne
    exact ⟨nofun, fun _ => ⟨rfl, nofun⟩⟩
  · obtain ⟨htrace, hsuccess⟩ := execute_of_parse hne hparse
    have hsound := eval_sound hpy tree
    rw [h] at hsound
    obtain ⟨hquiet, e, he⟩ := hsound
    have hfails : (CalculatorTool.execute py expr).2.success = false := by
      rw [← Bool.not_eq_true, hsuccess]
      rintro ⟨v, hv⟩
      rw [he] at hv
      cases hv
    refine ⟨fun hok => ?_, fun _ => ⟨hfails, ?_⟩⟩
    · rw [hfails] at hok
      cases hok
    · rw [htrace]
      exact hquiet

/-- **When the calculator keeps to arithmetic**, whatever objects of the built-in types do: the
expression is one of arithmetic, or its evaluation is refused, at a name that is not bound or at an
operation that its operands' types do not have, before it comes to an attribute access, a
comprehension or a call that is not one of a listed function with arguments it cannot call. -/
theorem onlyArithmetic_iff (tree : Expr) :
    (∀ py : Python, py.BuiltIn → ∀ expr, py.parse expr = .ok tree →
      OnlyArithmetic tree (CalculatorTool.execute py expr)) ↔
    tree.arithmetic = true ∨ tree.verdict = .refused := by
  constructor
  · intro h
    by_contra hnot
    rw [not_or, Bool.not_eq_true] at hnot
    obtain ⟨harithmetic, hverdict⟩ := hnot
    obtain ⟨hfails, hquiet⟩ :=
      (h (permissive tree) (builtIn_permissive tree) "x" rfl).rejected harithmetic
    have hparse : (permissive tree).parse "x" = .ok tree := rfl
    obtain ⟨htrace, hsuccess⟩ := execute_of_parse (by decide) hparse
    have hexact : tree.verdict.Exact Event.Foreign ((permissive tree).eval {} tree) :=
      eval_exact tree
    cases hcase : tree.verdict with
    | passes =>
      rw [hcase] at hexact
      rw [hsuccess.mpr hexact] at hfails
      cases hfails
    | refused => exact hverdict hcase
    | unwanted =>
      rw [hcase] at hexact
      obtain ⟨event, hevent, hforeign⟩ := hexact
      rw [← htrace] at hevent
      exact hquiet event hevent hforeign
  · rintro (harithmetic | hrefused) py hpy expr hparse
    · exact ⟨fun _ => harithmetic, fun hnot => absurd harithmetic (by simp [hnot])⟩
    · exact onlyArithmetic_of_refused hpy hparse hrefused

/-- `__import__('os').system('dir')` is refused at its first name, and `1 @ 2`, `-'a'` and
`abs('a')` at their operands. -/
example : (Expr.call (.attribute (.call (.name "__import__")
    (.cons none (.constant (.str "os")) .nil)) "system")
      (.cons none (.constant (.str "dir")) .nil)).verdict = .refused ∧
    (Expr.binary .matMult (.number "1") (.number "2")).verdict = .refused ∧
    (Expr.unary .uSub (.constant (.str "a"))).verdict = .refused ∧
    (Expr.call (.name "abs") (.cons none (.constant (.str "a")) .nil)).verdict = .refused := by
  decide +kernel

/-- **The calculator does not keep to arithmetic**: it returns a text that is given as a literal. -/
theorem not_onlyArithmetic :
    ¬∀ py : Python, py.BuiltIn → ∀ (expr : String) (tree : Expr), py.parse expr = .ok tree →
      OnlyArithmetic tree (CalculatorTool.execute py expr) := by
  intro h
  have htext := h (permissive (.constant (.str "a"))) (builtIn_permissive _) "'a'"
    (.constant (.str "a")) rfl
  exact absurd (htext.success (by decide +kernel)) (by decide +kernel)

end Tools

import TypedQuery.Eval.Arithmetic
import TypedQuery.Eval.Property
import TypedQuery.Eval.Scalar
import TypedQuery.Expr

/-!
# Evaluation

The value of a bound expression where its parameters have values. A member of null is an error, a
comparison with null is a boolean unless it is lifted, and nullable booleans combine by
`Truth.and` and `Truth.or`.

* `Expr.eval`: the value of an expression.
* `Lambda.invoke`, `Lambda.filter`: a function on a value, and the items of which it is true.
-/

namespace TypedQuery

/-- The values of parameters, the innermost first. -/
abbrev Env := List (Nat × Value)

/-- The environment inside a lambda: its first parameter has the value. -/
def Env.bindFirst (env : Env) (params : List Param) (v : Value) : Outcome Env :=
  match params with
  | [] => EvalError.fail .lambdaWithoutParameter
  | p :: _ => .ok ((p.id, v) :: env)

/-- A conjunction or disjunction of plain booleans: the right side is looked at only when the left
does not decide. -/
def BinaryOp.shortCircuit (op : BinaryOp) (l : Value) (r : Unit → Outcome Value) : Outcome Value :=
  match l with
  | .bool a =>
    if a = decide (op = .orElse) then .ok (.bool a)
    else do
      match ← r () with
      | .bool b => return .bool b
      | v => EvalError.fail (.notBoolean v)
  | v => EvalError.fail (.notBoolean v)

/-- An operation on two values, for a result type. -/
def BinaryOp.apply (op : BinaryOp) (l r : Value) (lifted : Bool) (type : HostType) :
    Outcome Value :=
  if op.isLogical then do
    let a ← truthOf l
    let b ← truthOf r
    return (op.combine a b).toValue
  else if op.isComparison then op.compareValues l r lifted
  else if l.isNull || r.isNull then .ok .null
  else op.arithmetic l r type.nonNullable

variable [External]

/-- A call on its operands, for a result type. -/
def Method.apply (m : Method) (type : HostType) (args : List Operand) : Outcome Value :=
  match m with
  | .scalar f => do f.apply (← args.mapM Operand.value)
  | .collection op => op.apply type args
  | .lookup l => l.apply args

namespace Expr

mutual

/-- The value of an expression. -/
def eval (e : Expr) (env : Env) : Outcome Value :=
  match e with
  | .const v _ | .captured _ v _ => .ok v
  | .param p => orFail (.unboundParameter p.name) (env.lookup p.id)
  | .member source m => do (← eval source env).member m.name
  | .index source key => do
    let v ← eval source env
    v.entry (← eval key env)
  | .binary op left right lifted type => do
    let l ← eval left env
    if op.isLogical && !type.isNullableValueType then op.shortCircuit l fun _ => eval right env
    else op.apply l (← eval right env) lifted type
  | .unary op x _ => do op.apply (← eval x env)
  | .convert x type => do (← eval x env).convert type
  | .typeIs x target => do return .bool ((← eval x env).isInstanceOf target)
  | .typeAs x type => do
    let v ← eval x env
    return if v.isInstanceOf type then v else .null
  | .cond test ifTrue ifFalse _ => do
    match ← eval test env with
    | .bool true => eval ifTrue env
    | .bool false => eval ifFalse env
    | v => EvalError.fail (.testNotBoolean v)
  | .call m args type => m.apply type (operands args env)
  | .lambda .. => EvalError.fail .lambdaAsValue
  | .container slots => do return .container (← evalSlots slots env)
  | .wrapper ⟨kind, g, c, s, i, m⟩ => do
    return .wrapper ⟨kind, ← evalMember g env, ← evalMember c env, ← evalMember s env,
      ← evalMember i env, ← evalMember m env⟩
  | .slot chain name _ => do (← eval chain env).slot name
termination_by structural e

/-- The arguments of a call. -/
def operands (args : List Expr) (env : Env) : List Operand :=
  match args with
  | [] => []
  | .lambda params body :: rest =>
    ⟨EvalError.fail .lambdaAsValue,
      some fun v => (env.bindFirst params v).bind fun inner => eval body inner⟩
      :: operands rest env
  | e :: rest => ⟨eval e env, none⟩ :: operands rest env
termination_by structural args

/-- The values of slots, the first error first. -/
def evalSlots (slots : List (String × Expr)) (env : Env) : Outcome (List (String × Value)) :=
  match slots with
  | [] => .ok []
  | (name, e) :: rest => do
    let v ← eval e env
    return (name, v) :: (← evalSlots rest env)
termination_by structural slots

/-- The value of a member that may be missing. -/
def evalMember (member : Option Expr) (env : Env) : Outcome (Option Value) :=
  match member with
  | none => .ok none
  | some e => do return some (← eval e env)
termination_by structural member

end

/-- A lambda as a function; its first parameter takes the argument. -/
def invoke? : Expr → Option (Value → Outcome Value)
  | .lambda params body =>
    some fun v => (Env.bindFirst [] params v).bind fun env => body.eval env
  | _ => none

end Expr

namespace Lambda

/-- The value of a lambda at a value. -/
def invoke (l : Lambda) (v : Value) : Outcome Value := l.body.eval [(l.param.id, v)]

/-- The items of which a lambda is true. -/
def filter (l : Lambda) (items : List Value) : Outcome (List Value) := keepItems l.invoke items

end Lambda

end TypedQuery

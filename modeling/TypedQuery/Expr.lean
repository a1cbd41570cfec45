import TypedQuery.Expr.Method
import TypedQuery.Expr.Operator
import TypedQuery.Value

/-!
# Bound expressions

The typed expressions that queries are bound to. Every node carries its static type or gives it at
once, so that binding never searches an expression. The functions whose names begin with `mk` build
a node together with its type.

* `Expr.type`: the static type.
* `Method.resultType`: the static type of a call.
* `Expr.text`: an expression as text.
-/

namespace TypedQuery

/-- A parameter of a lambda. Its number is its identity: two parameters with one name and one type
are still two. -/
structure Param where
  id : Nat
  name : String
  type : HostType
  deriving DecidableEq

/-- Bound expressions. -/
inductive Expr where
  | const (value : Value) (type : HostType)
  /-- A value by reference: a literal kept apart from the expression, or the schema. -/
  | captured (name : String) (value : Value) (type : HostType)
  | param (p : Param)
  | member (source : Expr) (m : Member)
  /-- The entry of a dictionary. -/
  | index (source key : Expr)
  /-- An operation; a lifted comparison is null when an operand is. -/
  | binary (op : BinaryOp) (left right : Expr) (lifted : Bool) (type : HostType)
  | unary (op : UnaryOp) (operand : Expr) (type : HostType)
  | convert (operand : Expr) (type : HostType)
  | typeIs (operand : Expr) (target : HostType)
  | typeAs (operand : Expr) (type : HostType)
  | cond (test ifTrue ifFalse : Expr) (type : HostType)
  | call (method : Method) (args : List Expr) (type : HostType)
  | lambda (params : List Param) (body : Expr)
  /-- A chain of named slots, the outermost first. -/
  | container (slots : List (String × Expr))
  | wrapper (w : Wrapper Expr)
  /-- One slot of a chain. -/
  | slot (chain : Expr) (name : String) (type : HostType)

/-- A function of one record: a parameter and a body. -/
structure Lambda where
  param : Param
  body : Expr

namespace Expr

instance : Inhabited Expr := ⟨.const .null .object⟩

/-- The static type. -/
def type : Expr → HostType
  | .const _ t | .captured _ _ t | .binary _ _ _ _ t | .unary _ _ t | .convert _ t | .typeAs _ t
  | .cond _ _ _ t | .call _ _ t | .slot _ _ t => t
  | .param p => p.type
  | .member _ m => m.type
  | .index .. => .object
  | .typeIs .. => .bool
  | .lambda _ body => body.type
  | .container _ => .container
  | .wrapper w => .wrapper w.kind

/-- Whether the expression is the literal null. -/
def isNullConst : Expr → Bool
  | .const .null _ => true
  | _ => false

/-- The value of a literal, inline or by reference. -/
def constValue? : Expr → Option Value
  | .const v _ | .captured _ v _ => some v
  | _ => none

end Expr

/-! ## Types of calls -/

/-- The type of an argument; of a missing one, any type. -/
def argType (args : List Expr) (i : Nat) : HostType := (args[i]?.map Expr.type).getD .object

/-- The type of the items of the first argument. -/
def sourceElement (args : List Expr) : HostType := (argType args 0).elementType?.getD .object

/-- The type that the selector after the first argument gives, or that of the items without one. -/
def selectedType (args : List Expr) : HostType :=
  match args with
  | _ :: .lambda _ body :: _ => body.type
  | _ => sourceElement args

/-- The static type of a function's result. -/
def ScalarFunction.resultType (f : ScalarFunction) (args : List Expr) : HostType :=
  match f with
  | .contains | .startsWith | .endsWith | .matchesPattern | .bytesEqual | .hasFlag => .bool
  | .length | .indexOf | .compare | .year | .month | .day | .hour | .minute | .second
  | .millisecond => .int .int32
  | .substring | .toLower | .toUpper | .trim | .concat => .string
  | .fractionalSeconds => .decimal
  | .datePart => .date
  | .timePart => .timeOfDay
  | .round | .floor | .ceiling => (argType args 0).nonNullable

/-- The static type of an operator's result. -/
def CollectionOperator.resultType (op : CollectionOperator) (args : List Expr) : HostType :=
  match op with
  | .any | .all | .contains => .bool
  | .filter | .distinct => argType args 0
  | .toList => .collection (sourceElement args)
  | .select => .collection (selectedType args)
  | .selectMany => .collection ((selectedType args).elementType?.getD .object)
  | .groupBy => .collection (.grouping (selectedType args) (sourceElement args))
  | .cast target => .collection target
  | .longCount => .int .int64
  | .sum => if (selectedType args).hasSum then selectedType args else .object
  | .average => (selectedType args).averageType?.getD .object
  | .min | .max => selectedType args
  | .custom m => m.result

/-- The static type of a call. -/
def Method.resultType (m : Method) (args : List Expr) : HostType :=
  match m with
  | .scalar f => f.resultType args
  | .collection op => op.resultType args
  | .lookup .containsKey | .lookup .hasDeclaredProperty => .bool
  | .lookup .declaredProperty | .lookup .dynamicProperty => .object

/-! ## Nodes with their types -/

namespace Expr

/-- A literal with the type of its value. -/
def mkConst (v : Value) : Expr := .const v (v.hostType?.getD .object)

/-- The null of a type. -/
def mkNull (t : HostType) : Expr := .const .null t.toNullable

/-- A boolean. -/
def mkBool (b : Bool) : Expr := .const (.bool b) .bool

/-- The static type of an operation. -/
def binaryType (op : BinaryOp) (l r : HostType) (lifted : Bool) : HostType :=
  if op.isComparison then (if lifted then HostType.bool.toNullable else .bool)
  else if op.isLogical then
    if l.isNullableValueType || r.isNullableValueType then HostType.bool.toNullable else .bool
  else if l.isNullableValueType || r.isNullableValueType then l.nonNullable.toNullable
  else l

/-- An operation. -/
def mkBinary (op : BinaryOp) (l r : Expr) (lifted : Bool) : Expr :=
  .binary op l r lifted (binaryType op l.type r.type lifted)

/-- Equality, never null. -/
def mkEqual (l r : Expr) : Expr := mkBinary .equal l r false

/-- Inequality, never null. -/
def mkNotEqual (l r : Expr) : Expr := mkBinary .notEqual l r false

/-- An operation on one operand, of its type. -/
def mkUnary (op : UnaryOp) (x : Expr) : Expr := .unary op x x.type

/-- A conversion, unless the expression has the type already. -/
def convertTo (x : Expr) (t : HostType) : Expr := if x.type = t then x else .convert x t

/-- The expression if it has the type, else null. -/
def mkTypeAs (x : Expr) (t : HostType) : Expr := .typeAs x t.toNullable

/-- A choice. It has the type of its first branch, or of the second with null if the first is the
literal null. -/
def mkCond (test ifTrue ifFalse : Expr) : Expr :=
  .cond test ifTrue ifFalse
    (if ifTrue.isNullConst then ifFalse.type.toNullable else ifTrue.type)

/-- A call. -/
def mkCall (m : Method) (args : List Expr) : Expr := .call m args (m.resultType args)

/-- A call of a scalar function. -/
def mkScalar (f : ScalarFunction) (args : List Expr) : Expr := mkCall (.scalar f) args

/-- A call of an operator on a collection. -/
def mkCollection (op : CollectionOperator) (args : List Expr) : Expr :=
  mkCall (.collection op) args

/-- A call of a look-up. -/
def mkLookup (l : Lookup) (args : List Expr) : Expr := mkCall (.lookup l) args

/-- A function of one record. -/
def mkLambda (p : Param) (body : Expr) : Expr := .lambda [p] body

/-- A chain of slots; none without slots. -/
def mkContainer? : List (String × Expr) → Option Expr
  | [] => none
  | slots => some (.container slots)

end Expr

/-- The lambda as an expression. -/
def Lambda.toExpr (l : Lambda) : Expr := .mkLambda l.param l.body

end TypedQuery

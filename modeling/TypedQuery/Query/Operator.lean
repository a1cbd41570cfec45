/-!
# Operators of queries

The operators of the query language, before the types of their operands are known.
-/

namespace TypedQuery

/-- Binary operators of queries. -/
inductive QueryOp where
  | or | and | eq | ne | gt | ge | lt | le | add | sub | mul | div | mod
  /-- A test for the flags of an enumeration. -/
  | has
  deriving DecidableEq, Repr

namespace QueryOp

/-- All operators. -/
def all : List QueryOp :=
  [.or, .and, .eq, .ne, .gt, .ge, .lt, .le, .add, .sub, .mul, .div, .mod, .has]

/-- Whether the operator compares by order. -/
def isRelational : QueryOp → Bool
  | .gt | .ge | .lt | .le => true
  | _ => false

/-- Whether the operator tests equality. -/
def isEquality : QueryOp → Bool
  | .eq | .ne => true
  | _ => false

/-- Whether the operator compares. -/
def isComparison (op : QueryOp) : Bool := op.isRelational || op.isEquality

/-- Whether the operator combines truth values. -/
def isLogical : QueryOp → Bool
  | .or | .and => true
  | _ => false

/-- The keyword of an operator. -/
def text : QueryOp → String
  | .or => "or"
  | .and => "and"
  | .eq => "eq"
  | .ne => "ne"
  | .gt => "gt"
  | .ge => "ge"
  | .lt => "lt"
  | .le => "le"
  | .add => "add"
  | .sub => "sub"
  | .mul => "mul"
  | .div => "div"
  | .mod => "mod"
  | .has => "has"

/-- The operator with a keyword. -/
def ofText? (s : String) : Option QueryOp := all.find? fun op => op.text == s

/-- The operator with the name of its type. -/
def outline (op : QueryOp) : String := "BinaryOperatorKind(" ++ op.text ++ ")"

end QueryOp

/-- Unary operators of queries. -/
inductive QueryUnaryOp where
  | not | negate
  deriving DecidableEq, Repr

namespace QueryUnaryOp

/-- The sign of an operator. -/
def text : QueryUnaryOp → String
  | .not => "not"
  | .negate => "-"

/-- The operator with the name of its type. -/
def outline (op : QueryUnaryOp) : String := "UnaryOperatorKind(" ++ op.text ++ ")"

end QueryUnaryOp

end TypedQuery

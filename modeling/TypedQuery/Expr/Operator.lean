/-!
# Operators of bound expressions

Operators on values. Comparisons give booleans, the logical operators combine them.
-/

namespace TypedQuery

/-- Binary operators of bound expressions. -/
inductive BinaryOp where
  | add | subtract | multiply | divide | modulo
  | equal | notEqual | lessThan | lessThanOrEqual | greaterThan | greaterThanOrEqual
  | andAlso | orElse
  deriving DecidableEq, Repr

namespace BinaryOp

/-- Whether the operator compares. -/
def isComparison : BinaryOp → Bool
  | .equal | .notEqual | .lessThan | .lessThanOrEqual | .greaterThan | .greaterThanOrEqual => true
  | _ => false

/-- Whether the operator compares by order. -/
def isRelational : BinaryOp → Bool
  | .lessThan | .lessThanOrEqual | .greaterThan | .greaterThanOrEqual => true
  | _ => false

/-- Whether the operator combines truth values. -/
def isLogical : BinaryOp → Bool
  | .andAlso | .orElse => true
  | _ => false

/-- The symbol of an operator. -/
def symbol : BinaryOp → String
  | .add => "+"
  | .subtract => "-"
  | .multiply => "*"
  | .divide => "/"
  | .modulo => "%"
  | .equal => "=="
  | .notEqual => "!="
  | .lessThan => "<"
  | .lessThanOrEqual => "<="
  | .greaterThan => ">"
  | .greaterThanOrEqual => ">="
  | .andAlso => "&&"
  | .orElse => "||"

/-- All operators. -/
def all : List BinaryOp :=
  [.add, .subtract, .multiply, .divide, .modulo, .equal, .notEqual, .lessThan, .lessThanOrEqual,
    .greaterThan, .greaterThanOrEqual, .andAlso, .orElse]

/-- The operator with a symbol. -/
def ofSymbol? (s : String) : Option BinaryOp := all.find? fun op => op.symbol == s

/-- Whether a comparison holds of an order. -/
def holds (op : BinaryOp) (o : Ordering) : Bool :=
  match op with
  | .equal => o == .eq
  | .notEqual => o != .eq
  | .lessThan => o == .lt
  | .lessThanOrEqual => o != .gt
  | .greaterThan => o == .gt
  | .greaterThanOrEqual => o != .lt
  | _ => false

end BinaryOp

/-- Unary operators of bound expressions. -/
inductive UnaryOp where
  | not | negate
  deriving DecidableEq, Repr

end TypedQuery

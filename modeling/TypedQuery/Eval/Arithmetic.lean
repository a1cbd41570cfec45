import TypedQuery.Truth
import TypedQuery.Value.Convert
import TypedQuery.Value.Order

/-!
# Operators on values

What the operators of bound expressions do with values. Integers are exact: a result that does not
fit its type, or a division by zero, is an error. Dates and spans add and subtract; beyond the range of the
calendar the program stops.

* `UnaryOp.apply`, `BinaryOp.compareValues`, `BinaryOp.arithmetic`.
-/

namespace TypedQuery

/-- A unary operator on a value; null stays null. -/
def UnaryOp.apply (op : UnaryOp) (v : Value) : Outcome Value :=
  match op, v with
  | _, .null => .ok .null
  | .not, .bool b => .ok (.bool !b)
  | .not, v => EvalError.fail (.cannotInvert v)
  | .negate, .timeSpan s => .ok (.timeSpan s.neg)
  | .negate, .int n => Value.ofInt (-n.val) (.int n.width)
  | .negate, v =>
    match v.asFloat?, v.hostType? with
    | some x, some t => Value.ofFloat (-x) t
    | _, _ => EvalError.fail (.cannotNegate v)

namespace BinaryOp

/-- A comparison of which one side is null: lifted, it is null; else only null equals null. -/
def compareNulls (op : BinaryOp) (both lifted : Bool) : Value :=
  if lifted then .null
  else
    match op with
    | .equal => .bool both
    | .notEqual => .bool !both
    | _ => .bool false

/-- A comparison of two values. -/
def compareValues (op : BinaryOp) (l r : Value) (lifted : Bool) : Outcome Value :=
  if l.isNull || r.isNull then .ok (op.compareNulls (l.isNull && r.isNull) lifted)
  else
    match op with
    | .equal => .ok (.bool (l.equals r))
    | .notEqual => .ok (.bool !(l.equals r))
    | op =>
      match l.compare? r with
      | some o => .ok (.bool (op.holds o))
      | none => EvalError.fail (.cannotCompare l r)

/-- An integer that has 128 bits. -/
def within128 (n : Int) : Option Int :=
  if Number.int128Least ≤ n ∧ n ≤ Number.int128Greatest then some n else none

/-- Exact arithmetic on integers, division toward zero. -/
def integers? (op : BinaryOp) (a b : Int) : Option Int :=
  match op with
  | .add => within128 (a + b)
  | .subtract => within128 (a - b)
  | .multiply => within128 (a * b)
  | .divide => if b = 0 then none else within128 (a.tdiv b)
  | .modulo => if b = 0 then none else within128 (a.tmod b)
  | _ => none

/-- Arithmetic on floats. -/
def floats? (op : BinaryOp) (a b : Float) : Option Float :=
  match op with
  | .add => some (a + b)
  | .subtract => some (a - b)
  | .multiply => some (a * b)
  | .divide => some (a / b)
  | .modulo => some (Number.remainder a b)
  | _ => none

/-- Sums and differences of dates and spans, where there are any. -/
def temporal? (op : BinaryOp) (l r : Value) : Option (Option Value) :=
  match op, l, r with
  | .add, .timeSpan a, .timeSpan b => some ((Span.ofNanos? (a.nanos + b.nanos)).map .timeSpan)
  | .subtract, .timeSpan a, .timeSpan b => some ((Span.ofNanos? (a.nanos - b.nanos)).map .timeSpan)
  | .add, .dateTimeOffset a, .timeSpan b => some ((a.add? b).map .dateTimeOffset)
  | .subtract, .dateTimeOffset a, .timeSpan b => some ((a.add? b.neg).map .dateTimeOffset)
  | .subtract, .dateTimeOffset a, .dateTimeOffset b =>
    some ((Span.ofNanos? (a.utc.since b.utc)).map .timeSpan)
  | .add, .date a, .timeSpan b => some ((a.addDays? b.days).map .date)
  | .subtract, .date a, .timeSpan b => some ((a.addDays? (-b.days)).map .date)
  | _, _, _ => none

/-- Arithmetic on two numbers, for a result type. -/
def numeric (op : BinaryOp) (l r : Value) (t : HostType) : Outcome Value :=
  match l, r, t.isIntegral with
  | .int a, .int b, true =>
    match op.integers? a.val b.val with
    | some n => Value.ofInt n t
    | none => EvalError.fail (.arithmetic op l r)
  | _, _, _ =>
    match l.asFloat?, r.asFloat? with
    | some a, some b =>
      if op = .divide ∧ b == 0.0 ∧ t = .decimal then EvalError.fail .decimalDivisionByZero
      else
        match op.floats? a b with
        | some x => Value.ofFloat x (if t.isNumeric then t else .double)
        | none => EvalError.fail (.cannotApply op l r)
    | _, _ => EvalError.fail (.cannotApply op l r)

/-- Arithmetic on two values that are not null, for a result type that is not nullable. -/
def arithmetic (op : BinaryOp) (l r : Value) (t : HostType) : Outcome Value :=
  match op.temporal? l r with
  | some result => orAbort result
  | none => op.numeric l r t

/-- The truth of a value that has one. -/
def truthOf (v : Value) : Outcome Truth := orFail (.notBoolean v) (Truth.ofValue? v)

/-- Conjunction or disjunction of two truths. -/
def combine (op : BinaryOp) (a b : Truth) : Truth := if op = .andAlso then a.and b else a.or b

end BinaryOp

end TypedQuery

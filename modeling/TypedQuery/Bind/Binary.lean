import TypedQuery.Bind.Guard
import TypedQuery.Query.Operator
import TypedQuery.Value.Convert

/-!
# Binary operators

How the operators of queries become operators on values, once the types of both operands are known.
Enumerations are compared by their numbers. A date is compared with a time stamp by a key of the
calendar date, times of different types by their ticks; texts and byte sequences are ordered by
`compare`. All else is brought to one type first: the wider of two numeric types, the nullable form
of one type, or any type next to a value of any type.

* `Context.binary`: an operator on two bound operands.
-/

namespace TypedQuery

/-- The operator on values that an operator of queries stands for; none for the test of flags. -/
def QueryOp.binaryOp? : QueryOp → Option BinaryOp
  | .or => some .orElse
  | .and => some .andAlso
  | .eq => some .equal
  | .ne => some .notEqual
  | .gt => some .greaterThan
  | .ge => some .greaterThanOrEqual
  | .lt => some .lessThan
  | .le => some .lessThanOrEqual
  | .add => some .add
  | .sub => some .subtract
  | .mul => some .multiply
  | .div => some .divide
  | .mod => some .modulo
  | .has => none

namespace Bind

/-! ## Enumerations -/

/-- The value of an enumeration that a literal text spells. -/
def enumLiteral (e : Expr) (enum : EnumType) : Outcome Int64 :=
  match e.constValue? with
  | some (.string s) =>
    match enum.parse? s with
    | some value => .ok value
    | none => .error (.invalidEnumValue enum.name s)
  | _ => .error (.typeMismatch enum.name e.type.text)

/-- An operand next to a value of an enumeration, as a number. -/
def toUnderlying (e : Expr) (enum : EnumType) : Outcome Expr :=
  let target := enum.underlying.nullableLike e.type
  if e.isNullConst then .ok (.mkNull enum.underlying)
  else if e.type.asEnum?.isSome then .ok (.convert e target)
  else if e.type.isIntegral then .ok (e.convertTo target)
  else do
    let value ← enumLiteral e enum
    return .const (← Value.ofInt value.toInt enum.underlying) enum.underlying

/-- Both operands as numbers if one is a value of an enumeration. -/
def unifyEnums (l r : Expr) : Outcome (Expr × Expr) :=
  match l.type.asEnum?.orElse fun _ => r.type.asEnum? with
  | none => .ok (l, r)
  | some enum => do
    let l ← toUnderlying l enum
    let r ← toUnderlying r enum
    return (l, r)

/-- The literal null takes the type of the other operand. -/
def unifyNulls (l r : Expr) : Expr × Expr :=
  match l.isNullConst, r.isNullConst with
  | true, false => (.mkNull r.type, r)
  | false, true => (l, .mkNull l.type)
  | _, _ => (l, r)

/-! ## Logic -/

/-- An operand of a logical operator. -/
def asBoolean (e : Expr) : Outcome Expr :=
  if e.type.isBool then .ok e
  else if e.type.isObject then .ok (.convert e HostType.bool.toNullable)
  else .error (.typeMismatch HostType.bool.text e.type.text)

/-- A conjunction or disjunction; if one side may be null, both are brought to that type. -/
def logical (op : BinaryOp) (l r : Expr) : Outcome Expr := do
  let l ← asBoolean l
  let r ← asBoolean r
  let nullable := HostType.bool.toNullable
  if l.type.isNullableValueType || r.type.isNullableValueType then
    return .mkBinary op (l.convertTo nullable) (r.convertTo nullable) false
  else return .mkBinary op l r false

/-! ## Dates and times of different types -/

/-- The key by which values of different date and time types are compared. -/
inductive TimeKey where
  /-- `year * 10000 + month * 100 + day`. -/
  | date
  /-- Ticks of the time of day. -/
  | time
  deriving DecidableEq, Repr

namespace TimeKey

/-- Whether values of a type have a time of day. -/
def hasTime (t : HostType) : Bool := t.isTimeFamily || t = .dateTime || t = .dateTimeOffset

/-- The key for two different types, if both have it. -/
def forTypes? (left right : HostType) : Option TimeKey :=
  let l := left.nonNullable
  let r := right.nonNullable
  if l = r then none
  else if (l = .date ∨ r = .date) ∧ l.isDateFamily ∧ r.isDateFamily then some .date
  else if (l.isTimeFamily ∨ r.isTimeFamily) ∧ hasTime l ∧ hasTime r then some .time
  else none

/-- The type of a key. -/
def type : TimeKey → HostType
  | .date => .int .int32
  | .time => .int .int64

/-- A part of a date, scaled. -/
def datePart (e : Expr) (f : ScalarFunction) (scale : Int) : Expr :=
  .mkBinary .multiply (.mkScalar f [e]) (.mkConst (.int32 scale)) false

/-- A part of a time, scaled. -/
def timePart (e : Expr) (f : ScalarFunction) (scale : Int) : Expr :=
  .mkBinary .multiply (.convert (.mkScalar f [e]) (.int .int64)) (.mkConst (.int64 scale)) false

/-- The key of an expression that is not null. -/
def key (k : TimeKey) (e : Expr) : Expr :=
  match k with
  | .date =>
    .mkBinary .add (.mkBinary .add (datePart e .year 10000) (datePart e .month 100) false)
      (.mkScalar .day [e]) false
  | .time =>
    let hours := timePart e .hour 36000000000
    let minutes := .mkBinary .add hours (timePart e .minute 600000000) false
    let seconds := .mkBinary .add minutes (timePart e .second 10000000) false
    .mkBinary .add seconds (timePart e .millisecond 10000) false

/-- The key of an expression, null where it is null. -/
def project (k : TimeKey) (e : Expr) : Expr :=
  if e.isNullConst then .mkNull k.type
  else if e.type.isNullableValueType then
    .mkCond (.mkEqual e (.mkNull e.type)) (.mkNull k.type) (.convert (k.key e) k.type.toNullable)
  else k.key e

end TimeKey

/-! ## Texts and bytes -/

/-- Comparisons of texts and byte sequences by way of functions. -/
def ordinal? (op : BinaryOp) (l r : Expr) : Option Expr :=
  let bytes := l.type.isBytes && r.type.isBytes
  let strings := l.type.isString && r.type.isString
  if op.isRelational && (strings || bytes) then
    some (.mkBinary op (.mkScalar .compare [l, r]) (.mkConst (.int32 0)) false)
  else if bytes then
    let equal := Expr.mkScalar .bytesEqual [l, r]
    some (if op = .notEqual then .mkUnary .not equal else equal)
  else none

/-! ## Promotion -/

/-- The rank of a numeric type: wider types rank higher. -/
def numericRank : HostType → Nat
  | .int .sbyte | .int .byte | .int .int16 | .int .uint16 | .int .int32 => 0
  | .int .uint32 | .int .int64 => 1
  | .single => 2
  | .double => 3
  | _ => 4

/-- The type in which two numeric types meet. -/
def wider (a b : HostType) : HostType :=
  match max (numericRank a) (numericRank b) with
  | 0 => .int .int32
  | 1 => .int .int64
  | 2 => .single
  | 3 => .double
  | _ => .decimal

/-- The type in which two different types meet, null aside. -/
def meet? (l r : HostType) : Option HostType :=
  if l.isNumeric && r.isNumeric then some (wider l.nonNullable r.nonNullable)
  else if l.nonNullable = r.nonNullable then some l.nonNullable
  else
    match l.nonNullable, r.nonNullable with
    | .dateTime, .dateTimeOffset | .dateTimeOffset, .dateTime => some .dateTimeOffset
    | _, _ => none

/-- Both operands brought to one type. -/
def promote (l r : Expr) : Outcome (Expr × Expr) :=
  if l.type = r.type then .ok (l, r)
  else if l.type.isObject || r.type.isObject then .ok (l.convertTo .object, r.convertTo .object)
  else
    match meet? l.type r.type with
    | none => .error (.typeMismatch l.type.text r.type.text)
    | some t =>
      let nullable := l.type.isNullableValueType || r.type.isNullableValueType
      let target := if nullable then t.toNullable else t
      .ok (l.convertTo target, r.convertTo target)

end Bind

namespace Context

/-- An operator on operands of one type. A comparison of two values that may be null may be null,
with null propagation. -/
def operation (ctx : Context) (op : BinaryOp) (l r : Expr) : Expr :=
  .mkBinary op l r
    (op.isComparison && ctx.settings.nullPropagation && l.type.isNullableValueType
      && r.type.isNullableValueType && !l.isNullConst && !r.isNullConst)

/-- Whether a value of an enumeration has a flag. -/
def hasFlag (ctx : Context) (l r : Expr) : Outcome Expr :=
  match l.type.asEnum? with
  | none => .error (.typeMismatch "enum" l.type.text)
  | some enum => do
    let flag ←
      if r.type.asEnum?.isSome then pure r
      else do
        let value ← Bind.enumLiteral r enum
        pure (.const (.enum enum.name value) l.type.nonNullable)
    return ctx.guardIfNeeded l (.mkScalar .hasFlag [l, flag])

/-- A comparison of operands that are no enumerations. -/
def comparison (ctx : Context) (op : BinaryOp) (l r : Expr) : Outcome Expr :=
  match Bind.TimeKey.forTypes? l.type r.type with
  | some k => do
    let (l, r) ← Bind.promote (k.project l) (k.project r)
    return ctx.operation op l r
  | none =>
    match Bind.ordinal? op l r with
    | some e => .ok e
    | none => do
      let (l, r) ← Bind.promote l r
      return ctx.operation op l r

/-- An operator of queries on two bound operands. -/
def binary (ctx : Context) (op : QueryOp) (l r : Expr) : Outcome Expr :=
  match op.binaryOp? with
  | none => ctx.hasFlag l r
  | some op => do
    let (l, r) ← Bind.unifyEnums l r
    let (l, r) := Bind.unifyNulls l r
    if op.isLogical then Bind.logical op l r
    else if op.isComparison then ctx.comparison op l r
    else do
      let (l, r) ← Bind.promote l r
      return ctx.operation op l r

end Context

namespace Bind

/-- Binds an operator and its operands, the left one first. -/
def binary (sub : Node → BindM Expr) (op : QueryOp) (left right : Node) : BindM Expr := do
  let l ← sub left
  let r ← sub right
  BindM.reads fun ctx => ctx.binary op l r

/-- An operator on one bound operand. -/
def unaryOperation (op : QueryUnaryOp) (e : Expr) : Outcome Expr :=
  match op with
  | .not =>
    if e.type.isBool then .ok (.mkUnary .not e)
    else if e.type.isObject then .ok (.mkUnary .not (.convert e HostType.bool.toNullable))
    else .error (.typeMismatch HostType.bool.text e.type.text)
  | .negate =>
    if e.type.isNumeric || e.type.nonNullable = .timeSpan then .ok (.mkUnary .negate e)
    else .error (.typeMismatch "numeric" e.type.text)

/-- Binds an operator and its operand. -/
def unary (sub : Node → BindM Expr) (op : QueryUnaryOp) (operand : Node) : BindM Expr := do
  let e ← sub operand
  BindM.ofOutcome (unaryOperation op e)

end Bind

end TypedQuery

import TypedQuery.Bind.Binary

/-!
# Conversions

Explicit conversions of queries, and the functions `cast` and `isof`, whose last argument is the
name of a type. A conversion that is not possible is an error; a cast that is not possible is null.

* `Bind.convertTo`, `Bind.cast`, `Bind.isOf`: on bound expressions.
-/

namespace TypedQuery.Bind

/-- Whether values of one type stand for values of another as they are. -/
def isIdentity (source target : HostType) : Bool :=
  let same :=
    match source.nonNullable, target.nonNullable with
    | .date, .date | .dateTime, .date => true
    | .dateTimeOffset, .dateTimeOffset | .dateTime, .dateTimeOffset => true
    | .timeOfDay, .timeOfDay | .timeSpan, .timeOfDay => true
    | .timeSpan, .timeSpan => true
    | _, _ => false
  same && (source.isNullable == target.isNullable || source.isNullableValueType)

/-- An expression as an enumeration: the spelling of a value, or a value of that enumeration. -/
def convertToEnum (e : Expr) (target : HostType) (enum : EnumType) : Outcome Expr :=
  match e.constValue? with
  | some (.string s) =>
    match enum.parse? s with
    | some value => .ok (.const (.enum enum.name value) target.nonNullable)
    | none => .error (.invalidEnumValue enum.name s)
  | _ =>
    if e.type.asEnum? = some enum then .ok (.convert e target)
    else .error (.typeMismatch target.text e.type.text)

/-- An expression converted to a type. A nullable value stays null as a value type. -/
def convertTo (e : Expr) (target : HostType) : Outcome Expr :=
  let t := e.type
  if t = target || isIdentity t target then .ok e
  else if e.isNullConst then .ok (.mkNull target)
  else if target.isObject then .ok (.convert e .object)
  else
    match target.asEnum? with
    | some enum => convertToEnum e target enum
    | none =>
      if t.isObject then .ok (.convert e target.toNullable)
      else if t.isNullableValueType && !target.isNullable then
        .ok (.mkCond (.mkEqual e (.mkNull t)) (.mkNull target.toNullable)
          (.convert e target.toNullable))
      else .ok (.convert e target)

/-- Whether a cast between two types is a conversion. -/
def isConvertible (t target : HostType) : Bool :=
  (t.isNumeric && target.isNumeric) || (t.asEnum?.isSome && target.isIntegral)
    || isIdentity t target
    || match t.nonNullable, target with
      | .date, .dateTimeOffset | .dateTimeOffset, .date => true
      | _, _ => false

/-- A cast to an enumeration: only of a literal that spells one of its values. -/
def castToEnum (e : Expr) (target : HostType) (enum : EnumType) : Expr :=
  match e.constValue? with
  | some (.string s) =>
    match enum.parse? s with
    | some value => .const (.enum enum.name value) target
    | none => .mkNull target
  | _ => .mkNull target

/-- An expression cast to a type without null: null where that is not possible. -/
def cast (e : Expr) (target : HostType) : Expr :=
  let t := e.type
  if e.isNullConst then .mkNull target
  else if t.nonNullable = target then e
  else if t.isObject then
    .mkCond (.typeIs e target) (.convert e target.toNullable) (.mkNull target.toNullable)
  else
    match target.asEnum?, target with
    | some enum, _ => castToEnum e target enum
    | none, .record _ => .mkTypeAs e target
    | none, _ =>
      if isConvertible t target then .convert e (target.nullableLike t) else .mkNull target

/-- Whether a value has a type when the query runs. A value of any type that has another one gives
null. -/
def isOf (e : Expr) (target : HostType) : Expr :=
  if e.isNullConst then .mkBool false
  else if e.type.isObject then
    .mkCond (.typeIs e target) (.const (.bool true) HostType.bool.toNullable)
      (.mkNull HostType.bool.toNullable)
  else .typeIs e target

/-- Binds a conversion. -/
def convert (sub : Node → BindM Expr) (source : Node) (type : LogicalType) : BindM Expr := do
  let e ← sub source
  let target ← BindM.reads fun ctx => ctx.hostType type
  BindM.ofOutcome (convertTo e target)

/-- Binds a cast of a record to another record type: null where it has not that type. -/
def resourceCast (sub : Node → BindM Expr) (source : Node) (type : LogicalType) : BindM Expr := do
  let e ← sub source
  let target ← BindM.reads fun ctx => ctx.hostType type
  return .mkTypeAs e target.nonNullable

/-- The type with a name: a primitive, an enumeration or a record type. -/
def namedType (ctx : Context) (name : String) : Outcome HostType :=
  let host? :=
    match Primitive.ofName? name with
    | some p => ctx.schema.hostType? (.primitive p false)
    | none =>
      (ctx.schema.hostType? (.enum name false)).orElse fun _ =>
        ctx.schema.hostType? (.entity name true)
  match host? with
  | some t => .ok t.nonNullable
  | none => .error (.typeNotInModel name)

/-- The type that an argument names. -/
def typeArgument (function : String) (arg : Node) (ctx : Context) : Outcome HostType :=
  match arg with
  | .constant (.string name) _ => namedType ctx name
  | arg =>
    .error (.invalidFunctionArguments function ("expected a type name, got " ++ arg.kindName))

/-- The variable that stands for the record of the clause. -/
def implicitVariable : RangeVariable := ⟨RangeVariable.itName, .untyped true⟩

/-- Binds `cast` or `isof`, of the first of two arguments or of the record of the clause. -/
def typeFunction (sub : Node → BindM Expr) (function : String) (args : List Node) :
    BindM Expr := do
  let finish (e : Expr) (target : HostType) : Expr :=
    if function = "isof" then isOf e target else cast e target
  match args with
  | [typeArg] =>
    let target ← BindM.reads (typeArgument function typeArg)
    let e ← BindM.reads fun ctx => ctx.resolve implicitVariable
    return finish e target
  | [source, typeArg] =>
    let target ← BindM.reads (typeArgument function typeArg)
    let e ← sub source
    return finish e target
  | args =>
    BindM.fail (.invalidFunctionArguments function
      ("expected 1 or 2 arguments, got " ++ toString args.length))

end TypedQuery.Bind

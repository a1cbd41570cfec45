import TypedQuery.Bind.Conversion

/-!
# Built-in functions

The functions of the query language, by name, with what each of them takes. A call is null where an
argument is, with null propagation.

* `Builtin.all`: the functions.
* `Bind.call`: a call by name, in any case.
-/

namespace TypedQuery

/-- What a function takes at one position. -/
inductive ArgKind where
  | text | integral | numeric
  /-- A value with a calendar date. -/
  | dated
  /-- A value with a time of day. -/
  | timed
  deriving DecidableEq, Repr

namespace ArgKind

/-- Whether an argument of a type is taken. -/
def accepts (k : ArgKind) (t : HostType) : Bool :=
  match k with
  | .text => t.isString
  | .integral => t.isIntegral
  | .numeric => t.isNumeric
  | .dated => t.isDateFamily
  | .timed => t.hasTimeOfDay

/-- The type that a value of any type is converted to. -/
def canonical : ArgKind → HostType
  | .text => .string
  | .integral => (HostType.int .int32).toNullable
  | .numeric => HostType.decimal.toNullable
  | .dated => HostType.dateTimeOffset.toNullable
  | .timed => HostType.timeOfDay.toNullable

/-- The kind in words. -/
def describe : ArgKind → String
  | .text => "a string"
  | .integral => "an integer"
  | .numeric => "a number"
  | .dated => "a date"
  | .timed => "a time"

end ArgKind

/-- A function of the query language. -/
structure Builtin where
  name : String
  function : ScalarFunction
  args : List ArgKind
  /-- How many of the arguments at the end may be left out. -/
  optional : Nat := 0

namespace Builtin

/-- The functions of the query language. -/
def all : List Builtin :=
  [⟨"contains", .contains, [.text, .text], 0⟩,
    ⟨"startswith", .startsWith, [.text, .text], 0⟩,
    ⟨"endswith", .endsWith, [.text, .text], 0⟩,
    ⟨"length", .length, [.text], 0⟩,
    ⟨"indexof", .indexOf, [.text, .text], 0⟩,
    ⟨"substring", .substring, [.text, .integral, .integral], 1⟩,
    ⟨"tolower", .toLower, [.text], 0⟩,
    ⟨"toupper", .toUpper, [.text], 0⟩,
    ⟨"trim", .trim, [.text], 0⟩,
    ⟨"concat", .concat, [.text, .text], 0⟩,
    ⟨"matchespattern", .matchesPattern, [.text, .text], 0⟩,
    ⟨"year", .year, [.dated], 0⟩,
    ⟨"month", .month, [.dated], 0⟩,
    ⟨"day", .day, [.dated], 0⟩,
    ⟨"hour", .hour, [.timed], 0⟩,
    ⟨"minute", .minute, [.timed], 0⟩,
    ⟨"second", .second, [.timed], 0⟩,
    ⟨"fractionalseconds", .fractionalSeconds, [.timed], 0⟩,
    ⟨"date", .datePart, [.dated], 0⟩,
    ⟨"time", .timePart, [.timed], 0⟩,
    ⟨"round", .round, [.numeric], 0⟩,
    ⟨"floor", .floor, [.numeric], 0⟩,
    ⟨"ceiling", .ceiling, [.numeric], 0⟩]

/-- The function with a name in lower case. -/
def ofName? (name : String) : Option Builtin := all.find? fun b => b.name == name

/-- How many arguments have to be given. -/
def required (b : Builtin) : Nat := b.args.length - b.optional

/-- Whether a number of arguments is taken. -/
def takes (b : Builtin) (count : Nat) : Bool := b.required ≤ count && count ≤ b.args.length

/-- How many arguments are taken, in words. -/
def expected (b : Builtin) : String :=
  if b.optional = 0 then toString b.args.length
  else toString b.required ++ " to " ++ toString b.args.length

/-- Whether the function rounds; an integer is rounded as a float. -/
def isRounding (b : Builtin) : Bool :=
  match b.function with
  | .round | .floor | .ceiling => true
  | _ => false

end Builtin

namespace Bind

/-- An argument made to fit: null and values of any type are converted, others must fit. -/
def coerce (function : String) (e : Expr) (k : ArgKind) : Outcome Expr :=
  if e.isNullConst then .ok (.mkNull k.canonical)
  else if e.type.isObject then .ok (.convert e k.canonical)
  else if k.accepts e.type then .ok e
  else
    .error (.invalidFunctionArguments function
      ("expected " ++ k.describe ++ ", got " ++ e.type.text))

/-- An integer as a float. -/
def integralToDouble (e : Expr) : Expr :=
  if e.type.isIntegral then .convert e (HostType.double.nullableLike e.type) else e

/-- Binds the arguments of a function in turn. -/
def arguments (sub : Node → BindM Expr) (function : String) :
    List Node → List ArgKind → BindM (List Expr)
  | arg :: args, k :: ks => do
    let e ← BindM.ofOutcome (coerce function (← sub arg) k)
    return e :: (← arguments sub function args ks)
  | _, _ => return []

/-- Whether one of several expressions is null; nothing without expressions. -/
def someIsNull? : List Expr → Option Expr
  | [] => none
  | e :: rest =>
    let isNull (e : Expr) : Expr := .mkEqual e (.mkNull e.type)
    some (rest.foldl (fun test e => .mkBinary .orElse test (isNull e) false) (isNull e))

/-- A call that is null where one of the given arguments is. -/
def guardCall (nullable : List Expr) (e : Expr) : Expr :=
  match someIsNull? nullable with
  | some test => .mkCond test (.mkNull e.type.toNullable) (e.convertTo e.type.toNullable)
  | none => e

/-- Binds a call of a function of the query language. -/
def builtinCall (sub : Node → BindM Expr) (b : Builtin) (name : String) (args : List Node) :
    BindM Expr := do
  if b.takes args.length then
    let bound ← arguments sub name args b.args
    let bound := if b.isRounding then bound.map integralToDouble else bound
    let ctx ← BindM.context
    return guardCall (bound.filter ctx.needsGuard) (.mkScalar b.function bound)
  else
    BindM.fail (.invalidFunctionArguments name
      ("expected " ++ b.expected ++ " arguments, got " ++ toString args.length))

/-- Binds a call by name, in any case. -/
def call (sub : Node → BindM Expr) (name : String) (args : List Node) : BindM Expr :=
  let lowered := Text.asciiLower name
  if lowered = "cast" ∨ lowered = "isof" then typeFunction sub lowered args
  else
    match Builtin.ofName? lowered with
    | some b => builtinCall sub b name args
    | none => BindM.fail (.unknownFunction name)

end Bind

end TypedQuery

import TypedQuery.Value

/-!
# Code from outside

A query may call code that is not part of this library: the engine that reads patterns and matches texts
against them, and the aggregates that an application brings with it. The library asks for what they do as
a parameter, and says nothing about it.

* `External`: what code from outside does.
* `AggregateCode.resultType?`: the result type of an aggregate for an input type.
* `Schema.customMethod?`: an aggregate of a schema by its label.
-/

namespace TypedQuery

/-- What code from outside does. Its failures come with their words. -/
class External where
  /-- A pattern as a test of texts, or why it is refused. -/
  pattern : String → Except String (String → Bool)
  /-- The name of an aggregate of the application. -/
  aggregateName : Nat → String
  /-- Its result type for an input type, if it takes that. -/
  aggregateType? : Nat → HostType → Option HostType
  /-- The running states of aggregates. -/
  State : Type
  /-- The state before any value, for a result type. -/
  start : Nat → HostType → State
  /-- The state after one more value. -/
  update : State → Value → Except String State
  /-- The result of the values so far. -/
  finish : State → Except String { v : Value // v.WellFormed }

/-- No code from outside: every pattern is refused, and the application has no aggregates. -/
instance (priority := low) External.absent : External where
  pattern _ := .error "no engine"
  aggregateName _ := ""
  aggregateType? _ _ := none
  State := Unit
  start _ _ := ()
  update state _ := .ok state
  finish _ := .error "no aggregate"

variable [External]

namespace AggregateCode

/-- The name of an aggregate. -/
def name : AggregateCode → String
  | .builtIn a => a.name
  | .provided id => External.aggregateName id

/-- The result type for an input type, if the aggregate takes it. -/
def resultType? (code : AggregateCode) (input : HostType) : Option HostType :=
  match code with
  | .builtIn a => a.resultType? input
  | .provided id => External.aggregateType? id input

end AggregateCode

namespace CustomMethod

/-- The aggregate under a label, for an input type that it takes. -/
def resolve? (label : String) (input : HostType) (code : AggregateCode) : Option CustomMethod :=
  (code.resultType? input).map fun result => ⟨label, input, result, code⟩

/-- The method with all of its structure. -/
def outline (m : CustomMethod) : String :=
  "HostMethod \x7b label: " ++ Text.quoted m.label ++ ", name: " ++ Text.quoted m.code.name
    ++ ", input: " ++ m.input.outline ++ ", result: " ++ m.result.outline ++ " \x7d"

end CustomMethod

/-- The custom aggregate with a label, for an input type that it takes. -/
def Schema.customMethod? (s : Schema) (label : String) (input : HostType) : Option CustomMethod :=
  (Entries.get? s.aggregates (Text.asciiLower label)).bind (CustomMethod.resolve? label input)

end TypedQuery

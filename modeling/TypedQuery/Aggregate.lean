import TypedQuery.HostType
import TypedQuery.Text.Case

/-!
# Aggregates

The built-in aggregates, with the types they take and give. A schema may offer these, and those of an
application, under labels of its own; a `CustomMethod` is one such label resolved for an input type.

* `Aggregate.resultType?`: the result type for an input type, if the aggregate takes it.
-/

namespace TypedQuery

/-- The built-in aggregates. -/
inductive Aggregate where
  | count | sum | average | min | max
  deriving DecidableEq, Repr

namespace Aggregate

/-- The built-in aggregates in the order in which they are listed. -/
def all : List Aggregate := [.count, .sum, .average, .min, .max]

/-- The name of an aggregate. -/
def name : Aggregate → String
  | .count => "count"
  | .sum => "sum"
  | .average => "average"
  | .min => "min"
  | .max => "max"

/-- The aggregate with a name, in any case. -/
def ofName? (name : String) : Option Aggregate :=
  all.find? fun a => a.name == Text.asciiLower name

/-- The list of names, in quotes. -/
def outline : String := "[" ++ Text.joinWith ", " (all.map fun a => Text.quoted a.name) ++ "]"

/-- Whether values of a type have a least and a greatest. -/
def isOrderable (t : HostType) : Bool :=
  t.nonNullable.isValueType || t.nonNullable.isString || t.nonNullable.isObject

/-- The result type for an input type, if the aggregate takes it. -/
def resultType? (a : Aggregate) (input : HostType) : Option HostType :=
  match a with
  | .count => some (.int .int64)
  | .sum => if input.hasSum then some input else none
  | .average => input.averageType?
  | .min | .max => if isOrderable input then some input else none

end Aggregate

/-- Where the code of an aggregate is from: it is a built-in one, or one that the application brings with
it, known by a number. -/
inductive AggregateCode where
  | builtIn (a : Aggregate)
  | provided (id : Nat)
  deriving DecidableEq

/-- An aggregate of the schema, resolved for an input type. -/
structure CustomMethod where
  label : String
  input : HostType
  result : HostType
  code : AggregateCode
  deriving DecidableEq

end TypedQuery

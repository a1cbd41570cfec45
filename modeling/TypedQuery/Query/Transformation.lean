import TypedQuery.Query.Node

/-!
# Transformations

The steps that turn a collection of records into another one: grouping, aggregation, computed
columns and filters.

* `Transformation.grouping`, `Transformation.aggregates`: what a step groups by and aggregates.
-/

namespace TypedQuery

/-- How an aggregate combines the values of a group. -/
inductive AggregationMethod where
  | sum | min | max | average | countDistinct
  /-- The number of records. -/
  | count
  /-- An aggregate of the schema, by its label. -/
  | custom (label : String)
  deriving DecidableEq, Repr

/-- The name of a method. -/
def AggregationMethod.text : AggregationMethod → String
  | .sum => "sum"
  | .min => "min"
  | .max => "max"
  | .average => "average"
  | .countDistinct => "countdistinct"
  | .count => "$count"
  | .custom label => label

/-- The method with a name, other than those of the schema. -/
def AggregationMethod.ofText? (name : String) : Option AggregationMethod :=
  [sum, min, max, average, countDistinct, count].find? fun m => m.text == name

/-- An aggregate of a property; only a count has none. -/
structure PropertyAggregate where
  method : AggregationMethod
  input : Option Node
  name : String

/-- Aggregates of a group. -/
inductive AggregateExpr where
  | property (a : PropertyAggregate)
  /-- Aggregates over a related collection of all records of the group. -/
  | entitySet (source : Node) (name : String) (children : List AggregateExpr)

namespace AggregateExpr

/-- The name under which the result is found. -/
def name : AggregateExpr → String
  | .property a => a.name
  | .entitySet _ name _ => name

/-- Whether the aggregate counts records. -/
def isCount : AggregateExpr → Bool
  | .property ⟨.count, _, _⟩ => true
  | _ => false

/-- The name of the method of a property aggregate. -/
def methodText? : AggregateExpr → Option String
  | .property a => some a.method.text
  | .entitySet .. => none

end AggregateExpr

/-- A property to group by; one with children stands for them. -/
inductive GroupingProperty where
  | mk (name : String) (expression : Option Node) (children : List GroupingProperty)

namespace GroupingProperty

/-- The name of the property. -/
def name : GroupingProperty → String
  | .mk name _ _ => name

/-- The expression that gives the property. -/
def expression : GroupingProperty → Option Node
  | .mk _ expression _ => expression

/-- The parts of the property. -/
def children : GroupingProperty → List GroupingProperty
  | .mk _ _ children => children

end GroupingProperty

/-- A computed column. -/
structure Column where
  expression : Node
  name : String

/-- Steps of a pipeline. -/
inductive Transformation where
  | groupBy (properties : List GroupingProperty) (aggregates : List AggregateExpr)
  | aggregate (aggregates : List AggregateExpr)
  | compute (columns : List Column)
  | filter (clause : FilterClause)

namespace Transformation

/-- The name of a step's kind. -/
def kindName : Transformation → String
  | .groupBy .. => "GroupBy"
  | .aggregate _ => "Aggregate"
  | .compute _ => "Compute"
  | .filter _ => "Filter"

/-- The properties that a step groups by. -/
def grouping : Transformation → List GroupingProperty
  | .groupBy properties _ => properties
  | _ => []

/-- The aggregates of a step. -/
def aggregates : Transformation → List AggregateExpr
  | .groupBy _ aggregates | .aggregate aggregates => aggregates
  | _ => []

end Transformation

end TypedQuery

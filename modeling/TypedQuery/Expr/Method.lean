import TypedQuery.Aggregate

/-!
# Methods

What a call in a bound expression may call: a function of scalar values, an operator on a
collection, or a look-up of a property whose name is a value.

* `Method.text`: a method as it stands in the text of a call.
-/

namespace TypedQuery

/-- Functions of scalar values. -/
inductive ScalarFunction where
  | contains | startsWith | endsWith | length | indexOf | substring | toLower | toUpper | trim
  | concat | matchesPattern
  | year | month | day | hour | minute | second | millisecond | fractionalSeconds | datePart
  | timePart
  | round | floor | ceiling
  /-- The order of two texts or byte sequences, as -1, 0 or 1. -/
  | compare
  /-- Equality of byte sequences. -/
  | bytesEqual
  /-- Whether all bits of a flag are set. -/
  | hasFlag
  deriving DecidableEq, Repr

/-- The name of a function. -/
def ScalarFunction.text : ScalarFunction → String
  | .contains => "Contains"
  | .startsWith => "StartsWith"
  | .endsWith => "EndsWith"
  | .length => "Length"
  | .indexOf => "IndexOf"
  | .substring => "Substring"
  | .toLower => "ToLower"
  | .toUpper => "ToUpper"
  | .trim => "Trim"
  | .concat => "Concat"
  | .matchesPattern => "MatchesPattern"
  | .year => "Year"
  | .month => "Month"
  | .day => "Day"
  | .hour => "Hour"
  | .minute => "Minute"
  | .second => "Second"
  | .millisecond => "Millisecond"
  | .fractionalSeconds => "FractionalSeconds"
  | .datePart => "Date"
  | .timePart => "TimeOfDay"
  | .round => "Round"
  | .floor => "Floor"
  | .ceiling => "Ceiling"
  | .compare => "Compare"
  | .bytesEqual => "BytesEqual"
  | .hasFlag => "HasFlag"

/-- All functions. -/
def ScalarFunction.all : List ScalarFunction :=
  [.contains, .startsWith, .endsWith, .length, .indexOf, .substring, .toLower, .toUpper, .trim,
    .concat, .matchesPattern, .year, .month, .day, .hour, .minute, .second, .millisecond,
    .fractionalSeconds, .datePart, .timePart, .round, .floor, .ceiling, .compare, .bytesEqual,
    .hasFlag]

/-- Operators on a collection, which is their first argument. -/
inductive CollectionOperator where
  | any | all | filter | select | selectMany | groupBy
  /-- Whether a value is among the items. -/
  | contains
  /-- Every item converted to a type. -/
  | cast (target : HostType)
  | distinct | longCount | sum | average | min | max | toList
  /-- An aggregate of the schema. -/
  | custom (m : CustomMethod)
  deriving DecidableEq

/-- The name of an operator. -/
def CollectionOperator.name : CollectionOperator → String
  | .any => "Any"
  | .all => "All"
  | .filter => "Where"
  | .select => "Select"
  | .selectMany => "SelectMany"
  | .groupBy => "GroupBy"
  | .contains => "Contains"
  | .cast _ => "Cast"
  | .distinct => "Distinct"
  | .longCount => "LongCount"
  | .sum => "Sum"
  | .average => "Average"
  | .min => "Min"
  | .max => "Max"
  | .toList => "ToList"
  | .custom m => m.label

/-- The operators that are named by one word. -/
def CollectionOperator.plain : List CollectionOperator :=
  [.any, .all, .filter, .select, .selectMany, .groupBy, .contains, .distinct, .longCount, .sum,
    .average, .min, .max, .toList]

/-- Look-ups of a property whose name is a value. -/
inductive Lookup where
  /-- Whether a bag has a name. -/
  | containsKey
  /-- Whether the record type of a value declares a name. -/
  | hasDeclaredProperty
  /-- The declared property of a value. -/
  | declaredProperty
  /-- The entry of a value's bag, or null. -/
  | dynamicProperty
  deriving DecidableEq, Repr

/-- The name of a look-up. -/
def Lookup.text : Lookup → String
  | .containsKey => "ContainsKey"
  | .hasDeclaredProperty => "HasDeclaredProperty"
  | .declaredProperty => "DeclaredProperty"
  | .dynamicProperty => "DynamicProperty"

/-- All look-ups. -/
def Lookup.all : List Lookup :=
  [.containsKey, .hasDeclaredProperty, .declaredProperty, .dynamicProperty]

/-- What a call may call. -/
inductive Method where
  | scalar (f : ScalarFunction)
  | collection (op : CollectionOperator)
  | lookup (l : Lookup)
  deriving DecidableEq

namespace Method

/-- The name of a method. -/
def name : Method → String
  | .scalar f => f.text
  | .collection op => op.name
  | .lookup l => l.text

/-- The name of a method, with the type that a cast has. -/
def text : Method → String
  | .collection (.cast t) => "Cast<" ++ t.text ++ ">"
  | m => m.name

/-- Whether the method is written after its first argument. -/
def isCollectionOperator : Method → Bool
  | .collection _ => true
  | _ => false

end Method

end TypedQuery

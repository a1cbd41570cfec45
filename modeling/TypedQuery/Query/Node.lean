import TypedQuery.Query.Literal
import TypedQuery.Query.Operator

/-!
# Query nodes

The parsed expressions of queries, before binding gives them types.

* `Node.path?`: the names of a chain of properties.
* `Node.crossesNavigation`: whether such a chain leaves its record.
-/

namespace TypedQuery

/-- A name that a clause or a quantifier introduces, with its type. -/
structure RangeVariable where
  name : String
  type : LogicalType
  deriving DecidableEq

namespace RangeVariable

/-- The name of a clause's current record. -/
def thisName : String := "$this"

/-- The name of a clause's root record. -/
def itName : String := "$it"

end RangeVariable

/-- What a declared property holds. -/
inductive PropertyKind where
  | single | complex | collection | complexCollection | navigation | navigationCollection
  deriving DecidableEq, Repr

namespace PropertyKind

/-- The name of a kind. -/
def text : PropertyKind → String
  | .single => "Single"
  | .complex => "Complex"
  | .collection => "Collection"
  | .complexCollection => "CollectionComplex"
  | .navigation => "Navigation"
  | .navigationCollection => "CollectionNavigation"

/-- The kind with a name. -/
def ofText? (name : String) : Option PropertyKind :=
  [single, complex, collection, complexCollection, navigation, navigationCollection].find?
    fun k => k.text == name

/-- Whether the property leads to other records. -/
def isNavigation : PropertyKind → Bool
  | .navigation | .navigationCollection => true
  | _ => false

/-- Whether the property holds many values. -/
def isCollection : PropertyKind → Bool
  | .collection | .complexCollection | .navigationCollection => true
  | _ => false

end PropertyKind

/-- Expressions of queries. -/
inductive Node where
  /-- A literal; a type given with it counts for null only. -/
  | constant (literal : Literal) (type : Option LogicalType)
  | rangeVariable (v : RangeVariable)
  | property (source : Node) (name : String) (kind : PropertyKind)
  /-- A property that the type of its source does not declare. -/
  | openProperty (source : Node) (name : String)
  | openCollection (source : Node) (name : String)
  | binary (op : QueryOp) (left right : Node)
  | unary (op : QueryUnaryOp) (operand : Node)
  | convert (source : Node) (type : LogicalType)
  | call (name : String) (args : List Node)
  /-- A call that gives a record. -/
  | resourceCall (name : String) (args : List Node)
  /-- Whether some item satisfies the body; without a body, whether there is an item. -/
  | any (source : Node) (v : RangeVariable) (body : Option Node)
  | all (source : Node) (v : RangeVariable) (body : Node)
  | isIn (probe items : Node)
  /-- The number of items. -/
  | count (source : Node)
  /-- The number of items that satisfy a predicate on a variable. -/
  | countWhere (source predicate : Node) (v : RangeVariable)
  | collectionCast (source : Node) (type : LogicalType)
  | resourceCast (source : Node) (type : LogicalType)
  | collectionConstant (literals : List Literal) (element : LogicalType)
  | namedParameter (name : String)
  | parameterAlias (name : String)
  | entitySet (name : String)
  | keyLookup (source : Node) (keys : List (String × Literal))
  | searchTerm (term : String)

namespace Node

instance : Inhabited Node := ⟨.constant .null none⟩

/-- The name of a node's kind. -/
def kindName : Node → String
  | .constant .. => "Constant"
  | .rangeVariable _ => "RangeVariable"
  | .property .. => "Property"
  | .openProperty .. => "OpenProperty"
  | .openCollection .. => "CollectionOpenProperty"
  | .binary .. => "BinaryOperator"
  | .unary .. => "UnaryOperator"
  | .convert .. => "Convert"
  | .call .. => "FunctionCall"
  | .resourceCall .. => "ResourceFunctionCall"
  | .any .. => "Any"
  | .all .. => "All"
  | .isIn .. => "In"
  | .count .. | .countWhere .. => "Count"
  | .collectionCast .. => "CollectionCast"
  | .resourceCast .. => "ResourceCast"
  | .collectionConstant .. => "CollectionConstant"
  | .namedParameter _ => "NamedFunctionParameter"
  | .parameterAlias _ => "ParameterAlias"
  | .entitySet _ => "EntitySet"
  | .keyLookup .. => "KeyLookup"
  | .searchTerm _ => "SearchTerm"

/-- The names of a chain of declared properties, from a variable on. -/
def path? : Node → Option (List String)
  | .rangeVariable _ => some []
  | .property source name _ => source.path?.map (· ++ [name])
  | _ => none

/-- Whether a chain of properties leads to other records. -/
def crossesNavigation : Node → Bool
  | .property source _ kind => kind.isNavigation || source.crossesNavigation
  | _ => false

/-- The names of a path, joined into one key. -/
def pathKey (path : List String) : String := Text.joinWith "\\" path

end Node

/-- A predicate on the records of a clause. -/
structure FilterClause where
  predicate : Node
  v : RangeVariable

/-- The direction of a sort key. -/
inductive Direction where
  | ascending | descending
  deriving DecidableEq, Repr

/-- The keyword of a direction. -/
def Direction.text : Direction → String
  | .ascending => "asc"
  | .descending => "desc"

/-- One key of an ordering. An ordering is the list of its keys, the most significant first. -/
structure OrderKey where
  expression : Node
  direction : Direction
  v : RangeVariable

end TypedQuery

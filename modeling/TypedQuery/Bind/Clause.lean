import TypedQuery.Bind.Node
import TypedQuery.Query.Transformation

/-!
# Clauses

Filters and orderings over the current record, and computed columns.

* `FilterClause.bind`, `OrderKey.bind`, `Column.bindAll`: the lambdas of a clause.
* `FilterClause.applyTo`, `Column.applyTo`: a clause applied to a collection.
-/

namespace TypedQuery

/-- Binds a filter to a predicate on the current record. -/
def FilterClause.bind (clause : FilterClause) : BindM Lambda :=
  Bind.filterLambda Node.bind clause.predicate

/-- The items of a collection that a filter keeps. -/
def FilterClause.applyTo (clause : FilterClause) (source : Expr) : BindM Expr := do
  let l ← clause.bind
  return .mkCollection .filter [source, l.toExpr]

/-- A bound key of an ordering. -/
structure BoundKey where
  lambda : Lambda
  direction : Direction

/-- Binds a key of an ordering; values with parts have no order. -/
def OrderKey.bind (key : OrderKey) : BindM BoundKey := do
  let e ← key.expression.bind
  if e.type.isStructured then BindM.fail (.typeMismatch "orderable value" e.type.text)
  else return ⟨⟨(← BindM.context).current, e⟩, key.direction⟩

/-- Binds the keys of an ordering in turn. -/
def OrderKey.bindAll : List OrderKey → BindM (List BoundKey)
  | [] => return []
  | key :: rest => do
    let bound ← key.bind
    return bound :: (← bindAll rest)

namespace Column

/-- Binds columns in turn; the names of those before are properties of the current record. -/
def bindSlots : List Column → BindM (List (String × Expr))
  | [] => return []
  | column :: rest => do
    let e ← column.expression.bind
    BindM.modify fun ctx =>
      { ctx with computed := Entries.insert ctx.computed column.name column.expression }
    return (column.name, e) :: (← bindSlots rest)

/-- Binds computed columns to the current record with its columns. If one fails, none is a property
from then on. -/
def bindAll (columns : List Column) : BindM Lambda := do
  let slots ← BindM.allOrNothing (bindSlots columns)
  let ctx ← BindM.context
  return ⟨ctx.current,
    .wrapper (.compute ctx.currentExpr ctx.modelExpr (Expr.mkContainer? slots))⟩

/-- The items of a collection with computed columns. -/
def applyTo (columns : List Column) (source : Expr) : BindM Expr := do
  let l ← bindAll columns
  return .mkCollection .select [source, l.toExpr]

end Column

end TypedQuery

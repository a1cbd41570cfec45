import TypedQuery.Bind.Flattening
import TypedQuery.Expr.Text
import TypedQuery.External

/-!
# Aggregation

Grouping and aggregation: a lambda that gives the key of a record, and a lambda that gives the
aggregates of a group.

* `Transformation.bindKey`, `Transformation.bindResult`: the two lambdas.
* `Transformation.applyTo`: the groups of a collection with their aggregates.
-/

namespace TypedQuery

variable [External]

/-! ## Keys -/

namespace GroupingProperty

mutual

/-- The value of a property to group by; one with children is the key of its children. -/
def bindValue (g : GroupingProperty) : BindM Expr :=
  match g with
  | .mk _ expression children =>
    if children.isEmpty then
      match expression with
      | some e => e.bind
      | none => BindM.fail (.argumentNull "grouping property expression")
    else do return .wrapper (.groupBy (.container (← bindSlots children)))
termination_by structural g

/-- Properties to group by as the slots of a key, in turn. -/
def bindSlots (gs : List GroupingProperty) : BindM (List (String × Expr)) :=
  match gs with
  | [] => return []
  | g :: rest => do
    let e ← bindValue g
    return (g.name, e) :: (← bindSlots rest)
termination_by structural gs

end

end GroupingProperty

/-- Binds what a transformation groups by, on the current record; without grouping there is one
key. -/
def Transformation.bindKey (t : Transformation) : BindM Lambda := do
  let body ←
    if t.grouping.isEmpty then pure (Expr.wrapper .noGroupBy)
    else do
      let slots ← GroupingProperty.bindSlots t.grouping
      pure (.wrapper (.groupBy (.container slots)))
  return ⟨(← BindM.context).current, body⟩

/-! ## Aggregates of a property -/

namespace PropertyAggregate

/-- Binds the values that an aggregate combines. -/
def bindInput (a : PropertyAggregate) : BindM Expr :=
  match a.input with
  | some node => node.bind
  | none => BindM.fail (.argumentNull "aggregate expression")

/-- A narrow integer as one of 32 bits, which has a sum. -/
def widenNarrow (e : Expr) : Expr :=
  match e.type.nonNullable with
  | .int .sbyte | .int .byte | .int .int16 | .int .uint16 =>
    .convert e ((HostType.int .int32).nullableLike e.type)
  | _ => e

/-- The values of a sum or an average; those of any type count as decimals. -/
def summand (e : Expr) : Expr :=
  if e.type.isObject then .convert e HostType.decimal.toNullable else widenNarrow e

/-- A sum or an average of bound values of a group. -/
def total (a : PropertyAggregate) (op : CollectionOperator) (supported : HostType → Bool)
    (group : Expr) (p : Param) (e : Expr) : Outcome Expr :=
  let body := summand e
  if supported body.type then
    let result := Expr.mkCollection op [group, .mkLambda p body]
    .ok (if e.type.isObject then .convert result .object else result)
  else .error (.aggregationNotSupportedForType a.method.text body.type.text)

/-- A least or greatest of bound values of a group. -/
def extreme (a : PropertyAggregate) (op : CollectionOperator) (group : Expr) (p : Param)
    (e : Expr) : Outcome Expr :=
  if e.type.isStructured then
    .error (.aggregationNotSupportedForType a.method.text e.type.text)
  else .ok (.mkCollection op [group, .mkLambda p e])

/-- An aggregate of the schema on bound values of a group. -/
def custom (s : Schema) (label : String) (group : Expr) (p : Param) (e : Expr) : Outcome Expr :=
  match s.customMethod? label e.type with
  | some m => .ok (.mkCollection (.custom m) [group, .mkLambda p e])
  | none => .error (.aggregationNotSupported label e.text e.type.text)

/-- The aggregate of bound values of a group. -/
def combine (a : PropertyAggregate) (s : Schema) (group : Expr) (p : Param) (e : Expr) :
    Outcome Expr :=
  match a.method with
  | .count => .ok (.mkCollection .longCount [group])
  | .countDistinct =>
    .ok (.mkCollection .longCount
      [.mkCollection .distinct [.mkCollection .select [group, .mkLambda p e]]])
  | .sum => a.total .sum HostType.hasSum group p e
  | .average => a.total .average (fun t => t.averageType?.isSome) group p e
  | .min => a.extreme .min group p e
  | .max => a.extreme .max group p e
  | .custom label => custom s label group p e

/-- Binds an aggregate of a group; a count has no values to bind. -/
def bind (a : PropertyAggregate) (group : Expr) : BindM Expr := do
  if a.method = .count then return .mkCollection .longCount [group]
  else
    let e ← a.bindInput
    BindM.reads fun ctx => a.combine ctx.schema group ctx.current e

end PropertyAggregate

/-! ## Aggregates of a group -/

/-- The aggregates of a group, in the slots given, with the container of its key. -/
def aggregationExpr (slots : List (String × Expr)) (key : Option Expr) : Expr :=
  .wrapper (.aggregation (Expr.mkContainer? slots) key)

/-- The related items of all records of a group, put into one group. -/
def relatedGroup (group : Expr) (p inner : Param) (navigation : Expr) : Expr :=
  .mkCollection .groupBy
    [.mkCollection .selectMany [group, .mkLambda p navigation],
      .mkLambda inner (.wrapper .noGroupBy)]

namespace AggregateExpr

/-- The type of the related items that an aggregate ranges over. -/
def relatedType (navigation : Expr) : Outcome HostType :=
  match navigation.type.elementType? with
  | some t => .ok t
  | none => .error (.unsupportedCollectionType navigation.type.text)

mutual

/-- Binds an aggregate of a group. -/
def bind (a : AggregateExpr) (group : Expr) : BindM Expr :=
  match a with
  | .property p => p.bind group
  | .entitySet source _ children => do
    let navigation ← source.bind
    let element ← BindM.ofOutcome (relatedType navigation)
    let p := (← BindM.context).current
    BindM.inChild element do
      let inner := (← BindM.context).current
      let g ← BindM.fresh RangeVariable.itName (.grouping (.wrapper .noGroupBy) element)
      let slots ← bindSlots children (.param g)
      return .mkCollection .toList
        [.mkCollection .select
          [relatedGroup group p inner navigation, .mkLambda g (aggregationExpr slots none)]]
termination_by structural a

/-- Binds aggregates of a group to slots, in turn. -/
def bindSlots (aggregates : List AggregateExpr) (group : Expr) : BindM (List (String × Expr)) :=
  match aggregates with
  | [] => return []
  | a :: rest => do
    let e ← bind a group
    return (a.name, e) :: (← bindSlots rest group)
termination_by structural aggregates

end

end AggregateExpr

/-! ## Transformations -/

namespace Transformation

/-- The shape of the keys of a transformation. -/
def keyKind (t : Transformation) : WrapperKind :=
  if t.grouping.isEmpty then .noGroupBy else .groupBy

/-- The container of the key of a group, if there is grouping. -/
def keyContainer? (t : Transformation) (group : Param) : Option Expr :=
  if t.grouping.isEmpty then none
  else
    let keyType := HostType.wrapper t.keyKind
    some (.member (.member (.param group) ⟨group.type.text, keyName, keyType⟩)
      ⟨keyType.text, WrapperMember.groupByContainer.text, .container⟩)

/-- Binds the aggregates of a transformation, on a group. -/
def bindResult (t : Transformation) : BindM Lambda := do
  let element := (← BindM.context).current.type
  let g ← BindM.fresh RangeVariable.itName (.grouping (.wrapper t.keyKind) element)
  let slots ← AggregateExpr.bindSlots t.aggregates (.param g)
  return ⟨g, aggregationExpr slots (t.keyContainer? g)⟩

/-- Whether a transformation groups or aggregates. -/
def isAggregation : Transformation → Bool
  | .groupBy .. | .aggregate _ => true
  | _ => false

/-- The lambda for the key of a record, and the lambda for the result of a group. -/
structure BoundAggregation where
  key : Lambda
  result : Lambda

/-- Binds grouping and aggregation. -/
def bindAggregation (t : Transformation) : BindM BoundAggregation := do
  if t.isAggregation then
    let key ← t.bindKey
    return ⟨key, ← t.bindResult⟩
  else BindM.fail (.unsupportedNodeKind t.kindName)

/-- The groups of a collection with their aggregates, over flattened records if that is needed. If
binding fails, the context is as it was. -/
def applyTo (t : Transformation) (source : Expr) : BindM Expr :=
  BindM.allOrNothing do
    let source :=
      match ← t.flatten source with
      | some f => f.source
      | none => source
    let bound ← t.bindAggregation
    let grouped := Expr.mkCollection .groupBy [source, bound.key.toExpr]
    return .mkCollection .select [grouped, bound.result.toExpr]

end Transformation

end TypedQuery

import TypedQuery.Bind.Node
import TypedQuery.Query.Transformation

/-!
# Flattening

Before grouping, the values that aggregates reach through navigation are put into slots next to each
record, so that the groups hold them. The record itself stays reachable from the flattened one.

* `Flattening.paths`: the paths in question.
* `Transformation.flatten`: the projection, if there are such paths.
-/

namespace TypedQuery

/-- The projection of a collection of records to flattened ones. -/
structure Flattening where
  /-- The projected collection. -/
  source : Expr
  /-- The projection of one record. -/
  lambda : Lambda
  /-- What stands for each path from then on. -/
  reads : Entries Expr
  /-- The parameter for a flattened record. -/
  param : Param

namespace Flattening

/-- The path that an aggregate reaches through navigation. -/
def pathOf? : AggregateExpr → Option (String × Node)
  | .property ⟨_, some input, _⟩ =>
    if input.crossesNavigation then input.path?.map fun path => (Node.pathKey path, input)
    else none
  | _ => none

/-- Adds a path unless it is there already. -/
def addPath (paths : Entries Node) (p : String × Node) : Entries Node :=
  if Entries.has paths p.1 then paths else paths ++ [p]

/-- The different paths that aggregates reach through navigation, in order. -/
def paths (aggregates : List AggregateExpr) : Entries Node :=
  (aggregates.filterMap pathOf?).foldl addPath []

/-- Binds paths in turn. -/
def bindPaths : Entries Node → BindM (Entries Expr)
  | [] => return []
  | (key, node) :: rest => do
    let e ← node.bind
    return (key, e) :: (← bindPaths rest)

/-- Names for the slots of paths: the last path is the outermost slot. -/
def named (bound : Entries Expr) : List (String × String × Expr) :=
  bound.reverse.zipIdx.map fun ((key, e), i) => (key, "Property" ++ toString i, e)

/-- The chain of slots of flattened records. -/
def chain (slots : List (String × String × Expr)) : Expr :=
  (Expr.mkContainer? (slots.map fun (_, name, e) => (name, e))).getD (.mkNull .container)

/-- The reads of the slots of a flattened record. -/
def slotReads (p : Param) (slots : List (String × String × Expr)) : Entries Expr :=
  let container : Expr :=
    .member (.param p) ⟨p.type.text, WrapperMember.container.text, .container⟩
  Entries.ofPairs (slots.map fun (key, name, e) => (key, .slot container name e.type))

end Flattening

namespace Transformation

/-- Whether a transformation may have to be flattened in a context: it groups, aggregates more than
counts, and is not flattened already. -/
def mayFlatten (t : Transformation) (ctx : Context) : Bool :=
  !ctx.isFlattened && ctx.flattened.isEmpty && !t.grouping.isEmpty
    && !t.aggregates.all AggregateExpr.isCount

/-- Flattens the records of a collection, if the aggregates of the transformation reach through
navigation. The context is then one of flattened records. -/
def flatten (t : Transformation) (source : Expr) : BindM (Option Flattening) := do
  let ctx ← BindM.context
  let paths := Flattening.paths t.aggregates
  if !t.mayFlatten ctx || paths.isEmpty then return none
  else
    let slots := Flattening.named (← Flattening.bindPaths paths)
    let ctx ← BindM.context
    let l : Lambda :=
      ⟨ctx.current, .wrapper (.flattening ctx.currentExpr (Flattening.chain slots))⟩
    let p ← BindM.fresh RangeVariable.itName (.wrapper .flattening)
    let reads := Flattening.slotReads p slots
    BindM.modify fun ctx => ctx.enterFlattening p reads
    return some ⟨.mkCollection .select [source, l.toExpr], l, reads, p⟩

end Transformation

end TypedQuery

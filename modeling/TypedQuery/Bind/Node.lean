import TypedQuery.Bind.Collection
import TypedQuery.Bind.Function
import TypedQuery.Bind.Property

/-!
# Binding of nodes

The typed expression that a node of a query stands for. A node inside another one is one level
deeper, and so is the definition of a computed column that a node names; the settings limit the
depth, so that binding ends even if columns are defined by each other.

* `Bind.step`: one kind of node, with the nodes inside bound by a given function.
* `Node.bind`: all of it.
-/

namespace TypedQuery

/-- Binds a node, the nodes inside with `sub`. -/
def Bind.step (sub : Node → BindM Expr) (node : Node) : BindM Expr :=
  match node with
  | .constant l type => Bind.constant l type
  | .rangeVariable v => BindM.reads fun ctx => ctx.resolve v
  | .property source name _ => Bind.property sub node source name
  | .openProperty source name | .openCollection source name => Bind.openProperty sub source name
  | .binary op left right => Bind.binary sub op left right
  | .unary op operand => Bind.unary sub op operand
  | .convert source type => Bind.convert sub source type
  | .call name args | .resourceCall name args => Bind.call sub name args
  | .any source v body => Bind.any sub source v body
  | .all source v body => Bind.all sub source v body
  | .isIn probe items => Bind.isIn sub probe items
  | .count source => Bind.count sub source
  | .countWhere source predicate _ => Bind.countWhere sub source predicate
  | .collectionCast source type => Bind.collectionCast sub source type
  | .resourceCast source type => Bind.resourceCast sub source type
  | .collectionConstant literals element => Bind.collectionConstant literals element
  | .namedParameter _ | .parameterAlias _ | .entitySet _ | .keyLookup .. | .searchTerm _ =>
    BindM.fail (.unsupportedNodeKind node.kindName)

/-- Binds a node where so many levels are left. -/
def Node.bindWithin (levels : Nat) (node : Node) : BindM Expr :=
  match levels with
  | 0 => BindM.reads fun ctx =>
    .error (.nestingTooDeep (ctx.depth + 1) ctx.settings.maxDepth)
  | levels + 1 => BindM.descend (Bind.step (bindWithin levels) node)

/-- How many levels a context leaves. -/
def Context.levelsLeft (ctx : Context) : Nat := ctx.settings.maxDepth - ctx.depth

/-- Binds a node. -/
def Node.bind (node : Node) : BindM Expr := fun ctx => node.bindWithin ctx.levelsLeft ctx

end TypedQuery

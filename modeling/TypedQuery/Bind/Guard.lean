import TypedQuery.Bind.Context

/-!
# Guards against null

With null propagation, an access through a value that may be null gives null: it becomes
`source == null ? null : access`. A predicate that may be null counts as false where it is.

* `Context.needsGuard`, `Context.guardIfNeeded`.
* `Context.normalizePredicate`: a predicate that is never null.
-/

namespace TypedQuery

namespace Expr

/-- Whether the expression is a literal other than null. -/
def isNonNullConst : Expr → Bool
  | .const v _ => !v.isNull
  | _ => false

/-- The result, or null where the source is null. -/
def guardedBy (result source : Expr) : Expr :=
  mkCond (mkEqual source (mkNull source.type)) (mkNull result.type.toNullable)
    (result.convertTo result.type.toNullable)

end Expr

namespace Context

/-- Whether an access through the expression has to be guarded. The record of the clause and
literals other than null never have to be. -/
def needsGuard (ctx : Context) (source : Expr) : Bool :=
  ctx.settings.nullPropagation && source.type.isNullable && !ctx.isCurrent source
    && !source.isNonNullConst

/-- The result of an access through a source, guarded if that is needed. -/
def guardIfNeeded (ctx : Context) (source result : Expr) : Expr :=
  if ctx.needsGuard source then result.guardedBy source else result

/-- A boolean that may be null made one that is not: null is false with null propagation, and an
error without. -/
def foldNull (ctx : Context) (body : Expr) : Expr :=
  if ctx.settings.nullPropagation then
    .mkEqual body (.const (.bool true) HostType.bool.toNullable)
  else .convert body .bool

/-- A predicate that is never null. -/
def normalizePredicate (ctx : Context) (body : Expr) : Outcome Expr :=
  match body.type with
  | .bool => .ok body
  | .object => .ok (ctx.foldNull (.convert body HostType.bool.toNullable))
  | t =>
    if t.isBool then .ok (ctx.foldNull body)
    else .error (.typeMismatch HostType.bool.text t.text)

end Context

end TypedQuery

import TypedQuery.Bind.Guard

/-!
# Properties

Access to declared properties, to the entries in the bag of an open record, and to properties of
values whose shape shows only when the query runs.

* `Context.memberAccess`: a declared member.
* `Context.bagAccess`: a member of an open record, declared or not.
* `Context.dynamicAccess`: a member of a value of any type.
-/

namespace TypedQuery

namespace HostType

/-- The common type that a less common primitive is widened to. -/
def widened? : HostType → Option HostType
  | .int .uint16 => some (.int .int32)
  | .int .uint32 => some (.int .int64)
  | .int .uint64 => some .decimal
  | .char | .charArray | .xml => some .string
  | _ => none

end HostType

/-- The expression with a less common primitive widened. -/
def Expr.widenPrimitive (e : Expr) : Expr :=
  match e.type.nonNullable.widened? with
  | some t => .convert e (t.nullableLike e.type)
  | none => e

namespace Context

/-- What flattening has put in place of a chain of properties. -/
def flattenedRead? (ctx : Context) (node : Node) : Option Expr :=
  node.path?.bind fun path => Entries.get? ctx.flattened (Node.pathKey path)

/-- A declared member of an expression. -/
def memberAccess (ctx : Context) (source : Expr) (name : String) : Outcome Expr :=
  match source.type.recordName?.bind fun typeName => ctx.schema.member? typeName name with
  | some m => .ok (ctx.guardIfNeeded source (Expr.widenPrimitive (.member source m)))
  | none => .error (.propertyNotFound source.type.text name)

/-- An entry of a bag that may not have it; with null propagation the bag may be null. -/
def entryOfBag (ctx : Context) (bag : Expr) (name : String) : Expr :=
  let key := Expr.mkConst (.string name)
  let contains := Expr.mkLookup .containsKey [bag, key]
  let test :=
    if ctx.settings.nullPropagation then
      .mkBinary .andAlso (.mkNotEqual bag (.mkNull .dictionary)) contains false
    else contains
  .mkCond test (.index bag key) (.mkNull .object)

/-- A member of a record of a type: a declared one, else an entry of the bag. -/
def bagAccess (ctx : Context) (source : Expr) (typeName name : String) : Outcome Expr :=
  if (ctx.schema.member? typeName name).isSome then ctx.memberAccess source name
  else
    match ctx.schema.bag? typeName with
    | some bag => .ok (ctx.guardIfNeeded source (ctx.entryOfBag (.member source bag) name))
    | none => .error (.propertyNotFound typeName name)

/-- A property of a value of any type: what its record type declares, else an entry of its bag. -/
def dynamicAccess (ctx : Context) (source : Expr) (name : String) : Expr :=
  let key := Expr.mkConst (.string name)
  .mkCond (.mkLookup .hasDeclaredProperty [ctx.modelExpr, source, key])
    (.mkLookup .declaredProperty [source, key])
    (.mkLookup .dynamicProperty [ctx.modelExpr, source, key])

/-- A property that the type of its source need not declare. -/
def openAccess (ctx : Context) (source : Expr) (name : String) : Outcome Expr :=
  match source.type with
  | .object => .ok (ctx.dynamicAccess source name)
  | .record typeName => ctx.bagAccess source typeName name
  | t => .error (.propertyNotFound t.text name)

end Context

namespace Bind

/-- Binds a chain of declared properties, the nodes inside with `sub`. -/
def property (sub : Node → BindM Expr) (node source : Node) (name : String) : BindM Expr := do
  match (← BindM.context).flattenedRead? node with
  | some read => return read
  | none =>
    let source ← sub source
    BindM.reads fun ctx => ctx.memberAccess source name

/-- The definition of a computed column that a property of a variable names. -/
def computed? (ctx : Context) (source : Node) (name : String) : Option Node :=
  match source with
  | .rangeVariable _ => Entries.get? ctx.computed name
  | _ => none

/-- Binds a property that need not be declared; the name of a computed column stands for its
definition. -/
def openProperty (sub : Node → BindM Expr) (source : Node) (name : String) : BindM Expr := do
  match computed? (← BindM.context) source name with
  | some definition => sub definition
  | none =>
    let source ← sub source
    BindM.reads fun ctx => ctx.openAccess source name

end Bind

end TypedQuery

import TypedQuery.Bind.Settings
import TypedQuery.Expr
import TypedQuery.Query.Node

/-!
# Binding contexts

The state of binding: the schema, the settings, the parameters for the current and the root record,
the variables of quantifiers in scope, what flattening and computed columns have put in place of
properties, and three counters. Binding is a computation in `BindM`, which changes the context also
when it fails.

* `Context.derive`: the context of a nested clause.
* `BindM.withRangeVariable`, `BindM.descend`, `BindM.inChild`: scopes, which end when the
  computation inside them ends.
* `BindM.allOrNothing`: a computation whose failure leaves the clause as it was.
-/

namespace TypedQuery

/-- The state of binding. -/
structure Context where
  schema : Schema
  settings : Settings
  /-- The parameter for the record of the clause. -/
  current : Param
  /-- The parameter for the record of the outermost clause. -/
  root : Param
  /-- The variables of quantifiers in scope. -/
  scope : Entries Param
  /-- What stands for a path of properties after flattening. -/
  flattened : Entries Expr
  /-- The type of the record before flattening, once the current record is a flattened one. -/
  flatteningSource : Option HostType
  /-- The definitions of computed columns. -/
  computed : Entries Node
  /-- How deep the node that is being bound is nested. -/
  depth : Nat
  /-- How many literals have been kept apart. -/
  captures : Nat
  /-- The number of the next parameter. -/
  nextId : Nat

namespace Context

/-- The context of a top-level clause over records of a type. -/
def initial (schema : Schema) (settings : Settings) (element : HostType) : Context :=
  let it : Param := ⟨0, RangeVariable.itName, element⟩
  ⟨schema, settings, it, it, [], [], none, [], 0, 0, 1⟩

/-- The host type of a logical type that the schema must have. -/
def hostType (ctx : Context) (t : LogicalType) : Outcome HostType :=
  match ctx.schema.hostType? t with
  | some h => .ok h
  | none => .error (.typeNotInModel t.fullName)

/-- The context of a top-level clause over records of a logical type. -/
def ofType (schema : Schema) (settings : Settings) (t : LogicalType) : Outcome Context :=
  match schema.hostType? t with
  | some h => .ok (initial schema settings h)
  | none => .error (.typeNotInModel t.fullName)

/-- The context of a nested clause over records of a type. -/
def derive (ctx : Context) (element : HostType) : Context :=
  { ctx with
    current := ⟨ctx.nextId, RangeVariable.itName, element⟩
    flattened := []
    flatteningSource := none
    nextId := ctx.nextId + 1 }

/-- Takes over the counters of a nested clause, so that names and numbers stay unique. -/
def absorb (ctx child : Context) : Context :=
  { ctx with
    captures := max ctx.captures child.captures
    nextId := max ctx.nextId child.nextId }

/-- Whether the current record is a flattened one. -/
def isFlattened (ctx : Context) : Bool := ctx.flatteningSource.isSome

/-- The member of a flattened record that is the record before flattening. -/
def sourceMember (ctx : Context) (type : HostType) : Member :=
  ⟨ctx.current.type.text, WrapperMember.source.text, type⟩

/-- The record of the clause. -/
def currentExpr (ctx : Context) : Expr :=
  match ctx.flatteningSource with
  | some type => .member (.param ctx.current) (ctx.sourceMember type)
  | none => .param ctx.current

/-- Whether an expression is the record of the clause, which is never null. -/
def isCurrent (ctx : Context) : Expr → Bool
  | .param p => p = ctx.current
  | .member (.param p) m =>
    match ctx.flatteningSource with
    | some type => p = ctx.current ∧ m = ctx.sourceMember type
    | none => false
  | _ => false

/-- Puts a flattened record in the place of the current one. -/
def enterFlattening (ctx : Context) (p : Param) (flattened : Entries Expr) : Context :=
  { ctx with
    current := p
    root := if ctx.root = ctx.current then p else ctx.root
    flatteningSource := some ctx.current.type
    flattened }

/-- What a variable stands for. The root record is meant by its name unless the clause is over
records of the variable's type. -/
def resolve (ctx : Context) (v : RangeVariable) : Outcome Expr :=
  if v.name = RangeVariable.thisName then .ok ctx.currentExpr
  else if v.name = RangeVariable.itName then
    if ctx.isFlattened ∨ ctx.root = ctx.current
        ∨ ctx.schema.hostType? v.type = some ctx.current.type then
      .ok ctx.currentExpr
    else .ok (.param ctx.root)
  else
    match Entries.get? ctx.scope v.name with
    | some p => .ok (.param p)
    | none => .error (.unknownRangeVariable v.name)

/-- Whether a quantifier in scope has a variable of that name. -/
def isBound (ctx : Context) (name : String) : Bool := Entries.has ctx.scope name

/-- The schema as an expression. -/
def modelExpr (ctx : Context) : Expr := .captured "model" (.model ctx.schema) .model

/-- The context with the clause of another. -/
def restoreClause (ctx before : Context) : Context :=
  { ctx with
    current := before.current
    root := before.root
    flattened := before.flattened
    flatteningSource := before.flatteningSource
    computed := before.computed }

end Context

/-- A computation that binds: it gives a result or fails, and changes the context either way. -/
def BindM (α : Type) : Type := Context → Outcome α × Context

namespace BindM

variable {α β : Type}

/-- Gives a result. -/
def pure (a : α) : BindM α := fun ctx => (.ok a, ctx)

/-- Goes on with the result of a computation. -/
def bind (x : BindM α) (f : α → BindM β) : BindM β := fun ctx =>
  match x ctx with
  | (.ok a, after) => f a after
  | (.error e, after) => (.error e, after)

instance : Monad BindM where
  pure := BindM.pure
  bind := BindM.bind

/-- Fails. -/
def fail (e : Error) : BindM α := fun ctx => (.error e, ctx)

/-- Gives what a pure computation gives. -/
def ofOutcome (o : Outcome α) : BindM α := fun ctx => (o, ctx)

/-- The context. -/
def context : BindM Context := fun ctx => (.ok ctx, ctx)

/-- Gives what a pure computation gives in the context. -/
def reads (f : Context → Outcome α) : BindM α := fun ctx => (f ctx, ctx)

/-- Changes the context. -/
def modify (f : Context → Context) : BindM Unit := fun ctx => (.ok (), f ctx)

/-- A new parameter. -/
def fresh (name : String) (type : HostType) : BindM Param := fun ctx =>
  (.ok ⟨ctx.nextId, name, type⟩, { ctx with nextId := ctx.nextId + 1 })

/-- A literal, inline or by reference as the settings say. -/
def constant (v : Value) (type : HostType) : BindM Expr := fun ctx =>
  if ctx.settings.parameterizeConstants && !v.isNull then
    (.ok (.captured ("p" ++ toString ctx.captures) v type),
      { ctx with captures := ctx.captures + 1 })
  else (.ok (.const v type), ctx)

/-- Runs a computation one level deeper, unless that is too deep. -/
def descend (x : BindM α) : BindM α := fun ctx =>
  if ctx.settings.maxDepth ≤ ctx.depth then
    (.error (.nestingTooDeep (ctx.depth + 1) ctx.settings.maxDepth), ctx)
  else
    let (r, after) := x { ctx with depth := ctx.depth + 1 }
    (r, { after with depth := after.depth - 1 })

/-- Runs a computation with a variable in scope. A variable of that name that is in scope already is
used as it is. -/
def withRangeVariable (name : String) (type : HostType) (f : Param → BindM α) : BindM α :=
  fun ctx =>
    match Entries.get? ctx.scope name with
    | some p => f p ctx
    | none =>
      let p : Param := ⟨ctx.nextId, name, type⟩
      let (r, after) := f p
        { ctx with scope := Entries.insert ctx.scope name p, nextId := ctx.nextId + 1 }
      (r, { after with scope := Entries.erase after.scope name })

/-- Runs a computation; if it fails, the clause is as it was before. -/
def allOrNothing (x : BindM α) : BindM α := fun ctx =>
  match x ctx with
  | (.ok a, after) => (.ok a, after)
  | (.error e, after) => (.error e, after.restoreClause ctx)

/-- Runs a computation in the context of a nested clause. -/
def inChild (element : HostType) (x : BindM α) : BindM α := fun ctx =>
  let (r, child) := x (ctx.derive element)
  (r, ctx.absorb child)

end BindM

end TypedQuery

import TypedQuery.Bind.Guard
import TypedQuery.Value.Convert

/-!
# Collections

Quantifiers, membership, counts, casts and literal collections.

* `Bind.filterLambda`: the predicate of a clause.
* `Bind.any`, `Bind.all`, `Bind.isIn`, `Bind.count`, `Bind.countWhere`.
-/

namespace TypedQuery.Bind

/-- The type of the items of a collection; a group is none. -/
def itemType (e : Expr) : Outcome HostType :=
  match e.type with
  | .collection element => .ok element
  | t => .error (.unsupportedCollectionType t.text)

/-- Binds a predicate on a parameter. -/
def predicate (sub : Node → BindM Expr) (body : Node) (p : Param) : BindM Lambda := do
  let e ← sub body
  let e ← BindM.reads fun ctx => ctx.normalizePredicate e
  return ⟨p, e⟩

/-- Binds the predicate of a clause, on its current record. -/
def filterLambda (sub : Node → BindM Expr) (body : Node) : BindM Lambda := do
  let e ← sub body
  let e ← BindM.reads fun ctx => ctx.normalizePredicate e
  if e.type = .bool then return ⟨(← BindM.context).current, e⟩
  else BindM.fail (.typeMismatch HostType.bool.text e.type.text)

/-- The result of an operator on a collection, guarded if the collection may be null. -/
def guarded (source result : Expr) : BindM Expr := do
  return (← BindM.context).guardIfNeeded source result

/-- Binds the question whether some item satisfies a predicate. The literal true asks whether there
is an item, and the literal false is never satisfied. -/
def any (sub : Node → BindM Expr) (source : Node) (v : RangeVariable) (body : Option Node) :
    BindM Expr := do
  let source ← sub source
  let element ← BindM.ofOutcome (itemType source)
  match body with
  | none | some (.constant (.bool true) _) => guarded source (.mkCollection .any [source])
  | some (.constant (.bool false) _) => return .mkBool false
  | some body =>
    let l ← BindM.withRangeVariable v.name element fun p => predicate sub body p
    guarded source (.mkCollection .any [source, l.toExpr])

/-- Binds the question whether all items satisfy a predicate. -/
def all (sub : Node → BindM Expr) (source : Node) (v : RangeVariable) (body : Node) :
    BindM Expr := do
  let source ← sub source
  let element ← BindM.ofOutcome (itemType source)
  let l ← BindM.withRangeVariable v.name element fun p => predicate sub body p
  guarded source (.mkCollection .all [source, l.toExpr])

/-- Binds the question whether a value is among the items of a collection, which are brought to the
type of the value. -/
def isIn (sub : Node → BindM Expr) (probe items : Node) : BindM Expr := do
  let probe ← sub probe
  let source ← sub items
  let element ← BindM.ofOutcome (itemType source)
  let probe := if probe.isNullConst then .mkNull element else probe
  let items :=
    if probe.type = element then source else .mkCollection (.cast probe.type) [source]
  guarded source (.mkCollection .contains [items, probe])

/-- Binds the number of items. -/
def count (sub : Node → BindM Expr) (source : Node) : BindM Expr := do
  let source ← sub source
  let _ ← BindM.ofOutcome (itemType source)
  guarded source (.mkCollection .longCount [source])

/-- Binds the number of items that satisfy a predicate, which is a clause of its own. -/
def countWhere (sub : Node → BindM Expr) (source body : Node) : BindM Expr := do
  let source ← sub source
  let element ← BindM.ofOutcome (itemType source)
  let l ← BindM.inChild element (filterLambda sub body)
  guarded source (.mkCollection .longCount [.mkCollection .filter [source, l.toExpr]])

/-- Binds a cast of every item. -/
def collectionCast (sub : Node → BindM Expr) (source : Node) (type : LogicalType) :
    BindM Expr := do
  let source ← sub source
  let _ ← BindM.ofOutcome (itemType source)
  let target ← BindM.reads fun ctx => ctx.hostType type
  let target :=
    match target with
    | .collection element => element
    | t => t
  guarded source (.mkCollection (.cast target) [source])

/-! ## Literals -/

/-- A literal as a value of an enumeration. -/
def enumItem (l : Literal) (element : HostType) (enum : EnumType) : Outcome Value :=
  let parse (s : String) : Outcome Value :=
    match enum.parse? s with
    | some value => .ok (.enum enum.name value)
    | none => .error (.invalidEnumValue enum.name s)
  match l with
  | .enum _ s => parse s
  | .string s => parse s
  | .null => .ok .null
  | l => .error (.typeMismatch element.text l.outline)

/-- A literal as an item of a collection. -/
def literalItem (element : HostType) (l : Literal) : Outcome Value :=
  match element.asEnum? with
  | some enum => enumItem l element enum
  | none =>
    let mismatch : Outcome Value := .error (.typeMismatch element.text l.outline)
    match l.value? with
    | none => mismatch
    | some v =>
      match v.convert element.toNullable with
      | .ok w => .ok w
      | .error _ => mismatch

/-- Binds a literal collection; its items are converted at once. -/
def collectionConstant (literals : List Literal) (type : LogicalType) : BindM Expr := do
  let element ← BindM.reads fun ctx => ctx.hostType type
  let items ← BindM.ofOutcome (literals.mapM (literalItem element))
  BindM.constant (.collection items) (.collection element)

/-- Binds a literal of an enumeration. -/
def enumConstant (typeName spelling : String) : BindM Expr := do
  let host ← BindM.reads fun ctx => ctx.hostType (.enum typeName false)
  match host.asEnum? with
  | none => BindM.fail (.typeNotInModel typeName)
  | some enum =>
    match enum.parse? spelling with
    | some value => BindM.constant (.enum typeName value) host
    | none => BindM.fail (.invalidEnumValue typeName spelling)

/-- The null of a declared type; without one, of any type. -/
def nullConstant (declared : Option HostType) : Expr := .mkNull (declared.getD .object)

/-- Binds a literal; a type declared with it must be in the schema, and types null. -/
def constant (l : Literal) (type : Option LogicalType) : BindM Expr := do
  let declared ← BindM.reads fun ctx => type.mapM ctx.hostType
  match l with
  | .enum typeName spelling => enumConstant typeName spelling
  | l =>
    match l.value? with
    | none => BindM.fail (.typeMismatch "primitive literal" l.outline)
    | some .null => return nullConstant declared
    | some v => BindM.constant v (v.hostType?.getD .object)

end TypedQuery.Bind

import TypedQuery.Accumulator

/-!
# Operators on collections

What the collection operators give, from the operands of a call. An operand is the value of an
argument, or the function that a lambda stands for.

* `CollectionOperator.apply`: an operator on its operands.
* `groupItems`: items by key, in order of first occurrence.
-/

namespace TypedQuery

/-- An argument of a call. -/
structure Operand where
  /-- What the argument gives as a value. -/
  value : Outcome Value
  /-- What the argument does as a function of one value, if it is a lambda. -/
  function : Option (Value → Outcome Value)

namespace Operand

/-- The value of an argument that a method needs. -/
def need (m : Method) (args : List Operand) (i : Nat) : Outcome Value :=
  match args[i]? with
  | some a => a.value
  | none => EvalError.fail (.missingArgument m i)

/-- The items of the first argument. -/
def items (m : Method) (args : List Operand) : Outcome (List Value) := do
  match args with
  | [] => EvalError.fail (.withoutSource m)
  | source :: _ =>
    match ← source.value with
    | .collection items => return items
    | .grouping _ items => return items
    | .null => EvalError.fail (.nullSource m)
    | v => EvalError.fail (.notACollection m v)

/-- The function that is the second argument. -/
def selector (m : Method) (args : List Operand) : Outcome (Value → Outcome Value) :=
  match args with
  | _ :: ⟨_, some f⟩ :: _ => .ok f
  | _ => EvalError.fail (.expectsLambda m)

/-- The items, each mapped by the second argument if there is one. -/
def selected (m : Method) (args : List Operand) : Outcome (List Value) := do
  let items ← Operand.items m args
  match args with
  | _ :: _ :: _ => items.mapM (← selector m args)
  | _ => return items

end Operand

/-! ## Loops -/

/-- Whether some item satisfies a predicate; the items after it are not looked at. -/
def someItem (p : Value → Outcome Value) : List Value → Outcome Bool
  | [] => .ok false
  | v :: rest => do if (← p v).isTrue then return true else someItem p rest

/-- Whether every item satisfies a predicate; the items after one that does not are not looked
at. -/
def everyItem (p : Value → Outcome Value) : List Value → Outcome Bool
  | [] => .ok true
  | v :: rest => do if (← p v).isTrue then everyItem p rest else return false

/-- The items that satisfy a predicate. -/
def keepItems (p : Value → Outcome Value) : List Value → Outcome (List Value)
  | [] => .ok []
  | v :: rest => do
    let keep := (← p v).isTrue
    let kept ← keepItems p rest
    return if keep then v :: kept else kept

/-- A group: its key and its items. -/
structure Group where
  key : Value
  items : List Value

/-- Adds an item to the first group with its key, or as a group of its own. -/
def addToGroups (key item : Value) : List Group → List Group
  | [] => [⟨key, [item]⟩]
  | g :: rest =>
    if g.key.looselyEquals key then { g with items := g.items ++ [item] } :: rest
    else g :: addToGroups key item rest

/-- Groups items by key, in order of first occurrence. -/
def groupItems (key : Value → Outcome Value) (items : List Value) : Outcome (List Group) :=
  items.foldlM (fun groups item => do return addToGroups (← key item) item groups) []

/-- The items without those that equal an earlier one. -/
def distinctItems (items : List Value) : List Value :=
  items.foldl (fun kept v => if kept.any (·.looselyEquals v) then kept else kept ++ [v]) []

/-- The items of collections one after the other. -/
def joinItems : List Value → Outcome (List Value)
  | [] => .ok []
  | .collection items :: rest => do return items ++ (← joinItems rest)
  | v :: _ => EvalError.fail (.selectedNoCollection v)

namespace CollectionOperator

/-- The aggregate that an operator computes. -/
def aggregate? : CollectionOperator → Option Aggregate
  | .longCount => some .count
  | .sum => some .sum
  | .average => some .average
  | .min => some .min
  | .max => some .max
  | _ => none

/-- An operator on its operands, for a result type. -/
def apply [External] (op : CollectionOperator) (type : HostType) (args : List Operand) : Outcome Value := do
  let m : Method := .collection op
  match op with
  | .any =>
    let items ← Operand.items m args
    match args with
    | _ :: _ :: _ => return .bool (← someItem (← Operand.selector m args) items)
    | _ => return .bool !items.isEmpty
  | .all =>
    let items ← Operand.items m args
    return .bool (← everyItem (← Operand.selector m args) items)
  | .filter =>
    let items ← Operand.items m args
    return .collection (← keepItems (← Operand.selector m args) items)
  | .select => return .collection (← Operand.selected m args)
  | .selectMany => return .collection (← joinItems (← Operand.selected m args))
  | .groupBy =>
    let items ← Operand.items m args
    let groups ← groupItems (← Operand.selector m args) items
    return .collection (groups.map fun g => .grouping g.key g.items)
  | .contains =>
    let items ← Operand.items m args
    let probe ← Operand.need m args 1
    return .bool (items.any (·.looselyEquals probe))
  | .cast target => return .collection (← Value.convertItems (← Operand.items m args) target)
  | .distinct => return .collection (distinctItems (← Operand.items m args))
  | .toList => return .collection (← Operand.items m args)
  | .longCount => (Accumulator.start .count type).run (← Operand.selected m args)
  | .sum => (Accumulator.start .sum type).run (← Operand.selected m args)
  | .average => (Accumulator.start .average type).run (← Operand.selected m args)
  | .min => (Accumulator.start .min type).run (← Operand.selected m args)
  | .max => (Accumulator.start .max type).run (← Operand.selected m args)
  | .custom c => c.code.run c.result (← Operand.selected m args)

end CollectionOperator

end TypedQuery

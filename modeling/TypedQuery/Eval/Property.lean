import TypedQuery.Error
import TypedQuery.Eval.Collection

/-!
# Properties of values

Reading members of values when an expression runs: members that binding has fixed, entries of
dictionaries and slots of containers, and properties whose names are themselves values.

* `Value.member`, `Value.entry`, `Value.slot`.
* `Lookup.apply`: a look-up on its operands.
-/

namespace TypedQuery

namespace Value

/-- A member of a record, the key of a group, or a member of a wrapper. A member that a wrapper
could have and has not is null. -/
def member (v : Value) (name : String) : Outcome Value :=
  let missing := EvalError.noMember v name
  match v with
  | .null => EvalError.fail (.nullReference name)
  | .record _ fields => orFail missing (Entries.get? fields name)
  | .grouping key _ => if name == keyName then .ok key else missing.fail
  | .wrapper w =>
    match WrapperMember.ofText? name with
    | some m => .ok ((w.get? m).getD .null)
    | none => missing.fail
  | _ => missing.fail

/-- The entry of a dictionary. -/
def entry (v key : Value) : Outcome Value :=
  match v, key.asString? with
  | .dictionary entries, some k => orFail (.keyNotFound k) (Entries.get? entries k)
  | .null, _ => EvalError.fail .indexOfNull
  | _, _ => EvalError.fail (.cannotIndex v key)

/-- A slot of a chain. -/
def slot (v : Value) (name : String) : Outcome Value :=
  match v with
  | .container slots => orFail (.noSlot name) (Entries.get? slots name)
  | v => EvalError.fail (.cannotReadSlot name v)

end Value

namespace Schema

/-- Whether the type of a record declares a property; its bag does not count. No other value
declares any. -/
def declaresProperty (s : Schema) (v : Value) (name : String) : Outcome Bool :=
  match v with
  | .record typeName _ =>
    if s.hasRecord typeName then
      .ok ((s.bag? typeName).all (·.name != name) && (s.member? typeName name).isSome)
    else .error (.resourceTypeNotInModel typeName)
  | _ => .ok false

/-- The entry that a dictionary or the bag of an open record has under a name; null if there is
none. -/
def dynamicProperty (s : Schema) (v : Value) (name : String) : Outcome Value :=
  match v with
  | .dictionary entries => .ok ((Entries.get? entries name).getD .null)
  | .record typeName fields =>
    if s.hasRecord typeName then
      match (s.bag? typeName).bind fun m => Entries.get? fields m.name with
      | some (.dictionary entries) => .ok ((Entries.get? entries name).getD .null)
      | _ => .ok .null
    else .error (.resourceTypeNotInModel typeName)
  | _ => .ok .null

end Schema

namespace Operand

/-- The text that a method needs as an argument. -/
def needString (m : Method) (args : List Operand) (i : Nat) : Outcome String := do
  match ← need m args i with
  | .string s => return s
  | v => EvalError.fail (.expectsString m v)

/-- The schema that a method needs as an argument. -/
def needModel (m : Method) (args : List Operand) (i : Nat) : Outcome Schema := do
  match ← need m args i with
  | .model s => return s
  | v => EvalError.fail (.expectsModel m v)

end Operand

/-- Whether a dictionary has a name. -/
def Value.hasEntry (v key : Value) : Outcome Bool :=
  match v, key.asString? with
  | .dictionary entries, some k => .ok (Entries.has entries k)
  | .null, _ => EvalError.fail .containsKeyOfNull
  | _, _ => EvalError.fail (.containsKeyOf v)

/-- A look-up on its operands. -/
def Lookup.apply (l : Lookup) (args : List Operand) : Outcome Value := do
  let m : Method := .lookup l
  match l with
  | .containsKey =>
    let bag ← Operand.need m args 0
    let key ← Operand.need m args 1
    return .bool (← bag.hasEntry key)
  | .hasDeclaredProperty =>
    let s ← Operand.needModel m args 0
    let v ← Operand.need m args 1
    let name ← Operand.needString m args 2
    return .bool (← s.declaresProperty v name)
  | .declaredProperty =>
    let v ← Operand.need m args 0
    let name ← Operand.needString m args 1
    v.member name
  | .dynamicProperty =>
    let s ← Operand.needModel m args 0
    let v ← Operand.need m args 1
    let name ← Operand.needString m args 2
    s.dynamicProperty v name

end TypedQuery

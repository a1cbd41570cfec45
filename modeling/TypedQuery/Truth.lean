import TypedQuery.Value

/-!
# Three-valued truth

The truth of a boolean that may be null. Falsehood dominates a conjunction and truth a disjunction;
otherwise what is unknown stays unknown.

* `Truth.and`, `Truth.or`, `Truth.not`, `Truth.liftedEq`.
* `Truth.ofValue?`, `Truth.toValue`: truth as a value; the unknown is null.
-/

namespace TypedQuery

/-- Truth of a boolean that may be null. -/
inductive Truth where
  | true | false | unknown
  deriving DecidableEq, Repr

namespace Truth

/-- The truth of a boolean. -/
def ofBool (b : Bool) : Truth := if b then .true else .false

/-- Whether nothing is known. -/
def isUnknown : Truth → Bool
  | .unknown => Bool.true
  | _ => Bool.false

/-- Conjunction: false dominates, then the unknown. -/
def and : Truth → Truth → Truth
  | .false, _ | _, .false => .false
  | .true, .true => .true
  | _, _ => .unknown

/-- Disjunction: true dominates, then the unknown. -/
def or : Truth → Truth → Truth
  | .true, _ | _, .true => .true
  | .false, .false => .false
  | _, _ => .unknown

/-- Negation. -/
def not : Truth → Truth
  | .true => .false
  | .false => .true
  | .unknown => .unknown

/-- Equality, unknown if a side is. -/
def liftedEq (a b : Truth) : Truth :=
  if a.isUnknown || b.isUnknown then .unknown else ofBool (a = b)

/-- The truth of null or a boolean. -/
def ofValue? : Value → Option Truth
  | .null => some .unknown
  | .bool b => some (ofBool b)
  | _ => none

/-- Null or a boolean. -/
def toValue : Truth → Value
  | .unknown => .null
  | .true => .bool Bool.true
  | .false => .bool Bool.false

/-- The truth as a word. -/
def text : Truth → String
  | .true => "true"
  | .false => "false"
  | .unknown => "null"

theorem ofValue?_toValue (t : Truth) : ofValue? t.toValue = some t := by cases t <;> rfl

end Truth

end TypedQuery

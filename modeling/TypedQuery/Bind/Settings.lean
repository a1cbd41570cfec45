import TypedQuery.Error
import TypedQuery.Json.Reader

/-!
# Settings of binding

What a caller may choose. A settings document is an object, whose unknown fields do not count and
whose missing fields have their defaults, or an array of the fields in order.

* `Settings.ofText`: settings from a document.
-/

namespace TypedQuery

/-- What a caller may choose. -/
structure Settings where
  /-- Whether an access through a value that may be null is guarded, so that it gives null. -/
  nullPropagation : Bool := true
  /-- Whether literals are kept apart from the expression and referred to by name. -/
  parameterizeConstants : Bool := false
  /-- How deep the nodes of a query may be nested. -/
  maxDepth : Nat := 256
  deriving DecidableEq, Repr

namespace Settings

/-- The settings for a target that treats nulls by itself. -/
def withoutNullPropagation : Settings := { nullPropagation := false }

/-- The settings that keep literals apart. -/
def parameterized : Settings := { parameterizeConstants := true }

/-- The settings with another limit. -/
def withMaxDepth (s : Settings) (maxDepth : Nat) : Settings := { s with maxDepth }

/-- The names of the fields, in order. -/
def fieldNames : List String := ["null_propagation", "parameterize_constants", "max_depth"]

/-- The depth that a document gives: an integer of 64 bits. -/
def depth? (j : Json) : Option Nat :=
  j.asInt?.bind fun n =>
    if 0 ≤ n ∧ n ≤ 18446744073709551615 then some n.toNat else none

/-- Sets a field. -/
def setField? (s : Settings) (name : String) (j : Json) : Option Settings :=
  match name with
  | "null_propagation" => j.asBool?.map fun b => { s with nullPropagation := b }
  | "parameterize_constants" => j.asBool?.map fun b => { s with parameterizeConstants := b }
  | "max_depth" => (depth? j).map fun n => { s with maxDepth := n }
  | _ => some s

/-- Sets fields in turn. -/
def setFields? (fields : List (String × Json)) : Option Settings :=
  fields.foldlM (fun s f => s.setField? f.1 f.2) {}

/-- Settings from a document; no field is given twice. -/
def ofJson? : Json → Option Settings
  | .object fields =>
    let known := fields.filter fun f => fieldNames.contains f.1
    if (known.map Prod.fst).Nodup then setFields? known else none
  | .array items =>
    if items.length ≤ fieldNames.length then setFields? (fieldNames.zip items) else none
  | _ => none

/-- The settings, if there are any. -/
def orInvalid : Option Settings → Outcome Settings
  | some s => .ok s
  | none => .error .invalidSettings

/-- Settings from a document that must be one. -/
def ofJson (j : Json) : Outcome Settings := orInvalid (ofJson? j)

/-- Settings from the text of a document. -/
def ofText (text : String) : Outcome Settings := orInvalid ((Json.ofText? text).bind ofJson?)

end Settings

end TypedQuery

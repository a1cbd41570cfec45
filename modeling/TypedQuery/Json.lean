import TypedQuery.Entries
import TypedQuery.Number.Layout

/-!
# JSON values

Documents with integers and floats apart. Fields keep the order in which they were read;
`Json.canonical` sorts them by name, the last of several with one name winning.

* `Json.asInt?`, `Json.asFloat?`: numbers as integers, and as floats.
* `Json.text`: the compact text.
-/

namespace TypedQuery

/-- A JSON document. -/
inductive Json where
  | null
  | bool (b : Bool)
  | int (n : Int)
  | float (x : Float)
  | string (s : String)
  | array (items : List Json)
  | object (fields : List (String × Json))

namespace Json

instance : Inhabited Json := ⟨.null⟩

/-- The boolean. -/
def asBool? : Json → Option Bool
  | .bool b => some b
  | _ => none

/-- The integer; a number with a fraction or an exponent is none, whatever its value. -/
def asInt? : Json → Option Int
  | .int n => some n
  | _ => none

/-- The integer, if it fits in 64 bits with a sign. -/
def asInt64? (j : Json) : Option Int :=
  j.asInt?.filter fun n => -9223372036854775808 ≤ n && n ≤ 9223372036854775807

/-- The number as a float. -/
def asFloat? : Json → Option Float
  | .int n => some (Float.ofInt n)
  | .float x => some x
  | _ => none

/-- The text. -/
def asString? : Json → Option String
  | .string s => some s
  | _ => none

/-- The items of an array. -/
def asArray? : Json → Option (List Json)
  | .array items => some items
  | _ => none

/-- The fields of an object. -/
def asObject? : Json → Option (Entries Json)
  | .object fields => some fields
  | _ => none

/-- The field of an object; null if there is none. -/
def field (j : Json) (name : String) : Json :=
  (j.asObject?.bind fun fields => Entries.get? fields name).getD .null

/-- Whether the document is null. -/
def isNull : Json → Bool
  | .null => true
  | _ => false

/-! ## Canonical form -/

/-- Puts a field in its place among fields sorted by name, replacing one of the same name. -/
def insertSorted (name : String) (j : Json) : List (String × Json) → List (String × Json)
  | [] => [(name, j)]
  | (n, k) :: rest =>
    if name < n then (name, j) :: (n, k) :: rest
    else if name = n then (name, j) :: rest
    else (n, k) :: insertSorted name j rest

mutual

/-- Fields sorted by name, at every depth. -/
def canonical : Json → Json
  | .array items => .array (canonicalItems items)
  | .object fields => .object (canonicalFields [] fields)
  | j => j
termination_by structural j => j

/-- The canonical forms of items. -/
def canonicalItems : List Json → List Json
  | [] => []
  | j :: rest => canonical j :: canonicalItems rest
termination_by structural js => js

/-- Adds the canonical forms of fields to sorted fields, in turn. -/
def canonicalFields (sorted : List (String × Json)) :
    List (String × Json) → List (String × Json)
  | [] => sorted
  | (name, j) :: rest => canonicalFields (insertSorted name (canonical j) sorted) rest
termination_by structural fields => fields

end

/-! ## Compact text -/

/-- A character inside quotes. -/
def escapeChar (c : Char) : String :=
  match c with
  | '"' => "\\\""
  | '\\' => "\\\\"
  | '\n' => "\\n"
  | '\r' => "\\r"
  | '\t' => "\\t"
  | '\x08' => "\\b"
  | '\x0C' => "\\f"
  | c =>
    if c.toNat < 0x20 then
      "\\u00" ++ String.ofList [Nat.digitChar (c.toNat / 16), Nat.digitChar (c.toNat % 16)]
    else String.singleton c

/-- A text in quotes. -/
def quoted (s : String) : String := "\"" ++ String.join (s.toList.map escapeChar) ++ "\""

mutual

/-- The compact text of a document. -/
def text : Json → String
  | .null => "null"
  | .bool b => if b then "true" else "false"
  | .int n => toString n
  | .float x => Number.compactText x
  | .string s => quoted s
  | .array items => "[" ++ itemsText items ++ "]"
  | .object fields => "\x7b" ++ fieldsText fields ++ "\x7d"
termination_by structural j => j

/-- Items with commas between them. -/
def itemsText : List Json → String
  | [] => ""
  | [j] => text j
  | j :: rest => text j ++ "," ++ itemsText rest
termination_by structural js => js

/-- Fields with commas between them. -/
def fieldsText : List (String × Json) → String
  | [] => ""
  | [(name, j)] => quoted name ++ ":" ++ text j
  | (name, j) :: rest => quoted name ++ ":" ++ text j ++ "," ++ fieldsText rest
termination_by structural fields => fields

end

end Json

end TypedQuery

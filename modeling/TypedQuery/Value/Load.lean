import TypedQuery.Calendar.Reader
import TypedQuery.Json
import TypedQuery.Value.Convert

/-!
# Values from JSON

Documents as values. Without a type, the shape decides: `Value.infer`. With a type, `Schema.load`
checks the document against it; a record has exactly the members of its type, a member that the
document does not give is null, and an open type puts undeclared fields into its bag.

* `Value.infer`: a document of any shape.
* `Schema.loadValue`: a document as a value of a type.
* `Schema.loadRecord`: an object as a record.
-/

namespace TypedQuery

namespace Value

/-- The value of an integer without a type: the narrowest of three widths. -/
def inferInt (n : Int) : Value :=
  ((SizedInt.ofInt? .int32 n).orElse fun _ =>
    (SizedInt.ofInt? .int64 n).orElse fun _ => SizedInt.ofInt? .uint64 n).elim .null .int

mutual

/-- The value of a document without a type. -/
def infer (j : Json) : Value :=
  match j with
  | .null => .null
  | .bool b => .bool b
  | .int n => inferInt n
  | .float x => ofDouble x
  | .string s => .string s
  | .array items => .collection (inferItems items)
  | .object fields => .dictionary (inferFields fields)
termination_by structural j

/-- The values of items without a type. -/
def inferItems (items : List Json) : List Value :=
  match items with
  | [] => []
  | j :: rest => infer j :: inferItems rest
termination_by structural items

/-- The values of fields without types. -/
def inferFields (fields : List (String × Json)) : List (String × Value) :=
  match fields with
  | [] => []
  | (name, j) :: rest => (name, infer j) :: inferFields rest
termination_by structural fields

end

end Value

namespace Schema

/-- The bytes of an array of numbers below 256. -/
def bytes? (items : List Json) : Option (List UInt8) :=
  items.mapM fun j => j.asInt?.bind fun n =>
    if 0 ≤ n ∧ n ≤ 255 then some (UInt8.ofNat n.toNat) else none

/-- The value of a document of a primitive type, if it has that type's form. -/
def primitive? (j : Json) (t : HostType) : Option Value :=
  match t with
  | .bool => j.asBool?.map .bool
  | .char => j.asString?.bind fun s => s.toList.head?.map .char
  | .charArray => j.asString?.map fun s => .charArray s.toList
  | .string => j.asString?.map .string
  | .xml => j.asString?.map .xml
  | .bytes =>
    match j with
    | .string s => some (.bytes s.toUTF8.data.toList)
    | .array items => (bytes? items).map .bytes
    | _ => none
  | .guid => j.asString?.bind fun s => (Guid.ofText? s).map .guid
  | .date => j.asString?.bind fun s => (Calendar.readDate? s).map .date
  | .dateTime => j.asString?.bind fun s => (Calendar.readDateTime? s).map .dateTime
  | .dateTimeOffset =>
    j.asString?.bind fun s => (Calendar.readOffsetDateTime? s).map .dateTimeOffset
  | .timeOfDay => j.asString?.bind fun s => (Calendar.readTime? s).map .timeOfDay
  | .timeSpan =>
    j.asFloat?.bind fun seconds =>
      (Span.ofNanos? (Number.truncate64 (seconds * 1000000.0) * 1000)).map .timeSpan
  | _ => none

/-- The value of an enumeration that a document spells, by name or by number. -/
def enumValue (j : Json) (e : EnumType) : Outcome Value :=
  let value? :=
    match j with
    | .string s => e.parse? s
    | j => j.asInt64?.map Int64.ofInt
  match value? with
  | some value => .ok (.enum e.name value)
  | none => .error (.invalidEnumValue e.name j.text)

/-- How a field turns into a value once its type is known. -/
abbrev Loader := HostType → Outcome Value

/-- The record of a type from the loaders of an object's fields and the fields themselves. -/
def assemble (s : Schema) (typeName : String) (fields : Entries Json) (loaders : Entries Loader) :
    Outcome Value := do
  let some r := s.record? typeName | .error (.resourceTypeNotInModel typeName)
  let declared ← (r.members.filter fun m => some m.1 != r.bag).mapM fun (name, type) =>
    match Entries.get? loaders name with
    | some load => return (name, ← load type)
    | none => return (name, .null)
  match r.bag with
  | none => return .record typeName declared
  | some bag =>
    let undeclared := fields.filter fun f => !Entries.has r.members f.1
    let value :=
      match Entries.get? fields bag with
      | some .null => Value.null
      | _ => .dictionary (Value.inferFields undeclared)
    return .record typeName (Entries.insert declared bag value)

/-- The value of a document that is neither an array nor an object. -/
def loadAtom (s : Schema) (j : Json) (t : HostType) : Outcome Value :=
  let mismatch : Outcome Value := .error (.typeMismatch t.text j.text)
  if j.isNull then (if t.isNullable then .ok .null else mismatch)
  else
    match t.nonNullable with
    | .enum name underlying members isFlags => enumValue j ⟨name, underlying, members, isFlags⟩
    | .record name =>
      if s.hasRecord name then .error (.typeMismatch name j.text)
      else .error (.resourceTypeNotInModel name)
    | .dictionary | .object => .ok (Value.infer j)
    | .single | .double | .decimal =>
      match j.asFloat? with
      | some x => Value.ofFloat x t.nonNullable
      | none => mismatch
    | u =>
      if u.isIntegral then
        match j.asInt? with
        | some n => Value.ofInt n u
        | none => mismatch
      else
        match primitive? j u with
        | some v => .ok v
        | none => mismatch

mutual

/-- The value of a document whose fields are sorted, as a type has it. -/
def load (s : Schema) (j : Json) (t : HostType) : Outcome Value :=
  match j with
  | .array items =>
    match t.nonNullable with
    | .collection element => (loadItems s items element).map .collection
    | _ => s.loadAtom (.array items) t
  | .object fields =>
    match t.nonNullable with
    | .record name => s.assemble name fields (loadFields s fields)
    | _ => s.loadAtom (.object fields) t
  | j => s.loadAtom j t
termination_by structural j

/-- The values of items. -/
def loadItems (s : Schema) (items : List Json) (t : HostType) : Outcome (List Value) :=
  match items with
  | [] => .ok []
  | j :: rest =>
    match load s j t with
    | .error e => .error e
    | .ok v => (loadItems s rest t).map (v :: ·)
termination_by structural items

/-- The loaders of fields. -/
def loadFields (s : Schema) (fields : List (String × Json)) : List (String × Loader) :=
  match fields with
  | [] => []
  | (name, j) :: rest => (name, fun t => load s j t) :: loadFields s rest
termination_by structural fields

end

/-- The value of a document, as a type has it. -/
def loadValue (s : Schema) (j : Json) (t : HostType) : Outcome Value := s.load j.canonical t

/-- The record of a type from an object. -/
def loadRecord (s : Schema) (typeName : String) (j : Json) : Outcome Value :=
  if s.hasRecord typeName then
    match j.canonical with
    | .object fields => s.assemble typeName fields (loadFields s fields)
    | j => .error (.typeMismatch typeName j.text)
  else .error (.resourceTypeNotInModel typeName)

end Schema

end TypedQuery

import TypedQuery.Value

/-!
# Literals

The constants of queries. A literal of an enumeration is kept as it is spelled, because only the
schema knows what its members are worth.

* `Literal.value?`: the value of a literal, except of an enumeration; `Literal.ofValue?`: the
  literal of a value.
* `Literal.text`: a literal as the query language spells it.
-/

namespace TypedQuery

/-- Constants of queries. -/
inductive Literal where
  | null
  | bool (b : Bool)
  | byte (n : UInt8)
  | sbyte (n : Int8)
  | int16 (n : Int16)
  | int32 (n : Int32)
  | int64 (n : Int64)
  | single (x : Binary32)
  | double (x : Binary64)
  | decimal (x : Binary64)
  | string (s : String)
  | binary (bs : List UInt8)
  | guid (g : Guid)
  | date (d : Date)
  | dateTimeOffset (t : OffsetDateTime)
  | timeOfDay (t : Time)
  | duration (s : Span)
  /-- A value of an enumeration, as it is spelled. -/
  | enum (typeName spelling : String)

namespace Literal

/-- The type of a literal; none for null. -/
def type? : Literal → Option LogicalType
  | .null => none
  | .bool _ => some (.primitive .boolean false)
  | .byte _ => some (.primitive .byte false)
  | .sbyte _ => some (.primitive .sbyte false)
  | .int16 _ => some (.primitive .int16 false)
  | .int32 _ => some (.primitive .int32 false)
  | .int64 _ => some (.primitive .int64 false)
  | .single _ => some (.primitive .single false)
  | .double _ => some (.primitive .double false)
  | .decimal _ => some (.primitive .decimal false)
  | .string _ => some (.primitive .string true)
  | .binary _ => some (.primitive .binary true)
  | .guid _ => some (.primitive .guid false)
  | .date _ => some (.primitive .date false)
  | .dateTimeOffset _ => some (.primitive .dateTimeOffset false)
  | .timeOfDay _ => some (.primitive .timeOfDay false)
  | .duration _ => some (.primitive .duration false)
  | .enum typeName _ => some (.enum typeName false)

/-- The value of a literal; the spelling of an enumeration has none. -/
def value? : Literal → Option Value
  | .null => some .null
  | .bool b => some (.bool b)
  | .byte n => some (.int (.ofUInt8 n))
  | .sbyte n => some (.int (.ofInt8 n))
  | .int16 n => some (.int (.ofInt16 n))
  | .int32 n => some (.int (.ofInt32 n))
  | .int64 n => some (.int (.ofInt64 n))
  | .single x => some (.single x)
  | .double x => some (.double x)
  | .decimal x => some (.decimal x)
  | .string s => some (.string s)
  | .binary bs => some (.bytes bs)
  | .guid g => some (.guid g)
  | .date d => some (.date d)
  | .dateTimeOffset t => some (.dateTimeOffset t)
  | .timeOfDay t => some (.timeOfDay t)
  | .duration s => some (.timeSpan s)
  | .enum .. => none

/-- The literal of an integer; unsigned integers of more than eight bits have none. -/
def ofSized? (n : SizedInt) : Option Literal :=
  match n.width with
  | .byte => some (.byte (UInt8.ofNat n.val.toNat))
  | .sbyte => some (.sbyte (Int8.ofInt n.val))
  | .int16 => some (.int16 (Int16.ofInt n.val))
  | .int32 => some (.int32 (Int32.ofInt n.val))
  | .int64 => some (.int64 (Int64.ofInt n.val))
  | .uint16 | .uint32 | .uint64 => none

/-- The literal that has a value. -/
def ofValue? : Value → Option Literal
  | .null => some .null
  | .bool b => some (.bool b)
  | .int n => ofSized? n
  | .single x => some (.single x)
  | .double x => some (.double x)
  | .decimal x => some (.decimal x)
  | .string s => some (.string s)
  | .bytes bs => some (.binary bs)
  | .guid g => some (.guid g)
  | .date d => some (.date d)
  | .dateTimeOffset t => some (.dateTimeOffset t)
  | .timeOfDay t => some (.timeOfDay t)
  | .timeSpan s => some (.duration s)
  | _ => none

/-- A text in single quotes; those inside are written twice. -/
def quoted (s : String) : String :=
  "'" ++ String.join (s.toList.map fun c => if c = '\'' then "''" else String.singleton c) ++ "'"

/-- A literal as the query language spells it. -/
def text : Literal → String
  | .null => "null"
  | .bool b => Value.boolText b
  | .byte n => toString n.toNat
  | .sbyte n => toString n.toInt
  | .int16 n => toString n.toInt
  | .int32 n => toString n.toInt
  | .int64 n => toString n.toInt ++ "L"
  | .single x => Number.plainText32 x.toFloat32 ++ "f"
  | .double x => Number.plainText x.toFloat ++ "d"
  | .decimal x => Number.plainText x.toFloat ++ "m"
  | .string s => quoted s
  | .binary bs => "binary'" ++ toString bs.length ++ " bytes'"
  | .guid g => g.text
  | .date d => d.text
  | .dateTimeOffset t => t.text
  | .timeOfDay t => t.text
  | .duration s => "duration'" ++ s.text ++ "'"
  | .enum typeName spelling => typeName ++ "'" ++ spelling ++ "'"

/-- A literal as it stands in messages. -/
def outline (l : Literal) : String := "Literal(" ++ l.text ++ ")"

end Literal

end TypedQuery

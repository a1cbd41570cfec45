import TypedQuery.Number.Decimal
import TypedQuery.Number.Sized
import TypedQuery.Text.Blank
import TypedQuery.Text.Quoted
import TypedQuery.Text.Search

/-!
# Host types

The static types of bound expressions. Types like strings, records and collections hold null as they
are; the value types need `nullable` around them to do so.

* `EnumType.parse?`: how the query language spells a value of an enumeration.
* `HostType.toNullable`, `HostType.nonNullable`: adding and removing null.
* `HostType.text`: a type as it stands in messages; `HostType.outline`: all of its structure.
-/

namespace TypedQuery

/-- The record shapes that transformations produce. -/
inductive WrapperKind where
  /-- A grouping key. -/
  | groupBy
  /-- The one key of an ungrouped transformation. -/
  | noGroupBy
  /-- Aggregates of a group, with its key. -/
  | aggregation
  /-- A record with values that its aggregates reach through navigation. -/
  | flattening
  /-- A record with computed columns. -/
  | compute
  deriving DecidableEq, Repr

/-- The name of a shape. -/
def WrapperKind.text : WrapperKind → String
  | .groupBy => "GroupByWrapper"
  | .noGroupBy => "NoGroupByWrapper"
  | .aggregation => "AggregationWrapper"
  | .flattening => "FlatteningWrapper"
  | .compute => "ComputeWrapper"

/-- All shapes. -/
def WrapperKind.all : List WrapperKind :=
  [.groupBy, .noGroupBy, .aggregation, .flattening, .compute]

/-- The shape with a name. -/
def WrapperKind.ofText? (name : String) : Option WrapperKind := all.find? fun k => k.text == name

/-- The name of a shape's case. -/
def WrapperKind.outline : WrapperKind → String
  | .groupBy => "GroupBy"
  | .noGroupBy => "NoGroupBy"
  | .aggregation => "Aggregation"
  | .flattening => "Flattening"
  | .compute => "Compute"

/-- Static types of bound expressions. -/
inductive HostType where
  | bool
  | int (width : IntWidth)
  | single
  | double
  | decimal
  | char
  | charArray
  | string
  | bytes
  | guid
  | date
  | dateTime
  | dateTimeOffset
  | timeOfDay
  | timeSpan
  | xml
  /-- An enumeration: its name, the type behind its values, its members, whether they combine. -/
  | enum (name : String) (underlying : HostType) (members : List (String × Int64)) (isFlags : Bool)
  | record (name : String)
  | collection (element : HostType)
  | grouping (key element : HostType)
  /-- The bag of a record's undeclared properties. -/
  | dictionary
  /-- A value of any type. -/
  | object
  | nullable (type : HostType)
  /-- A chain of named slots. -/
  | container
  | wrapper (kind : WrapperKind)
  /-- The schema itself. -/
  | model
  deriving DecidableEq

/-- An enumeration. -/
structure EnumType where
  name : String
  underlying : HostType
  members : List (String × Int64)
  isFlags : Bool
  deriving DecidableEq

namespace EnumType

/-- The value of a member. -/
def valueOf? (e : EnumType) (member : String) : Option Int64 := e.members.lookup member

/-- The first member with a value. -/
def nameOf? (e : EnumType) (value : Int64) : Option String :=
  (e.members.find? (·.2 == value)).map Prod.fst

/-- A number of 64 bits, with an optional sign. -/
def number? (text : String) : Option Int64 :=
  (Number.readInt? text).bind fun n =>
    if IntWidth.int64.Holds n then some (Int64.ofInt n) else none

/-- The union of flags given by name. -/
def union? (e : EnumType) (flags : List (List Char)) : Option Int64 :=
  flags.foldlM (fun acc flag =>
    (e.valueOf? (String.ofList (Text.trimChars flag))).map (acc ||| ·)) 0

/-- A number, a comma-separated list of flags, or a member. -/
def parse? (e : EnumType) (text : String) : Option Int64 :=
  let text := Text.trim text
  match number? text with
  | some n => some n
  | none =>
    if e.isFlags && text.toList.contains ',' then e.union? (Text.splitChars ',' text.toList)
    else e.valueOf? text

end EnumType

namespace HostType

/-- The type of an enumeration. -/
def ofEnum (e : EnumType) : HostType := .enum e.name e.underlying e.members e.isFlags

/-! ## Nullability -/

/-- Whether values of the type are never null. -/
def isValueType : HostType → Bool
  | .bool | .int _ | .single | .double | .decimal | .char | .guid | .date | .dateTime
  | .dateTimeOffset | .timeOfDay | .timeSpan | .enum .. => true
  | _ => false

/-- Whether the type has null. -/
def isNullable (t : HostType) : Bool := !t.isValueType

/-- Whether the type is a value type made nullable. -/
def isNullableValueType : HostType → Bool
  | .nullable _ => true
  | _ => false

/-- The type with null. -/
def toNullable (t : HostType) : HostType := if t.isValueType then .nullable t else t

/-- The type, with null if another is a nullable value type. -/
def nullableLike (t like : HostType) : HostType :=
  if like.isNullableValueType then t.toNullable else t

/-- The type inside `nullable`. -/
def nonNullable : HostType → HostType
  | .nullable t => t
  | t => t

/-! ## Families -/

/-- Booleans, with or without null. -/
def isBool (t : HostType) : Bool := t.nonNullable = .bool

/-- Integers, with or without null. -/
def isIntegral (t : HostType) : Bool :=
  match t.nonNullable with
  | .int _ => true
  | _ => false

/-- Numbers, with or without null. -/
def isNumeric (t : HostType) : Bool :=
  match t.nonNullable with
  | .int _ | .single | .double | .decimal => true
  | _ => false

/-- The type of text. -/
def isString (t : HostType) : Bool := t = .string

/-- The type of byte sequences. -/
def isBytes (t : HostType) : Bool := t = .bytes

/-- The type of values of any type. -/
def isObject (t : HostType) : Bool := t = .object

/-- The enumeration, with or without null. -/
def asEnum? (t : HostType) : Option EnumType :=
  match t.nonNullable with
  | .enum name underlying members isFlags => some ⟨name, underlying, members, isFlags⟩
  | _ => none

/-- Types with a calendar date. -/
def isDateFamily (t : HostType) : Bool :=
  match t.nonNullable with
  | .date | .dateTime | .dateTimeOffset => true
  | _ => false

/-- Types that are a time or a length of time alone. -/
def isTimeFamily (t : HostType) : Bool :=
  match t.nonNullable with
  | .timeOfDay | .timeSpan => true
  | _ => false

/-- Types with a time of day. -/
def hasTimeOfDay (t : HostType) : Bool :=
  match t.nonNullable with
  | .timeOfDay | .timeSpan | .dateTime | .dateTimeOffset => true
  | _ => false

/-- Types whose values have parts: no order and no extreme is defined on them. -/
def isStructured : HostType → Bool
  | .collection _ | .grouping .. | .record _ | .dictionary | .container | .wrapper _
  | .model => true
  | _ => false

/-- The type of the items of a collection or a group. -/
def elementType? : HostType → Option HostType
  | .collection element => some element
  | .grouping _ element => some element
  | _ => none

/-- The name of a record type. -/
def recordName? : HostType → Option String
  | .record name => some name
  | _ => none

/-- Primitives that property access widens to a more common one. -/
def isNonStandard (t : HostType) : Bool :=
  match t.nonNullable with
  | .int .uint16 | .int .uint32 | .int .uint64 | .char | .charArray | .xml => true
  | _ => false

/-- Types with a sum. -/
def hasSum (t : HostType) : Bool :=
  match t.nonNullable with
  | .int .int32 | .int .int64 | .single | .double | .decimal => true
  | _ => false

/-- The type of an average, if there is one. -/
def averageType? (t : HostType) : Option HostType :=
  let result? :=
    match t.nonNullable with
    | .int .int32 | .int .int64 | .double => some HostType.double
    | .single => some .single
    | .decimal => some .decimal
    | _ => none
  result?.map fun r => if t.isNullableValueType then r.toNullable else r

/-! ## Text -/

/-- The type as it stands in messages. -/
def text : HostType → String
  | .bool => "Bool"
  | .int w => w.name
  | .single => "Single"
  | .double => "Double"
  | .decimal => "Decimal"
  | .char => "Char"
  | .charArray => "Char[]"
  | .string => "String"
  | .bytes => "Byte[]"
  | .guid => "Guid"
  | .date => "Date"
  | .dateTime => "DateTime"
  | .dateTimeOffset => "DateTimeOffset"
  | .timeOfDay => "TimeOfDay"
  | .timeSpan => "TimeSpan"
  | .xml => "Xml"
  | .enum name .. => name
  | .record name => name
  | .collection element => "Collection<" ++ element.text ++ ">"
  | .grouping key element => "Grouping<" ++ key.text ++ ", " ++ element.text ++ ">"
  | .dictionary => "Dictionary<String, Object>"
  | .object => "Object"
  | .nullable t => t.text ++ "?"
  | .container => "Container"
  | .wrapper kind => kind.text
  | .model => "Model"

/-- The types that are named by one word. -/
def atoms : List HostType :=
  [.bool, .single, .double, .decimal, .char, .charArray, .string, .bytes, .guid, .date, .dateTime,
    .dateTimeOffset, .timeOfDay, .timeSpan, .xml, .dictionary, .object, .container, .model]
    ++ IntWidth.all.map .int

/-- A member of an enumeration in an outline. -/
def memberOutline (m : String × Int64) : String :=
  "(" ++ Text.quoted m.1 ++ ", " ++ toString m.2.toInt ++ ")"

/-- The type with all of its structure. -/
def outline : HostType → String
  | .charArray => "CharArray"
  | .bytes => "Bytes"
  | .enum name underlying members isFlags =>
    "Enum(EnumType \x7b name: " ++ Text.quoted name ++ ", underlying: " ++ underlying.outline
      ++ ", members: [" ++ Text.joinWith ", " (members.map memberOutline) ++ "], is_flags: "
      ++ (if isFlags then "true" else "false") ++ " \x7d)"
  | .record name => "Record(" ++ Text.quoted name ++ ")"
  | .collection element => "Collection(" ++ element.outline ++ ")"
  | .grouping key element =>
    "Grouping \x7b key: " ++ key.outline ++ ", element: " ++ element.outline ++ " \x7d"
  | .dictionary => "Dictionary"
  | .nullable t => "Nullable(" ++ t.outline ++ ")"
  | .wrapper kind => "Wrapper(" ++ kind.outline ++ ")"
  | t => t.text

/-- The type that is named by one word, as in an outline. -/
def ofName? (name : String) : Option HostType := atoms.find? fun t => t.outline == name

end HostType

end TypedQuery

import TypedQuery.HostType

/-!
# Logical types

The types of the query language: primitives, types named by the schema, collections, and the type of
values whose shape shows only when the query runs. Each comes with its nullability.

* `Primitive.ofName?`: a primitive by its name.
* `LogicalType.fullName`, `LogicalType.text`: the two texts of a type.
-/

namespace TypedQuery

/-- Primitive types of the query language. -/
inductive Primitive where
  | boolean | byte | sbyte | int16 | int32 | int64 | single | double | decimal | string | binary
  | guid | date | dateTimeOffset | timeOfDay | duration
  deriving DecidableEq, Repr

namespace Primitive

/-- The name without its namespace. -/
def shortName : Primitive → String
  | .boolean => "Boolean"
  | .byte => "Byte"
  | .sbyte => "SByte"
  | .int16 => "Int16"
  | .int32 => "Int32"
  | .int64 => "Int64"
  | .single => "Single"
  | .double => "Double"
  | .decimal => "Decimal"
  | .string => "String"
  | .binary => "Binary"
  | .guid => "Guid"
  | .date => "Date"
  | .dateTimeOffset => "DateTimeOffset"
  | .timeOfDay => "TimeOfDay"
  | .duration => "Duration"

/-- The qualified name. -/
def name (p : Primitive) : String := "Edm." ++ p.shortName

/-- All primitives. -/
def all : List Primitive :=
  [.boolean, .byte, .sbyte, .int16, .int32, .int64, .single, .double, .decimal, .string, .binary,
    .guid, .date, .dateTimeOffset, .timeOfDay, .duration]

/-- The primitive with a name, qualified or not. -/
def ofName? (name : String) : Option Primitive :=
  all.find? fun p => p.name == name || p.shortName == name

/-- How values of a primitive are represented. -/
def hostType : Primitive → HostType
  | .boolean => .bool
  | .byte => .int .byte
  | .sbyte => .int .sbyte
  | .int16 => .int .int16
  | .int32 => .int .int32
  | .int64 => .int .int64
  | .single => .single
  | .double => .double
  | .decimal => .decimal
  | .string => .string
  | .binary => .bytes
  | .guid => .guid
  | .date => .date
  | .dateTimeOffset => .dateTimeOffset
  | .timeOfDay => .timeOfDay
  | .duration => .timeSpan

end Primitive

/-- Types of the query language. -/
inductive LogicalType where
  | primitive (p : Primitive) (nullable : Bool)
  | enum (name : String) (nullable : Bool)
  | complex (name : String) (nullable : Bool)
  | entity (name : String) (nullable : Bool)
  | collection (element : LogicalType) (nullable : Bool)
  | untyped (nullable : Bool)
  deriving DecidableEq

namespace LogicalType

/-- Whether null is a value of the type. -/
def isNullable : LogicalType → Bool
  | .primitive _ n | .enum _ n | .complex _ n | .entity _ n | .collection _ n | .untyped n => n

/-- The primitive. -/
def asPrimitive? : LogicalType → Option Primitive
  | .primitive p _ => some p
  | _ => none

/-- Whether the type is an enumeration. -/
def isEnum : LogicalType → Bool
  | .enum .. => true
  | _ => false

/-- Whether the type has properties. -/
def isStructured : LogicalType → Bool
  | .complex .. | .entity .. => true
  | _ => false

/-- Whether the type is a collection. -/
def isCollection : LogicalType → Bool
  | .collection .. => true
  | _ => false

/-- The qualified name. -/
def fullName : LogicalType → String
  | .primitive p _ => p.name
  | .enum name _ | .complex name _ | .entity name _ => name
  | .collection element _ => "Collection(" ++ element.fullName ++ ")"
  | .untyped _ => "Edm.Untyped"

/-- The qualified name, with a mark on nullable types that are no collections. -/
def text (t : LogicalType) : String :=
  if t.isNullable && !t.isCollection then t.fullName ++ "?" else t.fullName

end LogicalType

end TypedQuery

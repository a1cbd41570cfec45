import TypedQuery.Aggregate
import TypedQuery.Entries
import TypedQuery.LogicalType

/-!
# Schemas

A schema names the record types, the enumerations and the custom aggregates of a data source.
Logical and host types share their qualified names. An open record type has a member, its bag, that
holds the properties it does not declare.

* `Schema.hostType?`: the host type of a logical type.
* `Schema.member?`, `Schema.bag?`: declared members, and the bag of an open type.
-/

namespace TypedQuery

/-- A member of a record type. -/
structure Member where
  declaringType : String
  name : String
  type : HostType
  deriving DecidableEq

/-- A record type. -/
structure RecordType where
  name : String
  members : Entries HostType
  /-- The member with the undeclared properties, for an open type. -/
  bag : Option String
  deriving DecidableEq

namespace RecordType

/-- A record type with the given members. -/
def closed (name : String) (members : List (String × HostType)) : RecordType :=
  ⟨name, Entries.ofPairs members, none⟩

/-- The type with a bag for undeclared properties. -/
def opened (r : RecordType) (bag : String) : RecordType :=
  { r with members := Entries.insert r.members bag .dictionary, bag := some bag }

end RecordType

/-- Record types, enumerations and custom aggregates by name; the labels of aggregates are in lower
case. -/
structure Schema where
  records : Entries RecordType
  enums : Entries EnumType
  aggregates : Entries AggregateCode
  deriving DecidableEq

namespace Schema

/-- The schema that names nothing. -/
def empty : Schema := ⟨[], [], []⟩

/-- Adds a record type. -/
def addRecord (s : Schema) (r : RecordType) : Schema :=
  { s with records := Entries.insert s.records r.name r }

/-- Adds an enumeration. -/
def addEnum (s : Schema) (e : EnumType) : Schema :=
  { s with enums := Entries.insert s.enums e.name e }

/-- Adds an aggregate under a label that is read in any case. -/
def addAggregate (s : Schema) (label : String) (code : AggregateCode) : Schema :=
  { s with aggregates := Entries.insert s.aggregates (Text.asciiLower label) code }

/-- The record type with a name. -/
def record? (s : Schema) (name : String) : Option RecordType := Entries.get? s.records name

/-- The enumeration with a name. -/
def enum? (s : Schema) (name : String) : Option EnumType := Entries.get? s.enums name

/-- Whether a record type is in the schema. -/
def hasRecord (s : Schema) (name : String) : Bool := (s.record? name).isSome

/-- A declared member. -/
def member? (s : Schema) (typeName name : String) : Option Member := do
  let r ← s.record? typeName
  let type ← Entries.get? r.members name
  some ⟨typeName, name, type⟩

/-- Whether a record type takes undeclared properties. -/
def isOpen (s : Schema) (typeName : String) : Bool :=
  ((s.record? typeName).bind RecordType.bag).isSome

/-- The bag of an open record type. -/
def bag? (s : Schema) (typeName : String) : Option Member := do
  let r ← s.record? typeName
  let bag ← r.bag
  s.member? typeName bag

/-- The host type of a logical type, if the schema has the names in it. -/
def hostType? (s : Schema) : LogicalType → Option HostType
  | .primitive p nullable => some (withNull nullable p.hostType)
  | .enum name nullable => (s.enum? name).map fun e => withNull nullable (.ofEnum e)
  | .complex name nullable | .entity name nullable =>
    if s.hasRecord name then some (withNull nullable (.record name)) else none
  | .collection element nullable =>
    (s.hostType? element).map fun t => withNull nullable (.collection t)
  | .untyped nullable => some (withNull nullable .object)
where
  /-- The type with null, if it is nullable. -/
  withNull (nullable : Bool) (t : HostType) : HostType := if nullable then t.toNullable else t

/-- Names in quotes, in brackets. -/
def namesOutline (names : List String) : String :=
  "[" ++ Text.joinWith ", " (names.map Text.quoted) ++ "]"

/-- The names of the schema; those of aggregates sorted. -/
def outline (s : Schema) : String :=
  "SchemaModel \x7b records: " ++ namesOutline (Entries.names s.records)
    ++ ", enums: " ++ namesOutline (Entries.names s.enums)
    ++ ", custom_aggregates: "
    ++ namesOutline ((Entries.names s.aggregates).mergeSort fun a b => decide (a ≤ b)) ++ " \x7d"

end Schema

end TypedQuery

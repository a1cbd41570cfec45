import TypedQuery.Calendar.Instant
import TypedQuery.Guid
import TypedQuery.Number.Layout
import TypedQuery.Schema
import TypedQuery.Wrapper

/-!
# Values

The values that constants hold and that expressions give when they run.

* `Value.hostType?`, `Value.isInstanceOf`: the type of a value when it runs.
* `Value.asInt?`, `Value.asFloat?`: numbers, whatever their width.
* `Value.text`: a value as it stands in expressions and messages.
* `Value.WellFormed`: no record and no dictionary inside the value gives a name twice.
-/

namespace TypedQuery

/-- Values. -/
inductive Value where
  | null
  | bool (b : Bool)
  | int (n : SizedInt)
  | single (x : Binary32)
  | double (x : Binary64)
  | decimal (x : Binary64)
  | char (c : Char)
  | charArray (cs : List Char)
  | string (s : String)
  | bytes (bs : List UInt8)
  | xml (s : String)
  | guid (g : Guid)
  | date (d : Date)
  | dateTime (t : DateTime)
  | dateTimeOffset (t : OffsetDateTime)
  | timeOfDay (t : Time)
  | timeSpan (s : Span)
  | enum (typeName : String) (value : Int64)
  | record (typeName : String) (fields : List (String × Value))
  | collection (items : List Value)
  | grouping (key : Value) (items : List Value)
  | dictionary (entries : List (String × Value))
  | container (slots : List (String × Value))
  | wrapper (w : Wrapper Value)
  | model (s : Schema)

namespace Value

instance : Inhabited Value := ⟨.null⟩

/-- A 32-bit integer, the low 32 bits of a number. -/
def int32 (n : Int) : Value := .int (.int32 n)

/-- A 64-bit integer, the low 64 bits of a number. -/
def int64 (n : Int) : Value := .int (.int64 n)

/-- A double-precision number; null for NaN. -/
def ofDouble (x : Float) : Value := ((Binary64.ofFloat? x).map .double).getD .null

/-- A decimal number; null for NaN. -/
def ofDecimal (x : Float) : Value := ((Binary64.ofFloat? x).map .decimal).getD .null

/-! ## Views -/

/-- Whether the value is null. -/
def isNull : Value → Bool
  | .null => true
  | _ => false

/-- Whether the value is the boolean true. -/
def isTrue : Value → Bool
  | .bool true => true
  | _ => false

/-- The boolean. -/
def asBool? : Value → Option Bool
  | .bool b => some b
  | _ => none

/-- The text of a string or of markup. -/
def asString? : Value → Option String
  | .string s | .xml s => some s
  | _ => none

/-- The items of a collection or a group. -/
def asItems? : Value → Option (List Value)
  | .collection items => some items
  | .grouping _ items => some items
  | _ => none

/-- The number of an integer or an enumeration. -/
def asInt? : Value → Option Int
  | .int n => some n.val
  | .enum _ value => some value.toInt
  | _ => none

/-- The number as a double-precision float. -/
def asFloat? : Value → Option Float
  | .single x => some x.widen
  | .double x | .decimal x => some x.toFloat
  | v => v.asInt?.map Float.ofInt

/-- Whether the value is an integer. -/
def isIntegral : Value → Bool
  | .int _ => true
  | _ => false

/-- The type of the value; none for null. Enumerations do not carry their type. -/
def hostType? : Value → Option HostType
  | .null => none
  | .bool _ => some .bool
  | .int n => some (.int n.width)
  | .single _ => some .single
  | .double _ => some .double
  | .decimal _ => some .decimal
  | .char _ => some .char
  | .charArray _ => some .charArray
  | .string _ => some .string
  | .bytes _ => some .bytes
  | .xml _ => some .xml
  | .guid _ => some .guid
  | .date _ => some .date
  | .dateTime _ => some .dateTime
  | .dateTimeOffset _ => some .dateTimeOffset
  | .timeOfDay _ => some .timeOfDay
  | .timeSpan _ => some .timeSpan
  | .enum .. => some .object
  | .record typeName _ => some (.record typeName)
  | .collection _ => some (.collection .object)
  | .grouping .. => some (.grouping .object .object)
  | .dictionary _ => some .dictionary
  | .container _ => some .container
  | .wrapper w => some (.wrapper w.kind)
  | .model _ => some .model

/-- Whether a value that is not null has exactly the type; every one is an object, and the items of
collections do not count. -/
def isInstanceOf (v : Value) (t : HostType) : Bool :=
  match v, t.nonNullable with
  | .null, _ => false
  | _, .object => true
  | .enum typeName _, .enum name .. => typeName == name
  | .record typeName _, .record name => typeName == name
  | .collection _, .collection _ => true
  | .wrapper w, .wrapper kind => w.kind == kind
  | v, t => v.hostType? == some t

/-- The key that orders dates of different types: `year * 10000 + month * 100 + day`. -/
def dateKey? (v : Value) : Option Int :=
  let key (d : Day) : Int := d.year * 10000 + d.month * 100 + d.day
  match v with
  | .date d => some (key d.day)
  | .dateTime t => some (key t.date.day)
  | .dateTimeOffset t => some (key t.day)
  | _ => none

/-- Ticks of 100 ns of the time of day, or of a span. -/
def timeTicks? : Value → Option Int
  | .timeOfDay t => some t.ticks
  | .dateTime t => some t.time.ticks
  | .dateTimeOffset t => some t.time.ticks
  | .timeSpan s => s.ticks?
  | _ => none

/-! ## Text -/

/-- A boolean as a word. -/
def boolText (b : Bool) : String := if b then "true" else "false"

/-- The mark that an integer of a width carries. -/
def intMark : IntWidth → String
  | .int64 => "L"
  | .uint64 => "UL"
  | _ => ""

/-- The value as it stands in expressions and messages. -/
def text : Value → String
  | .null => "null"
  | .bool b => boolText b
  | .int n => toString n.val ++ intMark n.width
  | .single x => Number.plainText32 x.toFloat32 ++ "f"
  | .double x => Number.plainText x.toFloat
  | .decimal x => Number.plainText x.toFloat ++ "m"
  | .char c => "'" ++ String.singleton c ++ "'"
  | .charArray cs => "'" ++ String.ofList cs ++ "'"
  | .string s => "\"" ++ s ++ "\""
  | .bytes bs => "Bytes[" ++ toString bs.length ++ "]"
  | .xml s => "Xml(" ++ s ++ ")"
  | .guid g => g.text
  | .date d => d.text
  | .dateTime t => t.text
  | .dateTimeOffset t => t.text
  | .timeOfDay t => t.text
  | .timeSpan s => s.text
  | .enum typeName value => typeName ++ "(" ++ toString value.toInt ++ ")"
  | .record typeName _ => typeName ++ "\x7b..\x7d"
  | .collection items => "[" ++ toString items.length ++ " items]"
  | .grouping key items => "Grouping(" ++ key.text ++ ", " ++ toString items.length ++ " items)"
  | .dictionary entries => "\x7b" ++ toString entries.length ++ " entries\x7d"
  | .container slots => "Container[" ++ toString slots.length ++ "]"
  | .wrapper w => w.kind.text
  | .model _ => "Model"

/-! ## Names -/

/-- Whether the value has no values inside. -/
def isScalar : Value → Bool
  | .record .. | .collection _ | .grouping .. | .dictionary _ | .container _ | .wrapper _ => false
  | _ => true

/-- No record and no dictionary inside the value gives a name twice. -/
inductive WellFormed : Value → Prop
  | scalar {v : Value} (h : v.isScalar = true) : WellFormed v
  | record {typeName : String} {fields : List (String × Value)} (hnames : (Entries.names fields).Nodup)
    (hfields : ∀ f ∈ fields, WellFormed f.2) : WellFormed (.record typeName fields)
  | collection {items : List Value} (hitems : ∀ v ∈ items, WellFormed v) :
    WellFormed (.collection items)
  | grouping {key : Value} {items : List Value} (hkey : WellFormed key)
    (hitems : ∀ v ∈ items, WellFormed v) : WellFormed (.grouping key items)
  | dictionary {entries : List (String × Value)} (hnames : (Entries.names entries).Nodup)
    (hentries : ∀ e ∈ entries, WellFormed e.2) : WellFormed (.dictionary entries)
  | container {slots : List (String × Value)} (hslots : ∀ s ∈ slots, WellFormed s.2) :
    WellFormed (.container slots)
  | wrapper {w : Wrapper Value} (hmembers : ∀ m a, w.get? m = some a → WellFormed a) :
    WellFormed (.wrapper w)

end Value

end TypedQuery

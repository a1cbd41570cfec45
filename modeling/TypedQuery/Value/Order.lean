import TypedQuery.Value

/-!
# Equality and order of values

Values are equal when they have the same kind and the same content; the entries of records and
dictionaries may stand in any order, and two instants are equal whatever their offsets. The order is
partial: it compares numbers of all kinds with each other, and values of one of the other kinds that
have an order.

* `Value.beq`: equality.
* `Value.compare?`: order.
* `Value.looselyEquals`: equality across numeric kinds, as grouping and membership use it.
-/

namespace TypedQuery

namespace Value

mutual

/-- Whether two values have the same kind and the same content. -/
def beq : Value → Value → Bool
  | .null, .null => true
  | .bool a, .bool b => a == b
  | .int a, .int b => a == b
  | .single a, .single b => Number.orderKey32 a.toFloat32 == Number.orderKey32 b.toFloat32
  | .double a, .double b => Number.orderKey a.toFloat == Number.orderKey b.toFloat
  | .decimal a, .decimal b => Number.orderKey a.toFloat == Number.orderKey b.toFloat
  | .char a, .char b => a == b
  | .charArray a, .charArray b => a == b
  | .string a, .string b => a == b
  | .bytes a, .bytes b => a == b
  | .xml a, .xml b => a == b
  | .guid a, .guid b => a == b
  | .date a, .date b => a == b
  | .dateTime a, .dateTime b => a == b
  | .dateTimeOffset a, .dateTimeOffset b => a.utc == b.utc
  | .timeOfDay a, .timeOfDay b => a == b
  | .timeSpan a, .timeSpan b => a == b
  | .enum s a, .enum t b => s == t && a == b
  | .record s a, .record t b => s == t && a.length == b.length && entriesBeq a b
  | .collection a, .collection b => itemsBeq a b
  | .grouping k a, .grouping l b => beq k l && itemsBeq a b
  | .dictionary a, .dictionary b => a.length == b.length && entriesBeq a b
  | .container a, .container b => slotsBeq a b
  | .wrapper ⟨k, g, c, s, i, m⟩, .wrapper ⟨k', g', c', s', i', m'⟩ =>
    k == k' && memberBeq g g' && memberBeq c c' && memberBeq s s' && memberBeq i i'
      && memberBeq m m'
  | .model a, .model b => a == b
  | _, _ => false
termination_by structural v => v

/-- Whether items are equal one by one. -/
def itemsBeq : List Value → List Value → Bool
  | [], [] => true
  | a :: as, b :: bs => beq a b && itemsBeq as bs
  | _, _ => false
termination_by structural v => v

/-- Whether every entry of the first has an equal entry of its name in the second. -/
def entriesBeq : List (String × Value) → List (String × Value) → Bool
  | [], _ => true
  | (name, a) :: rest, bs =>
    (match Entries.get? bs name with
      | some b => beq a b
      | none => false) && entriesBeq rest bs
termination_by structural v => v

/-- Whether slots are equal one by one, names and values. -/
def slotsBeq : List (String × Value) → List (String × Value) → Bool
  | [], [] => true
  | (m, a) :: as, (n, b) :: bs => m == n && beq a b && slotsBeq as bs
  | _, _ => false
termination_by structural v => v

/-- Whether members that may be missing are equal. -/
def memberBeq : Option Value → Option Value → Bool
  | none, none => true
  | some a, some b => beq a b
  | _, _ => false
termination_by structural v => v

end

instance : BEq Value := ⟨beq⟩

/-- The order of two numbers: as integers if both are, else as floats. -/
def compareNumbers? (a b : Value) : Option Ordering :=
  match a.asInt?, b.asInt? with
  | some x, some y => some (compare x y)
  | _, _ =>
    match a.asFloat?, b.asFloat? with
    | some x, some y => Number.compareFloat? x y
    | _, _ => none

/-- The order of two values that have one. -/
def compare? : Value → Value → Option Ordering
  | .bool a, .bool b => some (compare a b)
  | .string a, .string b => some (compare a b)
  | .char a, .char b => some (compare a b)
  | .bytes a, .bytes b => some (compare a b)
  | .guid a, .guid b => some (a.compare b)
  | .date a, .date b => some (a.compare b)
  | .dateTime a, .dateTime b => some (a.compare b)
  | .dateTimeOffset a, .dateTimeOffset b => some (a.compare b)
  | .timeOfDay a, .timeOfDay b => some (a.compare b)
  | .timeSpan a, .timeSpan b => some (compare a.nanos b.nanos)
  | a, b => compareNumbers? a b

/-- Equality across numeric kinds. -/
def looselyEquals (a b : Value) : Bool :=
  if a.isNull || b.isNull then a.isNull && b.isNull
  else if a.asFloat?.isSome && b.asFloat?.isSome then a.compare? b == some .eq
  else a == b

/-- Equality as the equality operator decides it: by order where there is one. -/
def equals (a b : Value) : Bool :=
  match a.compare? b with
  | some o => o == .eq
  | none => a == b

end Value

end TypedQuery

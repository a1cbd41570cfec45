import TypedQuery.External
import TypedQuery.Value.Convert
import TypedQuery.Value.Order

/-!
# Accumulators

The running state of an aggregate over the values of a group. Nulls count as items and are passed
over by all other aggregates. A sum is exact as long as it has met integers only.

* `Accumulator.start`, `Accumulator.update`, `Accumulator.finish`.
* `Accumulator.run`: a built-in aggregate of a list; `AggregateCode.run`: any aggregate of one.
-/

namespace TypedQuery

/-- A sum so far. -/
inductive PartialSum where
  | empty
  | exact (n : Int)
  | rounded (x : Float)

/-- The running state of an aggregate. -/
inductive Accumulator where
  | count (seen : Nat)
  | sum (total : PartialSum) (result : HostType)
  | average (total : Float) (seen : Nat) (result : HostType)
  /-- The value that `better` has preferred so far. -/
  | extreme (better : Ordering) (current : Option Value) (result : HostType)

namespace Accumulator

/-- The state before any value, for a result type. -/
def start (a : Aggregate) (result : HostType) : Accumulator :=
  match a with
  | .count => .count 0
  | .sum => .sum .empty result
  | .average => .average 0.0 0 result
  | .min => .extreme .lt none result
  | .max => .extreme .gt none result

/-- A sum with one more value, which is not null. -/
def addTo (total : PartialSum) (v : Value) : Outcome PartialSum :=
  match total, v with
  | .empty, .int n => .ok (.exact n.val)
  | .exact m, .int n => .ok (.exact (m + n.val))
  | total, v =>
    match v.asFloat? with
    | none => EvalError.fail (.sumOfNonNumber v)
    | some x =>
      match total with
      | .empty => .ok (.rounded x)
      | .exact m => .ok (.rounded (Float.ofInt m + x))
      | .rounded y => .ok (.rounded (y + x))

/-- The state after one more value. -/
def update (acc : Accumulator) (v : Value) : Outcome Accumulator :=
  match acc with
  | .count seen => .ok (.count (seen + 1))
  | .sum total result =>
    if v.isNull then .ok acc else (addTo total v).map (.sum · result)
  | .average total seen result =>
    if v.isNull then .ok acc
    else
      match v.asFloat? with
      | some x => .ok (.average (total + x) (seen + 1) result)
      | none => EvalError.fail (.averageOfNonNumber v)
  | .extreme better current result =>
    if v.isNull then .ok acc
    else
      match current with
      | none => .ok (.extreme better (some v) result)
      | some c =>
        match c.compare? v with
        | none => EvalError.fail (.extremesNotComparable c v)
        | some o => .ok (if o == better.swap then .extreme better (some v) result else acc)

/-- The result of the values so far. An empty sum is zero. -/
def finish : Accumulator → Outcome Value
  | .count seen => .ok (.int64 seen)
  | .sum .empty result => Value.ofInt 0 result
  | .sum (.exact n) result => Value.ofInt n result
  | .sum (.rounded x) result => Value.ofFloat x result
  | .average total seen result =>
    if seen = 0 then
      if result.isNullable then .ok .null else EvalError.fail .emptyAverage
    else Value.ofFloat (total / Float.ofNat seen) result
  | .extreme _ (some v) _ => .ok v
  | .extreme _ none result =>
    if result.isNullable then .ok .null else EvalError.fail .emptyExtreme

/-- The aggregate of a list of values. -/
def run (acc : Accumulator) (values : List Value) : Outcome Value :=
  (values.foldlM update acc).bind finish

/-- The results before any value and after each of a list; a value that fails is passed over. -/
def trace (acc : Accumulator) : List Value → List (Outcome Value)
  | [] => [acc.finish]
  | v :: rest =>
    match acc.update v with
    | .ok next => acc.finish :: trace next rest
    | .error e => acc.finish :: failed e (trace acc rest)
where
  /-- The results with the first one replaced by an error. -/
  failed (e : Error) (results : List (Outcome Value)) : List (Outcome Value) :=
    .error e :: results.tail

end Accumulator

/-- What code from outside gives. -/
def External.outcome {α : Type} (result : Except String α) : Outcome α :=
  result.mapError fun reason => .evaluation (.aggregateFailed reason)

/-- An aggregate of the application of a list of values, for a result type. -/
def External.run [External] (id : Nat) (result : HostType) (values : List Value) : Outcome Value := do
  let state ← values.foldlM (fun state v => External.outcome (External.update state v)) (External.start id result)
  return (← External.outcome (External.finish state)).val

/-- The aggregate of a list of values, for a result type. -/
def AggregateCode.run [External] (code : AggregateCode) (result : HostType) (values : List Value) :
    Outcome Value :=
  match code with
  | .builtIn a => (Accumulator.start a result).run values
  | .provided id => External.run id result values

end TypedQuery

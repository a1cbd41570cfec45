import TypedQuery.Error

/-!
# Conversions of values

Values of a host type from integers and floats, and from values of other types. A number that does
not fit is an error; a float loses its fraction on the way to an integer.

* `Value.ofInt`, `Value.ofFloat`: a typed number.
* `Value.convert`: a value as a host type represents it.
-/

namespace TypedQuery.Value

/-! ## Numbers -/

/-- An integer as a value of an integral type, if it fits. -/
def ofIntegral (n : Int) (t : HostType) : Outcome Value :=
  match t.nonNullable with
  | .int w => orFail (.overflow n t) ((SizedInt.ofInt? w n).map .int)
  | t => EvalError.fail (.notFromInteger t)

/-- A number of a floating-point type; the fraction is dropped for an integral one. -/
def ofFloat (x : Float) (t : HostType) : Outcome Value :=
  match t.nonNullable with
  | .single => orFail .notANumber ((Binary32.ofFloat32? (Number.narrow x)).map .single)
  | .double | .object => orFail .notANumber ((Binary64.ofFloat? x).map .double)
  | .decimal => orFail .notANumber ((Binary64.ofFloat? x).map .decimal)
  | t =>
    if t.isIntegral then ofIntegral (Number.truncate128 x) t
    else EvalError.fail (.notFromFloat t)

/-- An integer as a value of a type, if it fits. -/
def ofInt (n : Int) (t : HostType) : Outcome Value :=
  match t.nonNullable with
  | .single | .double | .decimal => ofFloat (Float.ofInt n) t
  | .enum name .. =>
    if IntWidth.int64.Holds n then .ok (.enum name (Int64.ofInt n))
    else EvalError.fail (.overflow n t)
  | .object => orFail (.overflow n t) ((SizedInt.ofInt? .int64 n).map .int)
  | _ => ofIntegral n t

/-! ## All values -/

/-- Conversion of a value that is neither null, nor an instance of the type, nor a collection. -/
def convertScalar (v : Value) (target : HostType) : Outcome Value :=
  let invalid : Outcome Value := EvalError.fail (.invalidCast v target)
  let t := target.nonNullable
  match v, t with
  | .enum _ n, _ => if t.isIntegral then ofInt n.toInt t else invalid
  | .int n, .enum name .. =>
    if IntWidth.int64.Holds n.val then .ok (.enum name (Int64.ofInt n.val)) else invalid
  | .int n, _ => if t.isNumeric then ofInt n.val t else invalid
  | .single x, _ => if t.isNumeric then ofFloat x.widen t else invalid
  | .double x, _ => if t.isNumeric then ofFloat x.toFloat t else invalid
  | .decimal x, _ => if t.isNumeric then ofFloat x.toFloat t else invalid
  | .char c, .string => .ok (.string (String.singleton c))
  | .charArray cs, .string => .ok (.string (String.ofList cs))
  | .xml s, .string => .ok (.string s)
  | .dateTime d, .date => .ok (.date d.date)
  | .dateTimeOffset d, .date => orAbort (d.shown?.map fun d => .date d.date)
  | .dateTimeOffset d, .dateTime => orAbort (d.shown?.map .dateTime)
  | .dateTimeOffset d, .timeOfDay => .ok (.timeOfDay d.time)
  | .dateTime d, .dateTimeOffset => .ok (.dateTimeOffset (.ofUtc d))
  | .date d, .dateTime => .ok (.dateTime ⟨d, .midnight⟩)
  | .date d, .dateTimeOffset => .ok (.dateTimeOffset (.ofUtc ⟨d, .midnight⟩))
  | .timeOfDay d, .timeSpan => orAbort ((Span.ofNanos? (d.since .midnight)).map .timeSpan)
  | .timeSpan s, .timeOfDay => .ok (.timeOfDay (Time.midnight.add s).1)
  | _, _ => invalid

mutual

/-- The value as the type represents it. -/
def convert (v : Value) (target : HostType) : Outcome Value :=
  match v with
  | .null => if target.isNullable then .ok .null else EvalError.fail (.nullConversion target)
  | .collection items =>
    match target.nonNullable with
    | .collection element => (convertItems items element).map .collection
    | t =>
      if (Value.collection items).isInstanceOf t then .ok (.collection items)
      else EvalError.fail (.invalidCast (.collection items) target)
  | v => if v.isInstanceOf target.nonNullable then .ok v else convertScalar v target
termination_by structural v

/-- Every item as the type represents it. -/
def convertItems (items : List Value) (element : HostType) : Outcome (List Value) :=
  match items with
  | [] => .ok []
  | v :: rest =>
    match convert v element with
    | .error e => .error e
    | .ok v => (convertItems rest element).map (v :: ·)
termination_by structural items

end

end TypedQuery.Value

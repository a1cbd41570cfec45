import TypedQuery.Expr.Method
import TypedQuery.Expr.Operator
import TypedQuery.Value

/-!
# Errors

Why a query cannot be bound, and why a bound expression has no value. Each cause is a case; the
words are in `EvalError.message` and `Error.message`. That the program stops is a case of its own.
-/

namespace TypedQuery

/-- Why an expression has no value. -/
inductive EvalError where
  | lambdaWithoutParameter
  | unboundParameter (name : String)
  | lambdaAsValue
  /-- A member of null. -/
  | nullReference (member : String)
  | noMember (source : Value) (member : String)
  | indexOfNull
  | keyNotFound (key : String)
  | cannotIndex (source key : Value)
  | noSlot (name : String)
  | cannotReadSlot (name : String) (source : Value)
  | cannotNegate (v : Value)
  | cannotInvert (v : Value)
  | testNotBoolean (v : Value)
  | notBoolean (v : Value)
  | cannotCompare (l r : Value)
  | cannotApply (op : BinaryOp) (l r : Value)
  | arithmetic (op : BinaryOp) (l r : Value)
  | decimalDivisionByZero
  /-- A number that does not fit its type. -/
  | overflow (n : Int) (type : HostType)
  | notFromInteger (type : HostType)
  | notFromFloat (type : HostType)
  | notANumber
  | nullConversion (target : HostType)
  | invalidCast (v : Value) (target : HostType)
  | expectsLambda (m : Method)
  | withoutSource (m : Method)
  | nullSource (m : Method)
  | notACollection (m : Method) (v : Value)
  | selectedNoCollection (v : Value)
  | missingArgument (m : Method) (position : Nat)
  | expectsString (m : Method) (v : Value)
  | expectsModel (m : Method) (v : Value)
  | containsKeyOfNull
  | containsKeyOf (v : Value)
  | notApplicable (f : ScalarFunction) (args : List Value)
  /-- A pattern that the engine of patterns refuses, with its words. -/
  | invalidPattern (reason : String)
  /-- An aggregate of the application that fails, with its words. -/
  | aggregateFailed (reason : String)
  | sumOfNonNumber (v : Value)
  | averageOfNonNumber (v : Value)
  | emptyAverage
  | extremesNotComparable (current candidate : Value)
  | emptyExtreme

/-- The words of an evaluation error. -/
def EvalError.message : EvalError → String
  | .lambdaWithoutParameter => "lambda without parameter"
  | .unboundParameter name => "unbound parameter " ++ name
  | .lambdaAsValue => "a lambda is not a value"
  | .nullReference member => "null reference reading member '" ++ member ++ "'"
  | .noMember source member => source.text ++ " has no member '" ++ member ++ "'"
  | .indexOfNull => "indexing a null dictionary"
  | .keyNotFound key => "key '" ++ key ++ "' not found"
  | .cannotIndex source key => "cannot index " ++ source.text ++ " with " ++ key.text
  | .noSlot name => "container has no slot '" ++ name ++ "'"
  | .cannotReadSlot name source => "cannot read slot '" ++ name ++ "' of " ++ source.text
  | .cannotNegate v => "cannot negate " ++ v.text
  | .cannotInvert v => "cannot apply not to " ++ v.text
  | .testNotBoolean v => "conditional test evaluated to " ++ v.text
  | .notBoolean v => "expected a boolean, got " ++ v.text
  | .cannotCompare l r => "cannot compare " ++ l.text ++ " and " ++ r.text
  | .cannotApply op l r => "cannot apply " ++ op.symbol ++ " to " ++ l.text ++ " and " ++ r.text
  | .arithmetic op l r =>
    "arithmetic overflow or division by zero: " ++ l.text ++ " " ++ op.symbol ++ " " ++ r.text
  | .decimalDivisionByZero => "decimal division by zero"
  | .overflow n type => "value " ++ toString n ++ " overflows " ++ type.text
  | .notFromInteger type => "cannot build " ++ type.text ++ " from an integer"
  | .notFromFloat type => "cannot build " ++ type.text ++ " from a float"
  | .notANumber => "NaN is not a valid numeric value"
  | .nullConversion target => "null cannot be converted to " ++ target.text
  | .invalidCast v target => "invalid cast from " ++ v.text ++ " to " ++ target.text
  | .expectsLambda m => m.text ++ " expects a lambda argument"
  | .withoutSource m => m.text ++ " without source"
  | .nullSource m => m.text ++ " over a null source"
  | .notACollection m v => m.text ++ " over non-collection " ++ v.text
  | .selectedNoCollection v => "SelectMany selector returned " ++ v.text
  | .missingArgument m position => m.text ++ " is missing argument " ++ toString position
  | .expectsString m v => m.text ++ " expects a string, got " ++ v.text
  | .expectsModel m v => m.text ++ " expects the model, got " ++ v.text
  | .containsKeyOfNull => "ContainsKey on a null dictionary"
  | .containsKeyOf v => "ContainsKey on " ++ v.text
  | .notApplicable f args =>
    f.text ++ " cannot be applied to (" ++ Text.joinWith ", " (args.map Value.text) ++ ")"
  | .invalidPattern reason => "invalid pattern: " ++ reason
  | .aggregateFailed reason => reason
  | .sumOfNonNumber v => "Sum got non numeric value " ++ v.text
  | .averageOfNonNumber v => "Average got non numeric value " ++ v.text
  | .emptyAverage => "Average over an empty sequence"
  | .extremesNotComparable current candidate =>
    "Min/Max cannot compare " ++ current.text ++ " and " ++ candidate.text
  | .emptyExtreme => "Min/Max over an empty sequence"

/-- Why a query cannot be bound, or a bound expression has no value. Where the calendar's own arithmetic
leaves its range, or a text is cut inside a character, no error is returned: the program stops there. -/
inductive Error where
  | argumentNull (what : String)
  | unsupportedNodeKind (kind : String)
  | aggregationNotSupportedForType (method type : String)
  | aggregationNotSupported (method expression type : String)
  | typeMismatch (expected actual : String)
  | resourceTypeNotInModel (typeName : String)
  | unknownRangeVariable (name : String)
  | propertyNotFound (typeName property : String)
  | typeNotInModel (typeName : String)
  | unsupportedCollectionType (type : String)
  | invalidEnumValue (enumType value : String)
  | unknownFunction (name : String)
  | invalidFunctionArguments (name reason : String)
  | nestingTooDeep (depth max : Nat)
  | invalidSettings
  | evaluation (cause : EvalError)
  /-- The program stops. -/
  | aborted

/-- The name of an error's kind. -/
def Error.kind : Error → String
  | .argumentNull _ => "ArgumentNull"
  | .unsupportedNodeKind _ => "UnsupportedNodeKind"
  | .aggregationNotSupportedForType .. => "AggregationNotSupportedForType"
  | .aggregationNotSupported .. => "AggregationNotSupported"
  | .typeMismatch .. => "TypeMismatch"
  | .resourceTypeNotInModel _ => "ResourceTypeNotInModel"
  | .unknownRangeVariable _ => "UnknownRangeVariable"
  | .propertyNotFound .. => "PropertyNotFound"
  | .typeNotInModel _ => "TypeNotInModel"
  | .unsupportedCollectionType _ => "UnsupportedCollectionType"
  | .invalidEnumValue .. => "InvalidEnumValue"
  | .unknownFunction _ => "UnknownFunction"
  | .invalidFunctionArguments .. => "InvalidFunctionArguments"
  | .nestingTooDeep .. => "NestingTooDeep"
  | .invalidSettings => "InvalidSettings"
  | .evaluation _ => "Evaluation"
  | .aborted => "Panic"

/-- The words of an error. -/
def Error.message : Error → String
  | .argumentNull what => "Value cannot be null: " ++ what
  | .unsupportedNodeKind kind => "Unsupported node kind: " ++ kind
  | .aggregationNotSupportedForType method type =>
    "Aggregation '" ++ method ++ "' not supported for type '" ++ type ++ "'"
  | .aggregationNotSupported method expression type =>
    "Aggregation method '" ++ method ++ "' is not supported for expression '" ++ expression
      ++ "' of type '" ++ type ++ "'"
  | .typeMismatch expected actual => "Type mismatch: expected " ++ expected ++ ", got " ++ actual
  | .resourceTypeNotInModel typeName => "Resource type '" ++ typeName ++ "' is not in the model"
  | .unknownRangeVariable name => "Unknown range variable: " ++ name
  | .propertyNotFound typeName property =>
    "Property '" ++ property ++ "' not found on type '" ++ typeName ++ "'"
  | .typeNotInModel typeName => "Type '" ++ typeName ++ "' is not in the model"
  | .unsupportedCollectionType type => "Unsupported collection type: " ++ type
  | .invalidEnumValue enumType value =>
    "Value '" ++ value ++ "' is not a member of enum '" ++ enumType ++ "'"
  | .unknownFunction name => "Unknown function: " ++ name
  | .invalidFunctionArguments name reason =>
    "Invalid arguments for function '" ++ name ++ "': " ++ reason
  | .nestingTooDeep depth max =>
    "Query nesting depth " ++ toString depth ++ " exceeds the limit of " ++ toString max
  | .invalidSettings => "Invalid binder settings"
  | .evaluation cause => "Evaluation error: " ++ cause.message
  | .aborted => "the program stops"

/-- What binding and evaluation give. -/
abbrev Outcome (α : Type) := Except Error α

/-- Fails for a cause. -/
def EvalError.fail {α : Type} (cause : EvalError) : Outcome α := .error (.evaluation cause)

/-- The result, or a failure for a cause. -/
def orFail {α : Type} (cause : EvalError) : Option α → Outcome α
  | some a => .ok a
  | none => cause.fail

/-- The result, or the end of the program. -/
def orAbort {α : Type} : Option α → Outcome α
  | some a => .ok a
  | none => .error .aborted

end TypedQuery

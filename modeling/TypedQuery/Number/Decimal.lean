import TypedQuery.Number.Binary

/-!
# Reading decimal numbers

Decimal text as an exact `mantissa * 10^exponent`, and the float nearest to it. Also integers: an
optional sign and digits, nothing else.

* `readInt?`: an integer.
* `readFloat?`, `readFloat32?`: the nearest float, `inf` and `NaN` included.
-/

namespace TypedQuery.Number

/-- The value of a decimal digit. -/
def digit? (c : Char) : Option Nat :=
  if '0' ≤ c ∧ c ≤ '9' then some (c.toNat - '0'.toNat) else none

/-- Whether a character is a decimal digit. -/
def isDigit (c : Char) : Bool := (digit? c).isSome

/-- The number that a run of digits spells. -/
def ofDigits (cs : List Char) : Nat :=
  cs.foldl (fun n c => 10 * n + (digit? c).getD 0) 0

/-- Splits off a leading sign; true is minus. -/
def splitSign : List Char → Bool × List Char
  | '-' :: rest => (true, rest)
  | '+' :: rest => (false, rest)
  | cs => (false, cs)

/-- The number with the sign. -/
def signed (negative : Bool) (n : Nat) : Int := if negative then -(n : Int) else n

/-- An optional sign and at least one digit. -/
def readInt? (text : String) : Option Int :=
  let (negative, cs) := splitSign text.toList
  if cs ≠ [] ∧ cs.all isDigit then some (signed negative (ofDigits cs)) else none

/-- A sign, a mantissa and a power of ten. -/
structure Scientific where
  negative : Bool
  mantissa : Nat
  exponent : Int
  deriving DecidableEq, Repr

/-- The exponent after `e`, if the text has one. -/
def readExponent? : List Char → Option Int
  | [] => some 0
  | c :: rest =>
    if c = 'e' ∨ c = 'E' then readInt? (String.ofList rest) else none

/-- Digits, an optional fraction and an optional exponent. -/
def readScientific? (negative : Bool) (cs : List Char) : Option Scientific := do
  let whole := cs.takeWhile isDigit
  let rest := cs.dropWhile isDigit
  let (fraction, rest) :=
    match rest with
    | '.' :: after => (after.takeWhile isDigit, after.dropWhile isDigit)
    | _ => ([], rest)
  if whole = [] ∧ fraction = [] then none
  else
    let exponent ← readExponent? rest
    some ⟨negative, ofDigits (whole ++ fraction), exponent - fraction.length⟩

/-- What decimal text may stand for. -/
inductive Spelled where
  | number (s : Scientific)
  | infinite (negative : Bool)
  | undefined

/-- Reads a number, or one of the words for infinity and NaN, in any case. -/
def readSpelled? (text : String) : Option Spelled :=
  let (negative, cs) := splitSign text.toList
  let word := String.ofList (cs.map Char.toLower)
  if word = "inf" ∨ word = "infinity" then some (.infinite negative)
  else if word = "nan" then some .undefined
  else (readScientific? negative cs).map .number

/-- Keeps a power of ten within what any format can tell from zero or infinity. -/
def Scientific.clamp (s : Scientific) : Scientific :=
  let width : Int := (toString s.mantissa).length
  if s.mantissa = 0 then { s with exponent := 0 }
  else if 400 < s.exponent + width then { s with exponent := 400 }
  else if s.exponent + width < -400 then { s with exponent := -400 - width }
  else s

/-- The float nearest to the text. -/
def readFloat? (text : String) : Option Float :=
  (readSpelled? text).map fun
    | .number s =>
      let s := s.clamp
      withSign s.negative (Float.ofScientific s.mantissa (s.exponent < 0) s.exponent.natAbs)
    | .infinite negative => withSign negative (1.0 / 0.0)
    | .undefined => 0.0 / 0.0

/-- The single-precision float nearest to the text. -/
def readFloat32? (text : String) : Option Float32 :=
  (readSpelled? text).map fun
    | .number s =>
      let s := s.clamp
      let x := Float32.ofScientific s.mantissa (s.exponent < 0) s.exponent.natAbs
      if s.negative then -x else x
    | .infinite negative => if negative then -(1.0 / 0.0) else 1.0 / 0.0
    | .undefined => 0.0 / 0.0

end TypedQuery.Number

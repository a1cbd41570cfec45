import TypedQuery.Number.Shortest

/-!
# Layouts of floating-point numbers

Two texts of a float, both from its shortest digits.

* `plainText`, `plainText32`: positional always, no point for an integer, `inf` and `-inf`.
* `compactText`: positional near one, an exponent elsewhere, and an integer keeps `.0`.
-/

namespace TypedQuery.Number

/-- A run of zeros. -/
def zeros (n : Nat) : String := "".pushn '0' n

/-- Digits with the decimal point in its place and no exponent. -/
def Digits.positional (d : Digits) : String :=
  let text := toString d.digits
  if 0 ≤ d.exponent then text ++ zeros d.exponent.toNat
  else
    let places := (-d.exponent).toNat
    if places < text.length then
      let whole := text.length - places
      String.ofList (text.toList.take whole) ++ "." ++ String.ofList (text.toList.drop whole)
    else "0." ++ zeros (places - text.length) ++ text

/-- The sign as it stands before a number. -/
def signText (negative : Bool) : String := if negative then "-" else ""

/-- The positional text of a reading, by the shortest digits of its magnitude. -/
def Reading.plainText (digits : Dyadic → Digits) : Reading → String
  | .undefined => "NaN"
  | .infinite negative => signText negative ++ "inf"
  | .finite d => signText d.negative ++ (digits d).positional

/-- The shortest digits of a double-precision magnitude. -/
def doubleDigits (d : Dyadic) : Digits := d.shortestDigits 52 (-1074)

/-- The shortest digits of a single-precision magnitude. -/
def singleDigits (d : Dyadic) : Digits := d.shortestDigits 23 (-149)

/-- The positional text of a float. -/
def plainText (x : Float) : String := (read x).plainText doubleDigits

/-- The positional text of a single-precision float. -/
def plainText32 (x : Float32) : String := (read32 x).plainText singleDigits

/-- An exponent, always with its sign. -/
def exponentText (power : Int) : String :=
  "e" ++ (if 0 ≤ power then "+" else "") ++ toString power

/-- Digits with an exponent, one digit before the point. -/
def Digits.scientific (d : Digits) : String :=
  let text := toString d.digits
  let power := exponentText (d.exponent + text.length - 1)
  match text.toList with
  | [] => "0.0"
  | [c] => String.singleton c ++ power
  | c :: rest => String.singleton c ++ "." ++ String.ofList rest ++ power

/-- Digits as the compact layout writes them: positional from `10^-5` up to `10^16`. -/
def Digits.compact (d : Digits) : String :=
  let point := d.exponent + (toString d.digits).length
  if d.digits = 0 then "0.0"
  else if -5 < point ∧ point ≤ 16 then
    if 0 ≤ d.exponent then d.positional ++ ".0" else d.positional
  else d.scientific

/-- The compact text of a float; a number that is not finite is `null`. -/
def compactText (x : Float) : String :=
  match read x with
  | .finite d => signText d.negative ++ (doubleDigits d).compact
  | _ => "null"

end TypedQuery.Number

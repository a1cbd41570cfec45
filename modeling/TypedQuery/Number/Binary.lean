/-!
# Binary floating-point numbers

Floating-point values of this library are never NaN: `Binary32` and `Binary64` carry the proof. A
finite number is a `Dyadic`, a signed integer times a power of two, and rounding to an integer, the
remainder and the order are all stated on that exact reading.

* `widen`, `narrow`: a number at the other precision.
* `orderKey`: an integer that orders the numbers of a format as their values, zero having one key.
* `Dyadic.roundMagnitude`: the magnitude of a dyadic rounded to an integer.
* `remainder`: the remainder with the sign of the dividend.
-/

namespace TypedQuery

/-- A binary64 number: any float but NaN. -/
structure Binary64 where
  toFloat : Float
  notNaN : toFloat.isNaN = false
  deriving DecidableEq

/-- A binary32 number: any single-precision float but NaN. -/
structure Binary32 where
  toFloat32 : Float32
  notNaN : toFloat32.isNaN = false
  deriving DecidableEq

/-- The float as a number, unless it is NaN. -/
def Binary64.ofFloat? (x : Float) : Option Binary64 :=
  if h : x.isNaN = false then some ⟨x, h⟩ else none

/-- The single-precision float as a number, unless it is NaN. -/
def Binary32.ofFloat32? (x : Float32) : Option Binary32 :=
  if h : x.isNaN = false then some ⟨x, h⟩ else none

namespace Number

/-! ## Precision -/

/-- The number of a format that is nearest to a float. -/
def nearest (format : Float.Model.Format) :
    Float.Model.UnpackedFloat → Float.Model.UnpackedFloat
  | .finite sign mantissa exponent _ => .round format sign mantissa exponent
  | x => x

/-- The float at double precision. -/
def widen (x : Float32) : Float := .ofModel (.pack (nearest .binary64 x.toModel.unpack))

/-- The nearest float of single precision. -/
def narrow (x : Float) : Float32 := .ofModel (.pack (nearest .binary32 x.toModel.unpack))

end Number

/-- The same number at double precision. -/
def Binary32.widen (x : Binary32) : Float := Number.widen x.toFloat32

namespace Number

/-! ## Order -/

/-- Orders floats that are not NaN by value: the bits without the sign, negated for a negative. -/
def orderKey (x : Float) : Int :=
  let bits := x.toBits.toNat
  if bits < Nat.pow 2 63 then bits else -((bits - Nat.pow 2 63 : Nat) : Int)

/-- Orders single-precision floats that are not NaN by value. -/
def orderKey32 (x : Float32) : Int :=
  let bits := x.toBits.toNat
  if bits < Nat.pow 2 31 then bits else -((bits - Nat.pow 2 31 : Nat) : Int)

/-- The order of two floats; none if one of them is NaN. -/
def compareFloat? (x y : Float) : Option Ordering :=
  if x.isNaN || y.isNaN then none else some (compare (orderKey x) (orderKey y))

/-! ## Exact reading -/

/-- The number `(-1)^negative * mantissa * 2^exponent`. -/
structure Dyadic where
  negative : Bool
  mantissa : Nat
  exponent : Int
  deriving DecidableEq, Repr

/-- What a float stands for. -/
inductive Reading where
  | finite (d : Dyadic)
  | infinite (negative : Bool)
  | undefined
  deriving DecidableEq, Repr

/-- The reading of bits of a format with `frac` fraction bits and `width` exponent bits. -/
def readBits (frac width : Nat) (bits : Nat) : Reading :=
  let negative := decide (Nat.pow 2 (frac + width) ≤ bits)
  let field := bits / Nat.pow 2 frac % Nat.pow 2 width
  let fraction := bits % Nat.pow 2 frac
  let lowest : Int := 2 - Nat.pow 2 (width - 1) - frac
  if field = Nat.pow 2 width - 1 then
    if fraction = 0 then .infinite negative else .undefined
  else if field = 0 then .finite ⟨negative, fraction, lowest⟩
  else .finite ⟨negative, fraction + Nat.pow 2 frac, lowest + field - 1⟩

/-- The reading of a float. -/
def read (x : Float) : Reading := readBits 52 11 x.toBits.toNat

/-- The reading of a single-precision float. -/
def read32 (x : Float32) : Reading := readBits 23 8 x.toBits.toNat

/-! ## Rounding to an integer -/

/-- The ways to round to an integer. -/
inductive Rounding where
  | down | up | towardZero | halfToEven
  deriving DecidableEq, Repr

/-- The magnitude of a dyadic rounded to an integer. -/
def Dyadic.roundMagnitude (d : Dyadic) (mode : Rounding) : Nat :=
  if 0 ≤ d.exponent then d.mantissa * Nat.pow 2 d.exponent.toNat
  else
    let unit := Nat.pow 2 (-d.exponent).toNat
    let whole := d.mantissa / unit
    let rest := d.mantissa % unit
    match mode with
    | .towardZero => whole
    | .down => if d.negative && rest != 0 then whole + 1 else whole
    | .up => if !d.negative && rest != 0 then whole + 1 else whole
    | .halfToEven =>
      if 2 * rest < unit then whole
      else if unit < 2 * rest then whole + 1
      else whole + whole % 2

/-- Gives a float the sign. -/
def withSign (negative : Bool) (x : Float) : Float := if negative then -x else x

/-- Rounds a float to an integer; a zero keeps the sign of the argument. -/
def roundFloat (mode : Rounding) (x : Float) : Float :=
  match read x with
  | .finite d =>
    if 0 ≤ d.exponent then x
    else withSign d.negative (Float.ofNat (d.roundMagnitude mode))
  | _ => x

/-- The ends of the 128-bit signed integers. -/
def int128Least : Int := -170141183460469231731687303715884105728

@[inherit_doc int128Least]
def int128Greatest : Int := 170141183460469231731687303715884105727

/-- The integer part of a float, held within 128 bits; zero for NaN. -/
def truncate128 (x : Float) : Int :=
  match read x with
  | .undefined => 0
  | .infinite negative => if negative then int128Least else int128Greatest
  | .finite d =>
    let magnitude : Int := d.roundMagnitude .towardZero
    max int128Least (min int128Greatest (if d.negative then -magnitude else magnitude))

/-- The integer part of a float, held within 64 bits; zero for NaN. -/
def truncate64 (x : Float) : Int :=
  max (-9223372036854775808) (min 9223372036854775807 (truncate128 x))

/-! ## Remainder -/

/-- The remainder of a division that rounds toward zero, exact, with the sign of the dividend. -/
def remainder (x y : Float) : Float :=
  match read x, read y with
  | .finite a, .finite b =>
    if b.mantissa = 0 then 0.0 / 0.0
    else
      let e := min a.exponent b.exponent
      let scaled (d : Dyadic) : Nat := d.mantissa * Nat.pow 2 (d.exponent - e).toNat
      let m := scaled a % scaled b
      withSign a.negative ((Float.ofNat m).scaleB e)
  | .finite _, .infinite _ => x
  | _, _ => 0.0 / 0.0

end Number

end TypedQuery

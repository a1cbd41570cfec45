/-!
# Sized integers

An integer of one of the eight fixed widths: its width, its value, and the proof that the value
lies between the width's ends. Nothing ever wraps silently: `SizedInt.ofInt?` refuses a number that
does not fit, and `SizedInt.int32`, `SizedInt.int64` say which bits they keep.

* `IntWidth.least`, `IntWidth.greatest`: the ends of a width.
* **`SizedInt.ofInt?_eq_some_iff`**: a number that fits is kept as it is.
-/

namespace TypedQuery

/-- The eight widths of fixed-size integers. -/
inductive IntWidth where
  | sbyte | byte | int16 | uint16 | int32 | uint32 | int64 | uint64
  deriving DecidableEq, Repr

namespace IntWidth

/-- The least number of a width. -/
def least : IntWidth → Int
  | .sbyte => -128
  | .int16 => -32768
  | .int32 => -2147483648
  | .int64 => -9223372036854775808
  | .byte | .uint16 | .uint32 | .uint64 => 0

/-- The greatest number of a width. -/
def greatest : IntWidth → Int
  | .sbyte => 127
  | .byte => 255
  | .int16 => 32767
  | .uint16 => 65535
  | .int32 => 2147483647
  | .uint32 => 4294967295
  | .int64 => 9223372036854775807
  | .uint64 => 18446744073709551615

/-- The name of a width as it stands in the text of a type. -/
def name : IntWidth → String
  | .sbyte => "SByte"
  | .byte => "Byte"
  | .int16 => "Int16"
  | .uint16 => "UInt16"
  | .int32 => "Int32"
  | .uint32 => "UInt32"
  | .int64 => "Int64"
  | .uint64 => "UInt64"

/-- All widths, narrow ones first. -/
def all : List IntWidth :=
  [.sbyte, .byte, .int16, .uint16, .int32, .uint32, .int64, .uint64]

/-- Whether a number lies between the ends of a width. -/
def Holds (w : IntWidth) (n : Int) : Prop := w.least ≤ n ∧ n ≤ w.greatest

instance (w : IntWidth) (n : Int) : Decidable (w.Holds n) :=
  inferInstanceAs (Decidable (_ ∧ _))

end IntWidth

/-- An integer together with its width. -/
structure SizedInt where
  width : IntWidth
  val : Int
  fits : width.Holds val
  deriving DecidableEq

namespace SizedInt

/-- The number at a width, if it fits. -/
def ofInt? (w : IntWidth) (n : Int) : Option SizedInt :=
  if h : w.Holds n then some ⟨w, n, h⟩ else none

/-- The low 32 bits of a number, read as a signed number. -/
def int32 (n : Int) : SizedInt where
  width := .int32
  val := n.bmod 4294967296
  fits := by
    have h₁ := Int.le_bmod (x := n) (m := 4294967296) (by decide)
    have h₂ := Int.bmod_lt (x := n) (m := 4294967296) (by decide)
    constructor <;> simp only [IntWidth.least, IntWidth.greatest] <;> omega

/-- The low 64 bits of a number, read as a signed number. -/
def int64 (n : Int) : SizedInt where
  width := .int64
  val := n.bmod 18446744073709551616
  fits := by
    have h₁ := Int.le_bmod (x := n) (m := 18446744073709551616) (by decide)
    have h₂ := Int.bmod_lt (x := n) (m := 18446744073709551616) (by decide)
    constructor <;> simp only [IntWidth.least, IntWidth.greatest] <;> omega

/-- A byte. -/
def ofUInt8 (n : UInt8) : SizedInt where
  width := .byte
  val := n.toNat
  fits := by
    have h := n.toNat_lt
    constructor <;> simp only [IntWidth.least, IntWidth.greatest] <;> omega

/-- A signed byte. -/
def ofInt8 (n : Int8) : SizedInt where
  width := .sbyte
  val := n.toInt
  fits := by
    have h₁ := n.le_toInt
    have h₂ := n.toInt_lt
    constructor <;> simp only [IntWidth.least, IntWidth.greatest] <;> omega

/-- A signed integer of 16 bits. -/
def ofInt16 (n : Int16) : SizedInt where
  width := .int16
  val := n.toInt
  fits := by
    have h₁ := n.le_toInt
    have h₂ := n.toInt_lt
    constructor <;> simp only [IntWidth.least, IntWidth.greatest] <;> omega

/-- A signed integer of 32 bits. -/
def ofInt32 (n : Int32) : SizedInt where
  width := .int32
  val := n.toInt
  fits := by
    have h₁ := n.le_toInt
    have h₂ := n.toInt_lt
    constructor <;> simp only [IntWidth.least, IntWidth.greatest] <;> omega

/-- A signed integer of 64 bits. -/
def ofInt64 (n : Int64) : SizedInt where
  width := .int64
  val := n.toInt
  fits := by
    have h₁ := n.le_toInt
    have h₂ := n.toInt_lt
    constructor <;> simp only [IntWidth.least, IntWidth.greatest] <;> omega

theorem ofInt?_eq_some_iff {w : IntWidth} {n : Int} {k : SizedInt} :
    ofInt? w n = some k ↔ k.width = w ∧ k.val = n := by
  unfold ofInt?
  constructor
  · intro h
    split at h
    · cases h
      exact ⟨rfl, rfl⟩
    · cases h
  · rintro ⟨rfl, rfl⟩
    rw [dif_pos k.fits]

end SizedInt

end TypedQuery

import Mathlib.Tactic.Common
import TypedQuery.Eval.Scalar

/-!
# Quotients of integers

An integer as a float may be infinite, but it is a number, and so is what it gives divided by a finite
number other than zero. The fraction of a second is such a quotient, and hence never null. A number is
still one at the other precision.

* `Number.isNaN_stored`: rounding to a format gives a number.
* `Number.isNaN_roundFloat`: rounding to an integer gives a number.
* `Number.isNaN_narrow`, `Number.isNaN_widen`: numbers at the other precision.
* **`Value.ofDecimal_ofInt_div`**: the quotient as a decimal.
-/

namespace TypedQuery

namespace Number

open Float.Model

theorem isNaN_dite {p : Prop} [Decidable p] {x : p → UnpackedFloat} {y : ¬p → UnpackedFloat}
    (hx : ∀ h, (x h).isNaN = false) (hy : ∀ h, (y h).isNaN = false) : (dite p x y).isNaN = false := by
  by_cases h : p
  · rw [dif_pos h]
    exact hx h
  · rw [dif_neg h]
    exact hy h

theorem isNaN_ite {p : Prop} [Decidable p] {x y : UnpackedFloat} (hx : x.isNaN = false)
    (hy : y.isNaN = false) : (if p then x else y).isNaN = false :=
  isNaN_dite (p := p) (fun _ => hx) fun _ => hy

/-- A float whose exponent has not all bits set is a number. -/
theorem isNaN_unpack {format : Format} {bits : BitVec format.numBits}
    (h : UnpackedFloat.unpackExponent bits ≠ -1#_) :
    (UnpackedFloat.unpack format bits).isNaN = false := by
  delta UnpackedFloat.unpack
  rw [if_neg h]
  exact isNaN_ite (isNaN_dite (fun _ => rfl) fun _ => rfl) rfl

section Stored

variable {format : Format} (hformat : format = .binary32 ∨ format = .binary64)
include hformat

theorem isNaN_unpack_infinity (sign : UnpackedFloat.Sign) :
    (UnpackedFloat.unpack format (UnpackedFloat.packedInfinity _ sign)).isNaN = false := by
  rcases hformat with rfl | rfl <;> cases sign <;> decide +kernel

/-- A number stays a number when it is stored in one of the two formats. -/
theorem isNaN_stored {u : UnpackedFloat} (h : u.isNaN = false) :
    (UnpackedFloat.unpack format (UnpackedFloat.pack format u)).isNaN = false := by
  fun_cases UnpackedFloat.pack format u with
  | case1 => cases h
  | case2 sign => exact isNaN_unpack_infinity hformat sign
  | case3 sign =>
    refine isNaN_unpack ?_
    rcases hformat with rfl | rfl <;> simp [UnpackedFloat.packedZero]
  | case4 sign => exact isNaN_unpack_infinity hformat sign
  | case5 sign mantissa exponent hm actualMantissaBits biasedExponent h₁ h₂ =>
    -- the exponent of a finite number is below the one that is kept for infinities
    refine isNaN_unpack ?_
    simp only [UnpackedFloat.unpackExponent_packComponents]
    rw [ne_eq, BitVec.neg_one_eq_allOnes, ← BitVec.toNat_inj, BitVec.toNat_ofNat,
      BitVec.toNat_allOnes, Nat.mod_eq_of_lt (by omega)]
    omega
  | case6 =>
    refine isNaN_unpack ?_
    rcases hformat with rfl | rfl <;> simp

end Stored

/-- A number stays a number when it is stored. -/
theorem isNaN_unpack_pack {u : UnpackedFloat} (h : u.isNaN = false) :
    (Float.Model.unpack (Float.Model.pack u)).isNaN = false :=
  isNaN_stored (.inr rfl) h

theorem isNaN_roundWithAccuracy (spec : Format) (sign : UnpackedFloat.Sign) (mantissa : Nat)
    (exponent : Int) (accuracy : UnpackedFloat.Accuracy) :
    (UnpackedFloat.roundWithAccuracy spec sign mantissa exponent accuracy).isNaN = false := by
  unfold UnpackedFloat.roundWithAccuracy
  exact isNaN_dite (fun _ => rfl) fun _ => rfl

theorem isNaN_normalize (spec : Format) (mantissa exponent : Int) (sign : UnpackedFloat.Sign) :
    (UnpackedFloat.normalize spec mantissa exponent sign).isNaN = false := by
  unfold UnpackedFloat.normalize
  split
  · exact isNaN_roundWithAccuracy ..
  · rfl
  · exact isNaN_roundWithAccuracy ..

/-- Whether the number is finite and not zero. -/
def isDivisor : UnpackedFloat → Bool
  | .finite .. => true
  | _ => false

section Divisor

variable (spec : Format) {u v : UnpackedFloat} (hu : u.isNaN = false) (hv : isDivisor v = true)
include hu hv

theorem isNaN_div : (UnpackedFloat.div spec u v).isNaN = false := by
  cases v with
  | finite => cases u <;> first | rfl | exact isNaN_roundWithAccuracy .. | cases hu
  | _ => cases hv

theorem isNaN_mul : (UnpackedFloat.mul spec u v).isNaN = false := by
  cases v with
  | finite => cases u <;> first | rfl | exact isNaN_roundWithAccuracy .. | cases hu
  | _ => cases hv

end Divisor

theorem isNaN_ofScientific (spec : Format) (mantissa : Nat) (exponent : Int) :
    (UnpackedFloat.ofScientific spec mantissa exponent).isNaN = false := by
  unfold UnpackedFloat.ofScientific
  refine isNaN_dite (fun _ => rfl) fun _ => isNaN_ite rfl (isNaN_ite rfl (isNaN_ite ?_ ?_))
  · exact isNaN_mul _ rfl rfl
  · exact isNaN_div _ rfl rfl

theorem isNaN_ofNat (n : Nat) : (Float.ofNat n).isNaN = false := by
  change (Float.ofScientific n false 0).isNaN = false
  unfold Float.ofScientific
  simp only [Bool.false_eq_true, if_false]
  split_ifs
  · have hone : isDivisor (Float.exactlyRepresentablePowersOfTen[0]).toModel.unpack = true := by
      decide +kernel
    exact isNaN_unpack_pack (isNaN_mul _ (isNaN_unpack_pack (isNaN_normalize ..)) hone)
  · exact isNaN_unpack_pack (isNaN_ofScientific ..)

theorem isNaN_neg {x : Float} (h : x.isNaN = false) : (-x).isNaN = false := by
  refine isNaN_unpack_pack ?_
  have hx : x.toModel.unpack.isNaN = false := h
  revert hx
  cases x.toModel.unpack <;> intro hx <;> first | rfl | cases hx

theorem isNaN_ofInt (n : Int) : (Float.ofInt n).isNaN = false := by
  cases n with
  | ofNat n => exact isNaN_ofNat n
  | negSucc n => exact isNaN_neg (isNaN_ofNat _)

/-- A number that is rounded to an integer is a number. -/
theorem isNaN_roundFloat (mode : Rounding) {x : Float} (h : x.isNaN = false) :
    (roundFloat mode x).isNaN = false := by
  unfold roundFloat
  split
  · split_ifs
    · exact h
    · unfold withSign
      split_ifs
      · exact isNaN_neg (isNaN_ofNat _)
      · exact isNaN_ofNat _
  · exact h

/-! ## Precision -/

/-- The nearest number of a format is a number. -/
theorem isNaN_nearest (format : Format) {u : UnpackedFloat} (h : u.isNaN = false) :
    (nearest format u).isNaN = false := by
  cases u with
  | finite sign mantissa exponent =>
    unfold nearest UnpackedFloat.round
    exact isNaN_roundWithAccuracy ..
  | notANumber => cases h
  | _ => rfl

theorem isNaN_narrow {x : Float} (h : x.isNaN = false) : (narrow x).isNaN = false :=
  isNaN_stored (.inl rfl) (isNaN_nearest .binary32 h)

theorem isNaN_widen (x : Binary32) : x.widen.isNaN = false :=
  isNaN_stored (.inr rfl) (isNaN_nearest .binary64 x.notNaN)

end Number

/-- **An integer divided by a finite number is a decimal**, and not null. -/
theorem Value.ofDecimal_ofInt_div (n : Int) {x : Float} (hx : Number.isDivisor x.toModel.unpack = true) :
    ∃ y, Value.ofDecimal (Float.ofInt n / x) = .decimal y := by
  have h : (Float.ofInt n / x).isNaN = false :=
    Number.isNaN_unpack_pack (Number.isNaN_div _ (Number.isNaN_ofInt n) hx)
  unfold Value.ofDecimal Binary64.ofFloat?
  rw [dif_pos h]
  exact ⟨_, rfl⟩

end TypedQuery

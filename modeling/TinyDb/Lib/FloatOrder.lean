/-
This file places the doubles that are numbers in a linear order. A double is placed by its
sign, its exponent and its mantissa, and `<` and `==` on doubles are the order and the
equality of these places. The two zeros have one place, and a NaN has none of its own.
-/

import Mathlib

namespace FloatOrder

open Float.Model

variable {x y : Float}

attribute [local instance] lexOrd

/-- The place of a double: its class between the infinities, its exponent and its mantissa. -/
abbrev Place := Int × Int × Int

/-- The place of an unpacked double. -/
def unpackedPlace : UnpackedFloat → Place
  | .infinity .negative => (-2, 0, 0)
  | .finite .negative mantissa exponent _ => (-1, -exponent, -(mantissa : Int))
  | .zero _ => (0, 0, 0)
  | .finite .positive mantissa exponent _ => (1, exponent, mantissa)
  | .infinity .positive => (2, 0, 0)
  | .notANumber => (0, 0, 0)

/-- The place of a double. -/
def place (x : Float) : Place := unpackedPlace x.toModel.unpack

theorem compare_neg (x y : Int) : compare (-x) (-y) = (compare x y).swap := by
  have order : compare (-x) (-y) = compare y x := by
    rw [Int.compare_eq_ite_lt, Int.compare_eq_ite_lt]
    simp only [Int.neg_lt_neg_iff]
  rw [order]
  exact Std.OrientedCmp.eq_swap

theorem compare_natCast (x y : Nat) : compare (x : Int) (y : Int) = compare x y := by
  rw [Int.compare_eq_ite_lt, Nat.compare_eq_ite_lt]
  simp only [Int.ofNat_lt]

/-- Comparing two numbers is comparing their places. -/
theorem compare_unpacked {x y : UnpackedFloat} (xNumber : x ≠ .notANumber)
    (yNumber : y ≠ .notANumber) :
    x.compare y = some (compare (unpackedPlace x) (unpackedPlace y)) := by
  cases x with
  | notANumber => exact absurd rfl xNumber
  | infinity sign =>
    cases y with
    | notANumber => exact absurd rfl yNumber
    | infinity other => cases sign <;> cases other <;> rfl
    | zero => cases sign <;> rfl
    | finite other => cases sign <;> cases other <;> rfl
  | zero =>
    cases y with
    | notANumber => exact absurd rfl yNumber
    | infinity other => cases other <;> rfl
    | zero => rfl
    | finite other => cases other <;> rfl
  | finite sign mantissa exponent =>
    cases y with
    | notANumber => exact absurd rfl yNumber
    | infinity other => cases sign <;> cases other <;> rfl
    | zero => cases sign <;> rfl
    | finite other otherMantissa otherExponent =>
      -- Of two negative numbers the one with the larger exponent is the smaller.
      cases sign <;> cases other
      case negative.negative =>
        show some _ = some ((compare (-exponent) (-otherExponent)).then
          (compare (-(mantissa : Int)) (-otherMantissa)))
        rw [compare_neg, compare_neg, compare_natCast, Ordering.swap_then]
      case positive.positive =>
        show some _ = some ((compare exponent otherExponent).then
          (compare (mantissa : Int) otherMantissa))
        rw [compare_natCast]
      all_goals rfl

theorem unpack_ne_notANumber (number : x.isNaN = false) :
    x.toModel.unpack ≠ .notANumber := by
  intro isNaN
  rw [Float.isNaN, Float.Model.isNaN, isNaN] at number
  cases number

section

variable (xNumber : x.isNaN = false) (yNumber : y.isNaN = false)
include xNumber yNumber

/-- On numbers, `<` is the order of the places. -/
theorem lt_iff :
    x.lt y = true ↔ compare (place x) (place y) = .lt := by
  have compared := compare_unpacked (unpack_ne_notANumber xNumber) (unpack_ne_notANumber yNumber)
  rw [Float.lt, decide_eq_true_iff]
  show (x.toModel.unpack.compare y.toModel.unpack == some .lt) = true ↔ _
  rw [compared, beq_iff_eq, Option.some_inj]
  rfl

/-- On numbers, `<=` is the order of the places. -/
theorem le_iff :
    x.le y = true ↔ (compare (place x) (place y)).isLE = true := by
  have compared := compare_unpacked (unpack_ne_notANumber xNumber) (unpack_ne_notANumber yNumber)
  rw [Float.le, decide_eq_true_iff]
  show (x.toModel.unpack.compare y.toModel.unpack).any (·.isLE) = true ↔ _
  rw [compared]
  rfl

/-- On numbers, `==` is the equality of the places. -/
theorem beq_iff :
    x.beq y = true ↔ place x = place y := by
  have compared := compare_unpacked (unpack_ne_notANumber xNumber) (unpack_ne_notANumber yNumber)
  show (x.toModel.unpack.compare y.toModel.unpack == some .eq) = true ↔ _
  rw [compared, beq_iff_eq, Option.some_inj, Std.compare_eq_iff_eq]
  rfl

end

end FloatOrder

/-
This file says what the conversion of an integer to a double does. The result is the
nearest integer with a mantissa of 53 bits, and of two equally near ones the even one.
Rounding keeps the order, it changes no integer up to `2^53`, and comparing the doubles of
two integers is comparing the rounded integers.

A double that holds an integer is in the canonical form of the format: its mantissa has
exactly 53 bits. Its value is counted in units of `2^-52`, which makes the value of every
such double a whole number.
-/

import Mathlib
import TinyDb.Lib.FloatOrder

namespace FloatRounding

open Float.Model Float.Model.UnpackedFloat

variable {m n m₁ m₂ extra : Nat} {a b z e₁ e₂ : Int} {extended : ExtendedMantissa}

/-! ### Rounding of integers -/

/-- The integer nearest to `n / 2^shift`, and of two the even one. -/
def nearestQuotient (n shift : Nat) : Nat :=
  if 2 * (n % 2 ^ shift) < 2 ^ shift then n / 2 ^ shift
  else if 2 * (n % 2 ^ shift) = 2 ^ shift then n / 2 ^ shift + n / 2 ^ shift % 2
  else n / 2 ^ shift + 1

/-- The number of bits over 53. -/
def excess (n : Nat) : Nat := n.log2 - 52

/-- The nearest number of 53 bits. -/
def nearest (n : Nat) : Nat := nearestQuotient n (excess n) * 2 ^ excess n

/-- The nearest integer of 53 bits, which has the sign of the integer. -/
def nearestInt (z : Int) : Int := z.sign * nearest z.natAbs

theorem le_nearestQuotient (n shift : Nat) : n / 2 ^ shift ≤ nearestQuotient n shift := by
  unfold nearestQuotient
  split_ifs <;> omega

theorem nearestQuotient_le (n shift : Nat) : nearestQuotient n shift ≤ n / 2 ^ shift + 1 := by
  unfold nearestQuotient
  split_ifs <;> omega

theorem nearestQuotient_zero (n : Nat) : nearestQuotient n 0 = n := by
  simp [nearestQuotient, Nat.mod_one]

theorem nearestQuotient_mono (below : m ≤ n) (shift : Nat) :
    nearestQuotient m shift ≤ nearestQuotient n shift := by
  rcases (Nat.div_le_div_right below).lt_or_eq with less | same
  · exact (nearestQuotient_le m _).trans (less.trans_le (le_nearestQuotient n _))
  · have remainders : m % 2 ^ shift ≤ n % 2 ^ shift := by
      have mParts := Nat.mod_add_div m (2 ^ shift)
      have nParts := Nat.mod_add_div n (2 ^ shift)
      rw [same] at mParts
      omega
    unfold nearestQuotient
    rw [same]
    split_ifs <;> omega

/-- A factor that is a power of two can be taken out of both. -/
theorem nearestQuotient_scale (n shift extra : Nat) :
    nearestQuotient (n * 2 ^ extra) (shift + extra) = nearestQuotient n shift := by
  have positive : 0 < 2 ^ extra := Nat.two_pow_pos _
  unfold nearestQuotient
  rw [pow_add, Nat.mul_div_mul_right _ _ positive, Nat.mul_mod_mul_right, ← mul_assoc]
  simp only [Nat.mul_lt_mul_right positive, Nat.mul_left_inj positive.ne']

theorem nearestQuotient_exact (n shift extra : Nat) :
    nearestQuotient (n * 2 ^ (shift + extra)) shift = n * 2 ^ extra := by
  have factor : n * 2 ^ (shift + extra) = n * 2 ^ extra * 2 ^ shift := by rw [pow_add]; ring
  have scaled := nearestQuotient_scale (n * 2 ^ extra) 0 shift
  rwa [Nat.zero_add, nearestQuotient_zero, ← factor] at scaled

/-- Up to `2^53` nothing is rounded. -/
theorem nearest_eq_self (small : n ≤ 2 ^ 53) : nearest n = n := by
  rcases small.lt_or_eq with less | rfl
  · have short : excess n = 0 := by
      rcases Nat.eq_zero_or_pos n with rfl | positive
      · rfl
      · have := (Nat.log2_lt positive.ne').mpr less
        unfold excess
        omega
    rw [nearest, short, nearestQuotient_zero, pow_zero, mul_one]
  · decide +kernel

/-- A positive number rounds to one between the powers of two around it. -/
theorem nearest_bounds (positive : n ≠ 0) :
    2 ^ n.log2 ≤ nearest n ∧ nearest n ≤ 2 ^ (n.log2 + 1) := by
  rcases Nat.lt_or_ge n.log2 52 with short | long
  · have small : n ≤ 2 ^ 53 :=
      (Nat.lt_log2_self.trans_le (Nat.pow_le_pow_right (by decide) (by omega))).le
    rw [nearest_eq_self small]
    exact ⟨Nat.log2_self_le positive, Nat.lt_log2_self.le⟩
  · have lower : 2 ^ 52 ≤ n / 2 ^ excess n := by
      rw [Nat.le_div_iff_mul_le (Nat.two_pow_pos _), ← pow_add, excess, Nat.add_sub_cancel' long]
      exact Nat.log2_self_le positive
    have upper : n / 2 ^ excess n < 2 ^ 53 := by
      rw [Nat.div_lt_iff_lt_mul (Nat.two_pow_pos _), ← pow_add, excess,
        show 53 + (n.log2 - 52) = n.log2 + 1 by omega]
      exact Nat.lt_log2_self
    have parts : n.log2 = 52 + excess n := by unfold excess; omega
    constructor
    · rw [parts, pow_add]
      exact Nat.mul_le_mul_right _ (lower.trans (le_nearestQuotient _ _))
    · rw [parts, Nat.add_right_comm, pow_add]
      exact Nat.mul_le_mul_right _ ((nearestQuotient_le _ _).trans upper)

theorem nearest_mono (below : m ≤ n) : nearest m ≤ nearest n := by
  rcases Nat.eq_zero_or_pos m with rfl | mPositive
  · exact Nat.zero_le _
  · have nPositive : n ≠ 0 := (mPositive.trans_le below).ne'
    have logs : m.log2 ≤ n.log2 :=
      (Nat.le_log2 nPositive).mpr ((Nat.log2_self_le mPositive.ne').trans below)
    rcases logs.lt_or_eq with less | same
    · calc nearest m ≤ 2 ^ (m.log2 + 1) := (nearest_bounds mPositive.ne').2
        _ ≤ 2 ^ n.log2 := Nat.pow_le_pow_right (by decide) less
        _ ≤ nearest n := (nearest_bounds nPositive).1
    · unfold nearest excess
      rw [same]
      exact Nat.mul_le_mul_right _ (nearestQuotient_mono below _)

theorem nearest_eq_zero : nearest n = 0 ↔ n = 0 := by
  constructor
  · intro isZero
    by_contra positive
    exact absurd (isZero ▸ (nearest_bounds positive).1) (Nat.two_pow_pos _).not_ge
  · rintro rfl
    rfl

theorem nearestInt_ofNat (n : Nat) : nearestInt n = nearest n := by
  rcases Nat.eq_zero_or_pos n with rfl | positive
  · rfl
  · rw [nearestInt, Int.sign_eq_one_of_pos (by exact_mod_cast positive), one_mul,
      Int.natAbs_natCast]

theorem nearestInt_neg (z : Int) : nearestInt (-z) = -nearestInt z := by
  rw [nearestInt, nearestInt, Int.sign_neg, Int.natAbs_neg, neg_mul]

/-- Rounding keeps the order. -/
theorem nearestInt_mono (below : a ≤ b) : nearestInt a ≤ nearestInt b := by
  obtain ⟨m, rfl | rfl⟩ := a.eq_nat_or_neg
  · obtain ⟨n, rfl⟩ := Int.eq_ofNat_of_zero_le ((Int.natCast_nonneg m).trans below)
    rw [nearestInt_ofNat, nearestInt_ofNat]
    exact_mod_cast nearest_mono (by exact_mod_cast below)
  · obtain ⟨n, rfl | rfl⟩ := b.eq_nat_or_neg
    · rw [nearestInt_neg, nearestInt_ofNat, nearestInt_ofNat]
      omega
    · rw [nearestInt_neg, nearestInt_neg, nearestInt_ofNat, nearestInt_ofNat]
      have := nearest_mono (m := n) (n := m) (by omega)
      omega

theorem nearestInt_eq_self (small : z.natAbs ≤ 2 ^ 53) : nearestInt z = z := by
  rw [nearestInt, nearest_eq_self small, Int.sign_mul_natAbs]

theorem nearestInt_eq_zero : nearestInt z = 0 ↔ z = 0 := by
  rw [nearestInt, mul_eq_zero, Int.sign_eq_zero_iff_zero, Int.natCast_eq_zero, nearest_eq_zero,
    Int.natAbs_eq_zero, or_self]

/-! ### The mantissa of the model -/

/-- What the two bits behind a mantissa say about the remainder of `n / 2^shift`. -/
def Tracks (extended : ExtendedMantissa) (n shift : Nat) : Prop :=
  extended.mantissa = n / 2 ^ shift ∧
  match extended.roundBit, extended.stickyBit with
  | false, false => n % 2 ^ shift = 0
  | false, true => 0 < n % 2 ^ shift ∧ 2 * (n % 2 ^ shift) < 2 ^ shift
  | true, false => 2 * (n % 2 ^ shift) = 2 ^ shift
  | true, true => 2 ^ shift < 2 * (n % 2 ^ shift)

theorem Tracks.shiftRightOne {shift : Nat} (tracks : Tracks extended n shift) :
    Tracks extended.shiftRightOne n (shift + 1) := by
  obtain ⟨mantissa, roundBit, stickyBit⟩ := extended
  obtain ⟨rfl, bits⟩ := tracks
  have remainder := Nat.mod_mul (a := 2 ^ shift) (b := 2) (x := n)
  have small := Nat.mod_lt n (Nat.two_pow_pos shift)
  refine ⟨by rw [pow_succ, ← Nat.div_div_eq_div_mul]; rfl, ?_⟩
  simp only [ExtendedMantissa.shiftRightOne, pow_succ, remainder]
  rcases Nat.mod_two_eq_zero_or_one (n / 2 ^ shift) with even | odd
  · rw [even]
    cases roundBit <;> cases stickyBit <;> simp_all <;> omega
  · rw [odd]
    cases roundBit <;> cases stickyBit <;> simp_all <;> omega

/-- Shifting a mantissa keeps track of what it drops. -/
theorem tracks_shift (n shift : Nat) :
    Tracks (ExtendedMantissa.ofMantissaAndAccuracy n .exact >>> shift) n shift := by
  induction shift with
  | zero => exact ⟨(Nat.div_one n).symm, Nat.mod_one n⟩
  | succ shift inductionHypothesis => exact inductionHypothesis.shiftRightOne

theorem Tracks.roundedMantissa {shift : Nat} (tracks : Tracks extended n shift) :
    extended.roundedMantissa = nearestQuotient n shift := by
  obtain ⟨mantissa, roundBit, stickyBit⟩ := extended
  obtain ⟨rfl, bits⟩ := tracks
  have positive := Nat.two_pow_pos shift
  unfold nearestQuotient
  cases roundBit <;> cases stickyBit <;>
    simp only [ExtendedMantissa.roundedMantissa, ExtendedMantissa.accuracy,
      Accuracy.roundToNearestEven] at bits ⊢ <;>
    split_ifs <;> omega

/-! ### Canonical doubles -/

section Canonical

variable {mantissa : Nat} {exponent : Int}

theorem targetExponent_eq (mantissa : Nat) (exponent : Int) :
    Format.binary64.targetExponent (totalExponent mantissa exponent) =
      max (mantissa.log2 + exponent - 52) (-1074) := by
  show max ((mantissa.log2 : Int) + 1 + exponent - 53) (-1074) = _
  congr 1
  omega

theorem shift_eq {shift : Nat}
    (amount : (max (mantissa.log2 + exponent - 52) (-1074) - exponent).toNat = shift) :
    shiftToTargetExponent Format.binary64 mantissa exponent .exact =
      (ExtendedMantissa.ofMantissaAndAccuracy mantissa .exact >>> shift, exponent + shift) := by
  show shiftToExponent mantissa exponent .exact _ = _
  rw [targetExponent_eq, ← amount]
  rfl

/-- A mantissa with its 53 bits. -/
structure Canonical (mantissa : Nat) (exponent : Int) : Prop where
  lower : 2 ^ 52 ≤ mantissa
  upper : mantissa < 2 ^ 53
  least : -1074 ≤ exponent
  most : exponent ≤ 970

theorem Canonical.log2 (canonical : Canonical mantissa exponent) : mantissa.log2 = 52 := by
  have positive : mantissa ≠ 0 := (Nat.two_pow_pos 52).trans_le canonical.lower |>.ne'
  have upper := (Nat.log2_lt positive).mpr canonical.upper
  have lower := (Nat.le_log2 positive).mpr canonical.lower
  omega

theorem Canonical.pos (canonical : Canonical mantissa exponent) : 0 < mantissa :=
  (Nat.two_pow_pos 52).trans_le canonical.lower

/-- Rounding keeps a canonical double. -/
theorem Canonical.shift (canonical : Canonical mantissa exponent) :
    shiftToTargetExponent Format.binary64 mantissa exponent .exact =
      (⟨mantissa, false, false⟩, exponent) := by
  have least := canonical.least
  have amount : (max (mantissa.log2 + exponent - 52) (-1074) - exponent).toNat = 0 := by
    rw [canonical.log2]
    omega
  rw [shift_eq amount, Nat.cast_zero, add_zero]
  rfl

theorem toBitVec_ofBitVec (sign : Sign) : Sign.ofBitVec sign.toBitVec = sign := by
  cases sign <;> rfl

theorem unpackSign_packComponents {spec : Format} (sign : Sign)
    (exponent : BitVec spec.exponentBits) (mantissa : BitVec spec.mantissaBitsWithoutImplicit) :
    unpackSign (packComponents spec sign exponent mantissa) = sign.toBitVec := by
  apply BitVec.eq_of_getLsbD_eq
  intro i inside
  obtain rfl : i = 0 := by omega
  simp [unpackSign, packComponents, BitVec.getLsbD_append, BitVec.getElem_append]

/-- A mantissa of 53 bits is its lower 52 bits behind a one. -/
theorem Canonical.implicit_bit (canonical : Canonical mantissa exponent) :
    (1#1 ++ BitVec.ofNat 52 mantissa).toNat = mantissa := by
  have lower := canonical.lower
  have upper := canonical.upper
  rw [BitVec.toNat_append, ← Nat.shiftLeft_add_eq_or_of_lt (BitVec.ofNat 52 _).isLt,
    BitVec.toNat_ofNat, Nat.shiftLeft_eq]
  show 1 * 2 ^ 52 + mantissa % 2 ^ 52 = mantissa
  omega

/-- Packing a canonical double loses nothing. -/
theorem Canonical.unpack_pack (canonical : Canonical mantissa exponent) (sign : Sign) :
    UnpackedFloat.unpack Format.binary64
        (UnpackedFloat.pack Format.binary64 (.finite sign mantissa exponent canonical.pos)) =
      .finite sign mantissa exponent canonical.pos := by
  obtain ⟨biased, biasedEq⟩ : ∃ biased : Nat, exponent + 1023 + 52 = biased :=
    Int.eq_ofNat_of_zero_le (by linarith [canonical.least])
  have most := canonical.most
  have least := canonical.least
  have packed : UnpackedFloat.pack Format.binary64
        (.finite sign mantissa exponent canonical.pos) =
      packComponents Format.binary64 sign (BitVec.ofNat 11 biased) (BitVec.ofNat 52 mantissa) := by
    show (if 2 ^ 11 ≤ (exponent + 1023 + 52).toNat + 1 then _ else
      if mantissa.log2 + 1 = 53 then packComponents Format.binary64 sign
        (BitVec.ofNat 11 (exponent + 1023 + 52).toNat) (BitVec.ofNat 52 mantissa) else _) = _
    rw [biasedEq, Int.toNat_natCast, if_neg (by omega), canonical.log2, if_pos rfl]
  have exponentNat : (BitVec.ofNat 11 biased).toNat = biased := Nat.mod_eq_of_lt (by omega)
  have notOnes : BitVec.ofNat 11 biased ≠ -1#11 := by
    intro same
    have := exponentNat.symm.trans (congrArg _ same)
    simp at this
    omega
  have notZero : BitVec.ofNat 11 biased ≠ 0#11 := by
    intro same
    have := exponentNat.symm.trans (congrArg _ same)
    simp at this
    omega
  rw [packed, UnpackedFloat.unpack]
  simp only [unpackMantissa_packComponents, unpackExponent_packComponents,
    unpackSign_packComponents, toBitVec_ofBitVec, if_neg notOnes, if_neg notZero,
    canonical.implicit_bit, exponentNat]
  congr 1
  show (biased : Int) - (1023 + 52) = exponent
  omega

end Canonical

/-! ### Doubles that hold integers -/

/-- The double is an integer. -/
def HasValue : UnpackedFloat → Int → Prop
  | .zero _, value => value = 0
  | .finite sign mantissa exponent _, value =>
    Canonical mantissa exponent ∧
      ∃ scale : Nat, exponent = scale - 52 ∧ sign.apply (mantissa * 2 ^ scale) = value * 2 ^ 52
  | _, _ => False

section Doubles

variable {x : UnpackedFloat} {value exponent : Int} {mantissa n : Nat}

theorem HasValue.unpack_pack (hasValue : HasValue x value) :
    UnpackedFloat.unpack Format.binary64 (UnpackedFloat.pack Format.binary64 x) = x := by
  cases x with
  | zero sign => cases sign <;> rfl
  | finite sign mantissa exponent => exact hasValue.1.unpack_pack _
  | infinity | notANumber => exact hasValue.elim

theorem HasValue.neg (hasValue : HasValue x value) : HasValue x.neg (-value) := by
  cases x with
  | zero sign => exact neg_eq_zero.mpr hasValue
  | finite sign mantissa exponent =>
    obtain ⟨canonical, scale, scaleEq, valueEq⟩ := hasValue
    refine ⟨canonical, scale, scaleEq, ?_⟩
    rw [neg_mul, ← valueEq]
    cases sign
    · exact (neg_neg _).symm
    · rfl
  | infinity | notANumber => exact hasValue.elim

/-- Of two canonical doubles the one with the larger exponent is the larger. -/
theorem Canonical.compare_eq {s₁ s₂ : Nat} (first : Canonical m₁ e₁) (second : Canonical m₂ e₂)
    (firstScale : e₁ = s₁ - 52) (secondScale : e₂ = s₂ - 52) :
    (compare e₁ e₂).then (compare m₁ m₂) = compare (m₁ * 2 ^ s₁) (m₂ * 2 ^ s₂) := by
  have less : ∀ {m n : Nat} {d e : Int} {s t : Nat}, Canonical m d → Canonical n e → s < t →
      m * 2 ^ s < n * 2 ^ t := by
    intro m n d e s t below above shorter
    calc m * 2 ^ s < 2 ^ 53 * 2 ^ s := Nat.mul_lt_mul_of_pos_right below.upper (Nat.two_pow_pos s)
      _ = 2 ^ 52 * 2 ^ (s + 1) := by rw [pow_succ 2 s]; ring
      _ ≤ n * 2 ^ t := Nat.mul_le_mul above.lower (Nat.pow_le_pow_right (by decide) shorter)
  subst firstScale secondScale
  rcases Nat.lt_trichotomy s₁ s₂ with shorter | rfl | longer
  · rw [compare_lt_iff_lt.mpr (less first second shorter), compare_lt_iff_lt.mpr (by omega)]
    rfl
  · rw [compare_eq_iff_eq.mpr rfl, Ordering.eq_then, Nat.compare_eq_ite_lt, Nat.compare_eq_ite_lt]
    simp only [Nat.mul_lt_mul_right (Nat.two_pow_pos _)]
  · rw [compare_gt_iff_gt.mpr (less second first longer), compare_gt_iff_gt.mpr (by omega)]
    rfl

theorem HasValue.sign {sign : Sign} {positive : 0 < mantissa}
    (hasValue : HasValue (.finite sign mantissa exponent positive) value) :
    value ≠ 0 ∧ (0 < value ↔ sign = .positive) := by
  obtain ⟨-, scale, -, valueEq⟩ := hasValue
  have nonzero : 0 < (mantissa : Int) * 2 ^ scale := by positivity
  cases sign with
  | negative =>
    have : -((mantissa : Int) * 2 ^ scale) = value * 2 ^ 52 := valueEq
    exact ⟨by omega, iff_of_false (by omega) nofun⟩
  | positive =>
    have : (mantissa : Int) * 2 ^ scale = value * 2 ^ 52 := valueEq
    exact ⟨by omega, iff_of_true (by omega) rfl⟩

theorem compare_scale (v w : Int) : compare (v * 2 ^ 52) (w * 2 ^ 52) = compare v w := by
  rw [Int.compare_eq_ite_lt, Int.compare_eq_ite_lt]
  simp only [Int.mul_lt_mul_right (show 0 < 2 ^ 52 by norm_num)]

/-- Comparing two doubles that hold integers is comparing the integers. -/
theorem HasValue.compare_eq {y : UnpackedFloat} {v w : Int} (xValue : HasValue x v)
    (yValue : HasValue y w) : x.compare y = some (compare v w) := by
  cases x with
  | infinity | notANumber => exact xValue.elim
  | zero =>
    obtain rfl : v = 0 := xValue
    cases y with
    | infinity | notANumber => exact yValue.elim
    | zero =>
      obtain rfl : w = 0 := yValue
      rfl
    | finite other =>
      obtain ⟨nonzero, positive⟩ := yValue.sign
      cases other
      · exact congrArg _ (compare_gt_iff_gt.mpr (by simp at positive; omega)).symm
      · exact congrArg _ (compare_lt_iff_lt.mpr (positive.mpr rfl)).symm
  | finite sign mantissa exponent =>
    obtain ⟨nonzero, positive⟩ := xValue.sign
    cases y with
    | infinity | notANumber => exact yValue.elim
    | zero =>
      obtain rfl : w = 0 := yValue
      cases sign
      · exact congrArg _ (compare_lt_iff_lt.mpr (by simp at positive; omega)).symm
      · exact congrArg _ (compare_gt_iff_gt.mpr (positive.mpr rfl)).symm
    | finite other otherMantissa otherExponent =>
      obtain ⟨otherNonzero, otherPositive⟩ := yValue.sign
      obtain ⟨canonical, scale, scaleEq, valueEq⟩ := xValue
      obtain ⟨otherCanonical, otherScale, otherScaleEq, otherValueEq⟩ := yValue
      have ordered : (compare exponent otherExponent).then (compare mantissa otherMantissa) =
          compare ((mantissa : Int) * 2 ^ scale) (otherMantissa * 2 ^ otherScale) := by
        rw [canonical.compare_eq otherCanonical scaleEq otherScaleEq, ← FloatOrder.compare_natCast]
        push_cast
        rfl
      rw [← compare_scale v w, ← valueEq, ← otherValueEq]
      cases sign <;> cases other
      case negative.negative =>
        show some (Ordering.swap _) = some (compare (-_) (-_))
        rw [ordered, FloatOrder.compare_neg]
      case positive.positive => exact congrArg _ ordered
      case negative.positive =>
        rw [valueEq, otherValueEq, compare_scale]
        have := otherPositive.mpr rfl
        exact congrArg _ (compare_lt_iff_lt.mpr (by simp at positive; omega)).symm
      case positive.negative =>
        rw [valueEq, otherValueEq, compare_scale]
        have := positive.mpr rfl
        exact congrArg _ (compare_gt_iff_gt.mpr (by simp at otherPositive; omega)).symm

/-- The magnitude of a finite double that holds an integer. -/
theorem HasValue.magnitude {sign : Sign} {positive : 0 < mantissa}
    (hasValue : HasValue (.finite sign mantissa exponent positive) value) :
    ∃ scale quotient : Nat, exponent = scale - 52 ∧ value = sign.apply quotient ∧
      mantissa * 2 ^ scale = quotient * 2 ^ 52 := by
  obtain ⟨-, scale, scaleEq, valueEq⟩ := hasValue
  have nonnegative : (0 : Int) ≤ mantissa * 2 ^ scale := by positivity
  cases sign with
  | negative =>
    have negated : -((mantissa : Int) * 2 ^ scale) = value * 2 ^ 52 := valueEq
    obtain ⟨quotient, quotientEq⟩ := Int.eq_ofNat_of_zero_le (show 0 ≤ -value by omega)
    refine ⟨scale, quotient, scaleEq, ?_, ?_⟩
    · show value = -(quotient : Int)
      omega
    · zify
      omega
  | positive =>
    have same : (mantissa : Int) * 2 ^ scale = value * 2 ^ 52 := valueEq
    obtain ⟨quotient, rfl⟩ := Int.eq_ofNat_of_zero_le (show 0 ≤ value by omega)
    exact ⟨scale, quotient, scaleEq, rfl, by exact_mod_cast same⟩

/-- The integer part of a double that holds an integer. -/
theorem HasValue.toInt_eq (hasValue : HasValue x value) (negativeInfinity positiveInfinity : Int) :
    x.toInt negativeInfinity positiveInfinity = value := by
  cases x with
  | infinity | notANumber => exact hasValue.elim
  | zero => exact Eq.symm hasValue
  | finite sign mantissa exponent =>
    obtain ⟨scale, quotient, rfl, rfl, magnitude⟩ := hasValue.magnitude
    -- The mantissa is shifted to the left for a large scale, and to the right for a small one.
    show sign.apply ((ExtendedMantissa.ofMantissaAndAccuracy
      _ _ >>>
        (0 - ((scale : Int) - 52 - ((scale : Int) - 52 - 0).toNat)).toNat).mantissa : Int) = _
    rw [(tracks_shift _ _).1, Nat.shiftLeft_eq, show ((scale : Int) - 52 - 0).toNat = scale - 52
      by omega, show (0 - ((scale : Int) - 52 - (scale - 52 : Nat))).toNat = 52 - scale by omega]
    congr 2
    refine Nat.div_eq_of_eq_mul_left (Nat.two_pow_pos _) ?_
    rcases Nat.le_total 52 scale with large | small
    · obtain ⟨more, rfl⟩ := Nat.exists_eq_add_of_le large
      rw [Nat.add_sub_cancel_left, Nat.sub_eq_zero_of_le large, pow_zero, mul_one]
      refine Nat.eq_of_mul_eq_mul_right (Nat.two_pow_pos 52) ?_
      rw [← magnitude, pow_add]
      ring
    · obtain ⟨less, lessEq⟩ := Nat.exists_eq_add_of_le small
      rw [lessEq, pow_add] at magnitude
      rw [Nat.sub_eq_zero_of_le small, pow_zero, mul_one, Nat.sub_eq_of_eq_add' lessEq]
      refine Nat.eq_of_mul_eq_mul_right (Nat.two_pow_pos scale) ?_
      rw [magnitude]
      ring

/-- Rounding ends behind the second shift, which takes a carry. -/
theorem roundWithAccuracy_eq {sign : Sign} {final : ExtendedMantissa} {e finalExponent : Int}
    (first : shiftToTargetExponent Format.binary64 mantissa exponent .exact = (extended, e))
    (second : shiftToTargetExponent Format.binary64 extended.roundedMantissa e .exact =
      (final, finalExponent)) (positive : 0 < final.mantissa) :
    roundWithAccuracy Format.binary64 sign mantissa exponent .exact =
      .finite sign final.mantissa finalExponent positive := by
  unfold roundWithAccuracy
  rw [first]
  dsimp only
  rw [second, dif_neg positive.ne']

theorem log2_mul_two_pow (nonzero : n ≠ 0) (extra : Nat) :
    (n * 2 ^ extra).log2 = n.log2 + extra := by
  have positive := Nat.two_pow_pos extra
  rw [Nat.log2_eq_iff (Nat.mul_ne_zero nonzero positive.ne'), Nat.add_right_comm, pow_add, pow_add]
  exact ⟨Nat.mul_le_mul_right _ (Nat.log2_self_le nonzero),
    Nat.mul_lt_mul_of_pos_right Nat.lt_log2_self positive⟩

/-- A mantissa with enough bits is rounded to the nearest number, in units of its last bit. -/
theorem nearestQuotient_value {shift : Nat} (amount : n.log2 + extra = 52 + shift) :
    nearestQuotient (n * 2 ^ extra) shift * 2 ^ n.log2 = nearest n * 2 ^ 52 := by
  rcases Nat.lt_or_ge n.log2 52 with short | long
  · have exact := nearestQuotient_exact n shift (52 - n.log2)
    rw [show shift + (52 - n.log2) = extra by omega] at exact
    rw [exact, nearest_eq_self
      (Nat.lt_log2_self.trans_le (Nat.pow_le_pow_right (by decide) (by omega))).le,
      mul_assoc, ← pow_add, Nat.sub_add_cancel short.le]
  · have scaled := nearestQuotient_scale n (excess n) extra
    rw [show excess n + extra = shift by unfold excess; omega] at scaled
    rw [scaled, nearest, mul_assoc, ← pow_add, excess, Nat.sub_add_cancel long]

/-- The double nearest to a positive integer, from any mantissa with enough bits. -/
theorem roundWithAccuracy_hasValue (sign : Sign) (nonzero : n ≠ 0) (enough : 52 ≤ n.log2 + extra)
    (fits : n.log2 ≤ 1000) :
    HasValue (roundWithAccuracy Format.binary64 sign (n * 2 ^ extra) (-extra) .exact)
      (sign.apply (nearest n)) := by
  obtain ⟨shift, amount⟩ : ∃ shift, n.log2 + extra = 52 + shift := Nat.exists_eq_add_of_le enough
  have value := nearestQuotient_value amount
  have bounds := nearest_bounds nonzero
  have positive := Nat.two_pow_pos n.log2
  have rounded := (tracks_shift (n * 2 ^ extra) shift).roundedMantissa
  have first : shiftToTargetExponent Format.binary64 (n * 2 ^ extra) (-extra) .exact =
      (ExtendedMantissa.ofMantissaAndAccuracy (n * 2 ^ extra) .exact >>> shift,
        (n.log2 : Int) - 52) := by
    have shiftAmount : (max ((n * 2 ^ extra).log2 + (-extra : Int) - 52) (-1074) -
        (-extra : Int)).toNat = shift := by
      rw [log2_mul_two_pow nonzero]
      omega
    rw [shift_eq shiftAmount, show (-extra : Int) + shift = n.log2 - 52 by omega]
  generalize nearestQuotient (n * 2 ^ extra) shift = quotient at value rounded
  have lower : 2 ^ 52 ≤ quotient := by
    refine Nat.le_of_mul_le_mul_right ?_ positive
    rw [value, Nat.mul_comm]
    exact Nat.mul_le_mul_right _ bounds.1
  have upper : quotient ≤ 2 ^ 53 := by
    refine Nat.le_of_mul_le_mul_right ?_ positive
    rw [value, show 2 ^ 53 * 2 ^ n.log2 = 2 ^ (n.log2 + 1) * 2 ^ 52 by rw [pow_succ 2 n.log2]; ring]
    exact Nat.mul_le_mul_right _ bounds.2
  have signed : sign.apply ((quotient : Int) * 2 ^ n.log2) = sign.apply (nearest n) * 2 ^ 52 := by
    have cast : (quotient : Int) * 2 ^ n.log2 = nearest n * 2 ^ 52 := by exact_mod_cast value
    rw [cast]
    cases sign
    · exact (neg_mul _ _).symm
    · rfl
  rcases upper.lt_or_eq with less | rfl
  · have canonical : Canonical quotient (n.log2 - 52) := ⟨lower, less, by omega, by omega⟩
    have second := canonical.shift
    rw [← rounded] at second
    rw [roundWithAccuracy_eq first second (by rw [rounded]; exact canonical.pos)]
    refine ⟨?_, n.log2, rfl, ?_⟩
    · rw [rounded]
      exact canonical
    · rw [rounded]
      exact signed
  · -- The mantissa was rounded up to a power of two.
    have canonical : Canonical (2 ^ 52) ((n.log2 + 1 : Nat) - 52) :=
      ⟨le_rfl, by decide, by omega, by omega⟩
    have second : shiftToTargetExponent Format.binary64 (2 ^ 53) (n.log2 - 52) .exact =
        (ExtendedMantissa.mk (2 ^ 52) false false, ((n.log2 + 1) : Int) - 52) := by
      have carryAmount : (max ((2 ^ 53 : Nat).log2 + ((n.log2 : Int) - 52) - 52) (-1074) -
          ((n.log2 : Int) - 52)).toNat = 1 := by
        rw [Nat.log2_two_pow]
        omega
      rw [shift_eq carryAmount]
      refine Prod.ext rfl ?_
      show (n.log2 : Int) - 52 + (1 : Nat) = (n.log2 + 1 : Nat) - 52
      omega
    rw [← rounded] at second
    rw [roundWithAccuracy_eq first second canonical.pos]
    refine ⟨canonical, n.log2 + 1, rfl, ?_⟩
    rw [← signed]
    congr 1
    push_cast
    rw [pow_succ]
    ring

end Doubles

/-! ### Conversion -/

theorem HasValue.unpacked {x : UnpackedFloat} {value : Int} (hasValue : HasValue x value) :
    HasValue (Float.Model.pack x).unpack value := by
  have same : (Float.Model.pack x).unpack = x := hasValue.unpack_pack
  rwa [same]

theorem Canonical.roundWithAccuracy_eq {mantissa : Nat} {exponent : Int}
    (canonical : Canonical mantissa exponent) (sign : Sign) :
    roundWithAccuracy Format.binary64 sign mantissa exponent .exact =
      .finite sign mantissa exponent canonical.pos :=
  FloatRounding.roundWithAccuracy_eq canonical.shift canonical.shift _

/-- A number below `2^53` has a canonical form of its own. -/
theorem canonical_of_lt (nonzero : n ≠ 0) (small : n < 2 ^ 53) :
    Canonical (n * 2 ^ (52 - n.log2)) (n.log2 - 52) := by
  have short : n.log2 < 53 := (Nat.log2_lt nonzero).mpr small
  refine ⟨?_, ?_, by omega, by omega⟩
  · calc 2 ^ 52 = 2 ^ n.log2 * 2 ^ (52 - n.log2) := by rw [← pow_add]; congr 1; omega
      _ ≤ n * 2 ^ (52 - n.log2) := Nat.mul_le_mul_right _ (Nat.log2_self_le nonzero)
  · calc n * 2 ^ (52 - n.log2) < 2 ^ (n.log2 + 1) * 2 ^ (52 - n.log2) :=
          Nat.mul_lt_mul_of_pos_right Nat.lt_log2_self (Nat.two_pow_pos _)
      _ = 2 ^ 53 := by rw [← pow_add]; congr 1; omega

theorem toFloat_unpack (nonzero : n ≠ 0) (small : n < 2 ^ 53) :
    n.toUInt64.toFloat.toModel.unpack =
      .finite .positive (n * 2 ^ (52 - n.log2)) (n.log2 - 52)
        (canonical_of_lt nonzero small).pos := by
  have canonical := canonical_of_lt nonzero small
  have word : n.toUInt64.toNat = n := Nat.mod_eq_of_lt (small.trans (by decide))
  have greater : compare (n : Int) 0 = .gt := compare_gt_iff_gt.mpr (by omega)
  have converted : UnpackedFloat.ofNat Format.binary64 n =
      .finite .positive (n * 2 ^ (52 - n.log2)) (n.log2 - 52) canonical.pos := by
    rw [UnpackedFloat.ofNat, UnpackedFloat.ofInt, UnpackedFloat.normalize, greater]
    show roundWithAccuracy Format.binary64 .positive
      (n <<< (0 - Format.binary64.targetExponent (totalExponent n 0)).toNat)
      (0 - (0 - Format.binary64.targetExponent (totalExponent n 0)).toNat) .exact = _
    have short : n.log2 < 53 := (Nat.log2_lt nonzero).mpr small
    rw [targetExponent_eq, Nat.shiftLeft_eq,
      show (0 - max ((n.log2 : Int) + 0 - 52) (-1074)).toNat = 52 - n.log2 by omega,
      show (0 : Int) - (52 - n.log2 : Nat) = n.log2 - 52 by omega]
    exact canonical.roundWithAccuracy_eq _
  show UnpackedFloat.unpack Format.binary64 (UnpackedFloat.pack Format.binary64
    (UnpackedFloat.ofNat Format.binary64 n.toUInt64.toNat)) = _
  rw [word, converted]
  exact canonical.unpack_pack _

theorem mul_finite (spec : Format) {s₁ s₂ : Sign} (p₁ : 0 < m₁) (p₂ : 0 < m₂) :
    UnpackedFloat.mul spec (.finite s₁ m₁ e₁ p₁) (.finite s₂ m₂ e₂ p₂) =
      roundWithAccuracy spec (s₁ * s₂) (m₁ * m₂) (e₁ + e₂) .exact :=
  rfl

theorem unpack_mul (x y : Float) :
    (x * y).toModel.unpack =
      (Float.Model.pack (UnpackedFloat.mul Format.binary64 x.toModel.unpack
        y.toModel.unpack)).unpack :=
  rfl

theorem unpack_one : (Float.ofBits 0x3FF0000000000000).toModel.unpack =
    .finite .positive (2 ^ 52) (-52) (by decide) :=
  rfl

/-- A product with one is rounded once more. -/
theorem mul_one_hasValue (nonzero : n ≠ 0) (small : n < 2 ^ 53) :
    HasValue (n.toUInt64.toFloat * Float.ofBits 0x3FF0000000000000).toModel.unpack (nearest n) := by
  have short : n.log2 < 53 := (Nat.log2_lt nonzero).mpr small
  rw [unpack_mul, toFloat_unpack nonzero small, unpack_one, mul_finite, mul_assoc, ← pow_add,
    show (n.log2 : Int) - 52 + -52 = -(52 - n.log2 + 52 : Nat) by omega]
  exact (roundWithAccuracy_hasValue _ nonzero (by omega) (by omega)).unpacked

theorem ofNat_hasValue (fits : n.log2 ≤ 1000) :
    HasValue (Float.ofNat n).toModel.unpack (nearest n) := by
  rcases Nat.eq_zero_or_pos n with rfl | positive
  · have zero : (Float.ofNat 0).toModel.unpack = .zero .positive := rfl
    rw [zero]
    rfl
  · show HasValue (Float.ofScientific n false 0).toModel.unpack (nearest n)
    unfold Float.ofScientific
    split
    next small => exact mul_one_hasValue positive.ne' small.1
    next =>
      refine HasValue.unpacked ?_
      rw [UnpackedFloat.ofScientific, dif_neg positive.ne', if_neg (by decide),
        if_neg (by simp), if_pos (by simp), mul_finite, Nat.shiftLeft_eq, if_neg Bool.false_ne_true,
        show (Int.ofNat 0).toNat = 0 from rfl, pow_zero, mul_one, add_zero]
      have bits : Format.binary64.mantissaBits = 53 := rfl
      exact roundWithAccuracy_hasValue _ positive.ne' (by omega) fits

/-- The double of an integer is the nearest one. -/
theorem ofInt_hasValue (fits : z.natAbs.log2 ≤ 1000) :
    HasValue (Float.ofInt z).toModel.unpack (nearestInt z) := by
  cases z with
  | ofNat n =>
    have rounded := ofNat_hasValue (n := n) fits
    rw [← nearestInt_ofNat] at rounded
    exact rounded
  | negSucc n =>
    have rounded := (ofNat_hasValue (n := n + 1) fits).neg.unpacked
    rw [← nearestInt_ofNat, ← nearestInt_neg] at rounded
    exact rounded

/-! ### The operations on converted integers -/

section

variable (aFits : a.natAbs.log2 ≤ 1000) (bFits : b.natAbs.log2 ≤ 1000)
include aFits bFits

theorem ofInt_compare :
    (Float.ofInt a).toModel.unpack.compare (Float.ofInt b).toModel.unpack =
      some (compare (nearestInt a) (nearestInt b)) :=
  (ofInt_hasValue aFits).compare_eq (ofInt_hasValue bFits)

theorem ofInt_lt :
    (Float.ofInt a).lt (Float.ofInt b) = decide (nearestInt a < nearestInt b) := by
  show decide (((Float.ofInt a).toModel.unpack.compare (Float.ofInt b).toModel.unpack ==
    some .lt) = true) = _
  rw [ofInt_compare aFits bFits]
  simp [compare_lt_iff_lt]

theorem ofInt_le :
    (Float.ofInt a).le (Float.ofInt b) = decide (nearestInt a ≤ nearestInt b) := by
  show decide (((Float.ofInt a).toModel.unpack.compare (Float.ofInt b).toModel.unpack).any
    (·.isLE) = true) = _
  rw [ofInt_compare aFits bFits]
  simp [← Std.isLE_compare]

theorem ofInt_beq :
    (Float.ofInt a).beq (Float.ofInt b) = decide (nearestInt a = nearestInt b) := by
  show ((Float.ofInt a).toModel.unpack.compare (Float.ofInt b).toModel.unpack == some .eq) = _
  rw [ofInt_compare aFits bFits, Bool.eq_iff_iff, beq_iff_eq, decide_eq_true_iff, Option.some_inj,
    compare_eq_iff_eq]

end

end FloatRounding

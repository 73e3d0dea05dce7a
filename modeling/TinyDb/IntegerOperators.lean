/-
This file measures the operators of `eval_binary` and `eval_unary` on integers against the
integers themselves. The comparisons and the divisor of `/` go through a double, which has
53 bits, and the sums and products are those of `int64_t`, which has no result outside its
range.
-/

import TinyDb.Operators
import TinyDb.ValueOrder
import TinyDb.Lib.FloatRounding

namespace TinyDb

open TokenType FloatRounding

variable {b result : Int}

/-! ### Comparisons -/

/-- The comparison operators of `eval_binary`. -/
inductive Comparison
  | eq | neq | lt | gt | lte | gte

namespace Comparison

/-- The code that `eval_binary` compares with. -/
def code : Comparison → Int
  | eq => opChar '='
  | neq => tokenNeq.code
  | lt => opChar '<'
  | gt => opChar '>'
  | lte => tokenLte.code
  | gte => tokenGte.code

/-- The relation of an operator between integers. -/
def Holds : Comparison → Int → Int → Prop
  | eq, a, b => a = b
  | neq, a, b => a ≠ b
  | lt, a, b => a < b
  | gt, a, b => a > b
  | lte, a, b => a ≤ b
  | gte, a, b => a ≥ b

/-- The relation of an operator, over the sign of a comparison. -/
def accepts : Comparison → Ordering → Bool
  | eq, sign => sign = .eq
  | neq, sign => sign ≠ .eq
  | lt, sign => sign = .lt
  | gt, sign => sign = .gt
  | lte, sign => sign ≠ .gt
  | gte, sign => sign ≠ .lt

/-- The operator tells two integers from two equal ones. -/
def Distinguishes : Comparison → Int → Int → Prop
  | eq, a, b => a ≠ b
  | neq, a, b => a ≠ b
  | lt, a, b => a < b
  | gt, a, b => b < a
  | lte, a, b => b < a
  | gte, a, b => a < b

theorem holds_iff (op : Comparison) (a b : Int) :
    op.Holds a b ↔ op.accepts (compare a b) = true := by
  rcases lt_trichotomy a b with less | rfl | greater
  · rw [compare_lt_iff_lt.mpr less]
    cases op <;> simp [Holds, accepts] <;> omega
  · rw [compare_eq_iff_eq.mpr rfl]
    cases op <;> simp [Holds, accepts]
  · rw [compare_gt_iff_gt.mpr greater]
    cases op <;> simp [Holds, accepts] <;> omega

theorem distinguishes_iff (op : Comparison) (a b : Int) :
    op.Distinguishes a b ↔ op.accepts .eq ≠ op.accepts (compare a b) := by
  rcases lt_trichotomy a b with less | rfl | greater
  · rw [compare_lt_iff_lt.mpr less]
    cases op <;> simp [Distinguishes, accepts] <;> omega
  · rw [compare_eq_iff_eq.mpr rfl]
    cases op <;> simp [Distinguishes]
  · rw [compare_gt_iff_gt.mpr greater]
    cases op <;> simp [Distinguishes, accepts] <;> omega

theorem evalBinary_code (machine : Machine) (op : Comparison) (left right : Value) :
    evalBinary machine op.code left right = .ok (evalComparison machine op.code left right) := by
  cases op <;> rfl

theorem compareTexts_result (op : Comparison) (left right : List UInt8) :
    (compareTexts left right).result op.code = op.accepts (compareBytes left right) := by
  cases op <;> rfl

end Comparison

/-- Two integers are compared by the integers that their doubles hold. -/
theorem Comparison.compareDoubles_result (op : Comparison) (a b : Int64) :
    (compareDoubles (Float.ofInt a.toInt) (Float.ofInt b.toInt)).result op.code =
      op.accepts (compare (nearestInt a.toInt) (nearestInt b.toInt)) := by
  have aFits := log2_natAbs_toInt a
  have bFits := log2_natAbs_toInt b
  rw [Bool.eq_iff_iff, ← op.holds_iff]
  cases op with
  | eq =>
    show Float.beq _ _ = true ↔ _
    rw [ofInt_beq aFits bFits, decide_eq_true_iff]
    rfl
  | neq =>
    show (!Float.beq _ _) = true ↔ _
    rw [ofInt_beq aFits bFits, Bool.not_eq_true', decide_eq_false_iff_not]
    rfl
  | lt =>
    show Float.lt _ _ = true ↔ _
    rw [ofInt_lt aFits bFits, decide_eq_true_iff]
    rfl
  | gt =>
    show Float.lt _ _ = true ↔ _
    rw [ofInt_lt bFits aFits, decide_eq_true_iff]
    rfl
  | lte =>
    show Float.le _ _ = true ↔ _
    rw [ofInt_le aFits bFits, decide_eq_true_iff]
    rfl
  | gte =>
    show Float.le _ _ = true ↔ _
    rw [ofInt_le bFits aFits, decide_eq_true_iff]
    rfl

theorem truth_eq_one (holds : Bool) : truth holds = .integer 1 ↔ holds = true := by
  cases holds <;> simp [truth]

/-- The comparison of two integers gives one by the order of the rounded integers. -/
theorem Comparison.evalBinary_integers (machine : Machine) (op : Comparison) (a b : Int64) :
    evalBinary machine op.code (.integer a) (.integer b) = .ok (.integer 1) ↔
      op.accepts (compare (nearestInt a.toInt) (nearestInt b.toInt)) = true := by
  rw [op.evalBinary_code, Except.ok.injEq, ← op.compareDoubles_result]
  exact truth_eq_one _

/-- Rounding two integers to different ones keeps their order. -/
theorem compare_nearestInt {a : Int} (apart : nearestInt a ≠ nearestInt b) :
    compare (nearestInt a) (nearestInt b) = compare a b := by
  rcases lt_trichotomy a b with less | rfl | greater
  · rw [compare_lt_iff_lt.mpr less,
      compare_lt_iff_lt.mpr (lt_of_le_of_ne (nearestInt_mono less.le) apart)]
  · exact absurd rfl apart
  · rw [compare_gt_iff_gt.mpr greater,
      compare_gt_iff_gt.mpr (lt_of_le_of_ne (nearestInt_mono greater.le) apart.symm)]

/-- A comparison of two integers gives one exactly when its relation holds between them, in
agreement with `value_compare`, unless the integers round to one double and the operator tells
them from equal ones. -/
theorem integer_comparison_exact_iff (machine : Machine) (op : Comparison) (a b : Int64) :
    ((evalBinary machine op.code (.integer a) (.integer b) = .ok (.integer 1) ↔
        op.Holds a.toInt b.toInt) ∧
      (evalBinary machine op.code (.integer a) (.integer b) = .ok (.integer 1) ↔
        op.accepts ((Value.integer a).valueCompare (.integer b)) = true)) ↔
    (nearestInt a.toInt = nearestInt b.toInt → ¬op.Distinguishes a.toInt b.toInt) := by
  rw [Value.integer_compare, op.evalBinary_integers, ← op.holds_iff a.toInt _, and_self,
    op.holds_iff, op.distinguishes_iff, not_not, ← Bool.eq_iff_iff]
  by_cases same : nearestInt a.toInt = nearestInt b.toInt
  · rw [compare_eq_iff_eq.mpr same]
    exact ⟨fun agree _ => agree, fun agree => agree same⟩
  · rw [compare_nearestInt same]
    exact iff_of_true rfl fun equal => absurd equal same

/-- `2^53 + 1` has no double of its own, and it compares equal to `2^53`. -/
theorem integers_beyond_double_compare_equal :
    evalBinary default Comparison.eq.code (.integer 9007199254740992)
        (.integer 9007199254740993) = .ok (.integer 1) ∧
      (Value.integer 9007199254740992).valueCompare (.integer 9007199254740993) = .lt :=
  ⟨rfl, rfl⟩

/-! ### Sums, differences, products and negation -/

/-- The operators of `eval_binary` on numbers, without division. -/
inductive Arithmetic
  | plus | minus | star

namespace Arithmetic

/-- The code that `eval_binary` compares with. -/
def code : Arithmetic → Int
  | plus => opChar '+'
  | minus => opChar '-'
  | star => opChar '*'

/-- The result in the integers. -/
def apply : Arithmetic → Int → Int → Int
  | plus, a, b => a + b
  | minus, a, b => a - b
  | star, a, b => a * b

theorem evalBinary_integers (machine : Machine) (op : Arithmetic) (a b : Int64) :
    evalBinary machine op.code (.integer a) (.integer b) =
      Value.integer <$> checkedInt (op.apply a.toInt b.toInt) := by
  cases op <;> rfl

end Arithmetic

theorem checkedInt_of_fits (fits : FitsInt64 result) :
    checkedInt result = .ok (Int64.ofInt result) :=
  if_pos fits

theorem checkedInt_of_not_fits (outside : ¬FitsInt64 result) :
    checkedInt result = .error .undefined :=
  if_neg outside

/-- There is a result, and it is no integer but the exact one. -/
def NoWrongInteger (result : Except Halt Value) (exact : Int) : Prop :=
  ∃ value, result = .ok value ∧ ∀ asInt, value = .integer asInt → asInt.toInt = exact

theorem noWrongInteger_checkedInt_iff (result : Int) :
    NoWrongInteger (Value.integer <$> checkedInt result) result ↔ FitsInt64 result := by
  by_cases fits : FitsInt64 result
  · refine iff_of_true ⟨.integer (Int64.ofInt result), ?_, ?_⟩ fits
    · rw [checkedInt_of_fits fits]
      rfl
    · rintro asInt ⟨⟩
      exact fits.toInt_ofInt
  · refine iff_of_false ?_ fits
    rintro ⟨value, returned, -⟩
    rw [checkedInt_of_not_fits fits] at returned
    cases returned

/-- The sum, the difference and the product of two integers and the negation of one are exact, and
defined at all, if and only if the results fit an `int64_t`. -/
theorem integer_arithmetic_exact_iff (machine : Machine) (a b : Int64) :
    (∀ op : Arithmetic,
      NoWrongInteger (evalBinary machine op.code (.integer a) (.integer b))
          (op.apply a.toInt b.toInt) ↔
        FitsInt64 (op.apply a.toInt b.toInt)) ∧
    (NoWrongInteger (evalUnary (opChar '-') (.integer a)) (-a.toInt) ↔ FitsInt64 (-a.toInt)) := by
  constructor
  · intro op
    rw [op.evalBinary_integers]
    exact noWrongInteger_checkedInt_iff _
  · exact noWrongInteger_checkedInt_iff _

/-- The sum of the greatest integer and one is undefined, and so is the negation of the least. -/
theorem integer_arithmetic_overflows :
    evalBinary default (opChar '+') (.integer Int64.maxValue) (.integer 1) = .error .undefined ∧
      evalUnary (opChar '-') (.integer Int64.minValue) = .error .undefined :=
  ⟨rfl, rfl⟩

/-! ### Division -/

theorem nearestInt_toInt_bounds (b : Int64) :
    -2 ^ 63 ≤ nearestInt b.toInt ∧ nearestInt b.toInt ≤ 2 ^ 63 := by
  have lower : nearestInt (-2 ^ 63) = -2 ^ 63 := by decide +kernel
  have upper : nearestInt (2 ^ 63) = 2 ^ 63 := by decide +kernel
  exact ⟨lower ▸ nearestInt_mono b.le_toInt, upper ▸ nearestInt_mono b.toInt_lt.le⟩

/-- Only the rounded integers above all others do not fit. -/
theorem nearestInt_fits_iff (b : Int64) :
    FitsInt64 (nearestInt b.toInt) ↔ nearestInt b.toInt ≠ 2 ^ 63 := by
  obtain ⟨lower, upper⟩ := nearestInt_toInt_bounds b
  have least : Int64.minValue.toInt = -2 ^ 63 := rfl
  have greatest : Int64.maxValue.toInt = 2 ^ 63 - 1 := rfl
  unfold FitsInt64
  omega

theorem nearestInt_eq_neg_one : nearestInt b = -1 ↔ b = -1 := by
  constructor
  · intro rounded
    rcases lt_trichotomy b (-1) with less | same | greater
    · have two : nearestInt (-2) = -2 := by decide +kernel
      have := nearestInt_mono (show b ≤ -2 by omega)
      omega
    · exact same
    · have zero : nearestInt 0 = 0 := rfl
      have := nearestInt_mono (show 0 ≤ b by omega)
      omega
  · rintro rfl
    decide +kernel

/-- The cast of a converted integer. -/
theorem castInt64_ofInt (b : Int64) :
    castInt64 (Float.ofInt b.toInt) = checkedInt (nearestInt b.toInt) := by
  have fits := log2_natAbs_toInt b
  have number : (Float.ofInt b.toInt).beq (Float.ofInt b.toInt) = true := by
    rw [ofInt_beq fits fits]
    exact decide_eq_true rfl
  rw [castInt64, if_pos number, (ofInt_hasValue fits).toInt_eq]

/-- The quotient of an integer overflows for one pair. -/
theorem tdiv_fits_iff (a : Int64) {d : Int} (nonzero : d ≠ 0) :
    FitsInt64 (a.toInt.tdiv d) ↔ ¬(a = Int64.minValue ∧ d = -1) := by
  have least : Int64.minValue.toInt = -2 ^ 63 := rfl
  have greatest : Int64.maxValue.toInt = 2 ^ 63 - 1 := rfl
  have isLeast : a = Int64.minValue ↔ a.toInt = -2 ^ 63 := Int64.toInt_inj.symm
  have low := a.le_toInt
  have high := a.toInt_lt
  unfold FitsInt64
  rw [isLeast]
  rcases Nat.lt_or_ge 1 d.natAbs with large | unit
  · have magnitude : (a.toInt.tdiv d).natAbs ≤ a.toInt.natAbs / 2 := by
      rw [Int.natAbs_tdiv]
      exact Nat.div_le_div_left large (by decide)
    omega
  · obtain rfl | rfl : d = 1 ∨ d = -1 := by omega
    · rw [Int.tdiv_one]
      omega
    · rw [Int.tdiv_neg, Int.tdiv_one]
      omega

/-- The division of `eval_binary` on two integers: a divisor that is not zero is rounded. -/
theorem evalBinary_division (machine : Machine) (a b : Int64) :
    evalBinary machine (opChar '/') (.integer a) (.integer b) =
      if b.toInt = 0 then .ok .null
      else checkedInt (nearestInt b.toInt) >>= fun divisor =>
        Value.integer <$> checkedInt (a.toInt.tdiv divisor.toInt) := by
  have isZero : (Float.ofInt b.toInt).beq (Float.ofInt 0) = decide (b.toInt = 0) := by
    rw [ofInt_beq (log2_natAbs_toInt b) (by decide)]
    exact decide_eq_decide.mpr nearestInt_eq_zero
  show (if (Float.ofInt b.toInt).beq (Float.ofInt 0) = true then _ else
    castInt64 (Float.ofInt b.toInt) >>= _) = _
  rw [isZero, castInt64_ofInt]
  simp only [decide_eq_true_iff]

/-- A division gives a value: `NULL` for the divisor zero, and otherwise the truncated quotient if
it fits. -/
def DividesRight (result : Except Halt Value) (a b : Int) : Prop :=
  ∃ value, result = .ok value ∧ (b = 0 → value = .null) ∧
    (b ≠ 0 → FitsInt64 (a.tdiv b) → ∃ quotient, value = .integer quotient ∧
      quotient.toInt = a.tdiv b)

theorem dividesRight_iff (machine : Machine) (a b : Int64) :
    DividesRight (evalBinary machine (opChar '/') (.integer a) (.integer b)) a.toInt b.toInt ↔
      b = 0 ∨ (¬(a = Int64.minValue ∧ b = -1) ∧ nearestInt b.toInt ≠ 2 ^ 63 ∧
        a.toInt.tdiv (nearestInt b.toInt) = a.toInt.tdiv b.toInt) := by
  have isMinusOne : b = -1 ↔ b.toInt = -1 := Int64.toInt_inj.symm
  rw [evalBinary_division, int64_eq_zero_iff, isMinusOne]
  by_cases isZero : b.toInt = 0
  · rw [if_pos isZero]
    exact iff_of_true ⟨.null, rfl, fun _ => rfl, fun nonzero => absurd isZero nonzero⟩ (.inl isZero)
  · rw [if_neg isZero, or_iff_right isZero, ← nearestInt_fits_iff]
    by_cases fits : FitsInt64 (nearestInt b.toInt)
    · have nonzero : nearestInt b.toInt ≠ 0 := fun zero => isZero (nearestInt_eq_zero.mp zero)
      have quotientFits := tdiv_fits_iff a nonzero
      rw [nearestInt_eq_neg_one] at quotientFits
      rw [checkedInt_of_fits fits, and_iff_right fits, ← quotientFits]
      show DividesRight (Value.integer <$> checkedInt (a.toInt.tdiv
        (Int64.ofInt (nearestInt b.toInt)).toInt)) _ _ ↔ _
      rw [fits.toInt_ofInt]
      by_cases inside : FitsInt64 (a.toInt.tdiv (nearestInt b.toInt))
      · have exactFits : FitsInt64 (a.toInt.tdiv b.toInt) :=
          (tdiv_fits_iff a isZero).mpr (quotientFits.mp inside)
        rw [checkedInt_of_fits inside, and_iff_right inside]
        constructor
        · rintro ⟨value, ⟨⟩, -, right⟩
          obtain ⟨quotient, ⟨⟩, isExact⟩ := right isZero exactFits
          exact inside.toInt_ofInt.symm.trans isExact
        · intro same
          exact ⟨_, rfl, fun zero => absurd zero isZero,
            fun _ _ => ⟨_, rfl, inside.toInt_ofInt.trans same⟩⟩
      · refine iff_of_false ?_ fun right => inside right.1
        rintro ⟨value, returned, -⟩
        rw [checkedInt_of_not_fits inside] at returned
        cases returned
    · refine iff_of_false ?_ fun right => fits right.2.1
      rintro ⟨value, returned, -⟩
      rw [checkedInt_of_not_fits fits] at returned
      cases returned

/-- The rounded divisor has the same quotient exactly if it fits as often into the dividend. -/
theorem tdiv_nearestInt_iff (a : Int) (nonzero : b ≠ 0) :
    a.tdiv (nearestInt b) = a.tdiv b ↔
      a.natAbs / b.natAbs * nearest b.natAbs ≤ a.natAbs ∧
        a.natAbs < (a.natAbs / b.natAbs + 1) * nearest b.natAbs := by
  have positive : 0 < nearest b.natAbs :=
    Nat.pos_of_ne_zero fun zero => nonzero (Int.natAbs_eq_zero.mp (nearest_eq_zero.mp zero))
  have magnitudes : a.tdiv (nearestInt b) = a.tdiv b ↔
      a.natAbs / nearest b.natAbs = a.natAbs / b.natAbs := by
    rcases Int.natAbs_eq a with isA | isA <;> rcases Int.natAbs_eq b with isB | isB <;>
      rw [isA, isB] <;>
      simp only [Int.natAbs_neg, Int.natAbs_natCast, nearestInt_neg, nearestInt_ofNat, Int.neg_tdiv,
        Int.tdiv_neg, Int.neg_inj, ← Int.ofNat_tdiv, Int.ofNat_inj]
  rw [magnitudes, Nat.div_eq_iff positive, Nat.add_one_mul]
  omega

/-- A division of integers is right exactly if the divisor is zero, or if the pair is not the least
integer and `-1`, the divisor does not round to `2^63`, and the rounded divisor fits as often into the
dividend. For a divisor of at most `2^53` in magnitude, the pair has to be another one. -/
theorem integer_division_right_iff (machine : Machine) (a b : Int64) :
    (DividesRight (evalBinary machine (opChar '/') (.integer a) (.integer b)) a.toInt b.toInt ↔
      b = 0 ∨ (¬(a = Int64.minValue ∧ b = -1) ∧ nearestInt b.toInt ≠ 2 ^ 63 ∧
        a.toInt.natAbs / b.toInt.natAbs * nearest b.toInt.natAbs ≤ a.toInt.natAbs ∧
        a.toInt.natAbs < (a.toInt.natAbs / b.toInt.natAbs + 1) * nearest b.toInt.natAbs)) ∧
    (b.toInt.natAbs ≤ 2 ^ 53 →
      (DividesRight (evalBinary machine (opChar '/') (.integer a) (.integer b)) a.toInt b.toInt ↔
        ¬(a = Int64.minValue ∧ b = -1))) := by
  have right := dividesRight_iff machine a b
  by_cases isZero : b = 0
  · exact ⟨iff_of_true (right.mpr (.inl isZero)) (.inl isZero), fun _ =>
      iff_of_true (right.mpr (.inl isZero)) fun both => absurd (isZero.symm.trans both.2) (by decide)⟩
  · rw [right, or_iff_right isZero, or_iff_right isZero,
      ← tdiv_nearestInt_iff _ (mt (int64_eq_zero_iff b).mpr isZero)]
    refine ⟨Iff.rfl, fun small => ⟨And.left, fun apart => ?_⟩⟩
    rw [nearestInt_eq_self small]
    exact ⟨apart, by omega, rfl⟩

/-- The least integer divided by `-1` is undefined, and so is one divided by the greatest integer;
and `2^54 + 1` divided by `2^53 + 1` is two. -/
theorem integer_division_traps :
    evalBinary default (opChar '/') (.integer Int64.minValue) (.integer (-1)) =
        .error .undefined ∧
      evalBinary default (opChar '/') (.integer 1) (.integer Int64.maxValue) =
        .error .undefined ∧
      evalBinary default (opChar '/') (.integer 18014398509481985) (.integer 9007199254740993) =
        .ok (.integer 2) :=
  ⟨rfl, rfl, rfl⟩

end TinyDb

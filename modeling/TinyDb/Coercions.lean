/-
This file follows the operators of `eval_binary` on values of different types. A comparison
with a text compares texts, and a value without a text counts as the empty one; the
arithmetic operators take the bits of every value that is no integer for a double.
`IN` and `BETWEEN` compare by `value_compare` instead, which puts the types in an order. The
file names the pairs of values on which the two comparisons differ.
-/

import TinyDb.IntegerOperators

namespace TinyDb

open TokenType FloatRounding Option

variable {x y : Float} {machine : Machine} {a b low high : Value} {list : List Expression}

attribute [local instance] lexOrd

/-! ### Comparisons by type -/

namespace Value

/-- The value is an integer or a double. -/
def isNumber (value : Value) : Bool := value.number.isSome

theorem number_cases {value : Value} (isNumber : value.number = some x) :
    (∃ asInt, value = .integer asInt ∧ x = Float.ofInt asInt.toInt) ∨ value = .float x := by
  cases value with
  | integer asInt => exact .inl ⟨asInt, rfl, (some_inj.mp isNumber).symm⟩
  | float => exact .inr (congrArg _ (some_inj.mp isNumber))
  | null | text | blob => cases isNumber

end Value

namespace Comparison

variable (machine : Machine) (op : Comparison) {left right : Value}

theorem evalBinary_texts (isText : (left.isText || right.isText) = true) :
    evalBinary machine op.code left right =
      .ok (truth (op.accepts
        (compareBytes (left.comparedText machine) (right.comparedText machine)))) := by
  rw [op.evalBinary_code, evalComparison, if_pos isText, op.compareTexts_result]

theorem evalBinary_no_number (noText : (left.isText || right.isText) = false)
    (missing : left.isNumber = false ∨ right.isNumber = false) :
    evalBinary machine op.code left right = .ok (truth false) := by
  rw [op.evalBinary_code, evalComparison, if_neg (Bool.eq_false_iff.mp noText)]
  cases left <;> cases right <;> first | rfl | simp [Value.isNumber, Value.number] at missing

/-- A comparison gives one by the texts, or by the numbers, and never without them. -/
theorem evalBinary_one_iff {holds : Prop}
    (texts : (left.isText || right.isText) = true →
      (op.accepts (compareBytes (left.comparedText machine) (right.comparedText machine)) = true ↔
        holds))
    (numbers : ∀ x y, left.number = some x → right.number = some y →
      ((compareDoubles x y).result op.code = true ↔ holds))
    (neither : (left.isText || right.isText) = false →
      left.isNumber = false ∨ right.isNumber = false → ¬holds) :
    evalBinary machine op.code left right = .ok (.integer 1) ↔ holds := by
  by_cases isText : (left.isText || right.isText) = true
  · rw [op.evalBinary_texts machine isText, Except.ok.injEq, truth_eq_one]
    exact texts isText
  · by_cases missing : left.isNumber = false ∨ right.isNumber = false
    · rw [op.evalBinary_no_number machine (Bool.not_eq_true _ ▸ isText) missing]
      exact iff_of_false nofun (neither (Bool.not_eq_true _ ▸ isText) missing)
    · rw [not_or, Bool.not_eq_false, Bool.not_eq_false] at missing
      obtain ⟨x, isX⟩ := isSome_iff_exists.mp missing.1
      obtain ⟨y, isY⟩ := isSome_iff_exists.mp missing.2
      rw [op.evalBinary_code, evalComparison, if_neg isText, isX, isY, Except.ok.injEq,
        truth_eq_one]
      exact numbers x y isX isY

end Comparison

theorem compareBytes_nil_left (text : List UInt8) :
    compareBytes [] text = if text.isEmpty then .eq else .lt := by
  cases text <;> rfl

theorem compareBytes_nil_right (text : List UInt8) :
    compareBytes text [] = if text.isEmpty then .eq else .gt := by
  cases text <;> rfl

/-! ### Operands without a number -/

/-- A comparison with `NULL` on the left gives one exactly against a text, if the operator holds
between the empty text and it. -/
theorem null_left_one_iff (machine : Machine) (op : Comparison) (value : Value) :
    evalBinary machine op.code .null value = .ok (.integer 1) ↔
      ∃ str, value = .text str ∧
        op.accepts (if (cString str).isEmpty then .eq else .lt) = true := by
  cases value with
  | text str =>
    rw [op.evalBinary_texts _ rfl, Except.ok.injEq, truth_eq_one]
    show op.accepts (compareBytes [] (cString str)) = true ↔ _
    rw [compareBytes_nil_left]
    simp
  | null | integer | float | blob =>
    rw [op.evalBinary_no_number _ rfl (.inl rfl)]
    exact iff_of_false nofun (by rintro ⟨_, ⟨⟩, -⟩)

theorem null_right_one_iff (machine : Machine) (op : Comparison) (value : Value) :
    evalBinary machine op.code value .null = .ok (.integer 1) ↔
      ∃ str, value = .text str ∧
        op.accepts (if (cString str).isEmpty then .eq else .gt) = true := by
  cases value with
  | text str =>
    rw [op.evalBinary_texts _ rfl, Except.ok.injEq, truth_eq_one]
    show op.accepts (compareBytes (cString str) []) = true ↔ _
    rw [compareBytes_nil_right]
    simp
  | null | integer | float | blob =>
    rw [op.evalBinary_no_number _ rfl (.inr rfl)]
    exact iff_of_false nofun (by rintro ⟨_, ⟨⟩, -⟩)

/-- The double of a divisor is zero. -/
def Value.isZeroDivisor (machine : Machine) : Value → Bool
  | .null => true
  | .integer asInt => asInt = 0
  | .float asFloat => asFloat.beq 0
  | .text str => (machine.pointerFloat str).beq 0
  | .blob bytes => (machine.pointerFloat bytes).beq 0

theorem asDouble_isZero (machine : Machine) (value : Value) :
    (value.asDouble machine).beq 0 = value.isZeroDivisor machine := by
  cases value with
  | integer asInt =>
    show (Float.ofInt asInt.toInt).beq (Float.ofInt 0) = decide (asInt = 0)
    rw [ofInt_beq (log2_natAbs_toInt _) (by decide)]
    exact decide_eq_decide.mpr (nearestInt_eq_zero.trans (int64_eq_zero_iff _).symm)
  | null => exact (by decide +kernel : (0 : Float).beq 0 = true)
  | float | text | blob => rfl

theorem Arithmetic.not_null (machine : Machine) (op : Arithmetic) (left right : Value) :
    evalBinary machine op.code left right ≠ .ok .null := by
  have noNull onInts onDoubles :
      evalArithmetic machine onInts onDoubles left right ≠ .ok .null := by
    unfold evalArithmetic
    split
    next a b =>
      by_cases fits : FitsInt64 (onInts a.toInt b.toInt)
      · rw [checkedInt_of_fits fits]
        nofun
      · rw [checkedInt_of_not_fits fits]
        nofun
    next => nofun
  cases op <;> exact noNull _ _

theorem division_null_iff (machine : Machine) {left right : Value}
    (notNumber : left.isNumber = false ∨ right.isNumber = false) :
    evalBinary machine (opChar '/') left right = .ok .null ↔
      right.isZeroDivisor machine = true := by
  show (if (right.asDouble machine).beq 0 = true then Except.ok Value.null else _) = _ ↔ _
  rw [asDouble_isZero]
  by_cases isZero : right.isZeroDivisor machine = true
  · rw [if_pos isZero]
    exact iff_of_true rfl isZero
  · rw [if_neg isZero]
    refine iff_of_false ?_ isZero
    split
    next => simp [Value.isNumber, Value.number] at notNumber
    next => nofun

/-- The bits of no pointer make a zero. -/
def Machine.PointersNonzero (machine : Machine) : Prop :=
  ∀ bytes, (machine.pointerFloat bytes).beq 0 = false

theorem Value.isZeroDivisor_iff (nonzero : machine.PointersNonzero) (value : Value) :
    value.isZeroDivisor machine = true ↔
      value = .null ∨ ∃ number, value.number = some number ∧ number.beq 0 = true := by
  cases value with
  | null => simp [isZeroDivisor]
  | integer asInt =>
    rw [← asDouble_isZero]
    simp [asDouble, number]
  | float asFloat => simp [isZeroDivisor, number]
  | text str => simp [isZeroDivisor, number, nonzero str]
  | blob bytes => simp [isZeroDivisor, number, nonzero bytes]

/-- A comparison with `NULL` does not give one exactly if the other value is no text, or a text for
which the operator does not hold with the empty one. With an operand that is no number, a sum, a
difference and a product are never `NULL`, and a quotient is exactly if the divisor is zero, where
the divisor of a text or a blob is its pointer. -/
theorem non_number_operand_iff (machine : Machine) (op : Comparison) (value : Value)
    (arithmetic : Arithmetic) (left right : Value)
    (notNumber : left.isNumber = false ∨ right.isNumber = false) :
    (evalBinary machine op.code .null value ≠ .ok (.integer 1) ↔
      ¬∃ str, value = .text str ∧
        op.accepts (if (cString str).isEmpty then .eq else .lt) = true) ∧
    (evalBinary machine op.code value .null ≠ .ok (.integer 1) ↔
      ¬∃ str, value = .text str ∧
        op.accepts (if (cString str).isEmpty then .eq else .gt) = true) ∧
    (evalBinary machine arithmetic.code left right = .ok .null ↔ False) ∧
    (evalBinary machine (opChar '/') left right = .ok .null ↔
      right.isZeroDivisor machine = true) ∧
    (machine.PointersNonzero → (evalBinary machine (opChar '/') left right = .ok .null ↔
      right = .null ∨ ∃ number, right.number = some number ∧ number.beq 0 = true)) := by
  have quotient := division_null_iff machine notNumber
  refine ⟨not_congr (null_left_one_iff _ op _), not_congr (null_right_one_iff _ op _),
    iff_false_intro (arithmetic.not_null _ left right), quotient, fun nonzero => ?_⟩
  exact quotient.trans (right.isZeroDivisor_iff nonzero)

/-- A machine on which every pointer makes a one. -/
def onePointer : Machine := { formatFloat := fun _ => [], pointerFloat := fun _ => 1 }

/-- `NULL < 5` is not one, `NULL / 0` is `NULL`, and `5 / 'abc'` is not. -/
theorem null_against_numbers :
    evalBinary onePointer Comparison.lt.code .null (.integer 5) ≠ .ok (.integer 1) ∧
      evalBinary onePointer (opChar '/') .null (.integer 0) = .ok .null ∧
      evalBinary onePointer (opChar '/') (.integer 5) (.text (ascii "abc")) ≠ .ok .null := by
  have one : (1 : Float).beq 0 = false := by decide +kernel
  obtain ⟨noOne, -, -, quotient, -⟩ :=
    non_number_operand_iff onePointer .lt _ .plus .null (.integer 0) (.inl rfl)
  obtain ⟨-, -, -, -, pointer⟩ :=
    non_number_operand_iff onePointer .lt .null .plus (.integer 5) (.text (ascii "abc")) (.inr rfl)
  refine ⟨noOne.mpr (by rintro ⟨_, ⟨⟩, -⟩), quotient.mpr rfl, ?_⟩
  rw [ne_eq, pointer fun _ => one]
  simp [Value.number]

/-- `NULL <= 'a'` is one, and `NULL + 5` is a double. -/
theorem null_below_text :
    evalBinary default Comparison.lte.code .null (.text (ascii "a")) = .ok (.integer 1) ∧
      evalBinary default Arithmetic.plus.code .null (.integer 5) = .ok (.float 5) :=
  ⟨rfl, rfl⟩

/-! ### Two notions of equality -/

namespace Value

/-- The pairs that `value_compare` takes for equal, and the operator `=` does not. -/
def OnlyTypedEqual : Value → Value → Prop
  | null, null => True
  | float a, float b => a.isNaN = true ∨ b.isNaN = true
  | blob a, blob b => a = b
  | _, _ => False

/-- The pairs that the operator `=` takes for equal, and `value_compare` does not. -/
def OnlyCoercedEqual (machine : Machine) : Value → Value → Prop
  | integer a, float b => (Float.ofInt a.toInt).beq b = true
  | float a, integer b => a.beq (Float.ofInt b.toInt) = true
  | text a, text b => a ≠ b ∧ cString a = cString b
  | text a, b => cString a = b.comparedText machine
  | a, text b => a.comparedText machine = cString b
  | _, _ => False

/-- An integer that is a double. -/
def IsExact : Value → Prop
  | integer a => a.toInt.natAbs < 2 ^ 53
  | _ => True

end Value

theorem compareBytes_eq_iff {first second : List UInt8} :
    compareBytes first second = .eq ↔ first = second := by
  rw [compareBytes_eq, Std.compare_eq_iff_eq]

theorem isNaN_iff (x : Float) : x.isNaN = true ↔ x.toModel.unpack = .notANumber := by
  rw [Float.isNaN, Float.Model.isNaN]
  cases x.toModel.unpack <;> simp [Float.Model.UnpackedFloat.isNaN]

section

variable (isNaN : x.isNaN = true ∨ y.isNaN = true)
include isNaN

/-- Nothing compares with a NaN. -/
theorem compare_isNaN :
    x.toModel.unpack.compare y.toModel.unpack = none := by
  rcases isNaN with first | second
  · rw [(isNaN_iff x).mp first]
    rfl
  · rw [(isNaN_iff y).mp second]
    cases x.toModel.unpack <;> rfl

theorem beq_isNaN : x.beq y = false := by
  show (x.toModel.unpack.compare y.toModel.unpack == some .eq) = false
  rw [compare_isNaN isNaN]
  rfl

theorem lt_isNaN : x.lt y = false := by
  show decide ((x.toModel.unpack.compare y.toModel.unpack == some .lt) = true) = false
  rw [compare_isNaN isNaN]
  rfl

theorem le_isNaN : x.le y = false := by
  show decide ((x.toModel.unpack.compare y.toModel.unpack).any (·.isLE) = true) = false
  rw [compare_isNaN isNaN]
  rfl

end

namespace Value

theorem valueCompare_isNaN (isNaN : x.isNaN = true ∨ y.isNaN = true) :
    (float x).valueCompare (float y) = .eq := by
  rw [valueCompare, lt_isNaN isNaN, lt_isNaN isNaN.symm]
  rfl

/-- Two doubles are equal by `value_compare` if they are equal numbers, or if one is a NaN. -/
theorem float_beq_iff (x y : Float) :
    x.beq y = true ↔
      (float x).valueCompare (float y) = .eq ∧ ¬(x.isNaN = true ∨ y.isNaN = true) := by
  by_cases isNaN : x.isNaN = true ∨ y.isNaN = true
  · rw [beq_isNaN isNaN]
    exact iff_of_false nofun fun both => both.2 isNaN
  · rw [and_iff_left isNaN]
    rw [not_or, Bool.not_eq_true, Bool.not_eq_true] at isNaN
    rw [float_compare isNaN.1 isNaN.2, FloatOrder.beq_iff isNaN.1 isNaN.2]
    exact Std.compare_eq_iff_eq.symm

end Value

/-- The operator `=` is equality by `value_compare`, but for the pairs named above. -/
theorem coerced_equal_iff (machine : Machine) (aExact : a.IsExact) (bExact : b.IsExact) :
    evalBinary machine Comparison.eq.code a b = .ok (.integer 1) ↔
      (a.valueCompare b = .eq ∧ ¬a.OnlyTypedEqual b) ∨ a.OnlyCoercedEqual machine b := by
  refine Comparison.evalBinary_one_iff _ .eq (fun isText => ?_) (fun x y isX isY => ?_)
    fun noText missing => ?_
  · show decide (compareBytes _ _ = .eq) = true ↔ _
    rw [decide_eq_true_iff, compareBytes_eq_iff]
    cases a with
    | text str =>
      cases b with
      | text other =>
        show cString str = cString other ↔
          (compareBytes str other = .eq ∧ ¬False) ∨ (str ≠ other ∧ cString str = cString other)
        rw [compareBytes_eq_iff]
        by_cases same : str = other <;> simp [same]
      | null | integer | float | blob => exact (or_iff_right nofun).symm
    | null | integer | float | blob =>
      cases b with
      | text => exact (or_iff_right nofun).symm
      | null | integer | float | blob => cases isText
  · show x.beq y = true ↔ _
    obtain ⟨a, rfl, rfl⟩ | rfl := Value.number_cases isX <;>
      obtain ⟨b, rfl, rfl⟩ | rfl := Value.number_cases isY
    · rw [ofInt_beq (log2_natAbs_toInt a) (log2_natAbs_toInt b), decide_eq_true_iff,
        nearestInt_eq_self (Nat.le_of_lt aExact), nearestInt_eq_self (Nat.le_of_lt bExact),
        Value.integer_compare, compare_eq_iff_eq]
      exact ⟨fun same => .inl ⟨same, nofun⟩, fun same => same.elim And.left nofun⟩
    · exact (or_iff_right nofun).symm
    · exact (or_iff_right nofun).symm
    · exact (Value.float_beq_iff x y).trans (or_iff_left nofun).symm
  · cases a <;> cases b <;>
      simp_all [Value.isNumber, Value.number, Value.isText, Value.valueCompare,
        Value.OnlyTypedEqual, Value.OnlyCoercedEqual, compareBytes_eq_iff]

/-! ### Two notions of order -/

namespace Value

/-- The first value is not below the second for `value_compare`, and neither is `NULL`. -/
def typedAtLeast (a b : Value) : Bool := !a.isNull && !b.isNull && a.valueCompare b ≠ .lt

/-- The pairs in which `value_compare` does not put the first value below the second, and the
operator `>=` does not hold. -/
def OnlyTypedAtLeast (machine : Machine) : Value → Value → Prop
  | float a, float b => a.isNaN = true ∨ b.isNaN = true
  | float a, integer b => (Float.ofInt b.toInt).le a = false
  | text a, text b => compareBytes a b ≠ .lt ∧ compareBytes (cString a) (cString b) = .lt
  | text a, integer b => compareBytes (cString a) ((integer b).comparedText machine) = .lt
  | text a, float b => compareBytes (cString a) ((float b).comparedText machine) = .lt
  | blob a, blob b => compareBytes a b ≠ .lt
  | blob _, text b => cString b ≠ []
  | blob _, integer _ => True
  | blob _, float _ => True
  | _, _ => False

/-- The pairs in which the operator `>=` holds, and `value_compare` puts the first value below the
second, or one is `NULL`. -/
def OnlyCoercedAtLeast (machine : Machine) : Value → Value → Prop
  | null, text b => cString b = []
  | integer a, float b => b.le (Float.ofInt a.toInt) = true
  | integer a, text b => compareBytes ((integer a).comparedText machine) (cString b) ≠ .lt
  | float a, text b => compareBytes ((float a).comparedText machine) (cString b) ≠ .lt
  | text a, text b => compareBytes a b = .lt ∧ compareBytes (cString a) (cString b) ≠ .lt
  | text _, null => True
  | text _, blob _ => True
  | _, _ => False

theorem float_le_iff (x y : Float) :
    y.le x = true ↔
      (float x).valueCompare (float y) ≠ .lt ∧ ¬(x.isNaN = true ∨ y.isNaN = true) := by
  by_cases isNaN : x.isNaN = true ∨ y.isNaN = true
  · rw [le_isNaN isNaN.symm]
    exact iff_of_false nofun fun both => both.2 isNaN
  · rw [and_iff_left isNaN]
    rw [not_or, Bool.not_eq_true, Bool.not_eq_true] at isNaN
    have opposite : compare (FloatOrder.place y) (FloatOrder.place x) =
        (compare (FloatOrder.place x) (FloatOrder.place y)).swap := Std.OrientedCmp.eq_swap
    rw [float_compare isNaN.1 isNaN.2, FloatOrder.le_iff isNaN.2 isNaN.1, opposite]
    cases compare (FloatOrder.place x) (FloatOrder.place y) <;> simp

end Value

section

attribute [local simp] Value.typedAtLeast Value.OnlyTypedAtLeast Value.OnlyCoercedAtLeast
  Value.isNull Value.valueCompare Value.typeOrder Value.comparedText

/-- The operator `>=` is the order of `value_compare`, but for the pairs named above. -/
theorem coerced_atLeast_iff (machine : Machine) (aExact : a.IsExact) (bExact : b.IsExact) :
    evalBinary machine Comparison.gte.code a b = .ok (.integer 1) ↔
      (a.typedAtLeast b = true ∧ ¬a.OnlyTypedAtLeast machine b) ∨
        a.OnlyCoercedAtLeast machine b := by
  refine Comparison.evalBinary_one_iff _ .gte (fun isText => ?_) (fun x y isX isY => ?_)
    fun noText missing => ?_
  · show decide (compareBytes _ _ ≠ .lt) = true ↔ _
    rw [decide_eq_true_iff]
    cases a with
    | text str =>
      cases b with
      | text other => by_cases below : compareBytes str other = .lt <;> simp [below]
      | null | blob => simp [compareBytes_nil_right]
      | integer | float => simp
    | null | integer | float | blob =>
      cases b with
      | text => simp [compareBytes_nil_left]
      | null | integer | float | blob => cases isText
  · show y.le x = true ↔ _
    obtain ⟨a, rfl, rfl⟩ | rfl := Value.number_cases isX <;>
      obtain ⟨b, rfl, rfl⟩ | rfl := Value.number_cases isY
    · rw [ofInt_le (log2_natAbs_toInt b) (log2_natAbs_toInt a),
        nearestInt_eq_self (Nat.le_of_lt aExact), nearestInt_eq_self (Nat.le_of_lt bExact),
        Value.typedAtLeast, Value.integer_compare]
      simp [compare_lt_iff_lt]
    · simp
    · simp
    · rw [Value.float_le_iff, Value.typedAtLeast]
      simp only [Value.isNull, Value.OnlyTypedAtLeast, Value.OnlyCoercedAtLeast, or_false,
        Bool.not_false, Bool.true_and, decide_eq_true_iff]
  · cases a <;> cases b <;> simp_all [Value.isNumber, Value.number, Value.isText]
    exact of_decide_eq_true

theorem Value.OnlyCoercedAtLeast.not_typed (only : a.OnlyCoercedAtLeast machine b) :
    a.typedAtLeast b = false := by
  cases a <;> cases b <;> simp_all

end

theorem Value.OnlyTypedEqual.typed (only : a.OnlyTypedEqual b) :
    a.valueCompare b = .eq := by
  cases a with
  | null => cases b <;> first | rfl | exact only.elim
  | integer | text => exact only.elim
  | float a =>
    cases b with
    | float b => exact valueCompare_isNaN only
    | null | integer | text | blob => exact only.elim
  | blob a =>
    cases b with
    | blob b => exact compareBytes_eq_iff.mpr only
    | null | integer | float | text => exact only.elim

theorem compareBytes_swap (first second : List UInt8) :
    compareBytes second first = (compareBytes first second).swap := by
  rw [compareBytes_eq, compareBytes_eq]
  exact Std.OrientedCmp.eq_swap

/-- `value_compare` of any two values in the other order. -/
theorem valueCompare_swap (a b : Value) : b.valueCompare a = (a.valueCompare b).swap := by
  cases a <;> cases b
  case integer.integer a b =>
    rw [Value.integer_compare, Value.integer_compare]
    exact Std.OrientedCmp.eq_swap
  case float.float a b =>
    by_cases isNaN : a.isNaN = true ∨ b.isNaN = true
    · rw [Value.valueCompare_isNaN isNaN, Value.valueCompare_isNaN isNaN.symm]
      rfl
    · rw [not_or, Bool.not_eq_true, Bool.not_eq_true] at isNaN
      rw [Value.float_compare isNaN.1 isNaN.2, Value.float_compare isNaN.2 isNaN.1]
      exact Std.OrientedCmp.eq_swap
  case text.text a b => exact compareBytes_swap a b
  case blob.blob a b => exact compareBytes_swap a b
  all_goals rfl

/-- `<=` is `>=` with the operands in the other order. -/
theorem evalBinary_lte (machine : Machine) (a b : Value) :
    evalBinary machine Comparison.lte.code a b = evalBinary machine Comparison.gte.code b a := by
  rw [Comparison.evalBinary_code, Comparison.evalBinary_code, evalComparison, evalComparison,
    Bool.or_comm]
  split
  · rw [Comparison.compareTexts_result, Comparison.compareTexts_result,
      compareBytes_swap (a.comparedText _)]
    cases compareBytes (a.comparedText machine) (b.comparedText machine) <;> rfl
  · have result (compared : Compared) : compared.result Comparison.lte.code = compared.lte := rfl
    have opposite (compared : Compared) : compared.result Comparison.gte.code = compared.gte := rfl
    cases a.number <;> cases b.number <;> simp only [result, opposite, compareDoubles]

/-! ### `IN` and `BETWEEN` -/

/-- `IN` written with `=` and `OR`. -/
def inExpansion (value : Expression) : List Expression → Expression
  | [] => .literalInt 0
  | item :: rest =>
    .binary (.binary value Comparison.eq.code item) tokenOr.code (inExpansion value rest)

/-- `BETWEEN` written with `>=`, `<=` and `AND`. -/
def betweenExpansion (value low high : Expression) : Expression :=
  .binary (.binary value Comparison.gte.code low) tokenAnd.code
    (.binary value Comparison.lte.code high)

/-- A comparison of values gives a truth value. -/
theorem Comparison.evalBinary_truth (machine : Machine) (op : Comparison) (left right : Value) :
    ∃ holds, evalBinary machine op.code left right = .ok (truth holds) := by
  rw [op.evalBinary_code, evalComparison]
  split
  · exact ⟨_, rfl⟩
  · split <;> exact ⟨_, rfl⟩

theorem truth_inj {first second : Bool} : truth first = truth second ↔ first = second := by
  cases first <;> cases second <;> simp [truth]

theorem isTruthy_truth (holds : Bool) : (truth holds).isTruthy = holds := by
  cases holds <;> rfl

section

variable (machine : Machine) (context : RowContext) {items : List Value} {value : Value}

/-- The expressions evaluate to the values. -/
def EvaluateTo (exprs : List Expression) (values : List Value) : Prop :=
  List.Forall₂ (fun expr value => exprEval machine context expr = .ok value) exprs values

/-- The loop of `eval_in` finds the items that compare equal. -/
theorem evalInLoop_eq (value : Value) (evaluate : EvaluateTo machine context list items) :
    evalInLoop machine context value list =
      .ok (items.any fun item => value.valueCompare item = .eq) := by
  induction evaluate with
  | nil => rfl
  | @cons expr item list items head _ inductionHypothesis =>
    rw [evalInLoop, head]
    show (if value.valueCompare item = .eq then Except.ok true else
      evalInLoop machine context value list) = _
    rw [inductionHypothesis]
    by_cases same : value.valueCompare item = .eq
    · simp [same]
    · simp [same]

/-- The expansion of `IN` is one if an item is equal for the operator `=`. -/
theorem inExpansion_eq {expr : Expression} (evaluates : exprEval machine context expr = .ok value)
    (evaluate : EvaluateTo machine context list items) :
    ∃ found, exprEval machine context (inExpansion expr list) = .ok (truth found) ∧
      (found = true ↔ ∃ item ∈ items,
        evalBinary machine Comparison.eq.code value item = .ok (.integer 1)) := by
  induction evaluate with
  | nil => exact ⟨false, by rw [inExpansion]; rfl, by simp⟩
  | @cons itemExpr item list items head _ inductionHypothesis =>
    obtain ⟨found, returned, foundIff⟩ := inductionHypothesis
    obtain ⟨holds, compared⟩ := Comparison.evalBinary_truth _ .eq _ _
    refine ⟨holds || found, ?_, ?_⟩
    · rw [inExpansion, exprEval, exprEval, evaluates, head, returned]
      show (evalBinary machine Comparison.eq.code value item >>= fun left =>
        evalBinary machine tokenOr.code left (truth found)) = _
      rw [compared]
      show Except.ok (truth ((truth holds).isTruthy || (truth found).isTruthy)) = _
      rw [isTruthy_truth, isTruthy_truth]
    · simp only [Bool.or_eq_true, foundIff, List.mem_cons, exists_eq_or_imp, compared,
        Except.ok.injEq, truth_eq_one]

/-- The expansion of `BETWEEN` is one if both operators hold. -/
theorem betweenExpansion_eq {valueExpr lowExpr highExpr : Expression}
    (valueIs : exprEval machine context valueExpr = .ok value)
    (lowIs : exprEval machine context lowExpr = .ok low)
    (highIs : exprEval machine context highExpr = .ok high) :
    ∃ inside, exprEval machine context (betweenExpansion valueExpr lowExpr highExpr) =
        .ok (truth inside) ∧
      (inside = true ↔ evalBinary machine Comparison.gte.code value low = .ok (.integer 1) ∧
        evalBinary machine Comparison.gte.code high value = .ok (.integer 1)) := by
  obtain ⟨above, lowCompared⟩ := Comparison.evalBinary_truth _ _ _ low
  obtain ⟨below, highCompared⟩ := Comparison.evalBinary_truth _ _ _ _
  refine ⟨above && below, ?_, ?_⟩
  · rw [betweenExpansion, exprEval, exprEval, exprEval, valueIs, lowIs, highIs]
    show (evalBinary machine Comparison.gte.code value low >>= fun left =>
      evalBinary _ Comparison.lte.code _ _ >>= fun right =>
        evalBinary machine tokenAnd.code left right) = _
    rw [evalBinary_lte, lowCompared, highCompared]
    show Except.ok (truth ((truth above).isTruthy && (truth below).isTruthy)) = _
    rw [isTruthy_truth, isTruthy_truth]
  · rw [Bool.and_eq_true, lowCompared, highCompared, Except.ok.injEq, Except.ok.injEq,
      truth_eq_one, truth_eq_one]

/-- `eval_between` in terms of one order. -/
theorem evalBetween_eq (value low high : Value) :
    evalBetween false value low high =
      truth (value.typedAtLeast low && high.typedAtLeast value) := by
  rw [evalBetween, Value.typedAtLeast, Value.typedAtLeast, valueCompare_swap value _]
  cases value.valueCompare high <;> cases value.isNull <;> cases low.isNull <;>
    cases high.isNull <;> simp

/-- The list has an item that is equal in both senses, or items of both kinds of disagreement, or
of none. -/
def InAgrees (value : Value) (items : List Value) : Prop :=
  (∃ item ∈ items, value.valueCompare item = .eq ∧ ¬value.OnlyTypedEqual item) ∨
    ((∃ item ∈ items, value.OnlyTypedEqual item) ↔
      ∃ item ∈ items, value.OnlyCoercedEqual machine item)

/-- A value inside the bounds for `value_compare` is so for both operators; and a value inside for
the operators does not owe this to a coercion. -/
def BetweenAgrees (value low high : Value) : Prop :=
  (value.typedAtLeast low = true → high.typedAtLeast value = true →
    ¬value.OnlyTypedAtLeast machine low ∧ ¬high.OnlyTypedAtLeast machine value) ∧
  ¬(value.OnlyCoercedAtLeast machine low ∧ high.OnlyCoercedAtLeast machine value) ∧
  (value.OnlyCoercedAtLeast machine low → high.typedAtLeast value = true →
    high.OnlyTypedAtLeast machine value) ∧
  (high.OnlyCoercedAtLeast machine value → value.typedAtLeast low = true →
    value.OnlyTypedAtLeast machine low)

theorem inAgrees_iff (valueExact : value.IsExact) (itemsExact : ∀ item ∈ items, item.IsExact) :
    ((∃ item ∈ items, value.valueCompare item = .eq) ↔
        ∃ item ∈ items, evalBinary machine Comparison.eq.code value item = .ok (.integer 1)) ↔
      InAgrees machine value items := by
  have typed : (∃ item ∈ items, value.valueCompare item = .eq) ↔
      (∃ item ∈ items, value.valueCompare item = .eq ∧ ¬value.OnlyTypedEqual item) ∨
        ∃ item ∈ items, value.OnlyTypedEqual item := by
    constructor
    · rintro ⟨item, member, same⟩
      by_cases only : value.OnlyTypedEqual item
      · exact .inr ⟨item, member, only⟩
      · exact .inl ⟨item, member, same, only⟩
    · rintro (⟨item, member, same, -⟩ | ⟨item, member, only⟩)
      · exact ⟨item, member, same⟩
      · exact ⟨item, member, only.typed⟩
  have coerced : (∃ item ∈ items,
        evalBinary machine Comparison.eq.code value item = .ok (.integer 1)) ↔
      (∃ item ∈ items, value.valueCompare item = .eq ∧ ¬value.OnlyTypedEqual item) ∨
        ∃ item ∈ items, value.OnlyCoercedEqual machine item := by
    constructor
    · rintro ⟨item, member, holds⟩
      rcases (coerced_equal_iff machine valueExact (itemsExact item member)).mp holds with
        both | only
      · exact .inl ⟨item, member, both⟩
      · exact .inr ⟨item, member, only⟩
    · rintro (⟨item, member, both⟩ | ⟨item, member, only⟩)
      · exact ⟨item, member,
          (coerced_equal_iff _ valueExact (itemsExact _ member)).mpr (.inl both)⟩
      · exact ⟨item, member,
          (coerced_equal_iff _ valueExact (itemsExact _ member)).mpr (.inr only)⟩
  rw [typed, coerced, InAgrees]
  by_cases both : ∃ item ∈ items, value.valueCompare item = .eq ∧ ¬value.OnlyTypedEqual item
  · exact iff_of_true (iff_of_true (.inl both) (.inl both)) (.inl both)
  · rw [or_iff_right both, or_iff_right both, or_iff_right both]

theorem betweenAgrees_iff (valueExact : value.IsExact) (lowExact : low.IsExact)
    (highExact : high.IsExact) :
    (value.typedAtLeast low = true ∧ high.typedAtLeast value = true ↔
        evalBinary machine Comparison.gte.code value low = .ok (.integer 1) ∧
          evalBinary machine Comparison.gte.code high value = .ok (.integer 1)) ↔
      BetweenAgrees machine value low high := by
  have lowOnly : value.OnlyCoercedAtLeast machine low → ¬value.typedAtLeast low = true :=
    fun only => Bool.eq_false_iff.mp only.not_typed
  have highOnly : high.OnlyCoercedAtLeast machine value → ¬high.typedAtLeast value = true :=
    fun only => Bool.eq_false_iff.mp only.not_typed
  rw [coerced_atLeast_iff _ valueExact lowExact,
    coerced_atLeast_iff _ highExact valueExact]
  constructor
  · intro agree
    refine ⟨fun low high => ?_, ?_, ?_, ?_⟩
    · obtain ⟨lowHolds, highHolds⟩ := agree.mp ⟨low, high⟩
      exact ⟨(lowHolds.resolve_right fun only => lowOnly only low).2,
        (highHolds.resolve_right fun only => highOnly only high).2⟩
    · rintro ⟨low, high⟩
      exact lowOnly low (agree.mpr ⟨.inr low, .inr high⟩).1
    · intro only typed
      by_contra notOnly
      exact lowOnly only (agree.mpr ⟨.inr only, .inl ⟨typed, notOnly⟩⟩).1
    · intro only typed
      by_contra notOnly
      exact highOnly only (agree.mpr ⟨.inl ⟨typed, notOnly⟩, .inr only⟩).2
  · rintro ⟨typed, notBoth, lowCoerced, highCoerced⟩
    constructor
    · rintro ⟨low, high⟩
      obtain ⟨lowTyped, highTyped⟩ := typed low high
      exact ⟨.inl ⟨low, lowTyped⟩, .inl ⟨high, highTyped⟩⟩
    · rintro ⟨⟨low, lowTyped⟩ | low, ⟨high, highTyped⟩ | high⟩
      · exact ⟨low, high⟩
      · exact absurd (highCoerced high low) lowTyped
      · exact absurd (lowCoerced low high) highTyped
      · exact absurd ⟨low, high⟩ notBoth

/-- For integers that are doubles, `IN` and `BETWEEN` give what their expansions give exactly if the
values avoid the pairs on which the two comparisons differ. -/
theorem expansions_agree_iff {valueExpr lowExpr highExpr : Expression} {list : List Expression}
    {value low high : Value} {items : List Value}
    (valueIs : exprEval machine context valueExpr = .ok value)
    (lowIs : exprEval machine context lowExpr = .ok low)
    (highIs : exprEval machine context highExpr = .ok high)
    (itemsAre : EvaluateTo machine context list items) (valueExact : value.IsExact)
    (lowExact : low.IsExact) (highExact : high.IsExact)
    (itemsExact : ∀ item ∈ items, item.IsExact) :
    (exprEval machine context (.inList valueExpr list false) =
        exprEval machine context (inExpansion valueExpr list) ↔
      InAgrees machine value items) ∧
    (exprEval machine context (.between valueExpr lowExpr highExpr false) =
        exprEval machine context (betweenExpansion valueExpr lowExpr highExpr) ↔
      BetweenAgrees machine value low high) := by
  constructor
  · obtain ⟨found, expanded, foundIff⟩ := inExpansion_eq _ _ valueIs itemsAre
    have evaluated : exprEval machine context (.inList valueExpr list false) =
        .ok (truth (items.any fun item => value.valueCompare item = .eq)) := by
      rw [exprEval, valueIs]
      show (evalInLoop machine context value list >>= fun found => pure (truth found)) = _
      rw [evalInLoop_eq _ _ _ itemsAre]
      rfl
    rw [evaluated, expanded, Except.ok.injEq, truth_inj, Bool.eq_iff_iff, foundIff]
    simp only [List.any_eq_true, decide_eq_true_iff]
    exact inAgrees_iff _ valueExact itemsExact
  · obtain ⟨inside, expanded, insideIff⟩ := betweenExpansion_eq _ _ valueIs lowIs highIs
    have evaluated : exprEval machine context (.between valueExpr lowExpr highExpr false) =
        .ok (truth (value.typedAtLeast low && high.typedAtLeast value)) := by
      rw [exprEval, valueIs, lowIs, highIs, ← evalBetween_eq]
      rfl
    rw [evaluated, expanded, Except.ok.injEq, truth_inj, Bool.eq_iff_iff, insideIff,
      Bool.and_eq_true]
    exact betweenAgrees_iff _ valueExact lowExact highExact

end

/-- `3 IN (4, 3)` and `3 BETWEEN 1 AND 5`. -/
theorem expansions_agree_on_integers :
    exprEval default ⟨none, 0, none⟩
          (.inList (.literalInt 3) [.literalInt 4, .literalInt 3] false) =
        exprEval default ⟨none, 0, none⟩
          (inExpansion (.literalInt 3) [.literalInt 4, .literalInt 3]) ∧
      exprEval default ⟨none, 0, none⟩
          (.between (.literalInt 3) (.literalInt 1) (.literalInt 5) false) =
        exprEval default ⟨none, 0, none⟩
          (betweenExpansion (.literalInt 3) (.literalInt 1) (.literalInt 5)) := by
  have literal value :
      exprEval default ⟨none, 0, none⟩ (.literalInt value) = .ok (.integer value) := by
    rw [exprEval]
  have items : EvaluateTo default ⟨none, 0, none⟩ [.literalInt 4, .literalInt 3]
      [.integer 4, .integer 3] := .cons (literal 4) (.cons (literal 3) .nil)
  obtain ⟨inList, between⟩ := expansions_agree_iff _ ⟨none, 0, none⟩ (literal 3) (literal 1)
    (literal 5) items (by simp [Value.IsExact]) (by simp [Value.IsExact]) (by simp [Value.IsExact])
    (by simp [Value.IsExact])
  refine ⟨inList.mpr (.inl ⟨.integer 3, by simp, rfl, ?_⟩), between.mpr ?_⟩
  · simp [Value.OnlyTypedEqual]
  · simp [BetweenAgrees, Value.OnlyTypedAtLeast, Value.OnlyCoercedAtLeast]

/-- `NULL IN (NULL)` is one, and `NULL = NULL` is not; `2 BETWEEN 1.0 AND 3` is zero, and
`2 >= 1.0 AND 2 <= 3` is one. -/
theorem expansions_differ :
    exprEval default ⟨none, 0, none⟩ (.inList .literalNull [.literalNull] false) =
        .ok (.integer 1) ∧
      exprEval default ⟨none, 0, none⟩ (inExpansion .literalNull [.literalNull]) =
        .ok (.integer 0) ∧
      exprEval default ⟨none, 0, none⟩
          (.between (.literalInt 2) (.literalFloat 1) (.literalInt 3) false) =
        .ok (.integer 0) ∧
      exprEval default ⟨none, 0, none⟩
          (betweenExpansion (.literalInt 2) (.literalFloat 1) (.literalInt 3)) =
        .ok (.integer 1) :=
  ⟨rfl, rfl, rfl, rfl⟩

end TinyDb

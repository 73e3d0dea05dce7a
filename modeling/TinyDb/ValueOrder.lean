/-
This file shows that `value_compare` is a total preorder on the values without NaN. Every
value has a key, made of its type, its number and its bytes, and comparing two values is
comparing their keys from left to right. `NULL` has the first type, and the other types
follow in the order of the source.
-/

import TinyDb.Evaluator
import TinyDb.Lib.FloatOrder

namespace TinyDb

open FloatOrder

variable {a b : Value}

attribute [local instance] lexOrd

/-! ### Bytes -/

theorem compareBytes_eq (first second : List UInt8) :
    compareBytes first second = compare first second := by
  rw [List.compare_eq_compareLex]
  induction first generalizing second with
  | nil => cases second <;> rfl
  | cons c rest inductionHypothesis =>
    cases second with
    | nil => rfl
    | cons d others => rw [compareBytes, List.compareLex_cons_cons, inductionHypothesis _]

namespace Value

/-! ### The key of a value -/

/-- The value is no NaN. -/
def isOrdered : Value → Bool
  | float asFloat => !asFloat.isNaN
  | _ => true

/-- The values have one type and one content; of doubles, they are equal numbers. -/
def sameContent : Value → Value → Bool
  | null, null => true
  | integer a, integer b => a = b
  | float a, float b => a.beq b
  | text a, text b => a = b
  | blob a, blob b => a = b
  | _, _ => false

/-- The key of a value: its type, its number and its bytes. -/
def key : Value → Nat × Int × Place × List UInt8
  | null => (0, 0, (0, 0, 0), [])
  | integer asInt => (1, asInt.toInt, (0, 0, 0), [])
  | float asFloat => (2, 0, place asFloat, [])
  | text str => (3, 0, (0, 0, 0), str)
  | blob bytes => (4, 0, (0, 0, 0), bytes)

/-- A comparison by two tests of the order. -/
theorem compare_of_lt {Key : Type} [Ord Key] [Std.OrientedOrd Key] {first second : Key}
    {less greater : Prop} [Decidable less] [Decidable greater]
    (isLess : less ↔ compare first second = .lt)
    (isGreater : greater ↔ compare second first = .lt) :
    (if less then Ordering.lt else if greater then .gt else .eq) = compare first second := by
  have opposite : compare second first = (compare first second).swap := Std.OrientedCmp.eq_swap
  simp only [isLess, isGreater, opposite]
  cases compare first second <;> rfl

theorem integer_compare (a b : Int64) :
    (integer a).valueCompare (integer b) = compare a.toInt b.toInt := by
  refine compare_of_lt ?_ ?_
  · rw [Int64.lt_iff_toInt_lt, compare_lt_iff_lt]
  · rw [Int64.lt_iff_toInt_lt, compare_lt_iff_lt]

theorem float_compare {a b : Float} (aNumber : a.isNaN = false) (bNumber : b.isNaN = false) :
    (float a).valueCompare (float b) = compare (place a) (place b) :=
  compare_of_lt (lt_iff aNumber bNumber) (lt_iff bNumber aNumber)

/-- Comparing two values is comparing their keys. -/
theorem valueCompare_eq (aOrdered : a.isOrdered = true) (bOrdered : b.isOrdered = true) :
    a.valueCompare b = compare a.key b.key := by
  cases a with
  | null => cases b <;> rfl
  | integer a =>
    cases b with
    | integer b => exact (integer_compare a b).trans Ordering.then_eq.symm
    | null | float | text | blob => rfl
  | float a =>
    cases b with
    | float b =>
      exact (float_compare (by simpa [isOrdered] using aOrdered)
        (by simpa [isOrdered] using bOrdered)).trans Ordering.then_eq.symm
    | null | integer | text | blob => rfl
  | text a =>
    cases b with
    | text b => exact compareBytes_eq a b
    | null | integer | float | blob => rfl
  | blob a =>
    cases b with
    | blob b => exact compareBytes_eq a b
    | null | integer | float | text => rfl

/-- Values of one key have one content. -/
theorem key_eq_iff (aOrdered : a.isOrdered = true) (bOrdered : b.isOrdered = true) :
    a.key = b.key ↔ a.sameContent b = true := by
  cases a <;> cases b <;> simp [key, sameContent, Int64.toInt_inj]
  case float.float a b =>
    exact (beq_iff (by simpa [isOrdered] using aOrdered) (by simpa [isOrdered] using bOrdered)).symm

/-! ### The order -/

/-- On all values without NaN, `value_compare` gives the opposite sign for the values in the other
order, it is transitive, and it is zero exactly for two `NULL`s and for equal values of one type. -/
theorem valueCompare_total_preorder (a b c : Value) (aOrdered : a.isOrdered = true)
    (bOrdered : b.isOrdered = true) (cOrdered : c.isOrdered = true) :
    b.valueCompare a = (a.valueCompare b).swap ∧
    ((a.valueCompare b).isLE = true → (b.valueCompare c).isLE = true →
      (a.valueCompare c).isLE = true) ∧
    (a.valueCompare b = .eq ↔ a.sameContent b = true) := by
  rw [valueCompare_eq aOrdered bOrdered, valueCompare_eq bOrdered aOrdered,
    valueCompare_eq bOrdered cOrdered, valueCompare_eq aOrdered cOrdered]
  refine ⟨Std.OrientedCmp.eq_swap, Std.TransCmp.isLE_trans, ?_⟩
  rw [Std.compare_eq_iff_eq, key_eq_iff aOrdered bOrdered]

/-- Two doubles and a text, in this order. -/
theorem valueCompare_doubles_text :
    (float 2.5).valueCompare (float 1.5) = .gt ∧
    ((float 1.5).valueCompare (text (ascii "a"))).isLE = true ∧
    (float 1.5).sameContent (float 2.5) = false := by
  obtain ⟨opposite, transitive, equal⟩ := valueCompare_total_preorder (float 1.5) (float 2.5)
    (text _) (by decide +kernel) (by decide +kernel) rfl
  have less : (float 1.5).valueCompare (float 2.5) = .lt := by decide +kernel
  rw [less] at opposite transitive equal
  exact ⟨opposite, transitive rfl rfl, by simpa using equal⟩

end Value

end TinyDb

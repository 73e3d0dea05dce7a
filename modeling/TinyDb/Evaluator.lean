/-
This file models the evaluation of expressions over a row. An operator is an integer, as
the parser stores it. The evaluator compares it with character constants for most
operators and with token codes for the others.

An evaluation can fail to give a value in two ways: the matching of a `LIKE` pattern may
run for ever, and an operation of C may be undefined. Reading a text or a blob as a
number reads the bits of a pointer; what they are is left to the machine, and so is the
format of a double.
-/

import Mathlib
import TinyDb.Ast
import TinyDb.Lib.Recursion

namespace TinyDb

open TokenType Recursion

/-! ### Values -/

/-- `Value`. -/
inductive Value
  | null
  | integer (asInt : Int64)
  | float (asFloat : Float)
  | text (str : List UInt8)
  | blob (bytes : List UInt8)

/-- What the language leaves open: the text of a double for the format `%.15g`, and the double that
the bits of a pointer make. -/
structure Machine where
  formatFloat : Float → List UInt8
  pointerFloat : List UInt8 → Float
  deriving Inhabited

/-- Why there is no value. -/
inductive Halt
  | neverReturns
  | undefined
  deriving DecidableEq

/-- The sign of `memcmp` and `strcmp` on texts of any length: the bytes, then the lengths. -/
def compareBytes : List UInt8 → List UInt8 → Ordering
  | [], [] => .eq
  | [], _ :: _ => .lt
  | _ :: _, [] => .gt
  | first :: rest, second :: others => (compare first second).then (compareBytes rest others)

/-- The part of a text that a string function sees. -/
def cString (text : List UInt8) : List UInt8 := text.takeWhile (· ≠ 0)

namespace Value

/-- `value_is_null`. -/
def isNull : Value → Bool
  | null => true
  | _ => false

/-- `value_is_truthy`. -/
def isTruthy : Value → Bool
  | null => false
  | integer asInt => asInt ≠ 0
  | float asFloat => !asFloat.beq 0
  | text str => 0 < str.length
  | blob bytes => 0 < bytes.length

/-- The order of the types in `value_compare`. -/
def typeOrder : Value → Nat
  | null => 0
  | integer _ => 0
  | float _ => 1
  | text _ => 2
  | blob _ => 3

/-- The sign of `value_compare`. -/
def valueCompare : Value → Value → Ordering
  | null, null => .eq
  | null, _ => .lt
  | _, null => .gt
  | integer a, integer b => if a < b then .lt else if b < a then .gt else .eq
  | float a, float b => if a.lt b then .lt else if b.lt a then .gt else .eq
  | text a, text b => compareBytes a b
  | blob a, blob b => compareBytes a b
  | a, b => if a.typeOrder < b.typeOrder then .lt else .gt

/-- The conversion to `double` of `eval_binary`, which takes every value but an integer for one. -/
def asDouble (machine : Machine) : Value → Float
  | null => 0
  | integer asInt => Float.ofInt asInt.toInt
  | float asFloat => asFloat
  | text str => machine.pointerFloat str
  | blob bytes => machine.pointerFloat bytes

/-- The number of a comparison, if there is one. -/
def number : Value → Option Float
  | integer asInt => some (Float.ofInt asInt.toInt)
  | float asFloat => some asFloat
  | _ => none

/-- The text of a comparison. -/
def comparedText (machine : Machine) : Value → List UInt8
  | text str => cString str
  | integer asInt => ascii (toString asInt.toInt)
  | float asFloat => machine.formatFloat asFloat
  | _ => []

def isText : Value → Bool
  | text _ => true
  | _ => false

end Value

/-! ### Operators -/

/-- A character constant as an operator. -/
def opChar (character : Char) : Int := character.toNat

/-- The results of a comparison, by the operator. -/
structure Compared where
  eq : Bool
  neq : Bool
  lt : Bool
  gt : Bool
  lte : Bool
  gte : Bool

def Compared.result (compared : Compared) (op : Int) : Bool :=
  if op = opChar '=' then compared.eq
  else if op = tokenNeq.code then compared.neq
  else if op = opChar '<' then compared.lt
  else if op = opChar '>' then compared.gt
  else if op = tokenLte.code then compared.lte
  else if op = tokenGte.code then compared.gte
  else false

/-- The comparisons of two texts. -/
def compareTexts (left right : List UInt8) : Compared :=
  let cmp := compareBytes left right
  ⟨cmp = .eq, cmp ≠ .eq, cmp = .lt, cmp = .gt, cmp ≠ .gt, cmp ≠ .lt⟩

/-- The comparisons of two doubles. -/
def compareDoubles (left right : Float) : Compared :=
  ⟨left.beq right, !left.beq right, left.lt right, right.lt left, left.le right, right.le left⟩

/-- `is_numericComparison`. -/
def isNumericComparison (op : Int) : Bool :=
  op = opChar '=' || op = opChar '<' || op = opChar '>' || op = tokenLte.code ||
    op = tokenGte.code || op = tokenNeq.code

/-- A truth value as an integer. -/
def truth (holds : Bool) : Value := .integer (if holds then 1 else 0)

/-- The comparison operators of `eval_binary`. -/
def evalComparison (machine : Machine) (op : Int) (left right : Value) : Value :=
  if left.isText || right.isText then
    truth ((compareTexts (left.comparedText machine) (right.comparedText machine)).result op)
  else
    match left.number, right.number with
    | some left, some right => truth ((compareDoubles left right).result op)
    | _, _ => truth false

/-- An `int64_t` of a signed operation, which is undefined outside its range. -/
def checkedInt (result : Int) : Except Halt Int64 :=
  if Int64.minValue.toInt ≤ result ∧ result ≤ Int64.maxValue.toInt then .ok (Int64.ofInt result)
  else .error .undefined

/-- The cast of a double to `int64_t`, which is undefined outside its range. -/
def castInt64 (number : Float) : Except Halt Int64 :=
  if number.beq number then checkedInt (number.toModel.unpack.toInt (-2 ^ 64) (2 ^ 64))
  else .error .undefined

/-- The operators `+`, `-` and `*` of `eval_binary`. -/
def evalArithmetic (machine : Machine) (onInts : Int → Int → Int)
    (onDoubles : Float → Float → Float)
    (left right : Value) : Except Halt Value :=
  match left, right with
  | .integer left, .integer right => .integer <$> checkedInt (onInts left.toInt right.toInt)
  | left, right => .ok (.float (onDoubles (left.asDouble machine) (right.asDouble machine)))

/-- The operator `/` of `eval_binary`. An integer divisor goes through a double. -/
def evalDivision (machine : Machine) (left right : Value) : Except Halt Value :=
  let divisor := right.asDouble machine
  if divisor.beq 0 then .ok .null
  else
    match left, right with
    | .integer left, .integer _ => do
      let divisor ← castInt64 divisor
      .integer <$> checkedInt (left.toInt.tdiv divisor.toInt)
    | left, _ => .ok (.float (left.asDouble machine / divisor))

/-- `eval_binary` behind the evaluation of the operands. The branches for `LIKE`, `IN` and `BETWEEN`
give `NULL`, since the node is none of these expressions. -/
def evalBinary (machine : Machine) (op : Int) (left right : Value) : Except Halt Value :=
  if op = tokenAnd.code then .ok (truth (left.isTruthy && right.isTruthy))
  else if op = tokenOr.code then .ok (truth (left.isTruthy || right.isTruthy))
  else if op = tokenIs.code then .ok (truth (left.isNull == right.isNull))
  else if isNumericComparison op then .ok (evalComparison machine op left right)
  else if op = opChar '+' then evalArithmetic machine (· + ·) (· + ·) left right
  else if op = opChar '-' then evalArithmetic machine (· - ·) (· - ·) left right
  else if op = opChar '*' then evalArithmetic machine (· * ·) (· * ·) left right
  else if op = opChar '/' then evalDivision machine left right
  else .ok .null

/-- `eval_unary` behind the evaluation of the operand. -/
def evalUnary (op : Int) (operand : Value) : Except Halt Value :=
  if op = opChar '!' then .ok (truth (!operand.isTruthy))
  else if op = opChar '-' then
    match operand with
    | .integer asInt => .integer <$> checkedInt (-asInt.toInt)
    | .float asFloat => .ok (.float (-asFloat))
    | _ => .ok .null
  else if op = tokenNot.code ∨ op = tokenIs.code then .ok (truth false)
  else .ok .null

/-! ### Patterns -/

/-- The bytes of a run of `%`. -/
def percentRun (pattern : List UInt8) : Nat := (pattern.takeWhile (· = char '%')).length

/-- One turn of the loop of `simple_like_match`, at a position of the string and one of the pattern.
At a `%` the position in the pattern stays on the last one of its run. -/
def likeBody (str pattern : List UInt8) :
    Nat × Nat × Option (Nat × Nat) → Calls (Nat × Nat × Option (Nat × Nat)) (fun _ => Bool) Bool
  | (s, p, lastStar) =>
    if p < pattern.length then
      if pattern.getD p 0 = char '%' then
        .ask (s, p + percentRun (pattern.drop (p + 1)), some (p, s))
      else if s ≥ str.length then return p + percentRun (pattern.drop p) ≥ pattern.length
      else if pattern.getD p 0 = char '_' ∨ pattern.getD p 0 = str.getD s 0 then
        .ask (s + 1, p + 1, lastStar)
      else
        match lastStar with
        | none => return false
        | some (star, starS) =>
          if star + 1 ≥ pattern.length then return true
          else
            let next := starS +
              ((str.drop starS).takeWhile (· ≠ pattern.getD (star + 1) 0)).length
            if next ≥ str.length then return false
            else .ask (next + 1, star + 1, some (star, next + 1))
    else return s ≥ str.length

/-- The loop of `simple_like_match`. -/
noncomputable def likeLoop (str pattern : List UInt8) (s p : Nat) (lastStar : Option (Nat × Nat)) :
    Option Bool :=
  fix (likeBody str pattern) (s, p, lastStar)

/-- `simple_like_match`. -/
noncomputable def simpleLikeMatch (str pattern : List UInt8) : Option Bool :=
  if pattern.isEmpty then some str.isEmpty else likeLoop str pattern 0 0 none

/-- `eval_like` behind the evaluation of its operands. -/
noncomputable def evalLike (isNot : Bool) (str pattern : Value) : Except Halt Value :=
  match str, pattern with
  | .text str, .text pattern =>
    match simpleLikeMatch str pattern with
    | none => .error .neverReturns
    | some matched => .ok (truth (if isNot then !matched else matched))
  | _, _ => .ok (truth false)

/-- `eval_between` behind the evaluation of its operands. -/
def evalBetween (isNot : Bool) (value low high : Value) : Value :=
  let inside := !value.isNull && !low.isNull && !high.isNull &&
    value.valueCompare low ≠ .lt && value.valueCompare high ≠ .gt
  truth (if isNot then !inside else inside)

/-! ### Expressions -/

/-- The row of an evaluation. -/
structure RowContext where
  rowData : Option (List Value)
  columnCount : Int
  columnNames : Option (List (Option (List UInt8)))

/-- `eval_column`. A name that does not fit the index is looked for among all columns. -/
def evalColumn (context : RowContext) (colIndex : Int) (colName : List UInt8) : Value :=
  match context.rowData, context.columnNames with
  | some rowData, some columnNames =>
    if colIndex < 0 ∨ colIndex ≥ context.columnCount then .null
    else
      let named := columnNames.take context.columnCount.toNat
      let index :=
        match named.getD colIndex.toNat none with
        | none => colIndex.toNat
        | some name =>
          if name = colName then colIndex.toNat
          else (named.findIdx? fun name => name = some colName).getD colIndex.toNat
      rowData.getD index .null
  | _, _ => .null

mutual

/-- `expr_eval`. -/
noncomputable def exprEval (machine : Machine) (context : RowContext) :
    Expression → Except Halt Value
  | .literalInt asInt => .ok (.integer asInt)
  | .literalFloat asFloat => .ok (.float asFloat)
  | .literalString str => .ok (.text str)
  | .literalNull => .ok .null
  | .column colIndex colName => .ok (evalColumn context colIndex colName)
  | .binary left op right => do
    let left ← exprEval machine context left
    let right ← exprEval machine context right
    evalBinary machine op left right
  | .unary op operand => do
    let operand ← exprEval machine context operand
    evalUnary op operand
  | .inList value list isNot => do
    let value ← exprEval machine context value
    let found ← evalInLoop machine context value list
    return truth (if isNot then !found else found)
  | .between value low high isNot => do
    let value ← exprEval machine context value
    let low ← exprEval machine context low
    let high ← exprEval machine context high
    return evalBetween isNot value low high
  | .like str pattern _ isNot => do
    let str ← exprEval machine context str
    let pattern ← exprEval machine context pattern
    evalLike isNot str pattern

/-- The loop of `eval_in`, which ends at the first item that compares equal. -/
noncomputable def evalInLoop (machine : Machine) (context : RowContext) (value : Value) :
    List Expression → Except Halt Bool
  | [] => .ok false
  | item :: rest => do
    let item ← exprEval machine context item
    if value.valueCompare item = .eq then return true
    else evalInLoop machine context value rest

end

end TinyDb

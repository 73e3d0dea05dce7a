/-
This file compares what the parser writes into a tree with what the evaluator looks for.
The parser stores the code of the operator's token. The evaluator knows the codes of
`AND`, `OR`, `NOT`, `!=`, `<=` and `>=`; for `=`, `<`, `>` and the arithmetic operators
it looks for characters, which no parsed tree has, and gives `NULL`. It gives zero for
every `NOT`, and it compares integers as doubles.
-/

import TinyDb.Evaluator
import TinyDb.Grouping
import TinyDb.Lib.FloatRounding

namespace TinyDb

open TokenType List FloatRounding

/-! ### Arithmetic expressions -/

/-- The binary operators of arithmetic and logic. -/
inductive ArithOp
  | eq | neq | lt | gt | lte | gte | plus | minus | star | slash | and | or

namespace ArithOp

/-- The token of an operator. -/
def type : ArithOp → TokenType
  | eq => tokenEq
  | neq => tokenNeq
  | lt => tokenLt
  | gt => tokenGt
  | lte => tokenLte
  | gte => tokenGte
  | plus => tokenPlus
  | minus => tokenMinus
  | star => tokenStar
  | slash => tokenSlash
  | and => tokenAnd
  | or => tokenOr

/-- The result of an operator; division drops the fraction. -/
def apply (op : ArithOp) (left right : Int) : Int :=
  match op with
  | eq => if left = right then 1 else 0
  | neq => if left ≠ right then 1 else 0
  | lt => if left < right then 1 else 0
  | gt => if left > right then 1 else 0
  | lte => if left ≤ right then 1 else 0
  | gte => if left ≥ right then 1 else 0
  | plus => left + right
  | minus => left - right
  | star => left * right
  | slash => left.tdiv right
  | and => if left ≠ 0 ∧ right ≠ 0 then 1 else 0
  | or => if left ≠ 0 ∨ right ≠ 0 then 1 else 0

end ArithOp

/-- An expression of integer literals that are not negative. -/
inductive Arith
  | literal (value : Int64) (notNegative : 0 ≤ value.toInt)
  | binary (left : Arith) (op : ArithOp) (right : Arith)
  | not (operand : Arith)
  | negate (operand : Arith)

variable {expr : Arith}

/-- The integers of an `int64_t`. -/
def FitsInt64 (value : Int) : Prop :=
  Int64.minValue.toInt ≤ value ∧ value ≤ Int64.maxValue.toInt

namespace Arith

/-- The value of an expression in the integers. -/
def value : Arith → Int
  | literal value _ => value.toInt
  | binary left op right => op.apply left.value right.value
  | not operand => if operand.value = 0 then 1 else 0
  | negate operand => -operand.value

/-- All intermediate results fit an `int64_t`, and there is no division by zero. -/
def InRange : Arith → Prop
  | literal _ _ => True
  | binary left op right =>
    left.InRange ∧ right.InRange ∧ FitsInt64 (op.apply left.value right.value) ∧
      (op = .slash → right.value ≠ 0)
  | not operand => operand.InRange
  | negate operand => operand.InRange ∧ FitsInt64 (-operand.value)

/-- The tree of an expression. -/
def tree : Arith → Expression
  | literal value _ => .literalInt value
  | binary left op right => .binary left.tree op.type.code right.tree
  | not operand => .unary tokenNot.code operand.tree
  | negate operand => .unary tokenMinus.code operand.tree

/-- An expression and all expressions in it. -/
def parts : Arith → List Arith
  | literal value notNegative => [literal value notNegative]
  | binary left op right => binary left op right :: (left.parts ++ right.parts)
  | not operand => not operand :: operand.parts
  | negate operand => negate operand :: operand.parts

end Arith

/-- The tokens of a fully parenthesised expression. A closed one is a literal or stands in
parentheses; it is an operand of other expressions. -/
inductive Spelling : Bool → Arith → List Token → Prop
  | literal (token : Token) (isInteger : token.type = tokenInteger)
      (notNegative : 0 ≤ token.integerValue.toInt) :
      Spelling true (.literal token.integerValue notNegative) [token]
  | parenthesis {closed : Bool} {expr : Arith} {tokens : List Token} {opens closes : Token}
      (isOpen : opens.type = tokenLparen) (isClose : closes.type = tokenRparen)
      (inner : Spelling closed expr tokens) : Spelling true expr (opens :: (tokens ++ [closes]))
  | binary {left right : Arith} {op : ArithOp} {token : Token} {front back : List Token}
      (isOp : token.type = op.type) (leftSpelling : Spelling true left front)
      (rightSpelling : Spelling true right back) :
      Spelling false (.binary left op right) (front ++ token :: back)
  | not {operand : Arith} {token : Token} {tokens : List Token} (isNot : token.type = tokenNot)
      (inner : Spelling true operand tokens) : Spelling false (.not operand) (token :: tokens)
  | negate {operand : Arith} {token : Token} {tokens : List Token} (isMinus : token.type = tokenMinus)
      (inner : Spelling true operand tokens) : Spelling false (.negate operand) (token :: tokens)

/-! ### What the parser returns -/

theorem ArithOp.isBinaryOperator_type (op : ArithOp) : isBinaryOperator op.type = true := by
  cases op <;> rfl

theorem Spelling.readTo {closed : Bool} {tokens : List Token}
    (spelling : Spelling closed expr tokens) : ReadTo closed tokens expr.tree := by
  induction spelling with
  | literal token isInteger notNegative =>
    exact .of_literal (integerOperand _ isInteger).operand.reads
  | parenthesis isOpen isClose inner inductionHypothesis =>
    exact inductionHypothesis.parenthesis isOpen isClose
  | @binary _ _ op token _ _ isOp _ _ leftHypothesis rightHypothesis =>
    rw [Arith.tree, ← isOp]
    exact leftHypothesis.binary (isOp ▸ op.isBinaryOperator_type) rightHypothesis
  | not isNot inner inductionHypothesis => exact inductionHypothesis.not isNot
  | @negate _ token _ isMinus inner inductionHypothesis =>
    rw [Arith.tree, ← isMinus]
    exact inductionHypothesis.sign (.inl isMinus)

/-! ### What the evaluator gives -/

/-- The operators that the evaluator computes: the logical ones, and the comparisons of integers that
round to different doubles, or that compare as equal ones do. -/
def ArithOp.Agrees (op : ArithOp) (left right : Int) : Prop :=
  match op with
  | and => True
  | or => True
  | neq => nearestInt left = nearestInt right → left = right
  | lte => nearestInt left = nearestInt right → left ≤ right
  | gte => nearestInt left = nearestInt right → right ≤ left
  | _ => False

/-- The expressions whose every part the evaluator computes. -/
def Arith.Supported : Arith → Prop
  | literal _ _ => True
  | binary left op right => left.Supported ∧ right.Supported ∧ op.Agrees left.value right.value
  | not operand => operand.Supported ∧ operand.value ≠ 0
  | negate _ => False

theorem int64_eq_zero_iff (value : Int64) : value = 0 ↔ value.toInt = 0 := by
  rw [← Int64.toInt_inj]
  rfl

theorem isTruthy_integer (value : Int64) :
    (Value.integer value).isTruthy = decide (value.toInt ≠ 0) := by
  simp [Value.isTruthy, int64_eq_zero_iff]

/-- A truth value is the integer of a condition exactly if it is the condition. -/
theorem truth_eq_iff (holds : Bool) (condition : Prop) [Decidable condition] :
    truth holds = .integer (Int64.ofInt (if condition then 1 else 0)) ↔ holds = decide condition := by
  by_cases is : condition <;> cases holds <;> simp [truth, is]

theorem natAbs_toInt_le (a : Int64) : a.toInt.natAbs ≤ 2 ^ 63 := by
  have low := a.le_toInt
  have high := a.toInt_lt
  omega

theorem log2_natAbs_toInt (a : Int64) : a.toInt.natAbs.log2 ≤ 1000 := by
  rcases Nat.eq_zero_or_pos a.toInt.natAbs with isZero | positive
  · rw [isZero]
    decide
  · have below : a.toInt.natAbs < 2 ^ 64 := (natAbs_toInt_le a).trans_lt (by decide)
    exact ((Nat.log2_lt positive.ne').mpr below).le.trans (by decide)

/-- Rounding keeps the order of two integers unless it makes them equal. -/
theorem ofInt_le_iff (a b : Int64) :
    (Float.ofInt a.toInt).le (Float.ofInt b.toInt) = decide (a.toInt ≤ b.toInt) ↔
      (nearestInt a.toInt = nearestInt b.toInt → a.toInt ≤ b.toInt) := by
  rw [ofInt_le (log2_natAbs_toInt a) (log2_natAbs_toInt b), decide_eq_decide]
  refine ⟨fun same equal => same.mp equal.le, fun kept => ⟨fun less => ?_, nearestInt_mono⟩⟩
  by_contra greater
  exact greater (kept (less.antisymm (nearestInt_mono (le_of_not_ge greater))))

theorem evalBinary_integers_iff (machine : Machine) (op : ArithOp) (left right : Int64) :
    evalBinary machine op.type.code (.integer left) (.integer right) =
        .ok (.integer (Int64.ofInt (op.apply left.toInt right.toInt))) ↔
      op.Agrees left.toInt right.toInt := by
  have unknown {result : Value} (isInteger : result ≠ .null) :
      (Except.ok .null : Except Halt Value) = .ok result ↔ False :=
    iff_false_intro fun same => isInteger (Except.ok.inj same).symm
  cases op
  case and =>
    refine iff_of_true (congrArg _ ((truth_eq_iff _ _).mpr ?_)) trivial
    simp [isTruthy_integer]
  case or =>
    refine iff_of_true (congrArg _ ((truth_eq_iff _ _).mpr ?_)) trivial
    simp [isTruthy_integer]
  case neq =>
    refine (Except.ok.injEq ..).to_iff.trans ((truth_eq_iff _ _).trans ?_)
    show (!(Float.ofInt left.toInt).beq (Float.ofInt right.toInt)) = _ ↔ (_ → _)
    rw [decide_not, Bool.not_inj_iff, ofInt_beq (log2_natAbs_toInt _) (log2_natAbs_toInt _),
      decide_eq_decide]
    exact ⟨Iff.mp, fun kept => ⟨kept, congrArg _⟩⟩
  case lte => exact (Except.ok.injEq ..).to_iff.trans ((truth_eq_iff _ _).trans (ofInt_le_iff ..))
  case gte =>
    refine (Except.ok.injEq ..).to_iff.trans ((truth_eq_iff _ _).trans ((ofInt_le_iff ..).trans ?_))
    rw [eq_comm]
    rfl
  all_goals exact unknown nofun

theorem FitsInt64.toInt_ofInt {value : Int} (fits : FitsInt64 value) :
    (Int64.ofInt value).toInt = value := by
  obtain ⟨low, high⟩ := fits
  have least : Int64.minValue.toInt = -2 ^ 63 := rfl
  have greatest : Int64.maxValue.toInt = 2 ^ 63 - 1 := rfl
  exact Int64.toInt_ofInt_of_le (by omega) (by omega)

theorem Arith.InRange.fits (inRange : expr.InRange) : FitsInt64 expr.value := by
  cases expr with
  | literal value notNegative =>
    have least : Int64.minValue.toInt = -2 ^ 63 := rfl
    have greatest : Int64.maxValue.toInt = 2 ^ 63 - 1 := rfl
    have high := value.toInt_lt
    exact ⟨by rw [Arith.value]; omega, by rw [Arith.value]; omega⟩
  | binary left op right => exact inRange.2.2.1
  | not operand =>
    rw [Arith.value]
    split <;> exact ⟨by decide, by decide⟩
  | negate operand => exact inRange.2

theorem Arith.self_mem_parts (expr : Arith) : expr ∈ expr.parts := by
  cases expr <;> simp [Arith.parts]

/-- The evaluator gives the value of an expression. -/
def Arith.Evaluates (machine : Machine) (context : RowContext) (expr : Arith) : Prop :=
  exprEval machine context expr.tree = .ok (.integer (Int64.ofInt expr.value))

/-- Every part of an expression evaluates to its value exactly if the evaluator computes all its
operators. -/
theorem parts_evaluate_iff (machine : Machine) (context : RowContext) (expr : Arith)
    (inRange : expr.InRange) :
    (∀ part ∈ expr.parts, part.Evaluates machine context) ↔ expr.Supported := by
  induction expr with
  | literal value notNegative =>
    rw [Arith.parts, forall_mem_singleton]
    refine iff_of_true ?_ trivial
    rw [Arith.Evaluates, Arith.value, Int64.ofInt_toInt]
    rfl
  | binary left op right leftHypothesis rightHypothesis =>
    obtain ⟨leftRange, rightRange, -, -⟩ := inRange
    rw [Arith.parts, forall_mem_cons, forall_mem_append, leftHypothesis leftRange,
      rightHypothesis rightRange]
    have whole (leftSupported : left.Supported) (rightSupported : right.Supported) :
        (left.binary op right).Evaluates machine context ↔ op.Agrees left.value right.value := by
      have leftValue := (leftHypothesis leftRange).mpr leftSupported left left.self_mem_parts
      have rightValue := (rightHypothesis rightRange).mpr rightSupported right right.self_mem_parts
      have agrees := evalBinary_integers_iff machine op (Int64.ofInt left.value)
        (Int64.ofInt right.value)
      rw [leftRange.fits.toInt_ofInt, rightRange.fits.toInt_ofInt] at agrees
      rw [Arith.Evaluates, Arith.tree, exprEval, leftValue, rightValue]
      exact agrees
    exact ⟨fun all => ⟨all.2.1, all.2.2, (whole all.2.1 all.2.2).mp all.1⟩,
      fun all => ⟨(whole all.1 all.2.1).mpr all.2.2, all.1, all.2.1⟩⟩
  | not operand inductionHypothesis =>
    rw [Arith.parts, forall_mem_cons, inductionHypothesis inRange]
    have whole (supported : operand.Supported) :
        operand.not.Evaluates machine context ↔ operand.value ≠ 0 := by
      have operandValue := (inductionHypothesis inRange).mpr supported _ operand.self_mem_parts
      rw [Arith.Evaluates, Arith.tree, exprEval, operandValue]
      exact (Except.ok.injEq ..).to_iff.trans ((truth_eq_iff _ _).trans (by simp))
    exact ⟨fun all => ⟨all.2, (whole all.2).mp all.1⟩, fun all => ⟨(whole all.1).mpr all.2, all.1⟩⟩
  | negate operand inductionHypothesis =>
    rw [Arith.parts, forall_mem_cons, inductionHypothesis inRange.1]
    refine iff_false_intro fun all => ?_
    have operandValue := (inductionHypothesis inRange.1).mpr all.2 _ operand.self_mem_parts
    have whole := all.1
    rw [Arith.Evaluates, Arith.tree, exprEval, operandValue] at whole
    cases whole

/-- For every fully parenthesised text of an expression, the parser returns the tree of the
expression; and all parts of the expression evaluate to their values exactly if it has only the
operators that the evaluator computes. -/
theorem operators_agree_iff (machine : Machine) (context : RowContext) (expr : Arith)
    (inRange : expr.InRange) (closed : Bool) (tokens : List Token)
    (spelling : Spelling closed expr tokens) (parser : Parser) (rest : List Token)
    (stands : parser.At false (tokens ++ rest)) (ends : endsExpression (firstType rest) = true)
    (noDot : firstType rest ≠ tokenDot) :
    (∃ after, parser.parseExpression = some (some expr.tree, after)) ∧
      ((∀ part ∈ expr.parts,
          exprEval machine context part.tree = .ok (.integer (Int64.ofInt part.value))) ↔
        expr.Supported) := by
  obtain ⟨after, returned, -⟩ := spelling.readTo.expression _ _ 0 ends noDot stands
  exact ⟨⟨after, returned⟩, parts_evaluate_iff _ _ _ inRange⟩

/-- Two integers with an operator between them. -/
theorem tokensOf_two (sql : List UInt8) (op : ArithOp) (a b : Int64) (notNegative : 0 ≤ a.toInt)
    (otherNotNegative : 0 ≤ b.toInt)
    (types : (tokensOf sql).map (·.type) = [tokenInteger, op.type, tokenInteger])
    (values : ((tokensOf sql).filter (·.type = tokenInteger)).map (·.integerValue) = [a, b]) :
    Spelling false (.binary (.literal a notNegative) op (.literal b otherNotNegative))
      (tokensOf sql) := by
  obtain ⟨first, _, tokens, isFirst, typesA⟩ := map_eq_cons_iff.mp types
  obtain ⟨token, _, rfl, isOp, typesB⟩ := map_eq_cons_iff.mp typesA
  obtain ⟨second, _, rfl, isSecond, typesC⟩ := map_eq_cons_iff.mp typesB
  obtain rfl := map_eq_nil_iff.mp typesC
  have noInteger : token.type ≠ tokenInteger := by
    rw [isOp]
    cases op <;> decide
  simp only [tokens, filter_cons, isFirst, isSecond, noInteger] at values
  obtain ⟨rfl, rfl⟩ : first.integerValue = a ∧ second.integerValue = b := by simpa using values
  rw [tokens]
  exact .binary isOp (.literal _ isFirst _) (.literal _ isSecond _)

theorem operators_agree_on_neq :
    ∃ parser tree after, parserCreate (ascii "3 != 2") = some parser ∧
      parser.parseExpression = some (some tree, after) ∧
      exprEval default ⟨none, 0, none⟩ tree = .ok (.integer 1) := by
  have spelling := tokensOf_two (ascii "3 != 2") .neq 3 2 (by decide) (by decide)
    (by decide +kernel) (by decide +kernel)
  obtain ⟨parser, created⟩ : ∃ parser, parserCreate (ascii "3 != 2") = some parser := ⟨_, rfl⟩
  have agrees : nearestInt 3 = nearestInt 2 → (3 : Int) = 2 := by decide
  obtain ⟨⟨after, returned⟩, evaluates⟩ := operators_agree_iff _ ⟨none, 0, none⟩
    (.binary (.literal 3 (by decide)) .neq (.literal 2 (by decide)))
    ⟨trivial, trivial, ⟨by decide, by decide⟩, nofun⟩ _ _ spelling _ []
    (by rw [append_nil]; exact parserCreate_at created) rfl (by decide)
  exact ⟨parser, _, after, created, returned,
    evaluates.mpr ⟨trivial, trivial, agrees⟩ _ (Arith.self_mem_parts _)⟩

/-- `1 = 1` is parsed to a tree that evaluates to `NULL`. -/
theorem equality_evaluates_to_null :
    ∃ (expr : Arith) (parser after : Parser), Spelling false expr (tokensOf (ascii "1 = 1")) ∧
      expr.value = 1 ∧ parserCreate (ascii "1 = 1") = some parser ∧
      parser.parseExpression = some (some expr.tree, after) ∧
      exprEval default ⟨none, 0, none⟩ expr.tree = .ok .null := by
  have spelling := tokensOf_two (ascii "1 = 1") .eq 1 1 (by decide) (by decide)
    (by decide +kernel) (by decide +kernel)
  obtain ⟨parser, created⟩ : ∃ parser, parserCreate (ascii "1 = 1") = some parser := ⟨_, rfl⟩
  have stands := parserCreate_at created
  obtain ⟨after, returned, -⟩ := spelling.readTo.expression _ [] 0 rfl (by decide)
    (by rw [append_nil]; exact stands)
  exact ⟨_, parser, after, spelling, rfl, created, returned, rfl⟩

end TinyDb

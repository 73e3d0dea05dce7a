/-
This file says how the parser groups operands that are joined by binary operators. It
groups them to the right, whatever the operators are, and it applies `NOT` to the
operand behind it. That is the tree of the precedences exactly if the precedences rise
from left to right and an operand with a `NOT` is only followed by `AND` or `OR`.
-/

import Mathlib.Data.Int.Order.Basic
import TinyDb.Lib.Precedence
import TinyDb.Reader

namespace TinyDb

open TokenType Precedence List

variable {tree : Tree TokenType Expression} {rest : List Token} {closes token : Token}
  {parser : Parser} {front : List (Precedence.Symbol TokenType Expression)}
  {op : Precedence.Symbol TokenType Expression}

/-! ### Sequences of operands -/

/-- The binary operators. -/
def isBinaryOperator : TokenType → Bool
  | tokenOr | tokenAnd | tokenEq | tokenNeq | tokenLt | tokenGt | tokenLte | tokenGte
  | tokenPlus | tokenMinus | tokenStar | tokenSlash | tokenPercent => true
  | _ => false

/-- The token of a binary operator. -/
structure OperatorToken where
  token : Token
  isOperator : isBinaryOperator token.type = true

/-- An operand: tokens that `parse_literal` reads, whatever follows. A column takes a dot that
follows, and the column behind it. -/
structure ParsedOperand where
  tokens : List Token
  tree : Expression
  reads : ∀ (parser : Parser) (rest : List Token), firstType rest ≠ tokenDot →
    parser.At false (tokens ++ rest) →
    ∃ after, parser.parseLiteral = some (some tree, after) ∧ after.At false rest

/-- An operand behind any number of `NOT`s. -/
structure NotOperand where
  nots : List Token
  areNots : ∀ token ∈ nots, token.type = tokenNot
  operand : ParsedOperand

namespace NotOperand

def tokens (first : NotOperand) : List Token := first.nots ++ first.operand.tokens

def prefixed (first : NotOperand) : Precedence.Operand Expression :=
  ⟨first.nots.length, first.operand.tree⟩

end NotOperand

/-- The tokens of operands that are joined by operators. -/
def sequenceTokens (first : NotOperand) : List (OperatorToken × NotOperand) → List Token
  | [] => first.tokens
  | (op, next) :: rest => first.tokens ++ op.token :: sequenceTokens next rest

/-- The operators and operands, without their tokens. -/
def sequenceItems (rest : List (OperatorToken × NotOperand)) :
    List (TokenType × Precedence.Operand Expression) :=
  rest.map fun next => (next.1.token.type, next.2.prefixed)

/-- The expression of a tree. -/
def treeExpression : Tree TokenType Expression → Expression
  | .leaf expr => expr
  | .neg operand => .unary tokenNot.code (treeExpression operand)
  | .node left op right => .binary (treeExpression left) op.code (treeExpression right)

/-- The expression that `get_precedence` fixes. -/
def precedenceExpression (first : NotOperand) (rest : List (OperatorToken × NotOperand)) :
    Expression :=
  treeExpression (precedenceTree Parser.getPrecedence (Parser.getPrecedence tokenNot)
    first.prefixed (sequenceItems rest))

/-- The condition under which grouping to the right respects the precedences. -/
def PrecedencesRise (first : NotOperand) (rest : List (OperatorToken × NotOperand)) : Prop :=
  Rises Parser.getPrecedence (Parser.getPrecedence tokenNot) first.prefixed (sequenceItems rest)

theorem noNots : ∀ token ∈ ([] : List Token), token.type = tokenNot := forall_mem_nil _

/-! ### What the parser returns -/

namespace Parser

variable {parser : Parser} {tokens : List Token}

/-- The `NOT`s in front of an operand. -/
theorem At.parseUnaryNot_nots {nots : List Token} (areNots : ∀ token ∈ nots, token.type = tokenNot)
    (stands : parser.At false (nots ++ tokens))
    (operand : ∀ parser : Parser, parser.At false tokens →
      ∃ after, parser.parseUnaryNot = some (some (treeExpression tree), after) ∧ after.At false rest) :
    ∃ after, parser.parseUnaryNot = some (some (treeExpression (tree.negs nots.length)), after) ∧
      after.At false rest := by
  induction nots generalizing parser with
  | nil => exact operand _ stands
  | cons token nots inductionHypothesis =>
    obtain ⟨isNot, areNots⟩ := forall_mem_cons.mp areNots
    obtain ⟨after, returned, afterStands⟩ := inductionHypothesis areNots stands.advance
    refine ⟨after, ?_, afterStands⟩
    rw [parseUnaryNot_eq, unaryNotBody, stands.atNot, cons_append, firstType_cons, decide_eq_true isNot,
      returned]
    rfl

theorem At.parseUnaryNot_operand (first : NotOperand) (noDot : firstType rest ≠ tokenDot)
    (stands : parser.At false (first.tokens ++ rest)) :
    ∃ after, parser.parseUnaryNot = some (some (treeExpression first.prefixed.tree), after) ∧
      after.At false rest := by
  rw [NotOperand.tokens, append_assoc] at stands
  refine stands.parseUnaryNot_nots first.areNots fun parser stands => ?_
  obtain ⟨after, returned, afterStands⟩ := first.operand.reads _ _ noDot stands
  refine ⟨after, ?_, afterStands⟩
  -- `parse_literal` takes no `NOT`
  have notNot : firstType (first.operand.tokens ++ rest) ≠ tokenNot := by
    intro isNot
    rw [parseLiteral_other (by rw [stands.type_eq, isNot]; rfl)] at returned
    cases returned
  rw [parseUnaryNot_eq, unaryNotBody, stands.atNot, decide_eq_false notNot, returned]
  rfl

theorem isBinaryOperator_spec {op : TokenType} (isOp : isBinaryOperator op = true) :
    endsExpression op = false ∧ op ≠ tokenLike ∧ op ≠ tokenIn ∧ op ≠ tokenBetween ∧ op ≠ tokenDot := by
  cases op <;> first | decide | cases isOp

/-- The parser groups a sequence of operands to the right. -/
theorem At.parseBinaryExpr_sequence (first : NotOperand)
    (others : List (OperatorToken × NotOperand)) (ends : endsExpression (firstType rest) = true)
    (noDot : firstType rest ≠ tokenDot)
    (stands : parser.At false (sequenceTokens first others ++ rest)) (minPrec : Int) :
    ∃ after, parser.parseBinaryExpr minPrec = some
        (some (treeExpression (rightTree first.prefixed (sequenceItems others))), after) ∧
      after.At false rest := by
  induction others generalizing first parser minPrec with
  | nil =>
    obtain ⟨after, returned, afterStands⟩ := stands.parseUnaryNot_operand _ noDot
    refine ⟨after, ?_, afterStands⟩
    rw [parseBinaryExpr_eq, binaryExprBody, returned, orNull_some, afterStands.failed]
    exact parseBinaryLoop_ends _ (by rw [afterStands.type_eq]; exact ends)
  | cons next others inductionHypothesis =>
    obtain ⟨op, second⟩ := next
    obtain ⟨goesOn, notLike, notIn, notBetween, opNoDot⟩ := isBinaryOperator_spec op.isOperator
    rw [sequenceTokens, append_assoc, cons_append] at stands
    obtain ⟨atOp, returned, opStands⟩ := stands.parseUnaryNot_operand _ (by simpa using opNoDot)
    obtain ⟨after, right, afterStands⟩ := inductionHypothesis _ opStands.advance _
    refine ⟨after, ?_, afterStands⟩
    rw [parseBinaryExpr_eq, binaryExprBody, returned, orNull_some, opStands.failed,
      parseBinaryLoop_operator _ opStands.type_eq goesOn notLike notIn notBetween, firstType_cons,
      right]
    exact parseBinaryLoop_ends _ (by rw [afterStands.type_eq]; exact ends)

end Parser

/-! ### Expressions in parentheses -/

/-- A closed expression is an operand. -/
def closedOperand {tokens : List Token} {tree : Expression}
    (reads : ∀ (parser : Parser) (rest : List Token), firstType rest ≠ tokenDot →
      parser.At false (tokens ++ rest) →
      ∃ after, parser.parseLiteral = some (some tree, after) ∧ after.At false rest) : NotOperand :=
  ⟨[], noNots, ⟨tokens, tree, reads⟩⟩

/-- The tokens are read to the tree, by the parser of literals if they are closed. -/
structure ReadTo (closed : Bool) (tokens : List Token) (tree : Expression) : Prop where
  literal : closed = true → ∀ (parser : Parser) (rest : List Token), firstType rest ≠ tokenDot →
    parser.At false (tokens ++ rest) →
    ∃ after, parser.parseLiteral = some (some tree, after) ∧ after.At false rest
  expression : ∀ (parser : Parser) (rest : List Token) (minPrec : Int),
    endsExpression (firstType rest) = true → firstType rest ≠ tokenDot →
    parser.At false (tokens ++ rest) →
    ∃ after, parser.parseBinaryExpr minPrec = some (some tree, after) ∧ after.At false rest

theorem ReadTo.of_literal {closed : Bool} {tokens : List Token} {tree : Expression}
    (literal : ∀ (parser : Parser) (rest : List Token), firstType rest ≠ tokenDot →
      parser.At false (tokens ++ rest) →
      ∃ after, parser.parseLiteral = some (some tree, after) ∧ after.At false rest) :
    ReadTo closed tokens tree where
  literal _ := literal
  expression _ _ _ ends noDot stands :=
    stands.parseBinaryExpr_sequence (closedOperand literal) [] ends noDot _

namespace ReadTo

variable {closed : Bool} {front back tokens : List Token} {left right tree : Expression}

theorem parenthesis {opens : Token} (isOpen : opens.type = tokenLparen)
    (isClose : closes.type = tokenRparen) (inner : ReadTo closed tokens tree) :
    ReadTo true (opens :: (tokens ++ [closes])) tree := by
  refine .of_literal fun parser rest noDot stands => ?_
  have isLparen : parser.type = tokenLparen := stands.type_eq.trans isOpen
  have next : parser.advance.At false (tokens ++ closes :: rest) := by
    simpa using stands.advance
  obtain ⟨atClose, returned, closeStands⟩ := inner.expression _ _ 0
    (by rw [firstType_cons, isClose]; rfl) (by rw [firstType_cons, isClose]; decide) next
  have isRparen : atClose.type = tokenRparen := closeStands.type_eq.trans isClose
  refine ⟨atClose.advance, ?_, closeStands.advance⟩
  rw [Parser.parseLiteral_eq, Parser.literalBody]
  simp only [isLparen, returned]
  simp [Parser.closeParenthesis, isRparen]

theorem not (isNot : token.type = tokenNot) (operand : ReadTo true tokens tree) :
    ReadTo false (token :: tokens) (.unary tokenNot.code tree) := by
  refine ⟨nofun, fun parser rest minPrec ends noDot stands => ?_⟩
  exact stands.parseBinaryExpr_sequence
    ⟨[token], by simpa using isNot, ⟨tokens, tree, operand.literal rfl⟩⟩ [] ends noDot _

theorem sign (isSign : token.type = tokenMinus ∨ token.type = tokenPlus)
    (operand : ReadTo true tokens tree) :
    ReadTo false (token :: tokens) (.unary token.type.code tree) := by
  refine .of_literal fun parser rest noDot stands => ?_
  have current : parser.type = token.type := stands.type_eq
  obtain ⟨after, returned, afterStands⟩ :=
    operand.literal rfl parser.advance _ noDot stands.advance
  refine ⟨after, ?_, afterStands⟩
  rw [Parser.parseLiteral_eq, Parser.literalBody, current]
  obtain isSign | isSign := isSign
  all_goals
    simp only [isSign, returned]
    rfl

theorem binary (isOperator : isBinaryOperator token.type = true) (leftRead : ReadTo true front left)
    (rightRead : ReadTo true back right) :
    ReadTo false (front ++ token :: back) (.binary left token.type.code right) := by
  refine ⟨nofun, fun parser rest minPrec ends noDot stands => ?_⟩
  exact stands.parseBinaryExpr_sequence (closedOperand (leftRead.literal rfl))
    [(⟨token, isOperator⟩, closedOperand (rightRead.literal rfl))] ends noDot _

/-- Behind a closed expression the parser is in the loop over the operators. -/
theorem parseBinaryExpr (read : ReadTo true tokens tree) (noDot : firstType rest ≠ tokenDot)
    (stands : parser.At false (tokens ++ rest)) (minPrec : Int) :
    ∃ next, parser.parseBinaryExpr minPrec = Parser.parseBinaryLoop tree next ∧
      next.At false rest := by
  obtain ⟨next, returned, nextStands⟩ :=
    stands.parseUnaryNot_operand (closedOperand (read.literal rfl)) noDot
  refine ⟨next, ?_, nextStands⟩
  rw [Parser.parseBinaryExpr_eq, Parser.binaryExprBody, returned, Parser.orNull_some,
    nextStands.failed]
  rfl

theorem like (isLike : token.type = tokenLike) (leftRead : ReadTo true front left)
    (rightRead : ReadTo true back right) :
    ReadTo false (front ++ token :: back) (.like left right 0 false) := by
  refine ⟨nofun, fun parser rest minPrec ends noDot stands => ?_⟩
  rw [append_assoc, cons_append] at stands
  obtain ⟨atLike, loops, likeStands⟩ :=
    leftRead.parseBinaryExpr (by rw [firstType_cons, isLike]; decide) stands _
  obtain ⟨after, returned, afterStands⟩ :=
    rightRead.expression _ _ 1 ends noDot likeStands.advance
  refine ⟨after, ?_, afterStands⟩
  rw [loops, Parser.parseBinaryLoop_like _ (likeStands.type_eq.trans isLike), returned]
  exact Parser.parseBinaryLoop_ends _ (by rw [afterStands.type_eq]; exact ends)

end ReadTo

/-- Tokens of closed expressions with commas between them. -/
inductive ItemsReadTo : List Token → List Expression → Prop
  | one {tokens : List Token} {tree : Expression} (item : ReadTo true tokens tree) :
      ItemsReadTo tokens [tree]
  | cons {tokens others : List Token} {tree : Expression} {trees : List Expression} {comma : Token}
      (isComma : comma.type = tokenComma) (item : ReadTo true tokens tree)
      (items : ItemsReadTo others trees) : ItemsReadTo (tokens ++ comma :: others) (tree :: trees)

section Lists

variable {tokens : List Token} {trees : List Expression}

theorem ItemsReadTo.parseExpressions (items : ItemsReadTo tokens trees)
    (closes : firstType rest = tokenRparen) (stands : parser.At false (tokens ++ rest)) :
    ∃ after, parser.parseExpressions = some (some trees, after) ∧ after.At false rest := by
  induction items generalizing parser with
  | one item =>
    obtain ⟨after, returned, afterStands⟩ :=
      item.expression _ _ 0 (by rw [closes]; rfl) (by rw [closes]; decide) stands
    refine ⟨after, ?_, afterStands⟩
    rw [Parser.parseExpressions_eq, Parser.expressionsBody, returned, Parser.orNull_some,
      Parser.listItem, afterStands.type_eq, closes]
    rfl
  | @cons _ others _ _ comma isComma item _ inductionHypothesis =>
    rw [append_assoc] at stands
    obtain ⟨atComma, returned, commaStands⟩ :=
      item.expression _ (comma :: (others ++ rest)) 0 (by rw [firstType_cons, isComma]; rfl)
        (by rw [firstType_cons, isComma]; decide) stands
    obtain ⟨after, others, afterStands⟩ := inductionHypothesis commaStands.advance
    refine ⟨after, ?_, afterStands⟩
    rw [Parser.parseExpressions_eq, Parser.expressionsBody, returned, Parser.orNull_some,
      Parser.listItem, if_pos (commaStands.type_eq.trans isComma), others]
    rfl

/-- A parenthesis does not close in front of an item. -/
theorem ItemsReadTo.opens (items : ItemsReadTo tokens trees) (closes : firstType rest = tokenRparen)
    (stands : parser.At false (tokens ++ rest)) :
    parser.type ≠ tokenRparen := by
  intro isRparen
  obtain ⟨after, returned, -⟩ := items.parseExpressions closes stands
  have nothing : parser.parseLiteral =
      some (none, parser.setError "Unexpected token in expression") :=
    Parser.parseLiteral_other (by rw [isRparen]; rfl)
  have notNot : ¬firstType (tokens ++ rest) = tokenNot := by
    rw [← stands.type_eq, isRparen]
    decide
  rw [Parser.parseExpressions_eq, Parser.expressionsBody, Parser.parseBinaryExpr_eq,
    Parser.binaryExprBody, Parser.parseUnaryNot_eq, Parser.unaryNotBody, stands.atNot,
    decide_eq_false notNot, nothing] at returned
  cases returned

/-- An `IN` with its list; the list may be empty. -/
theorem ReadTo.inList {front : List Token} {left : Expression} {isIn opens : Token}
    (isInType : isIn.type = tokenIn) (isOpen : opens.type = tokenLparen)
    (isClose : closes.type = tokenRparen) (leftRead : ReadTo true front left)
    (items : tokens = [] ∧ trees = [] ∨ ItemsReadTo tokens trees) :
    ReadTo false (front ++ isIn :: opens :: (tokens ++ [closes])) (.inList left trees false) := by
  refine ⟨nofun, fun parser rest minPrec ends noDot stands => ?_⟩
  rw [append_assoc, cons_append, cons_append, append_assoc] at stands
  obtain ⟨atIn, loops, inStands⟩ :=
    leftRead.parseBinaryExpr (by rw [firstType_cons, isInType]; decide) stands _
  have listStands : atIn.advance.advance.At false (tokens ++ closes :: rest) :=
    inStands.advance.advance
  rw [loops, Parser.parseBinaryLoop_in _ (inStands.type_eq.trans isInType),
    if_pos (inStands.advance.type_eq.trans isOpen)]
  have closed (parser : Parser) (closeStands : parser.At false (closes :: rest)) :
      ∃ after, Parser.parseBinaryLoop (.inList left trees false)
          (parser.expectToken tokenRparen "Expected ')'") =
        some (some (.inList left trees false), after) ∧ after.At false rest := by
    have isRparen : parser.type = tokenRparen := closeStands.type_eq.trans isClose
    refine ⟨parser.advance, ?_, closeStands.advance⟩
    rw [Parser.expectToken, if_neg (not_not_intro isRparen)]
    exact Parser.parseBinaryLoop_ends _ (by rw [closeStands.advance.type_eq]; exact ends)
  obtain ⟨rfl, rfl⟩ | items := items
  · rw [if_pos (listStands.type_eq.trans isClose)]
    exact closed _ listStands
  · obtain ⟨atClose, returned, closeStands⟩ :=
      items.parseExpressions (by rw [firstType_cons, isClose]) listStands
    rw [if_neg (items.opens (by rw [firstType_cons, isClose]) listStands), returned]
    exact closed _ closeStands

end Lists

/-! ### Trees with the same symbols -/

section Trees

variable {back : List (Precedence.Symbol TokenType Expression)}

theorem Expression.sizeOf_pos (expr : Expression) : 0 < sizeOf expr := by
  cases expr <;> simp only [literalInt.sizeOf_spec, literalFloat.sizeOf_spec,
    literalString.sizeOf_spec, literalNull.sizeOf_spec, column.sizeOf_spec, binary.sizeOf_spec,
    unary.sizeOf_spec, inList.sizeOf_spec, between.sizeOf_spec, like.sizeOf_spec] <;> omega

/-- What a symbol adds to the size of an expression. -/
noncomputable def symbolSize : Precedence.Symbol TokenType Expression → Nat
  | .value expr => sizeOf expr
  | .neg => 1 + sizeOf tokenNot.code
  | .op op => 1 + sizeOf op.code

theorem symbolSize_pos (symbol : Precedence.Symbol TokenType Expression) :
    0 < symbolSize symbol := by
  cases symbol with
  | value expr => exact expr.sizeOf_pos
  | neg => exact Nat.add_pos_left Nat.one_pos _
  | op op => exact Nat.add_pos_left Nat.one_pos _

theorem treeExpression_sizeOf (tree : Tree TokenType Expression) :
    sizeOf (treeExpression tree) = (tree.symbols.map symbolSize).sum := by
  induction tree with
  | leaf expr => simp [treeExpression, Tree.symbols, symbolSize]
  | neg operand inductionHypothesis =>
    simp [treeExpression, Tree.symbols, symbolSize, inductionHypothesis]
  | node left op right leftHypothesis rightHypothesis =>
    simp only [treeExpression, Tree.symbols, Expression.binary.sizeOf_spec, map_append, map_cons, sum_append, sum_cons, symbolSize]
    omega

/-- A list of symbols cannot grow without its size. -/
theorem eq_nil_of_size (same : (front.map symbolSize).sum = ((front ++ back).map symbolSize).sum) :
    back = [] := by
  cases back with
  | nil => rfl
  | cons symbol back =>
    have positive := symbolSize_pos symbol
    simp only [map_append, map_cons, sum_append, sum_cons] at same
    omega

/-- The symbols on the left of an operator are told by their size. -/
theorem symbols_split {others tail : List (Precedence.Symbol TokenType Expression)}
    {other : Precedence.Symbol TokenType Expression}
    (same : front ++ op :: back = others ++ other :: tail)
    (size : (front.map symbolSize).sum = (others.map symbolSize).sum) :
    front = others ∧ op = other ∧ back = tail := by
  have equal : front = others := by
    rcases append_eq_append_iff.mp same with ⟨rest, rfl, -⟩ | ⟨rest, rfl, -⟩
    · rw [eq_nil_of_size size, append_nil]
    · rw [eq_nil_of_size size.symm, append_nil]
  subst equal
  exact ⟨rfl, List.cons.inj (append_cancel_left same)⟩

theorem symbols_ne_value (left : Tree TokenType Expression) {expr : Expression} :
    [Precedence.Symbol.value expr] ≠ left.symbols ++ op :: back := by
  intro same
  have length := congrArg List.length same
  have nonempty := length_pos_iff.mpr left.symbols_ne_nil
  simp only [length_append, length_cons, length_nil] at length
  omega

/-- Two trees over one sequence of symbols are equal if their expressions are. -/
theorem treeExpression_injective {other : Tree TokenType Expression}
    (symbols : tree.symbols = other.symbols) (same : treeExpression tree = treeExpression other) :
    tree = other := by
  induction tree generalizing other with
  | leaf expr =>
    cases other with
    | leaf other => simpa [Tree.symbols] using symbols
    | neg operand => simp [Tree.symbols] at symbols
    | node left op right => exact absurd symbols (symbols_ne_value left)
  | neg operand inductionHypothesis =>
    cases other with
    | leaf other => simp [Tree.symbols] at symbols
    | neg inner =>
      rw [inductionHypothesis (List.cons.inj symbols).2 (Expression.unary.inj same).2]
    | node left op right => cases same
  | node left op right leftHypothesis rightHypothesis =>
    cases other with
    | leaf other => exact absurd symbols.symm (symbols_ne_value left)
    | neg inner => cases same
    | node otherLeft otherOp otherRight =>
      obtain ⟨sameLeft, -, sameRight⟩ := Expression.binary.inj same
      have size := congrArg sizeOf sameLeft
      rw [treeExpression_sizeOf, treeExpression_sizeOf] at size
      obtain ⟨leftSymbols, opSymbol, rightSymbols⟩ := symbols_split symbols size
      rw [leftHypothesis leftSymbols sameLeft, rightHypothesis rightSymbols sameRight,
        Precedence.Symbol.op.inj opSymbol]

/-- For every sequence of operands, the parser returns the tree of the precedences exactly if they
rise. -/
theorem parseExpression_groups_iff (first : NotOperand) (others : List (OperatorToken × NotOperand))
    (parser : Parser) (rest : List Token)
    (stands : parser.At false (sequenceTokens first others ++ rest))
    (ends : endsExpression (firstType rest) = true) (noDot : firstType rest ≠ tokenDot) :
    (∃ after, parser.parseExpression = some (some (precedenceExpression first others), after)) ↔
      PrecedencesRise first others := by
  obtain ⟨after, returned, -⟩ := stands.parseBinaryExpr_sequence _ _ ends noDot 0
  rw [Parser.parseExpression, returned, PrecedencesRise, ← precedenceTree_eq_rightTree_iff]
  constructor
  · rintro ⟨_, same⟩
    obtain ⟨same, -⟩ := Prod.mk.inj (Option.some.inj same)
    exact (treeExpression_injective (precedenceTree_symbols _ _ _ _).symm (Option.some.inj same)).symm
  · intro same
    exact ⟨after, by rw [precedenceExpression, same]⟩

/-- An integer literal as an operand. -/
def integerOperand (token : Token) (isInteger : token.type = tokenInteger) : NotOperand where
  nots := []
  areNots := noNots
  operand := {
    tokens := [token]
    tree := .literalInt token.integerValue
    reads := fun parser rest _ stands => by
      refine ⟨parser.advance, ?_, stands.advance⟩
      have current : parser.type = tokenInteger := stands.type_eq.trans isInteger
      rw [Parser.parseLiteral_eq, Parser.literalBody]
      simp only [current]
      rw [stands.current]
      rfl }

/-- Three integers with two operators between them. -/
theorem tokensOf_three (sql : List UInt8) (one two : TokenType) (a b c : Int64)
    (types : (tokensOf sql).map (·.type) = [tokenInteger, one, tokenInteger, two, tokenInteger])
    (values : ((tokensOf sql).filter (·.type = tokenInteger)).map (·.integerValue) = [a, b, c])
    (isOne : isBinaryOperator one = true) (isTwo : isBinaryOperator two = true) :
    ∃ (first : NotOperand) (others : List (OperatorToken × NotOperand)),
      tokensOf sql = sequenceTokens first others ++ [] ∧
      first.prefixed = ⟨0, .literalInt a⟩ ∧
      sequenceItems others = [(one, ⟨0, .literalInt b⟩), (two, ⟨0, .literalInt c⟩)] := by
  obtain ⟨first, _, tokens, isFirst, typesA⟩ := map_eq_cons_iff.mp types
  obtain ⟨op, _, rfl, rfl, typesB⟩ := map_eq_cons_iff.mp typesA
  obtain ⟨second, _, rfl, isSecond, typesC⟩ := map_eq_cons_iff.mp typesB
  obtain ⟨other, _, rfl, rfl, typesD⟩ := map_eq_cons_iff.mp typesC
  obtain ⟨third, _, rfl, isThird, typesE⟩ := map_eq_cons_iff.mp typesD
  obtain rfl := map_eq_nil_iff.mp typesE
  have noOne : op.type ≠ tokenInteger := fun same => by rw [same] at isOne; cases isOne
  have noTwo : other.type ≠ tokenInteger := fun same => by rw [same] at isTwo; cases isTwo
  simp only [tokens, filter_cons, isFirst, isSecond, isThird, noOne, noTwo] at values
  obtain ⟨rfl, rfl, rfl⟩ : first.integerValue = a ∧ second.integerValue = b ∧
      third.integerValue = c := by simpa using values
  exact ⟨integerOperand _ isFirst, [(⟨op, isOne⟩, integerOperand _ isSecond),
    (⟨other, isTwo⟩, integerOperand _ isThird)], tokens, rfl, rfl⟩

theorem parseExpression_groups_rising :
    ∃ first others parser after, parserCreate (ascii "1 + 2 * 3") = some parser ∧
      tokensOf (ascii "1 + 2 * 3") = sequenceTokens first others ++ [] ∧
      PrecedencesRise first others ∧
      parser.parseExpression = some (some (precedenceExpression first others), after) := by
  obtain ⟨first, others, tokens, isFirst, items⟩ :=
    tokensOf_three (ascii "1 + 2 * 3") tokenPlus tokenStar 1 2 3 (by decide +kernel)
      (by decide +kernel) rfl rfl
  have rise : PrecedencesRise first others := by
    rw [PrecedencesRise, isFirst, items]
    simp [Rises, Parser.getPrecedence]
  obtain ⟨parser, created⟩ : ∃ parser, parserCreate (ascii "1 + 2 * 3") = some parser := ⟨_, rfl⟩
  have stands := parserCreate_at created
  rw [tokens] at stands
  obtain ⟨after, returned⟩ :=
    (parseExpression_groups_iff _ _ _ [] stands rfl
      fun impossible => by cases impossible).mpr rise
  exact ⟨first, others, parser, after, created, tokens, rise, returned⟩

/-- `1 - 2 - 3` is read as `1 - (2 - 3)`, although the precedences ask for `(1 - 2) - 3`. -/
theorem subtraction_groups_to_the_right :
    ∃ first others parser after, parserCreate (ascii "1 - 2 - 3") = some parser ∧
      tokensOf (ascii "1 - 2 - 3") = sequenceTokens first others ++ [] ∧
      precedenceExpression first others =
        .binary (.binary (.literalInt 1) tokenMinus.code (.literalInt 2)) tokenMinus.code
          (.literalInt 3) ∧
      parser.parseExpression = some (some
        (.binary (.literalInt 1) tokenMinus.code
          (.binary (.literalInt 2) tokenMinus.code (.literalInt 3))), after) := by
  obtain ⟨first, others, tokens, isFirst, items⟩ :=
    tokensOf_three (ascii "1 - 2 - 3") tokenMinus tokenMinus 1 2 3 (by decide +kernel)
      (by decide +kernel) rfl rfl
  obtain ⟨parser, created⟩ : ∃ parser, parserCreate (ascii "1 - 2 - 3") = some parser := ⟨_, rfl⟩
  have stands := parserCreate_at created
  rw [tokens] at stands
  obtain ⟨after, returned, -⟩ := stands.parseBinaryExpr_sequence _ _ rfl (by decide) 0
  refine ⟨first, others, parser, after, created, tokens, ?_, ?_⟩
  · rw [precedenceExpression, isFirst, items]
    rfl
  · rw [Parser.parseExpression, returned, isFirst, items]
    rfl

end Trees

end TinyDb

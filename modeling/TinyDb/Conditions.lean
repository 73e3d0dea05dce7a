/-
This file shows that two forms of conditions are never parsed. In `v BETWEEN l AND h` the lower
bound takes the `AND` as an operator of its own, and the parser then misses it. In `v IS NULL` the
`IS` has no precedence, so the expression ends in front of it. Whatever the operands are, no
statement with such a `WHERE` clause is parsed without an error.
-/

import TinyDb.WhereClause

namespace TinyDb

open TokenType List

variable {rest front : List Token} {mark : Token}

/-! ### Conditions in the tokens -/

/-- A token of a type. -/
abbrev TokenOf (type : TokenType) := { token : Token // token.type = type }

/-- A literal or a column. -/
inductive Operand
  | integer (token : TokenOf tokenInteger)
  | real (token : TokenOf tokenReal)
  | string (token : TokenOf tokenString)
  | null (token : TokenOf tokenNull)
  | column (name : TokenOf tokenIdentifier)
  | qualified (table : TokenOf tokenIdentifier) (dot : TokenOf tokenDot)
      (name : TokenOf tokenIdentifier)

namespace Operand

def tokens : Operand → List Token
  | integer token => [token]
  | real token => [token]
  | string token => [token]
  | null token => [token]
  | column name => [name]
  | qualified table dot name => [table, dot, name]

def tree : Operand → Expression
  | integer token => .literalInt token.val.integerValue
  | real token => .literalFloat token.val.floatValue
  | string token => .literalString token.val.stringValue
  | null _ => .literalNull
  | column name => .column (-1) (tokenGetText name)
  | qualified _ _ name => .column 0 (tokenGetText name)

end Operand

/-- A condition with `BETWEEN` or with `IS`. -/
inductive Condition
  | between (value : Operand) (mark : TokenOf tokenBetween) (low : Operand)
      (separator : TokenOf tokenAnd) (high : Operand)
  | isNull (value : Operand) (mark : TokenOf tokenIs) (null : TokenOf tokenNull)
  | isNotNull (value : Operand) (mark : TokenOf tokenIs) (negation : TokenOf tokenNot)
      (null : TokenOf tokenNull)

namespace Condition

def tokens : Condition → List Token
  | between value mark low separator high =>
    value.tokens ++ mark.val :: (low.tokens ++ separator.val :: high.tokens)
  | isNull value mark null => value.tokens ++ [mark.val, null]
  | isNotNull value mark negation null => value.tokens ++ [mark.val, negation, null]

/-- The tree that `parse_binary_expr` builds for a condition, if it gets so far. -/
def tree : Condition → Expression
  | between value _ low _ high => .between value.tree low.tree high.tree false
  | isNull value _ _ => .binary value.tree tokenEq.code .literalNull
  | isNotNull value _ _ _ => .binary value.tree tokenNeq.code .literalNull

end Condition

/-- A text is parsed, without an error, to a statement with a condition. -/
def ParsedWith (sql : List UInt8) (condition : Expression) : Prop :=
  ∃ node parser, parseText sql = some (some node, some parser) ∧ parserError parser = none ∧
    whereClauseOf node = some (some condition)

/-! ### Reading a condition -/

/-- An operand is read up to the token behind it. -/
theorem Operand.readLiteral_eq (operand : Operand) (steps : Nat) (noDot : firstType rest ≠ tokenDot) :
    readLiteral (steps + 1) (operand.tokens ++ rest) = ⟨some operand.tree, false, rest⟩ := by
  cases operand with
  | integer token | real token | string token | null token =>
    rw [tokens, singleton_append, readLiteral, token.property]
    rfl
  | column name =>
    rw [tokens, singleton_append, readLiteral, name.property]
    cases rest with
    | nil => rfl
    | cons dot rest =>
      cases rest with
      | nil => exact if_pos noDot
      | cons token rest => exact if_pos noDot
  | qualified table dot name =>
    rw [tokens, cons_append, readLiteral, table.property]
    dsimp only [cons_append, readColumn]
    rw [if_neg (not_not_intro dot.property), if_pos name.property]
    rfl

/-- Behind an operand the reader is in the loop over the operators. -/
theorem Operand.readExpression_eq (operand : Operand) (noDot : firstType rest ≠ tokenDot) :
    ∃ steps, readExpression (operand.tokens ++ rest) = readLoop (steps + 1) operand.tree rest := by
  have noNot : firstType (operand.tokens ++ rest) ≠ tokenNot := by
    cases operand with
    | integer token | real token | string token | null token | column token =>
      rw [tokens, singleton_append, firstType_cons, token.property]
      decide
    | qualified table dot name =>
      rw [tokens, cons_append, firstType_cons, table.property]
      decide
  refine ⟨3 * (operand.tokens ++ rest).length + 1, ?_⟩
  rw [readExpression, readBinary, readUnaryNot, if_neg noNot, operand.readLiteral_eq _ noDot]
  rfl

/-- What is read of a condition without an error ends in front of `IS`. -/
theorem Condition.readExpression_stops (condition : Condition) {tokens : List Token}
    {tree : Expression}
    (read : readExpression (condition.tokens ++ tokens) = ⟨some tree, false, rest⟩) :
    firstType rest = tokenIs := by
  have behind {value : Operand} {mark : TokenOf tokenIs} {others : List Token}
      (read : readExpression (value.tokens ++ mark.val :: others) = ⟨some tree, false, rest⟩) :
      firstType rest = tokenIs := by
    have isMark : firstType (mark.val :: others) = tokenIs := mark.property
    obtain ⟨steps, loops⟩ := value.readExpression_eq (by rw [isMark]; decide)
    rw [loops, readLoop, if_pos (by rw [isMark]; rfl)] at read
    cases read
    exact isMark
  cases condition with
  | between value mark low separator high =>
    rw [Condition.tokens, append_assoc, cons_append] at read
    have isMark : firstType (mark.val :: (low.tokens ++ separator.val :: high.tokens ++ tokens)) =
      tokenBetween := mark.property
    obtain ⟨steps, loops⟩ := value.readExpression_eq (by rw [isMark]; decide)
    rw [loops, readLoop, isMark] at read
    cases read
  | isNull value mark null =>
    rw [Condition.tokens, append_assoc] at read
    exact behind read
  | isNotNull value mark negation null =>
    rw [Condition.tokens, append_assoc] at read
    exact behind read

/-! ### Statements with a condition -/

section

variable (plain : ∀ token ∈ front, token.type ≠ tokenWhere) (isWhere : mark.type = tokenWhere)
include plain isWhere

theorem dropWhile_where (rest : List Token) :
    (front ++ mark :: rest).dropWhile (·.type ≠ tokenWhere) = mark :: rest := by
  rw [dropWhile_append_of_pos fun token isFront => by simp [plain _ isFront],
    dropWhile_cons_of_neg (by simp [isWhere])]

/-- A clause is read behind the first `WHERE`. -/
theorem WhereRead.behind {tokens : List Token} {tree : Expression}
    (read : WhereRead (front ++ mark :: tokens) (some tree)) :
    ∃ rest, readExpression tokens = ⟨some tree, false, rest⟩ ∧
      (firstType rest = tokenSemicolon ∨ startsClause (firstType rest) = true) := by
  obtain ⟨behind, ⟨used, split, passed⟩, ⟨missing, -⟩ | ⟨_, rest, ⟨⟩, atWhere, read, ends⟩⟩ := read
  · cases missing
  · obtain ⟨first, cut, isFirst⟩ := cons_of_firstType atWhere (by decide)
    have same := dropWhile_where plain isWhere tokens
    rw [split, cut, dropWhile_where (fun token isUsed => (passed _ isUsed).1) isFirst] at same
    have sameTail : behind.tail = tokens := congrArg List.tail same
    exact ⟨rest, sameTail ▸ read, ends⟩

end

/-- For every text with a condition of `BETWEEN`, `IS NULL` or `IS NOT NULL` behind its first
`WHERE`, whatever the operands are and whatever follows, no statement with the tree of the condition
is parsed without an error. -/
theorem condition_never_parsed (sql : List UInt8) (front : List Token)
    (plain : ∀ token ∈ front, token.type ≠ tokenWhere) (mark : TokenOf tokenWhere)
    (condition : Condition) (rest : List Token)
    (text : tokensOf sql = front ++ mark.val :: (condition.tokens ++ rest)) :
    ¬ParsedWith sql condition.tree := by
  rintro ⟨node, parser, parsed, clean, isClause⟩
  have whereRead := parseText_whereRead parsed clean isClause
  rw [text] at whereRead
  obtain ⟨final, read, ends⟩ := whereRead.behind plain mark.property
  rw [condition.readExpression_stops read] at ends
  obtain semicolon | starts := ends
  · cases semicolon
  · cases starts

theorem condition_never_parsed_between :
    ¬ParsedWith (ascii "DELETE FROM t WHERE a BETWEEN 1 AND 2;")
      (.between (.column (-1) (ascii "a")) (.literalInt 1) (.literalInt 2) false) := by
  obtain ⟨delete, isFrom, table, mark, value, between, low, separator, high, semicolon, tokens,
      plain, isName, isLow, isHigh⟩ :
      ∃ (delete isFrom table : Token) (mark : TokenOf tokenWhere) (value : TokenOf tokenIdentifier)
        (between : TokenOf tokenBetween) (low : TokenOf tokenInteger)
        (separator : TokenOf tokenAnd) (high : TokenOf tokenInteger) (semicolon : Token),
        tokensOf (ascii "DELETE FROM t WHERE a BETWEEN 1 AND 2;") =
          [delete, isFrom, table, mark, value, between, low, separator, high, semicolon] ∧
        (∀ token ∈ [delete, isFrom, table], token.type ≠ tokenWhere) ∧
        tokenGetText value.val = ascii "a" ∧ low.val.integerValue = 1 ∧
        high.val.integerValue = 2 :=
    ⟨_, _, _, ⟨_, rfl⟩, ⟨_, rfl⟩, ⟨_, rfl⟩, ⟨_, rfl⟩, ⟨_, rfl⟩, ⟨_, rfl⟩, _, rfl,
      by decide +kernel, by decide +kernel, by decide +kernel, by decide +kernel⟩
  have never := condition_never_parsed _ [delete, isFrom, table] plain _
    (.between (.column _) _ (.integer low) _ (.integer _)) [semicolon] tokens
  rw [Condition.tree, Operand.tree, Operand.tree, Operand.tree, isName, isLow, isHigh] at never
  exact never

/-- The parser returns no statement for a `BETWEEN`, and an error for an `IS NULL`. -/
theorem between_and_is_not_parsed :
    (∃ parser, parseText (ascii "DELETE FROM t WHERE a BETWEEN 1 AND 2;") = some (none, parser)) ∧
      ∃ node parser, parseText (ascii "DELETE FROM t WHERE a IS NULL;") =
          some (some node, some parser) ∧
        parserError parser ≠ none := by
  refine ⟨?_, ?_⟩
  · have tells := parseText_course (ascii "DELETE FROM t WHERE a BETWEEN 1 AND 2;")
    exact tells
  · exact parseText_records (by decide +kernel)

end TinyDb

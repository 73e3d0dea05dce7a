/-
This file reads an expression from a list of tokens, with a reader that stops at the
first error, and shows that the parser of expressions does the same. The parser itself
does not stop at an error: it goes on with the token it has. It still agrees with the
reader, because a tree that it returns after an error is always returned in front of
a token at which every loop ends.

In front of an operator that begins another expression, a parser that has already
failed never returns.
-/
import Mathlib.Order.Nat
import TinyDb.Tokens

namespace TinyDb

open TokenType Recursion List Option

/-! ### The reader -/

/-- What is read from a list of tokens: the value, if there is one, whether there was an error, and
the tokens in front of which the reader stops. -/
structure Reading (α : Type) where
  value : Option α
  failed : Bool
  rest : List Token

variable {larger bound steps : Nat} {next : Expression → List Token → Reading Expression}
  {inner reading : Reading Expression} {token : Token}

/-- Going on behind a value, unless there was an error. -/
def Reading.andThen {α : Type} (reading : Reading α) (build : α → Expression)
    (next : Expression → List Token → Reading Expression) : Reading Expression :=
  match reading with
  | ⟨none, failed, rest⟩ => ⟨none, failed, rest⟩
  | ⟨some value, true, rest⟩ => ⟨some (build value), true, rest⟩
  | ⟨some value, false, rest⟩ => next (build value) rest

/-- The tokens at which an expression ends. -/
def endsExpression (type : TokenType) : Bool :=
  type = tokenNot ||
    (Parser.getPrecedence type = 0 && type ≠ tokenLike && type ≠ tokenIn && type ≠ tokenBetween)

/-- The tokens with which a literal begins. -/
def startsLiteral : TokenType → Bool
  | tokenInteger | tokenReal | tokenString | tokenNull | tokenIdentifier | tokenLparen
  | tokenMinus | tokenPlus => true
  | _ => false

/-- The tokens behind which another expression is looked for. -/
def nests : TokenType → Bool
  | tokenNot | tokenLparen | tokenMinus | tokenPlus => true
  | _ => false

/-- A column, behind its identifier. -/
def readColumn (name : List UInt8) : List Token → Reading Expression
  | dot :: column :: rest =>
    if dot.type ≠ tokenDot then ⟨some (.column (-1) name), false, dot :: column :: rest⟩
    else if column.type = tokenIdentifier then ⟨some (.column 0 (tokenGetText column)), false, rest⟩
    else ⟨none, true, column :: rest⟩
  | [dot] =>
    if dot.type ≠ tokenDot then ⟨some (.column (-1) name), false, [dot]⟩ else ⟨none, true, []⟩
  | [] => ⟨some (.column (-1) name), false, []⟩

/-- The end of a parenthesis. -/
def readClose (inner : Reading Expression) : Reading Expression :=
  if inner.failed then inner
  else if firstType inner.rest = tokenRparen then { inner with rest := inner.rest.tail }
  else { inner with failed := true }

mutual

def readLiteral : Nat → List Token → Reading Expression
  | _, [] => ⟨none, true, []⟩
  | 0, tokens => ⟨none, true, tokens⟩
  | steps + 1, token :: rest =>
    match token.type with
    | tokenInteger => ⟨some (.literalInt token.integerValue), false, rest⟩
    | tokenReal => ⟨some (.literalFloat token.floatValue), false, rest⟩
    | tokenString => ⟨some (.literalString token.stringValue), false, rest⟩
    | tokenNull => ⟨some .literalNull, false, rest⟩
    | tokenIdentifier => readColumn (tokenGetText token) rest
    | tokenLparen => readClose (readBinary steps rest)
    | tokenMinus =>
      let operand := readLiteral steps rest
      ⟨operand.value.map (.unary tokenMinus.code), operand.failed, operand.rest⟩
    | tokenPlus =>
      let operand := readLiteral steps rest
      ⟨operand.value.map (.unary tokenPlus.code), operand.failed, operand.rest⟩
    | _ => ⟨none, true, token :: rest⟩

def readUnaryNot : Nat → List Token → Reading Expression
  | 0, tokens => ⟨none, true, tokens⟩
  | steps + 1, tokens =>
    if firstType tokens = tokenNot then
      let operand := readUnaryNot steps tokens.tail
      ⟨operand.value.map (.unary tokenNot.code), operand.failed, operand.rest⟩
    else readLiteral steps tokens

def readBinary : Nat → List Token → Reading Expression
  | 0, tokens => ⟨none, true, tokens⟩
  | steps + 1, tokens => (readUnaryNot steps tokens).andThen id (readLoop steps)

/-- The operators behind an expression. The lower bound of a `BETWEEN` takes the `AND` behind it as
an operator of its own, so no `BETWEEN` is read. -/
def readLoop : Nat → Expression → List Token → Reading Expression
  | 0, _, tokens => ⟨none, true, tokens⟩
  | steps + 1, left, tokens =>
    if endsExpression (firstType tokens) then ⟨some left, false, tokens⟩
    else
      match firstType tokens with
      | tokenLike =>
        (readBinary steps tokens.tail).andThen (.like left · 0 false) (readLoop steps)
      | tokenIn =>
        if firstType tokens.tail = tokenLparen then
          if firstType tokens.tail.tail = tokenRparen then
            readLoop steps (.inList left [] false) tokens.tail.tail.tail
          else (readList steps tokens.tail.tail).andThen (.inList left · false) fun tree rest =>
            if firstType rest = tokenRparen then readLoop steps tree rest.tail
            else ⟨some tree, true, rest⟩
        else readLoop steps left tokens.tail
      | tokenBetween => ⟨none, true, (readBinary steps tokens.tail).rest⟩
      | op => (readBinary steps tokens.tail).andThen (.binary left op.code ·) (readLoop steps)

/-- Expressions with commas between them. -/
def readList : Nat → List Token → Reading (List Expression)
  | 0, tokens => ⟨none, true, tokens⟩
  | steps + 1, tokens =>
    match readBinary steps tokens with
    | ⟨none, failed, rest⟩ => ⟨none, failed, rest⟩
    | ⟨some first, true, rest⟩ =>
      if firstType rest = tokenComma then ⟨none, true, rest⟩ else ⟨some [first], true, rest⟩
    | ⟨some first, false, rest⟩ =>
      if firstType rest = tokenComma then
        let others := readList steps rest.tail
        ⟨others.value.map (first :: ·), others.failed, others.rest⟩
      else ⟨some [first], false, rest⟩

end

/-- Reading an expression; three steps for each token are enough. -/
def readExpression (tokens : List Token) : Reading Expression :=
  readBinary (3 * tokens.length + 3) tokens

/-- Reading a list of expressions. -/
def readExpressions (tokens : List Token) : Reading (List Expression) :=
  readList (3 * tokens.length + 4) tokens

/-! ### Where the reader stops -/

/-- A reading consumes tokens, has a value unless it failed, and stops at the end of an expression
if it has a value and failed nevertheless. -/
structure Reading.Sound {α : Type} (reading : Reading α) (bound : Nat) : Prop where
  length : reading.rest.length ≤ bound
  taken : reading.value.isSome → reading.rest.length < bound
  error : reading.value = none → reading.failed = true
  ends : reading.value.isSome → reading.failed = true → endsExpression (firstType reading.rest)

/-- A reading of a whole expression stops at its end. -/
structure Reading.Complete {α : Type} (reading : Reading α) (bound : Nat) : Prop extends
    Reading.Sound reading bound where
  complete : reading.value.isSome → endsExpression (firstType reading.rest)

namespace Reading

variable {α : Type} {rest : List Token} {bound : Nat} {reading : Reading α}

theorem Complete.of_none (length : rest.length ≤ bound) :
    Complete (⟨none, true, rest⟩ : Reading α) bound :=
  ⟨⟨length, nofun, fun _ => rfl, nofun⟩, nofun⟩

theorem Complete.of_some {value : α} {failed : Bool} (length : rest.length < bound)
    (ends : endsExpression (firstType rest)) : Complete ⟨some value, failed, rest⟩ bound :=
  ⟨⟨length.le, fun _ => length, nofun, fun _ _ => ends⟩, fun _ => ends⟩

theorem Sound.of_some {value : α} (length : rest.length < bound) :
    Sound ⟨some value, false, rest⟩ bound :=
  ⟨length.le, fun _ => length, nofun, nofun⟩

theorem Sound.mono (sound : reading.Sound bound) (le : bound ≤ larger) :
    reading.Sound larger :=
  ⟨sound.length.trans le, fun value => (sound.taken value).trans_le le, sound.error, sound.ends⟩

theorem Complete.mono (complete : reading.Complete bound) (le : bound ≤ larger) :
    reading.Complete larger :=
  ⟨complete.toSound.mono le, complete.complete⟩

theorem Sound.map {β : Type} (sound : reading.Sound bound) (build : α → β) :
    Sound ⟨reading.value.map build, reading.failed, reading.rest⟩ bound := by
  obtain ⟨length, taken, error, ends⟩ := sound
  exact ⟨length, by simpa using taken, by simpa using error, by simpa using ends⟩

theorem Complete.map {β : Type} (complete : reading.Complete bound) (build : α → β) :
    Complete ⟨reading.value.map build, reading.failed, reading.rest⟩ bound :=
  ⟨complete.toSound.map _, by simpa using complete.complete⟩

theorem Sound.andThen (sound : reading.Sound bound) (build : α → Expression)
    (goesOn : ∀ value rest, reading = ⟨some value, false, rest⟩ → rest.length < bound →
      (next (build value) rest).Complete bound) : (reading.andThen build next).Complete bound := by
  obtain ⟨value, failed, rest⟩ := reading
  cases value with
  | none =>
    obtain rfl : failed = true := sound.error rfl
    exact .of_none sound.length
  | some value =>
    cases failed with
    | true => exact .of_some (sound.taken rfl) (sound.ends rfl rfl)
    | false => exact goesOn _ _ rfl (sound.taken rfl)

end Reading

theorem readColumn_sound (name : List UInt8) (tokens : List Token) :
    (readColumn name tokens).Sound (tokens.length + 1) := by
  unfold readColumn
  split
  · split
    · exact .of_some (Nat.lt_succ_self _)
    split
    · exact .of_some (by simp only [length_cons]; omega)
    · exact (Reading.Complete.of_none (by simp)).toSound
  · split
    · exact .of_some (Nat.lt_succ_self _)
    · exact (Reading.Complete.of_none (by simp)).toSound
  · exact .of_some (Nat.lt_succ_self _)

theorem readClose_value (inner : Reading Expression) : (readClose inner).value = inner.value := by
  unfold readClose
  split
  · rfl
  · split <;> rfl

theorem readClose_sound (complete : inner.Complete bound) :
    (readClose inner).Sound bound := by
  unfold readClose
  split
  · exact complete.toSound
  have value : inner.value ≠ none := fun none => absurd (complete.error none) ‹_›
  split
  · exact ⟨by simpa using (Nat.sub_le _ _).trans complete.length,
      fun some => by simpa using (Nat.sub_le _ _).trans_lt (complete.taken some),
      fun none => absurd none value, fun _ failed => absurd failed ‹_›⟩
  · exact ⟨complete.length, complete.taken, fun _ => rfl, fun some _ => complete.complete some⟩

/-- The reader moves forward and stops where expressions end. -/
theorem read_sound (steps : Nat) :
    (∀ tokens, (readLiteral steps tokens).Sound tokens.length) ∧
    (∀ tokens, (readUnaryNot steps tokens).Sound tokens.length) ∧
    (∀ tokens, (readBinary steps tokens).Complete tokens.length) ∧
    (∀ left tokens, (readLoop steps left tokens).Complete (tokens.length + 1)) ∧
    (∀ tokens, (readList steps tokens).Complete tokens.length) := by
  induction steps with
  | zero =>
    refine ⟨fun tokens => ?_, fun tokens => ?_, fun tokens => ?_, fun left tokens => ?_,
      fun tokens => ?_⟩
    · cases tokens <;> exact (Reading.Complete.of_none (by simp)).toSound
    · exact (Reading.Complete.of_none le_rfl).toSound
    · exact .of_none le_rfl
    · exact .of_none (Nat.le_succ _)
    · exact .of_none le_rfl
  | succ steps inductionHypothesis =>
    obtain ⟨literal, unary, binary, loop, list⟩ := inductionHypothesis
    refine ⟨fun tokens => ?_, fun tokens => ?_, fun tokens => ?_, fun left tokens => ?_,
      fun tokens => ?_⟩
    · cases tokens with
      | nil => exact (Reading.Complete.of_none (by simp)).toSound
      | cons token rest =>
        rw [readLiteral]
        split
        iterate 4 exact .of_some (Nat.lt_succ_self _)
        · exact readColumn_sound _ _
        · exact (readClose_sound (binary _)).mono (Nat.le_succ _)
        · exact ((literal _).map _).mono (Nat.le_succ _)
        · exact ((literal _).map _).mono (Nat.le_succ _)
        · exact (Reading.Complete.of_none le_rfl).toSound
    · rw [readUnaryNot]
      split
      · exact ((unary _).map _).mono (by simp)
      · exact literal _
    · exact (unary _).andThen id fun tree rest _ shorter => (loop _ _).mono shorter
    · rw [readLoop]
      split
      · exact .of_some (Nat.lt_succ_self _) ‹_›
      next goesOn =>
      have one : tokens.tail.length + 1 = tokens.length := by
        cases tokens with
        | nil => exact absurd rfl goesOn
        | cons token rest => rfl
      have operand build :
          ((readBinary steps tokens.tail).andThen build (readLoop steps)).Complete
            (tokens.length + 1) :=
        ((binary _).toSound.andThen _ fun tree others _ shorter =>
          (loop _ _).mono shorter).mono (by omega)
      have two := @List.length_tail _ tokens.tail
      split
      · exact operand _
      · split
        · split
          · exact (loop _ _).mono (by simp only [length_tail]; omega)
          · refine ((list _).toSound.andThen _
              fun items others read shorter => ?_).mono (by omega)
            split
            · exact (loop _ _).mono (by simp only [length_tail]; omega)
            · have complete := list tokens.tail.tail
              rw [read] at complete
              exact .of_some shorter (complete.complete rfl)
        · exact (loop left tokens.tail).mono (by omega)
      · exact .of_none ((binary _).length.trans (by omega))
      · exact operand _
    · rw [readList]
      split
      · next failed rest found => 
        have complete := binary tokens
        rw [found] at complete
        obtain rfl : failed = true := complete.error rfl
        exact .of_none complete.length
      · next first rest found =>
        have complete := binary tokens
        rw [found] at complete
        split
        · exact .of_none complete.length
        · exact .of_some (complete.taken rfl) (complete.complete rfl)
      · next first rest found =>
        have complete := binary tokens
        rw [found] at complete
        have shorter : rest.length < tokens.length := complete.taken rfl
        split
        · exact ((list _).map _).mono (by simp; omega)
        · exact .of_some shorter (complete.complete rfl)

theorem readExpression_complete (tokens : List Token) :
    (readExpression tokens).Complete tokens.length := (read_sound _).2.2.1 _

theorem readExpressions_complete (tokens : List Token) :
    (readExpressions tokens).Complete tokens.length := (read_sound _).2.2.2.2 _

/-! ### The parser agrees with the reader -/

namespace Parser

/-- A call returns what the reader reads, and stands where the reader stops. -/
def Agrees {α : Type} (call : Option (Option α × Parser)) (reading : Reading α) : Prop :=
  ∃ parser : Parser, call = some (reading.value, parser) ∧
    parser.At reading.failed reading.rest

variable {parser : Parser} {failed : Bool} {tokens : List Token}

theorem parseBinaryLoop_ends (left : Expression) (ends : endsExpression parser.type = true) :
    parseBinaryLoop left parser = some (some left, parser) := by
  rw [parseBinaryLoop_eq, binaryLoopBody]
  unfold endsExpression at ends
  simp only [Bool.or_eq_true, Bool.and_eq_true, decide_eq_true_eq] at ends
  obtain isNot | ⟨⟨⟨noPrecedence, notLike⟩, notIn⟩, notBetween⟩ := ends
  · simp [isNot]
  · simp [noPrecedence, notLike, notIn, notBetween]

theorem At.closeParenthesis (stands : parser.At inner.failed inner.rest) :
    parser.closeParenthesis.At (readClose inner).failed (readClose inner).rest := by
  obtain ⟨value, failed, rest⟩ := inner
  unfold Parser.closeParenthesis readClose
  rw [stands.type_eq]
  cases failed with
  | true =>
    split
    · simpa [stands.advance_failed] using stands
    · simpa using stands.setError _
  | false =>
    split
    · exact stands.advance
    · exact stands.setError _

theorem At.parseIdentifier (stands : parser.At false (token :: tokens))
    (identifier : token.type = tokenIdentifier) :
    parser.parseIdentifier = (some (tokenGetText token), parser.advance) := by
  rw [Parser.parseIdentifier, stands.type_eq, stands.current, firstType_cons, identifier]
  simp

theorem At.parseIdentifier_none (stands : parser.At failed tokens)
    (noIdentifier : firstType tokens ≠ tokenIdentifier) :
    parser.parseIdentifier = (none, parser.setError "Expected identifier") := by
  rw [Parser.parseIdentifier, stands.type_eq, if_pos noIdentifier]

theorem At.parseColumn (stands : parser.At false (token :: tokens))
    (identifier : token.type = tokenIdentifier) :
    Agrees (some parser.parseColumn) (readColumn (tokenGetText token) tokens) := by
  have next := stands.advance
  rw [tail_cons] at next
  unfold Parser.parseColumn
  rw [stands.parseIdentifier identifier]
  dsimp only
  rw [next.type_eq]
  cases tokens with
  | nil => exact ⟨_, rfl, next⟩
  | cons dot rest =>
    rw [firstType_cons]
    by_cases isDot : dot.type = tokenDot
    · rw [if_pos isDot]
      cases rest with
      | nil =>
        rw [readColumn, if_neg (not_not_intro isDot), next.advance.parseIdentifier_none (by simp)]
        exact ⟨_, rfl, next.advance.setError _⟩
      | cons column rest =>
        rw [readColumn, if_neg (not_not_intro isDot)]
        by_cases isColumn : column.type = tokenIdentifier
        · rw [if_pos isColumn, next.advance.parseIdentifier isColumn]
          exact ⟨_, rfl, next.advance.advance⟩
        · rw [if_neg isColumn, next.advance.parseIdentifier_none (by simpa using isColumn)]
          exact ⟨_, rfl, next.advance.setError _⟩
    · rw [if_neg isDot]
      cases rest with
      | nil => rw [readColumn, if_pos isDot]; exact ⟨_, rfl, next⟩
      | cons column rest => rw [readColumn, if_pos isDot]; exact ⟨_, rfl, next⟩

theorem Agrees.map {α β : Type} {call : Option (Option α × Parser)} {reading : Reading α}
    (agrees : Agrees call reading) (build : α → β) :
    Agrees (do let (value, parser) ← call; return (value.map build, parser))
      ⟨reading.value.map build, reading.failed, reading.rest⟩ := by
  obtain ⟨parser, rfl, stands⟩ := agrees
  exact ⟨parser, rfl, stands⟩

/-- Going on with the loop behind an operand: after an error the loop ends at once. -/
theorem Agrees.loop {call : Option (Option Expression × Parser)} (agrees : Agrees call reading)
    (sound : reading.Sound bound) (build : Expression → Expression)
    (goesOn : ∀ parser value rest, rest.length < bound → parser.At false rest →
      Agrees (parseBinaryLoop (build value) parser) (next (build value) rest)) :
    Agrees (orNull call fun value parser => parseBinaryLoop (build value) parser)
      (reading.andThen build next) := by
  obtain ⟨parser, rfl, stands⟩ := agrees
  obtain ⟨value, failed, rest⟩ := reading
  cases value with
  | none => exact ⟨parser, rfl, stands⟩
  | some value =>
    cases failed with
    | true =>
      refine ⟨parser, ?_, stands⟩
      exact parseBinaryLoop_ends _ (by rw [stands.type_eq]; exact sound.ends rfl rfl)
    | false => exact goesOn _ _ _ (sound.taken rfl) stands

theorem parseLiteral_other (other : startsLiteral parser.type = false) :
    parseLiteral parser = some (none, parser.setError "Unexpected token in expression") := by
  rw [parseLiteral_eq, literalBody]
  split
  case h_9 => rfl
  all_goals
    rename_i type
    rw [type] at other
    cases other

theorem parseLiteral_agrees
    (binary : ∀ parser tokens, 3 * tokens.length + 3 ≤ steps → parser.At false tokens →
      Agrees (parseBinaryExpr parser 0) (readBinary steps tokens))
    (literal : ∀ parser tokens, 3 * tokens.length + 1 ≤ steps → parser.At false tokens →
      Agrees (parseLiteral parser) (readLiteral steps tokens))
    (enough : 3 * tokens.length + 1 ≤ steps + 1) (stands : parser.At false tokens) :
    Agrees (parseLiteral parser) (readLiteral (steps + 1) tokens) := by
  cases tokens with
  | nil =>
    rw [parseLiteral_other (by rw [stands.type_eq]; rfl)]
    exact ⟨_, rfl, stands.setError _⟩
  | cons token rest =>
    rw [length_cons] at enough
    have next := stands.advance
    have current : parser.type = token.type := stands.type_eq
    rw [readLiteral]
    split
    case h_9 =>
      have other : startsLiteral parser.type = false := by
        rw [current, startsLiteral] <;> assumption
      rw [parseLiteral_other other]
      exact ⟨_, rfl, stands.setError _⟩
    all_goals
      rename_i type
      rw [type] at current
      rw [parseLiteral_eq, literalBody]
      simp only [current]
    case h_1 | h_2 | h_3 => rw [stands.current]; exact ⟨_, rfl, next⟩
    case h_4 => exact ⟨_, rfl, next⟩
    case h_5 => exact stands.parseColumn type
    case h_6 =>
      obtain ⟨inner, returned, innerStands⟩ := binary _ rest (by omega) next
      rw [returned]
      exact ⟨inner.closeParenthesis, by rw [readClose_value]; rfl, innerStands.closeParenthesis⟩
    case h_7 => exact (literal _ rest (by omega) next).map _
    case h_8 => exact (literal _ rest (by omega) next).map _

theorem At.atNot (stands : parser.At failed tokens) :
    parser.checkKeyword "NOT" = decide (firstType tokens = tokenNot) :=
  stands.checkKeyword rfl (by decide)

theorem length_tail_of_type (more : firstType tokens ≠ tokenEof) :
    tokens.tail.length + 1 = tokens.length := by
  cases tokens with
  | nil => exact absurd rfl more
  | cons token rest => rfl

/-! ### The parser after an error -/

theorem At.parseLiteral_failed (stands : parser.At true tokens)
    (simple : nests (firstType tokens) = false) :
    ∃ value next, parseLiteral parser = some (value, next) ∧ next.At true tokens ∧
      value.isSome = startsLiteral (firstType tokens) := by
  have stays := stands.advance_failed
  have current := stands.type_eq
  by_cases other : startsLiteral parser.type = false
  · exact ⟨none, _, parseLiteral_other other, stands.setError _, by rw [← current, other]; rfl⟩
  · have starts : startsLiteral parser.type = true := by simpa using other
    rw [← current] at simple ⊢
    rw [parseLiteral_eq, literalBody]
    split
    case h_5 identifier =>
      have column : parser.parseColumn =
          (some (.column (-1) (tokenGetText parser.currentToken)), parser) := by
        simp [Parser.parseColumn, Parser.parseIdentifier, identifier, stays]
      exact ⟨some _, parser, by rw [column]; rfl, stands, starts.symm⟩
    case h_6 isLparen => rw [isLparen] at simple; cases simple
    case h_7 isMinus => rw [isMinus] at simple; cases simple
    case h_8 isPlus => rw [isPlus] at simple; cases simple
    case h_9 => exact absurd (by rw [startsLiteral] <;> assumption) other
    all_goals exact ⟨some _, parser, by rw [stays]; rfl, stands, starts.symm⟩

theorem At.parseBinaryExpr_failed (stands : parser.At true tokens) (minPrec : Int)
    (simple : nests (firstType tokens) = false) :
    ∃ value next, parseBinaryExpr parser minPrec = some (value, next) ∧ next.At true tokens ∧
      value.isSome = startsLiteral (firstType tokens) := by
  have notNot : firstType tokens ≠ tokenNot := fun isNot => by
    rw [isNot] at simple
    cases simple
  obtain ⟨value, next, returned, nextStands, noValue⟩ := stands.parseLiteral_failed simple
  refine ⟨value, next, ?_, nextStands, noValue⟩
  rw [parseBinaryExpr_eq, binaryExprBody, parseUnaryNot_eq, unaryNotBody, stands.atNot]
  simp only [notNot]
  cases value with
  | none => simp [returned]
  | some value => simp [returned, nextStands.failed]

/-! ### The loop of `parse_binary_expr`, operator by operator -/

theorem parseBinaryLoop_like (left : Expression) (isLike : parser.type = tokenLike) :
    parseBinaryLoop left parser = orNull (parseBinaryExpr parser.advance 1) fun pattern parser =>
      parseBinaryLoop (.like left pattern 0 false) parser := by
  rw [parseBinaryLoop_eq, binaryLoopBody]
  simp only [isLike]
  rfl

theorem parseBinaryLoop_in (left : Expression) (isIn : parser.type = tokenIn) :
    parseBinaryLoop left parser =
      if parser.advance.type = tokenLparen then
        if parser.advance.advance.type = tokenRparen then
          parseBinaryLoop (.inList left [] false)
            (parser.advance.advance.expectToken tokenRparen "Expected ')'")
        else
          orNull (parseExpressions parser.advance.advance) fun list parser =>
          parseBinaryLoop (.inList left list false) (parser.expectToken tokenRparen "Expected ')'")
      else parseBinaryLoop left parser.advance := by
  have unfolded := parseBinaryLoop_eq left parser
  simp only [binaryLoopBody, isIn, ite_not] at unfolded
  exact unfolded

theorem parseBinaryLoop_between (left : Expression) (isBetween : parser.type = tokenBetween) :
    parseBinaryLoop left parser = orNull (parseBinaryExpr parser.advance 1) fun low parser =>
      if parser.checkKeyword "AND" then
        orNull (parseBinaryExpr parser.advance 1) fun high parser =>
        parseBinaryLoop (.between left low high false) parser
      else some (none, parser.setError "Expected AND in BETWEEN expression") := by
  rw [parseBinaryLoop_eq, binaryLoopBody]
  simp only [isBetween]
  rfl

theorem parseBinaryLoop_operator (left : Expression) {op : TokenType} (isOp : parser.type = op)
    (goesOn : endsExpression op = false) (notLike : op ≠ tokenLike) (notIn : op ≠ tokenIn)
    (notBetween : op ≠ tokenBetween) :
    parseBinaryLoop left parser =
      orNull (parseBinaryExpr parser.advance (getPrecedence op + 1)) fun right parser =>
        parseBinaryLoop (.binary left op.code right) parser := by
  have precedence : getPrecedence op ≠ 0 := by
    intro none
    simp [endsExpression, none, notLike, notIn, notBetween] at goesOn
  have notNot : op ≠ tokenNot := by
    rintro rfl
    cases goesOn
  have notIs : op ≠ tokenIs := by
    rintro rfl
    exact precedence rfl
  rw [parseBinaryLoop_eq, binaryLoopBody]
  simp only [isOp, notLike, notIn, notBetween, precedence, notIs, notNot]
  rfl

/-- The end of an `IN` list, where the loop goes on only behind the parenthesis. -/
theorem Agrees.closeList {reading : Reading (List Expression)}
    {call : Option (Option (List Expression) × Parser)} (agrees : Agrees call reading)
    (complete : reading.Complete bound) (build : List Expression → Expression)
    (goesOn : ∀ parser tree rest, rest.length < bound → parser.At false rest →
      Agrees (parseBinaryLoop tree parser) (next tree rest)) :
    Agrees (orNull call fun list parser =>
        parseBinaryLoop (build list) (parser.expectToken tokenRparen "Expected ')'"))
      (reading.andThen build fun tree rest =>
        if firstType rest = tokenRparen then next tree rest.tail else ⟨some tree, true, rest⟩) := by
  obtain ⟨parser, rfl, stands⟩ := agrees
  obtain ⟨value, failed, rest⟩ := reading
  cases value with
  | none => exact ⟨parser, rfl, stands⟩
  | some list =>
    have ends : endsExpression (firstType rest) = true := complete.complete rfl
    have failure (stays : (parser.expectToken tokenRparen "Expected ')'").At true rest) :
        Agrees (parseBinaryLoop (build list) (parser.expectToken tokenRparen "Expected ')'"))
          ⟨some (build list), true, rest⟩ :=
      ⟨_, parseBinaryLoop_ends _ (by rw [stays.type_eq]; exact ends), stays⟩
    cases failed with
    | true =>
      refine failure ?_
      unfold expectToken
      split
      · exact stands.setError _
      · rw [stands.advance_failed]
        exact stands
    | false =>
      have shorter : rest.length < bound := complete.taken rfl
      simp only [Reading.andThen]
      split
      · next closed =>
        have moved : parser.expectToken tokenRparen "Expected ')'" = parser.advance := by
          rw [expectToken, if_neg (not_not_intro (stands.type_eq.trans closed))]
        have goesOn := goesOn parser.advance (build list) rest.tail
          (by simp only [List.length_tail]; omega) stands.advance
        rw [← moved] at goesOn
        exact goesOn
      · next notClosed =>
        apply failure
        rw [expectToken, if_pos (by rw [stands.type_eq]; exact notClosed)]
        exact stands.setError _

theorem Agrees.betweenFails (stands : parser.At reading.failed reading.rest)
    (complete : reading.Complete bound)
    (high : Expression → Parser → Option (Option Expression × Parser)) :
    Agrees (orNull (some (reading.value, parser)) fun low parser =>
        if parser.checkKeyword "AND" then high low parser
        else some (none, parser.setError "Expected AND in BETWEEN expression"))
      ⟨none, true, reading.rest⟩ := by
  obtain ⟨value, failed, rest⟩ := reading
  cases value with
  | none =>
    obtain rfl : failed = true := complete.error rfl
    exact ⟨parser, rfl, stands⟩
  | some low =>
    have ends : endsExpression (firstType rest) = true := complete.complete rfl
    have notAnd : firstType rest ≠ tokenAnd := fun isAnd => by
      rw [isAnd] at ends
      cases ends
    have keyword : parser.checkKeyword "AND" = decide (firstType rest = tokenAnd) :=
      stands.checkKeyword rfl (by decide)
    exact ⟨parser.setError "Expected AND in BETWEEN expression", by simp [keyword, notAnd],
      stands.setError _⟩

theorem parseBinaryLoop_agrees
    (binary : ∀ parser tokens minPrec, 3 * tokens.length + 3 ≤ steps → parser.At false tokens →
      Agrees (parseBinaryExpr parser minPrec) (readBinary steps tokens))
    (loop : ∀ left parser tokens, 3 * tokens.length + 1 ≤ steps → parser.At false tokens →
      Agrees (parseBinaryLoop left parser) (readLoop steps left tokens))
    (list : ∀ parser tokens, 3 * tokens.length + 4 ≤ steps → parser.At false tokens →
      Agrees (parseExpressions parser) (readList steps tokens)) (left : Expression)
    (enough : 3 * tokens.length + 1 ≤ steps + 1) (stands : parser.At false tokens) :
    Agrees (parseBinaryLoop left parser) (readLoop (steps + 1) left tokens) := by
  have current := stands.type_eq
  by_cases ends : endsExpression (firstType tokens) = true
  · rw [parseBinaryLoop_ends left (by rw [current]; exact ends), readLoop, if_pos ends]
    exact ⟨parser, rfl, stands⟩
  have one : tokens.tail.length + 1 = tokens.length :=
    length_tail_of_type fun eof => ends (by rw [eof]; rfl)
  have operand build minPrec := Agrees.loop
    (binary _ _ minPrec (by omega) stands.advance)
    ((read_sound _).2.2.1 _).toSound build
    fun parser value rest shorter => loop _ _ _ (by omega)
  rw [readLoop, if_neg ends]
  split
  · next isLike =>
    rw [parseBinaryLoop_like left (current.trans isLike)]
    exact operand _ _
  · next isIn =>
    rw [parseBinaryLoop_in left (current.trans isIn), stands.advance.type_eq,
      stands.advance.advance.type_eq]
    split
    · next opened =>
      have inside : tokens.tail.tail.length + 1 = tokens.tail.length :=
        length_tail_of_type (by rw [opened]; decide)
      split
      · next closed =>
        rw [expectToken, if_neg (not_not_intro (stands.advance.advance.type_eq.trans closed))]
        exact loop _ _ _ (by simp only [length_tail]; omega) stands.advance.advance.advance
      · exact Agrees.closeList (list _ _ (by omega) stands.advance.advance)
          ((read_sound _).2.2.2.2 _) _ fun parser tree rest shorter =>
            loop _ _ _ (by omega)
    · exact loop left parser.advance _ (by omega) stands.advance
  · next isBetween =>
    rw [parseBinaryLoop_between left (current.trans isBetween)]
    obtain ⟨next, returned, nextStands⟩ := binary parser.advance tokens.tail 1 (by omega) stands.advance
    have complete := (read_sound steps).2.2.1 tokens.tail
    rw [returned]
    exact Agrees.betweenFails nextStands complete _
  · next notLike notIn notBetween =>
    rw [parseBinaryLoop_operator left current (Bool.eq_false_iff.mpr ends) notLike notIn notBetween]
    exact operand _ _

/-- Until an error is recorded, the parser reads expressions as the reader does. -/
theorem parse_agrees (steps : Nat) :
    (∀ parser tokens, 3 * tokens.length + 1 ≤ steps → parser.At false tokens →
      Agrees (parseLiteral parser) (readLiteral steps tokens)) ∧
    (∀ parser tokens, 3 * tokens.length + 2 ≤ steps → parser.At false tokens →
      Agrees (parseUnaryNot parser) (readUnaryNot steps tokens)) ∧
    (∀ parser tokens minPrec, 3 * tokens.length + 3 ≤ steps → parser.At false tokens →
      Agrees (parseBinaryExpr parser minPrec) (readBinary steps tokens)) ∧
    (∀ left parser tokens, 3 * tokens.length + 1 ≤ steps → parser.At false tokens →
      Agrees (parseBinaryLoop left parser) (readLoop steps left tokens)) ∧
    (∀ parser tokens, 3 * tokens.length + 4 ≤ steps → parser.At false tokens →
      Agrees (parseExpressions parser) (readList steps tokens)) := by
  induction steps with
  | zero => exact ⟨by omega, by omega, by omega, by omega, by omega⟩
  | succ steps inductionHypothesis =>
    obtain ⟨literal, unary, binary, loop, list⟩ := inductionHypothesis
    refine ⟨fun parser tokens enough stands => ?_, fun parser tokens enough stands => ?_,
      fun parser tokens minPrec enough stands => ?_, fun left parser tokens enough stands => ?_,
      fun parser tokens enough stands => ?_⟩
    · exact parseLiteral_agrees (fun parser tokens => binary _ _ 0) literal enough stands
    · rw [parseUnaryNot_eq, unaryNotBody, readUnaryNot, stands.atNot]
      by_cases isNot : firstType tokens = tokenNot
      · have one : tokens.tail.length + 1 = tokens.length :=
          length_tail_of_type (by rw [isNot]; decide)
        simp only [isNot]
        exact (unary _ _ (by omega) stands.advance).map _
      · simp only [isNot]
        exact literal _ _ (by omega) stands
    · rw [parseBinaryExpr_eq, binaryExprBody, readBinary]
      obtain ⟨next, returned, nextStands⟩ := unary parser tokens (by omega) stands
      have sound := (read_sound steps).2.1 tokens
      rw [returned]
      generalize readUnaryNot steps tokens = reading at sound nextStands
      obtain ⟨value, failed, rest⟩ := reading
      cases value with
      | none => exact ⟨next, rfl, nextStands⟩
      | some operand =>
        have hasError := nextStands.failed
        cases failed with
        | true => exact ⟨next, by simp [hasError, Reading.andThen], nextStands⟩
        | false =>
          have shorter : rest.length < tokens.length := sound.taken rfl
          have goesOn := loop operand next rest (by omega) nextStands
          simpa [hasError, Reading.andThen] using goesOn
    · exact parseBinaryLoop_agrees binary loop list left enough stands
    · rw [parseExpressions_eq, expressionsBody, readList]
      obtain ⟨next, returned, nextStands⟩ := binary parser tokens 0 (by omega) stands
      have complete := (read_sound steps).2.2.1 tokens
      rw [returned]
      generalize readBinary steps tokens = reading at complete nextStands
      obtain ⟨value, failed, rest⟩ := reading
      cases value with
      | none => exact ⟨next, rfl, nextStands⟩
      | some first =>
        have current := nextStands.type_eq
        by_cases comma : firstType rest = tokenComma
        · cases failed with
          | true =>
            obtain ⟨value, last, returned, lastStands, noValue⟩ :=
              nextStands.parseBinaryExpr_failed 0 (by rw [comma]; rfl)
            rw [comma] at noValue
            obtain rfl : value = none := not_isSome_iff_eq_none.mp (by rw [noValue]; decide)
            refine ⟨last, ?_, by simpa [comma] using lastStands⟩
            rw [orNull_some, listItem, current, nextStands.advance_failed,
              parseExpressions_eq, expressionsBody, returned]
            simp [comma]
          | false =>
            have shorter : rest.length < tokens.length := complete.taken rfl
            have others := list _ _ (by simp only [length_tail]; omega)
              nextStands.advance
            rw [orNull_some, listItem, current]
            simpa [comma] using others.map _
        · have last : listItem parseExpressions first next = some (some [first], next) := by
            rw [listItem, current, if_neg comma]
            rfl
          cases failed with
          | true => exact ⟨next, by simp [last, comma], by simpa [comma] using nextStands⟩
          | false => exact ⟨next, by simp [last, comma], by simpa [comma] using nextStands⟩

/-- Reading an expression before any error. -/
theorem At.parseExpression (stands : parser.At false tokens) :
    Agrees parser.parseExpression (readExpression tokens) :=
  (parse_agrees _).2.2.1 _ _ 0 le_rfl stands

theorem At.parseExpressions (stands : parser.At false tokens) :
    Agrees parser.parseExpressions (readExpressions tokens) :=
  (parse_agrees _).2.2.2.2 _ _ le_rfl stands

/-- What a call that returns after an error cannot have begun with. -/
def Stuck : ExpressionCall → Prop
  | .literal parser => parser.hasError = true → parser.type ≠ tokenNot → nests parser.type = false
  | .unaryNot parser => parser.hasError = true → nests parser.type = false
  | .binaryExpr parser _ => parser.hasError = true → nests parser.type = false
  | _ => True

/-- After an error, an expression that nests another one is looked for again and again: a call that
returns cannot have begun there. -/
theorem parse_stuck :
    (∀ parser result, parseLiteral parser = some result →
      parser.hasError = true → parser.type ≠ tokenNot → nests parser.type = false) ∧
    (∀ parser minPrec result, parseBinaryExpr parser minPrec = some result →
      parser.hasError = true → nests parser.type = false) ∧
    (∀ parser result, parseUnaryNot parser = some result →
      parser.hasError = true → nests parser.type = false) := by
  have all {call result} (returned : fix expressionBody call = some result) : Stuck call := by
    refine fix_induction (fun call _ => Stuck call) ?_ returned
    intro self stuck call result returned
    cases call with
    | literal parser =>
      intro hasError notNot
      have stays : parser.advance = parser := by simp [advance, hasError]
      rw [answer_literal, literalBody] at returned
      rw [nests]
      · exact notNot
      · intro isLparen
        simp only [isLparen] at returned
        obtain ⟨inner, called, _⟩ := bind_eq_some_iff.mp returned
        have again := stuck _ _ called
        rw [Stuck, stays, isLparen] at again
        cases again hasError
      · intro isMinus
        simp only [isMinus] at returned
        obtain ⟨operand, called, _⟩ := bind_eq_some_iff.mp returned
        have again := stuck _ _ called
        rw [Stuck, stays, isMinus] at again
        cases again hasError (by decide)
      · intro isPlus
        simp only [isPlus] at returned
        obtain ⟨operand, called, _⟩ := bind_eq_some_iff.mp returned
        have again := stuck _ _ called
        rw [Stuck, stays, isPlus] at again
        cases again hasError (by decide)
    | unaryNot parser =>
      intro hasError
      have stays : parser.advance = parser := by simp [advance, hasError]
      rw [answer_unaryNot, unaryNotBody] at returned
      split at returned
      · obtain ⟨operand, called, _⟩ := bind_eq_some_iff.mp returned
        have again := stuck _ _ called
        rw [stays] at again
        exact again hasError
      · next notNot =>
        refine stuck _ _ returned hasError fun isNot => notNot ?_
        rw [Parser.type] at isNot
        rw [Parser.checkKeyword, isKeyword_of_ne (by rw [isNot]; decide), isNot]
        rfl
    | binaryExpr parser minPrec =>
      intro hasError
      obtain ⟨first, called, _⟩ := bind_eq_some_iff.mp returned
      exact stuck _ _ called hasError
    | binaryLoop left parser => trivial
    | expressions parser => trivial
  exact ⟨fun _ _ returned => all returned, fun _ _ _ returned => all returned,
    fun _ _ returned => all returned⟩

/-- After an error, an expression is read unless it nests another one. -/
theorem At.parseExpression_failed (stands : parser.At true tokens) :
    (nests (firstType tokens) = true → parser.parseExpression = none) ∧
    (nests (firstType tokens) = false → ∃ value next,
      parser.parseExpression = some (value, next) ∧ next.At true tokens ∧
        value.isSome = startsLiteral (firstType tokens)) := by
  refine ⟨fun nested => ?_, stands.parseBinaryExpr_failed 0⟩
  cases returned : parser.parseExpression with
  | none => rfl
  | some result =>
    have simple := parse_stuck.2.1 _ 0 _ returned stands.failed
    rw [stands.type_eq, nested] at simple
    cases simple

end Parser

end TinyDb

/-
This file compares a tree with the tokens it was read from. A tree is read in source
order as a list of words, and so are tokens, without their parentheses and without the
tables in front of columns. The words of a tree that was read without an error are those
of its tokens, apart from every `IN` that no parenthesis follows: the loop over the
operators steps over it and keeps nothing.
-/
import TinyDb.Reader

namespace TinyDb

open TokenType List

variable {token isIn : Token} {rest middle : List Token} {type : TokenType} {tree : Expression}

/-! ### Words -/

/-- A word of an expression. Operators and keywords are the codes of their tokens. -/
inductive Word
  | integer (value : Int64)
  | real (value : Float)
  | text (value : List UInt8)
  | null
  | name (value : List UInt8)
  | symbol (code : Int)

variable {added : List Word}

/-- The word of a token. -/
def Token.word (token : Token) : Word :=
  match token.type with
  | tokenInteger => .integer token.integerValue
  | tokenReal => .real token.floatValue
  | tokenString => .text token.stringValue
  | tokenNull => .null
  | tokenIdentifier => .name (tokenGetText token)
  | type => .symbol type.code

/-- The `NOT` in front of `IN`, `BETWEEN` and `LIKE`. -/
def notWords (isNot : Bool) : List Word := if isNot then [.symbol tokenNot.code] else []

mutual

/-- The words of a tree, in source order. -/
def Expression.words : Expression → List Word
  | .literalInt value => [.integer value]
  | .literalFloat value => [.real value]
  | .literalString value => [.text value]
  | .literalNull => [.null]
  | .column _ name => [.name name]
  | .binary left op right => left.words ++ .symbol op :: right.words
  | .unary op operand => .symbol op :: operand.words
  | .inList value list isNot =>
    value.words ++ (notWords isNot ++ .symbol tokenIn.code :: expressionsWords list)
  | .between value low high isNot =>
    value.words ++ (notWords isNot ++ .symbol tokenBetween.code ::
      (low.words ++ .symbol tokenAnd.code :: high.words))
  | .like str pattern _ isNot =>
    str.words ++ (notWords isNot ++ .symbol tokenLike.code :: pattern.words)

/-- The words of a list, with commas between its items. -/
def expressionsWords : List Expression → List Word
  | [] => []
  | first :: rest =>
    first.words ++ if rest.isEmpty then [] else .symbol tokenComma.code :: expressionsWords rest

end

/-- The tokens that are left out of the words: parentheses, dots, and the tables in front of them. -/
def leftOut (token : Token) (rest : List Token) : Bool :=
  token.type = tokenLparen || token.type = tokenRparen || token.type = tokenDot ||
    (token.type = tokenIdentifier && firstType rest = tokenDot)

/-- An `IN` that no parenthesis follows. -/
def bareIn (token : Token) (rest : List Token) : Bool :=
  token.type = tokenIn && firstType rest ≠ tokenLparen

/-- The words of tokens, in source order. -/
def sourceWords : List Token → List Word
  | [] => []
  | token :: rest => if leftOut token rest then sourceWords rest else token.word :: sourceWords rest

/-- The words that the parser keeps. -/
def keptWords : List Token → List Word
  | [] => []
  | token :: rest =>
    if leftOut token rest || bareIn token rest then keptWords rest else token.word :: keptWords rest

/-- Whether a parenthesis follows every `IN`. -/
def everyInHasList : List Token → Bool
  | [] => true
  | token :: rest => !bareIn token rest && everyInHasList rest

/-- Every `IN` without a parenthesis is a word that is not kept. -/
theorem keptWords_length (tokens : List Token) :
    (keptWords tokens).length ≤ (sourceWords tokens).length ∧
      (everyInHasList tokens = false → (keptWords tokens).length < (sourceWords tokens).length) := by
  induction tokens with
  | nil => exact ⟨le_rfl, nofun⟩
  | cons token rest inductionHypothesis =>
    obtain ⟨le, lt⟩ := inductionHypothesis
    have disjoint : bareIn token rest = true → leftOut token rest = false := by
      intro bare
      have isIn : token.type = tokenIn := by
        simp only [bareIn, Bool.and_eq_true, decide_eq_true_eq] at bare
        exact bare.1
      simp [leftOut, isIn]
    rw [keptWords, sourceWords, everyInHasList]
    cases bare : bareIn token rest with
    | true =>
      rw [disjoint bare]
      exact ⟨le.trans (Nat.le_succ _), fun _ => Nat.lt_succ_of_le le⟩
    | false =>
      simp only [Bool.or_false]
      split
      · exact ⟨le, lt⟩
      · exact ⟨Nat.succ_le_succ le, fun has => Nat.succ_lt_succ (lt has)⟩

theorem keptWords_eq_sourceWords_iff (tokens : List Token) :
    keptWords tokens = sourceWords tokens ↔ everyInHasList tokens = true := by
  constructor
  · intro same
    by_contra bare
    have shorter := (keptWords_length _).2 (by simpa using bare)
    rw [same] at shorter
    exact lt_irrefl _ shorter
  · intro has
    induction tokens with
    | nil => rfl
    | cons token rest inductionHypothesis =>
      rw [everyInHasList, Bool.and_eq_true, Bool.not_eq_true'] at has
      rw [keptWords, sourceWords, has.1, Bool.or_false, inductionHypothesis has.2]

/-! ### Tokens of expressions -/

/-- The tokens that an expression may have. -/
def inExpression (type : TokenType) : Bool :=
  startsLiteral type || !endsExpression type || type = tokenRparen || type = tokenNot ||
    type = tokenDot || type = tokenComma

/-- Tokens of an expression with the words that are kept of them. -/
structure Spells (tokens : List Token) (words : List Word) : Prop where
  kept : keptWords tokens = words
  types : ∀ token ∈ tokens, inExpression token.type = true

/-- The types that cannot come behind a part of an expression, apart from its own tokens. -/
def continues (type : TokenType) : Prop := type ≠ tokenDot ∧ type ≠ tokenLparen

theorem keptWords_append (front back : List Token) (apart : continues (firstType back)) :
    keptWords (front ++ back) = keptWords front ++ keptWords back := by
  obtain ⟨noDot, noParenthesis⟩ := apart
  induction front with
  | nil => rfl
  | cons token rest inductionHypothesis =>
    have same : (leftOut token (rest ++ back) || bareIn token (rest ++ back)) =
        (leftOut token rest || bareIn token rest) := by
      cases rest with
      | nil => simp [leftOut, bareIn, noDot, noParenthesis]
      | cons next others => rfl
    rw [cons_append, keptWords, keptWords, same, inductionHypothesis]
    split <;> rfl

namespace Spells

theorem nil : Spells [] [] := ⟨rfl, by simp⟩

theorem append {front back : List Token} {words others : List Word} (one : Spells front words)
    (two : Spells back others) (apart : continues (firstType back)) :
    Spells (front ++ back) (words ++ others) where
  kept := by rw [keptWords_append _ _ apart, one.kept, two.kept]
  types := forall_mem_append.mpr ⟨one.types, two.types⟩

/-- A token in front that is kept. -/
theorem cons {words : List Word} (spells : Spells rest words)
    (known : inExpression token.type = true) (kept : leftOut token rest = false)
    (list : bareIn token rest = false) :
    Spells (token :: rest) (token.word :: words) where
  kept := by rw [keptWords, kept, list, spells.kept]; rfl
  types := forall_mem_cons.mpr ⟨known, spells.types⟩

/-- A token in front that is not kept. -/
theorem skip {words : List Word} (spells : Spells rest words)
    (known : inExpression token.type = true)
    (skipped : (leftOut token rest || bareIn token rest) = true) :
    Spells (token :: rest) words where
  kept := by rw [keptWords, skipped, if_pos rfl, spells.kept]
  types := forall_mem_cons.mpr ⟨known, spells.types⟩

end Spells

/-- The tokens that are always kept, as symbols. -/
def isSymbol (type : TokenType) : Bool :=
  !(type = tokenInteger || type = tokenReal || type = tokenString || type = tokenNull ||
    type = tokenIdentifier || type = tokenIn || type = tokenLparen || type = tokenRparen ||
    type = tokenDot)

theorem Spells.symbol {words : List Word} (spells : Spells rest words)
    (known : inExpression token.type = true) (symbol : isSymbol token.type = true) :
    Spells (token :: rest) (.symbol token.type.code :: words) := by
  have word : token.word = .symbol token.type.code := by
    unfold Token.word
    split <;> first | rfl | simp_all [isSymbol]
  simp only [isSymbol, Bool.not_eq_true', Bool.or_eq_false_iff] at symbol
  rw [← word]
  exact spells.cons known (by simp [leftOut, symbol]) (by simp [bareIn, symbol])

theorem operator_symbol (goesOn : endsExpression type = false) (notIn : type ≠ tokenIn) :
    isSymbol type = true ∧ inExpression type = true ∧ continues type := by
  refine ⟨?_, by simp [inExpression, goesOn], ?_, ?_⟩
  · cases type <;> first | rfl | exact absurd rfl notIn | cases goesOn
  · rintro rfl
    cases goesOn
  · rintro rfl
    cases goesOn

/-! ### Readings without an error -/

theorem Reading.andThen_eq {α : Type} {reading : Reading α} {build : α → Expression}
    {next : Expression → List Token → Reading Expression}
    (read : reading.andThen build next = ⟨some tree, false, rest⟩) :
    ∃ value middle, reading = ⟨some value, false, middle⟩ ∧
      next (build value) middle = ⟨some tree, false, rest⟩ := by
  obtain ⟨value, failed, middle⟩ := reading
  cases value with
  | none => cases read
  | some value =>
    cases failed with
    | true => cases read
    | false => exact ⟨value, middle, rfl, read⟩

theorem Reading.map_eq {α β : Type} {reading : Reading α} {build : α → β} {value : β}
    (read : (⟨reading.value.map build, reading.failed, reading.rest⟩ : Reading β) =
      ⟨some value, false, rest⟩) :
    ∃ inner, reading = ⟨some inner, false, rest⟩ ∧ build inner = value := by
  obtain ⟨_ | inner, failed, middle⟩ := reading
  · cases read
  · cases read
    exact ⟨inner, rfl, rfl⟩

theorem cons_of_firstType {tokens : List Token} (is : firstType tokens = type)
    (notEof : type ≠ tokenEof) : ∃ token, tokens = token :: tokens.tail ∧ token.type = type := by
  cases tokens with
  | nil => exact absurd is.symm notEof
  | cons token rest => exact ⟨token, rfl, is⟩

theorem readClose_eq {inner : Reading Expression}
    (read : readClose inner = ⟨some tree, false, rest⟩) :
    ∃ close, inner = ⟨some tree, false, close :: rest⟩ ∧ close.type = tokenRparen := by
  obtain ⟨value, failed, middle⟩ := inner
  unfold readClose at read
  cases failed with
  | true => cases read
  | false =>
    simp only [Bool.false_eq_true, if_false] at read
    split at read
    · next closes =>
      obtain ⟨close, middle, isClose⟩ := cons_of_firstType closes (by decide)
      cases read
      exact ⟨close, by rw [← middle], isClose⟩
    · cases read

/-! ### The words that are read -/

/-- The tokens up to the rest spell the words. -/
def Spelled (words : List Word) (tokens rest : List Token) : Prop :=
  ∃ used, tokens = used ++ rest ∧ Spells used words

/-- The tokens up to the rest spell what the tree has behind the words. -/
def Extends (words : List Word) (tree : Expression) (tokens rest : List Token) : Prop :=
  ∃ used added, tokens = used ++ rest ∧ Spells used added ∧ continues (firstType used) ∧
    tree.words = words ++ added

section Words

variable {token : Token} {tokens rest : List Token} {tree : Expression} {words : List Word}
  {steps : Nat}

theorem readColumn_words (isName : token.type = tokenIdentifier)
    (read : readColumn (tokenGetText token) tokens = ⟨some tree, false, rest⟩) :
    Spelled tree.words (token :: tokens) rest := by
  have name : token.word = .name (tokenGetText token) := by simp [Token.word, isName]
  have known : inExpression token.type = true := by rw [isName]; rfl
  have alone : Spells [token] [.name (tokenGetText token)] := by
    rw [← name]
    exact Spells.nil.cons known (by simp [leftOut, isName]) (by simp [bareIn, isName])
  unfold readColumn at read
  split at read
  · next dot column others =>
    split at read
    · cases read
      exact ⟨[token], rfl, alone⟩
    next isDot =>
    rw [not_not] at isDot
    split at read
    · next isColumn =>
      cases read
      refine ⟨[token, dot, column], rfl, ?_⟩
      have column : Spells [column] [.name (tokenGetText column)] := by
        have word : column.word = .name (tokenGetText column) := by simp [Token.word, isColumn]
        rw [← word]
        exact Spells.nil.cons (by rw [isColumn]; rfl) (by simp [leftOut, isColumn])
          (by simp [bareIn, isColumn])
      exact (column.skip (by rw [isDot]; rfl) (by simp [leftOut, isDot])).skip known
        (by simp [leftOut, isName, isDot])
    · cases read
  · split at read
    · cases read
      exact ⟨[token], rfl, alone⟩
    · cases read
  · cases read
    exact ⟨[token], rfl, alone⟩

theorem Spelled.symbol (spelled : Spelled words tokens rest)
    (known : inExpression token.type = true) (symbol : isSymbol token.type = true) :
    Spelled (.symbol token.type.code :: words) (token :: tokens) rest := by
  obtain ⟨used, rfl, spells⟩ := spelled
  exact ⟨token :: used, rfl, spells.symbol known symbol⟩

/-- Going on behind an operand. -/
theorem Spelled.extends (spelled : Spelled words tokens middle)
    (extended : Extends words tree middle rest) : Spelled tree.words tokens rest := by
  obtain ⟨used, rfl, spells⟩ := spelled
  obtain ⟨others, added, rfl, spellsAdded, apart, same⟩ := extended
  exact ⟨used ++ others, by rw [append_assoc], same ▸ spells.append spellsAdded apart⟩

/-- Going on behind an operator and its operand. -/
theorem Extends.operand (spelled : Spelled added tokens middle)
    (known : inExpression token.type = true) (symbol : isSymbol token.type = true)
    (apart : continues token.type)
    (extended : Extends (words ++ .symbol token.type.code :: added) tree middle rest) :
    Extends words tree (token :: tokens) rest := by
  obtain ⟨used, rfl, spells⟩ := spelled
  obtain ⟨others, more, rfl, spellsMore, apartMore, same⟩ := extended
  refine ⟨token :: (used ++ others), .symbol token.type.code :: (added ++ more), by simp,
    (spells.append spellsMore apartMore).symbol known symbol, apart, ?_⟩
  rw [same, append_assoc, cons_append]

/-- Going on behind an `IN` and its list. -/
theorem Extends.list {opens closes : Token} {others : List Token} (isInType : isIn.type = tokenIn)
    (opensType : opens.type = tokenLparen) (closesType : closes.type = tokenRparen)
    (spelled : Spelled added tokens (closes :: others))
    (extended : Extends (words ++ .symbol tokenIn.code :: added) tree others rest) :
    Extends words tree (isIn :: opens :: tokens) rest := by
  obtain ⟨used, rfl, spells⟩ := spelled
  obtain ⟨behind, more, rfl, spellsMore, apart, same⟩ := extended
  have closed : Spells (closes :: behind) more :=
    spellsMore.skip (by rw [closesType]; rfl) (by simp [leftOut, closesType])
  have inside : Spells (opens :: (used ++ closes :: behind)) (added ++ more) :=
    (spells.append closed (by simp [continues, closesType])).skip (by rw [opensType]; rfl)
      (by simp [leftOut, opensType])
  have word : isIn.word = .symbol tokenIn.code := by simp [Token.word, isInType]
  refine ⟨isIn :: opens :: (used ++ closes :: behind), .symbol tokenIn.code :: (added ++ more),
    by simp, ?_, by simp [continues, isInType], by rw [same, append_assoc, cons_append]⟩
  rw [← word]
  exact inside.cons (by rw [isInType]; rfl) (by simp [leftOut, isInType])
    (by simp [bareIn, opensType])

/-- An `IN` without a list leaves nothing. -/
theorem Extends.bareIn (isInType : isIn.type = tokenIn) (extended : Extends words tree tokens rest) :
    Extends words tree (isIn :: tokens) rest := by
  obtain ⟨used, added, rfl, spells, apart, same⟩ := extended
  exact ⟨isIn :: used, added, rfl, spells.skip (by rw [isInType]; rfl)
    (by simp [TinyDb.bareIn, isInType, apart.2]), by simp [continues, isInType], same⟩

theorem Spelled.single {word : Word} (known : startsLiteral token.type = true)
    (kept : leftOut token [] = false) (same : token.word = word) (notIn : token.type ≠ tokenIn) :
    Spelled [word] (token :: rest) rest := by
  refine ⟨[token], rfl, ?_⟩
  rw [← same]
  exact Spells.nil.cons (by simp [inExpression, known]) kept (by simp [TinyDb.bareIn, notIn])

section

variable (binary : ∀ tokens tree rest, readBinary steps tokens = ⟨some tree, false, rest⟩ → Spelled tree.words tokens rest)
include binary

theorem readLiteral_words
    (literal : ∀ tokens tree rest, readLiteral steps tokens = ⟨some tree, false, rest⟩ →
      Spelled tree.words tokens rest)
    (read : readLiteral (steps + 1) tokens = ⟨some tree, false, rest⟩) :
    Spelled tree.words tokens rest := by
  cases tokens with
  | nil => cases read
  | cons token others =>
    rw [readLiteral] at read
    split at read
    case h_1 type | h_2 type | h_3 type | h_4 type =>
      cases read
      exact .single (by rw [type]; rfl) (by simp [leftOut, type]) (by simp [Token.word, type])
        (by rw [type]; decide)
    case h_5 type => exact readColumn_words type read
    case h_6 type =>
      obtain ⟨close, inner, isClose⟩ := readClose_eq read
      obtain ⟨used, rfl, spells⟩ := binary _ _ _ inner
      refine ⟨token :: (used ++ [close]), by simp, ?_⟩
      have closed : Spells [close] [] :=
        Spells.nil.skip (by rw [isClose]; rfl) (by simp [leftOut, isClose])
      have inside := spells.append closed (by simp [continues, isClose])
      rw [append_nil] at inside
      exact inside.skip (by rw [type]; rfl) (by simp [leftOut, type])
    case h_7 type =>
      obtain ⟨operand, inner, rfl⟩ := Reading.map_eq read
      rw [← type]
      exact (literal _ _ _ inner).symbol (by rw [type]; rfl) (by rw [type]; rfl)
    case h_8 type =>
      obtain ⟨operand, inner, rfl⟩ := Reading.map_eq read
      rw [← type]
      exact (literal _ _ _ inner).symbol (by rw [type]; rfl) (by rw [type]; rfl)
    case h_9 => cases read

theorem readLoop_words
    (loop : ∀ left tokens tree rest, readLoop steps left tokens = ⟨some tree, false, rest⟩ →
      Extends left.words tree tokens rest)
    (list : ∀ tokens items rest, readList steps tokens = ⟨some items, false, rest⟩ →
      items.isEmpty = false ∧ Spelled (expressionsWords items) tokens rest) {left : Expression}
    (read : readLoop (steps + 1) left tokens = ⟨some tree, false, rest⟩) :
    Extends left.words tree tokens rest := by
  rw [readLoop] at read
  split at read
  · cases read
    exact ⟨[], [], rfl, .nil, by simp [continues], (append_nil _).symm⟩
  next goesOn =>
  rw [Bool.not_eq_true] at goesOn
  have notEof : firstType tokens ≠ tokenEof := fun eof => by rw [eof] at goesOn; cases goesOn
  obtain ⟨token, cut, isToken⟩ := cons_of_firstType rfl notEof
  rw [cut]
  -- an operator with an expression behind it
  have operator (notIn : token.type ≠ tokenIn) (build : Expression → Expression)
      (words : ∀ operand : Expression,
        (build operand).words = left.words ++ .symbol token.type.code :: operand.words)
      (read : (readBinary steps tokens.tail).andThen build (readLoop steps) =
        ⟨some tree, false, rest⟩) : Extends left.words tree (token :: tokens.tail) rest := by
    obtain ⟨operand, middle, readOperand, readRest⟩ := Reading.andThen_eq read
    obtain ⟨symbol, known, apart⟩ := operator_symbol (isToken ▸ goesOn) notIn
    have extended := loop _ _ _ _ readRest
    rw [words] at extended
    exact .operand (binary _ _ _ readOperand) known symbol apart extended
  split at read
  · next isLike =>
    rw [← isToken] at isLike
    exact operator (by rw [isLike]; decide) _ (fun operand => by rw [isLike]; rfl) read
  · next isIn =>
    rw [← isToken] at isIn
    split at read
    · next opens =>
      obtain ⟨opening, cutOpening, isOpening⟩ := cons_of_firstType opens (by decide)
      rw [cutOpening]
      split at read
      · next closes =>
        obtain ⟨closing, cutClosing, isClosing⟩ := cons_of_firstType closes (by decide)
        rw [cutClosing]
        exact .list isIn isOpening isClosing ⟨[], rfl, .nil⟩ (loop _ _ _ _ read)
      · obtain ⟨items, middle, readItems, readRest⟩ := Reading.andThen_eq read
        split at readRest
        · next closes =>
          obtain ⟨closing, cutClosing, isClosing⟩ := cons_of_firstType closes (by decide)
          have spelled := (list _ _ _ readItems).2
          rw [cutClosing] at spelled
          exact .list isIn isOpening isClosing spelled (loop _ _ _ _ readRest)
        · cases readRest
    · exact .bareIn isIn (loop _ _ _ _ read)
  · cases read
  · next notLike notIn notBetween =>
    rw [← isToken] at notIn read
    exact operator (fun is => notIn is) _ (fun operand => rfl) read

theorem readList_words
    (list : ∀ tokens items rest, readList steps tokens = ⟨some items, false, rest⟩ →
      items.isEmpty = false ∧ Spelled (expressionsWords items) tokens rest)
    {items : List Expression} (read : readList (steps + 1) tokens = ⟨some items, false, rest⟩) :
    items.isEmpty = false ∧ Spelled (expressionsWords items) tokens rest := by
  rw [readList] at read
  split at read
  · cases read
  · split at read <;> cases read
  · next first middle readFirst =>
    obtain ⟨used, rfl, spells⟩ := binary _ _ _ readFirst
    split at read
    · next comma =>
      obtain ⟨token, cut, isComma⟩ := cons_of_firstType comma (by decide)
      obtain ⟨others, readOthers, rfl⟩ := Reading.map_eq read
      obtain ⟨nonempty, usedOthers, tail, spellsOthers⟩ := list _ _ _ readOthers
      refine ⟨rfl, used ++ token :: usedOthers, by rw [cut, tail]; simp, ?_⟩
      rw [expressionsWords, nonempty, ← isComma]
      exact spells.append (spellsOthers.symbol (by rw [isComma]; rfl) (by rw [isComma]; rfl))
        (by simp [continues, isComma])
    · cases read
      refine ⟨rfl, used, rfl, ?_⟩
      rw [expressionsWords, isEmpty_nil, if_pos rfl, append_nil]
      exact spells

end

/-- What the reader reads without an error has the words that are kept of its tokens. -/
theorem read_words (steps : Nat) :
    (∀ tokens tree rest, readLiteral steps tokens = ⟨some tree, false, rest⟩ →
      Spelled tree.words tokens rest) ∧
    (∀ tokens tree rest, readUnaryNot steps tokens = ⟨some tree, false, rest⟩ →
      Spelled tree.words tokens rest) ∧
    (∀ tokens tree rest, readBinary steps tokens = ⟨some tree, false, rest⟩ →
      Spelled tree.words tokens rest) ∧
    (∀ left tokens tree rest, readLoop steps left tokens = ⟨some tree, false, rest⟩ →
      Extends left.words tree tokens rest) ∧
    (∀ tokens items rest, readList steps tokens = ⟨some items, false, rest⟩ →
      items.isEmpty = false ∧ Spelled (expressionsWords items) tokens rest) := by
  induction steps with
  | zero =>
    refine ⟨fun tokens => ?_, fun _ _ _ read => ?_, fun _ _ _ read => ?_, fun _ _ _ _ read => ?_,
      fun _ _ _ read => ?_⟩
    · cases tokens <;> exact fun _ _ read => by cases read
    all_goals cases read
  | succ steps inductionHypothesis =>
    obtain ⟨literal, unary, binary, loop, list⟩ := inductionHypothesis
    refine ⟨fun tokens tree rest read => readLiteral_words binary literal read,
      fun tokens tree rest read => ?_, fun tokens tree rest read => ?_,
      fun left tokens tree rest read => readLoop_words binary loop list read,
      fun tokens items rest read => readList_words binary list read⟩
    · rw [readUnaryNot] at read
      split at read
      · next isNot =>
        obtain ⟨token, cut, isToken⟩ := cons_of_firstType isNot (by decide)
        obtain ⟨operand, inner, rfl⟩ := Reading.map_eq read
        rw [cut, ← isToken]
        exact (unary _ _ _ inner).symbol (by rw [isToken]; rfl) (by rw [isToken]; rfl)
      · exact literal _ _ _ read
    · obtain ⟨first, middle, readFirst, readRest⟩ := Reading.andThen_eq read
      exact (unary _ _ _ readFirst).extends (loop _ _ _ _ readRest)

theorem readExpression_words (read : readExpression tokens = ⟨some tree, false, rest⟩) :
    Spelled tree.words tokens rest := (read_words _).2.2.1 _ _ _ read

end Words

end TinyDb

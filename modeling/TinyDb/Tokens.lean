/-
This file says how the lexer moves through its text: every token but the last takes
at least one byte, so a text has a finite list of tokens, followed by the token for
its end as often as one asks.

A parser that never looks further than its current token is then a parser in front
of a list of tokens. Until an error is recorded, taking the next token drops the
first of the list; afterwards the list stays as it is.
-/
import TinyDb.Keywords
import TinyDb.Parser

namespace TinyDb

open TokenType

variable {token : Token} {kw : String}

/-- An identifier is the token of a text that is no keyword. -/
def Token.Lexed (token : Token) : Prop :=
  token.type = tokenIdentifier → lookupKeyword ((tokenGetText token).map toUpper) = tokenIdentifier

/-! ### Moving through the text -/

/-- The lexer has moved forward in the same text. -/
structure Lexer.Moves (lexer next : Lexer) : Prop where
  sql : next.sql = lexer.sql
  pos : lexer.pos ≤ next.pos
  inside : lexer.pos ≤ lexer.sql.length → next.pos ≤ lexer.sql.length
  peeked : next.peekToken = lexer.peekToken

namespace Lexer

theorem Moves.refl (lexer : Lexer) : Moves lexer lexer := ⟨rfl, Nat.le_refl _, id, rfl⟩

theorem Moves.trans {first second third : Lexer} (one : Moves first second)
    (two : Moves second third) : Moves first third where
  sql := two.sql.trans one.sql
  pos := Nat.le_trans one.pos two.pos
  inside inside := by
    have reached := two.inside (by rw [one.sql]; exact one.inside inside)
    rwa [one.sql] at reached
  peeked := two.peeked.trans one.peeked

theorem advance_moves (lexer : Lexer) : Moves lexer lexer.advance := by
  unfold advance
  split
  · split <;> exact ⟨rfl, Nat.le_succ _, fun _ => by simp only; omega, rfl⟩
  · exact .refl _

theorem advance_pos (lexer : Lexer) (more : lexer.pos < lexer.sql.length) :
    lexer.advance.pos = lexer.pos + 1 := by
  unfold advance
  rw [if_pos more]
  split <;> rfl

theorem skipLoop_moves (test : UInt8 → Bool) (steps : Nat) (lexer : Lexer) :
    Moves lexer (skipLoop test steps lexer) := by
  induction steps generalizing lexer with
  | zero => exact .refl _
  | succ steps inductionHypothesis =>
    rw [skipLoop]
    split
    · exact lexer.advance_moves.trans (inductionHypothesis _)
    · exact .refl _

theorem skip_moves (test : UInt8 → Bool) (lexer : Lexer) : Moves lexer (lexer.skip test) :=
  skipLoop_moves _ _ _

/-- A first byte that passes the test is skipped. -/
theorem skip_pos (test : UInt8 → Bool) (lexer : Lexer) (more : lexer.pos < lexer.sql.length)
    (passes : test lexer.currentChar = true) : lexer.pos < (lexer.skip test).pos := by
  obtain ⟨steps, left⟩ : ∃ steps, lexer.left = steps + 1 :=
    Nat.exists_eq_succ_of_ne_zero (by unfold left; omega)
  rw [skip, left, skipLoop, if_pos passes]
  have moved := (skipLoop_moves test steps lexer.advance).pos
  have stepped := lexer.advance_pos more
  omega

theorem withColumn_moves (lexer : Lexer) (column : Int) : Moves lexer { lexer with column } :=
  ⟨rfl, Nat.le_refl _, id, rfl⟩

theorem makeErrorToken_moves (lexer : Lexer) (msg : String) :
    Moves lexer (lexer.makeErrorToken msg).2 := ⟨rfl, Nat.le_refl _, id, rfl⟩

theorem scanFraction_moves (lexer : Lexer) : Moves lexer lexer.scanFraction.2 := by
  unfold scanFraction
  split
  · exact lexer.advance_moves.trans (skip_moves _ _)
  · exact .refl _

theorem scanExponent_moves (lexer : Lexer) : Moves lexer lexer.scanExponent.2 := by
  unfold scanExponent
  split
  · refine lexer.advance_moves.trans (.trans ?_ (skip_moves _ _))
    split
    · exact advance_moves _
    · exact .refl _
  · exact .refl _

theorem stringLoop_moves (quote : UInt8) (steps : Nat) (content : List UInt8) (lexer : Lexer) :
    Moves lexer (stringLoop quote steps content lexer).2 := by
  induction steps generalizing content lexer with
  | zero => exact .refl _
  | succ steps inductionHypothesis =>
    rw [stringLoop]
    split
    · exact .refl _
    split
    · split
      · exact lexer.advance_moves.trans ((advance_moves _).trans (inductionHypothesis _ _))
      · exact lexer.advance_moves
    · exact lexer.advance_moves.trans (inductionHypothesis _ _)

/-! ### One token -/

/-- The lexer has moved by at least one byte, for a token that is not the end. -/
structure Takes (lexer : Lexer) (scanned : Token × Lexer) : Prop where
  moves : Moves lexer scanned.2
  further : lexer.pos < scanned.2.pos
  notEof : scanned.1.type ≠ tokenEof
  lexed : scanned.1.Lexed

theorem makeToken_lexed (lexer : Lexer) (text : List UInt8) :
    (lexer.makeToken (lookupKeyword (text.map toUpper)) text).Lexed := by
  intro identifier
  have same : tokenGetText (lexer.makeToken (lookupKeyword (text.map toUpper)) text) = text := by
    cases text <;> rfl
  rw [same]
  exact identifier

section Scan

variable (lexer : Lexer) (more : lexer.pos < lexer.sql.length)
include more

theorem advance_further {next : Lexer} (moves : Moves lexer.advance next) :
    lexer.pos < next.pos := by
  have moved := moves.pos
  have stepped := lexer.advance_pos more
  omega

/-- What follows the first byte only moves on. -/
theorem Takes.of_advance {scanned : Token × Lexer} (moves : Moves lexer.advance scanned.2)
    (fixed : scanned.1.type ≠ tokenEof ∧ scanned.1.type ≠ tokenIdentifier) :
    Takes lexer scanned where
  moves := lexer.advance_moves.trans moves
  further := lexer.advance_further more moves
  notEof := fixed.1
  lexed identifier := absurd identifier fixed.2

theorem scanIdentifier_takes (starts : isIdentifierStart lexer.currentChar = true) :
    Takes lexer lexer.scanIdentifier := by
  unfold scanIdentifier
  rw [if_pos starts]
  have moves := skip_moves isIdentifierChar lexer.advance
  exact ⟨lexer.advance_moves.trans moves, lexer.advance_further more moves,
    lookupKeyword_notEof _, makeToken_lexed _ _⟩

theorem scanNumber_takes (starts : isDigit lexer.currentChar = true) :
    Takes lexer lexer.scanNumber := by
  unfold scanNumber
  dsimp only
  split
  · exact .of_advance _ more
      ((advance_moves _).trans ((skip_moves _ _).trans (withColumn_moves _ _))) (by simp [makeToken])
  · have digits := skip_pos _ _ more starts
    have rest := (scanFraction_moves (lexer.skip isDigit)).trans (scanExponent_moves _)
    have moved := rest.pos
    have moves := (skip_moves _ _).trans (rest.trans (withColumn_moves _ lexer.column))
    split
    · exact ⟨moves, by simp only; omega, by simp [makeToken], by simp [Token.Lexed, makeToken]⟩
    · exact ⟨moves, by simp only; omega, by simp [makeToken], by simp [Token.Lexed, makeToken]⟩

theorem scanString_takes : Takes lexer lexer.scanString := by
  unfold scanString
  dsimp only
  have content := stringLoop_moves lexer.currentChar (lexer.advance.left + 1) [] lexer.advance
  split
  · next heq =>
    rw [heq] at content
    exact .of_advance _ more (content.trans ((withColumn_moves _ _).trans
      (makeErrorToken_moves _ _))) (by simp [makeErrorToken, makeToken])
  · next heq =>
    rw [heq] at content
    exact .of_advance _ more (content.trans (withColumn_moves _ _)) (by simp [makeToken])

theorem scanPlaceholder_takes : Takes lexer lexer.scanPlaceholder := by
  unfold scanPlaceholder
  dsimp only
  split
  · exact .of_advance _ more (skip_moves _ _) (by simp [makeToken])
  · exact .of_advance _ more (makeErrorToken_moves _ _) (by simp [makeErrorToken, makeToken])

theorem operatorToken_takes (type : TokenType) (text : String)
    (fixed : type ≠ tokenEof ∧ type ≠ tokenIdentifier) :
    Takes lexer (lexer.operatorToken type text) :=
  .of_advance _ more (.refl _) fixed

/-- An operator of two characters. -/
theorem operatorToken_takes_second (type : TokenType) (text : String)
    (fixed : type ≠ tokenEof ∧ type ≠ tokenIdentifier) :
    Takes lexer (lexer.advance.operatorToken type text) :=
  .of_advance _ more (advance_moves _) fixed

theorem scanOperator_takes : Takes lexer lexer.scanOperator := by
  unfold scanOperator
  dsimp only
  split
  case h_13 =>
    split
    · exact lexer.operatorToken_takes_second more _ _ (by decide)
    split
    · exact lexer.operatorToken_takes_second more _ _ (by decide)
    · exact lexer.operatorToken_takes more _ _ (by decide)
  case h_14 =>
    split
    · exact lexer.operatorToken_takes_second more _ _ (by decide)
    · exact lexer.operatorToken_takes more _ _ (by decide)
  case h_15 =>
    split
    · exact lexer.operatorToken_takes_second more _ _ (by decide)
    · exact .of_advance _ more (makeErrorToken_moves _ _) (by simp [makeErrorToken, makeToken])
  case h_16 =>
    exact .of_advance _ more (makeErrorToken_moves _ _) (by simp [makeErrorToken, makeToken])
  all_goals exact lexer.operatorToken_takes more _ _ (by decide)

end Scan

/-- At the end of the text there is the token for it, otherwise a token that takes some bytes. -/
theorem nextTokenInternal_cases (lexer : Lexer) :
    (lexer.skipWhitespace.sql.length ≤ lexer.skipWhitespace.pos ∧
      lexer.nextTokenInternal =
        (lexer.skipWhitespace.makeToken tokenEof [], lexer.skipWhitespace)) ∨
    (lexer.skipWhitespace.pos < lexer.skipWhitespace.sql.length ∧
      Takes lexer.skipWhitespace lexer.nextTokenInternal) := by
  unfold nextTokenInternal
  dsimp only
  by_cases ended : lexer.skipWhitespace.pos ≥ lexer.skipWhitespace.sql.length
  · rw [if_pos ended]
    exact .inl ⟨ended, rfl⟩
  · rw [if_neg ended]
    have more : lexer.skipWhitespace.pos < lexer.skipWhitespace.sql.length := by omega
    refine .inr ⟨more, ?_⟩
    split
    · exact scanIdentifier_takes _ more ‹_›
    split
    · exact scanNumber_takes _ more ‹_›
    split
    · exact scanString_takes _ more
    split
    · exact scanPlaceholder_takes _ more
    · exact scanOperator_takes _ more

theorem nextTokenInternal_moves (lexer : Lexer) : Moves lexer lexer.nextTokenInternal.2 := by
  obtain ⟨_, next⟩ | ⟨_, takes⟩ := lexer.nextTokenInternal_cases
  · rw [next]
    exact skip_moves _ _
  · exact (skip_moves _ _).trans takes.moves

/-- A token that is not the end leaves fewer bytes. -/
theorem nextTokenInternal_left (lexer : Lexer)
    (notEof : lexer.nextTokenInternal.1.type ≠ tokenEof) :
    lexer.nextTokenInternal.2.left < lexer.left := by
  obtain ⟨_, next⟩ | ⟨more, takes⟩ := lexer.nextTokenInternal_cases
  · exact absurd (by rw [next]; rfl) notEof
  · have skipped := skip_moves isWhitespace lexer
    have total := lexer.nextTokenInternal_moves.sql
    have further := takes.further
    unfold skipWhitespace at more further
    rw [skipped.sql] at more
    have moved := skipped.pos
    unfold left
    rw [total]
    omega

/-! ### The tokens of a text -/

def tokensLoop : Nat → Lexer → List Token
  | 0, _ => []
  | steps + 1, lexer =>
    let (token, next) := lexer.nextTokenInternal
    if token.type = tokenEof then [] else token :: tokensLoop steps next

/-- The tokens from the position of a lexer up to the end of its text. -/
def tokens (lexer : Lexer) : List Token := tokensLoop (lexer.left + 1) lexer

theorem tokensLoop_agree (steps others : Nat) (lexer : Lexer) (enough : lexer.left < steps)
    (also : lexer.left < others) : tokensLoop steps lexer = tokensLoop others lexer := by
  induction steps generalizing others lexer with
  | zero => omega
  | succ steps inductionHypothesis =>
    obtain ⟨others, rfl⟩ := Nat.exists_eq_succ_of_ne_zero (Nat.ne_zero_of_lt also)
    simp only [tokensLoop]
    split
    · rfl
    · next notEof =>
      have fewer := lexer.nextTokenInternal_left notEof
      rw [inductionHypothesis others _ (by omega) (by omega)]

theorem tokens_eof (lexer : Lexer) (eof : lexer.nextTokenInternal.1.type = tokenEof) :
    lexer.tokens = [] := by
  simp [tokens, tokensLoop, eof]

theorem tokens_cons (lexer : Lexer) (notEof : lexer.nextTokenInternal.1.type ≠ tokenEof) :
    lexer.tokens = lexer.nextTokenInternal.1 :: lexer.nextTokenInternal.2.tokens := by
  have fewer := lexer.nextTokenInternal_left notEof
  rw [tokens, tokensLoop]
  simp only [notEof, if_false]
  rw [tokensLoop_agree _ _ _ fewer (Nat.lt_succ_self _), tokens]

/-- Behind the end there is only the end. -/
theorem tokens_behind_eof (lexer : Lexer) (eof : lexer.nextTokenInternal.1.type = tokenEof) :
    lexer.nextTokenInternal.2.tokens = [] := by
  obtain ⟨ended, next⟩ | ⟨_, takes⟩ := lexer.nextTokenInternal_cases
  · rw [next]
    have still : lexer.skipWhitespace.skipWhitespace = lexer.skipWhitespace := by
      have none : lexer.skipWhitespace.left = 0 := by unfold left; omega
      rw [skipWhitespace, skip, none, skipLoop]
    apply tokens_eof
    unfold nextTokenInternal
    rw [still, if_pos ended]
    rfl
  · exact absurd eof takes.notEof

theorem tokens_lexed (lexer : Lexer) (token : Token) (isToken : token ∈ lexer.tokens) :
    token.Lexed := by
  rw [tokens] at isToken
  generalize lexer.left + 1 = steps at isToken
  induction steps generalizing lexer with
  | zero => simp [tokensLoop] at isToken
  | succ steps inductionHypothesis =>
    simp only [tokensLoop] at isToken
    split at isToken
    · simp at isToken
    · next notEof =>
      obtain rfl | later := List.mem_cons.mp isToken
      · obtain ⟨_, next⟩ | ⟨_, takes⟩ := lexer.nextTokenInternal_cases
        · exact absurd (by rw [next]; rfl) notEof
        · exact takes.lexed
      · exact inductionHypothesis _ later

end Lexer

/-! ### The parser in front of its tokens -/

/-- The type of the first token of a list, or that of the end. -/
def firstType : List Token → TokenType
  | [] => tokenEof
  | token :: _ => token.type

@[simp] theorem firstType_nil : firstType [] = tokenEof := rfl

@[simp] theorem firstType_cons (token : Token) (rest : List Token) :
    firstType (token :: rest) = token.type := rfl

namespace Parser

/-- The parser, which has failed or not, stands in front of a list of tokens. -/
structure At (parser : Parser) (failed : Bool) (tokens : List Token) : Prop where
  failed : parser.hasError = failed
  peeked : parser.lexer.peekToken = none
  ended : parser.type = tokenEof → parser.lexer.tokens = []
  ahead : (if parser.type = tokenEof then [] else parser.currentToken :: parser.lexer.tokens) = tokens
  lexed : ∀ token ∈ tokens, token.Lexed

variable {parser : Parser} {failed : Bool} {tokens : List Token}

theorem At.type_eq (stands : parser.At failed tokens) : parser.type = firstType tokens := by
  rw [← stands.ahead]
  split
  · assumption
  · rfl

theorem At.current (stands : parser.At failed (token :: tokens)) :
    parser.currentToken = token := by
  have ahead := stands.ahead
  split at ahead
  · simp at ahead
  · exact (List.cons.inj ahead).1

theorem At.setError (stands : parser.At failed tokens) (msg : String) :
    (parser.setError msg).At true tokens where
  failed := rfl
  peeked := stands.peeked
  ended := stands.ended
  ahead := stands.ahead
  lexed := stands.lexed

theorem At.advance_failed (stands : parser.At true tokens) : parser.advance = parser := by
  simp [advance, stands.failed]

/-- Taking a token from the lexer. -/
theorem At.of_next (lexer : Lexer) (peeked : lexer.peekToken = none)
    (current : parser.currentToken = lexer.nextTokenInternal.1)
    (moved : parser.lexer = lexer.nextTokenInternal.2) (noError : parser.hasError = false) :
    parser.At false lexer.tokens where
  failed := noError
  peeked := by rw [moved, lexer.nextTokenInternal_moves.peeked, peeked]
  ended eof := by
    rw [Parser.type, current] at eof
    rw [moved]
    exact lexer.tokens_behind_eof eof
  ahead := by
    rw [Parser.type, current, moved]
    split
    · next eof => exact (lexer.tokens_eof eof).symm
    · next notEof => exact (lexer.tokens_cons notEof).symm
  lexed := lexer.tokens_lexed

theorem At.lexer_tokens (stands : parser.At failed tokens) : parser.lexer.tokens = tokens.tail := by
  have ahead := stands.ahead
  split at ahead
  · next eof => rw [stands.ended eof, ← ahead]; rfl
  · rw [← ahead]; rfl

theorem At.advance (stands : parser.At false tokens) : parser.advance.At false tokens.tail := by
  have next : lexerNextToken parser.lexer = parser.lexer.nextTokenInternal := by
    rw [lexerNextToken, stands.peeked]
  rw [← stands.lexer_tokens]
  apply At.of_next _ stands.peeked
  · simp [Parser.advance, stands.failed, next]
  · simp [Parser.advance, stands.failed, next]
  · simp [Parser.advance, stands.failed]

theorem isKeyword_of_ne (other : token.type ≠ tokenIdentifier) (kw : String) :
    isKeyword token kw = decide (keywordToTokenType kw = some token.type) := by
  rw [isKeyword, decide_eq_false other, Bool.false_and, Bool.or_false]

/-- A keyword that the lexer knows is no identifier. -/
theorem At.text_ne (stands : parser.At failed tokens)
    (known : lookupKeyword (ascii kw) ≠ tokenIdentifier)
    (identifier : parser.currentToken.type = tokenIdentifier) :
    (tokenGetText parser.currentToken).map toUpper ≠ ascii kw := by
  intro text
  cases tokens with
  | nil =>
    have eof := stands.type_eq
    rw [Parser.type, identifier] at eof
    cases eof
  | cons token rest =>
    have lexed := stands.lexed _ (List.mem_cons_self ..)
    rw [← stands.current] at lexed
    exact known (text ▸ lexed identifier)

/-- On the tokens of a lexer, a keyword that the lexer knows is the token of its type. -/
theorem At.checkKeyword (stands : parser.At failed tokens) {type : TokenType}
    (token : keywordToTokenType kw = some type) (known : lookupKeyword (ascii kw) ≠ tokenIdentifier) :
    parser.checkKeyword kw = decide (firstType tokens = type) := by
  have current : parser.currentToken.type = firstType tokens := stands.type_eq
  rw [Parser.checkKeyword, ← current]
  by_cases identifier : parser.currentToken.type = tokenIdentifier
  · simp [isKeyword, token, stands.text_ne known identifier, eq_comm]
  · simp [isKeyword_of_ne identifier, token, eq_comm]

/-- No token passes for a keyword that the lexer knows and that has no type of its own. -/
theorem At.checkKeyword_none (stands : parser.At failed tokens)
    (noType : keywordToTokenType kw = none) (known : lookupKeyword (ascii kw) ≠ tokenIdentifier) :
    parser.checkKeyword kw = false := by
  rw [Parser.checkKeyword]
  by_cases identifier : parser.currentToken.type = tokenIdentifier
  · simp [isKeyword, noType, stands.text_ne known identifier]
  · simp [isKeyword_of_ne identifier, noType]

end Parser

/-- The tokens of a text. -/
def tokensOf (sql : List UInt8) : List Token :=
  match lexerCreate sql with
  | none => []
  | some lexer => lexer.tokens

theorem parserCreate_at {sql : List UInt8} {parser : Parser}
    (created : parserCreate sql = some parser) :
    parser.At false (tokensOf sql) := by
  unfold parserCreate at created
  unfold tokensOf
  cases made : lexerCreate sql with
  | none =>
    rw [made] at created
    cases created
  | some lexer =>
    rw [made] at created
    have peeked : lexer.peekToken = none := by
      unfold lexerCreate at made
      split at made
      · cases made
      · cases made
        rfl
    have next : lexerNextToken lexer = lexer.nextTokenInternal := by rw [lexerNextToken, peeked]
    cases created
    exact Parser.At.of_next _ peeked (congrArg Prod.fst next) (congrArg Prod.snd next) rfl

end TinyDb

/-
This file is about the text of a statement. A statement is a list of pieces: keywords, names,
literals and marks. A text writes the pieces if it has them in their order, with any white
space between them and the keywords in any letter case, so long as no piece runs into what
follows it. The lexer finds one token for each piece of such a text.

The parser is followed along these tokens with the value that it returns, one rule for each
of the things that the functions of the parser do.
-/

import TinyDb.Literals
import TinyDb.KeywordChecks
import TinyDb.SyntaxErrors

namespace TinyDb

open TokenType List

variable {r tail : List UInt8} {lexer : Lexer} {kw : String} {close : TokenType}

/-! ### Pieces -/

/-- The marks of statements. -/
inductive Mark
  | lparen | rparen | comma | star | semicolon

namespace Mark

def type : Mark → TokenType
  | lparen => tokenLparen
  | rparen => tokenRparen
  | comma => tokenComma
  | star => tokenStar
  | semicolon => tokenSemicolon

def character : Mark → Char
  | lparen => '('
  | rparen => ')'
  | comma => ','
  | star => '*'
  | semicolon => ';'

end Mark

/-- An integer that fits the 64 bits of its token. -/
structure Int64Literal where
  literal : IntegerLiteral
  fits : literal.value < 2 ^ 63

/-- The value of an integer that fits. -/
def Int64Literal.value (number : Int64Literal) : Int64 := Int64.ofNat number.literal.value

/-- A word in upper case. -/
def isUpperWord (text : List UInt8) : Bool :=
  isIdentifierStart (text.headD 0) && text.all isIdentifierChar && text.map toUpper = text

/-- A piece of a statement, which is one token. -/
inductive Piece
  | keyword (kw : String) (isWord : isUpperWord (ascii kw) = true)
  | identifier (name : ColumnName)
  | integer (number : Int64Literal)
  | string (value : List UInt8) (noNul : ∀ c ∈ value, c ≠ 0)
  | mark (symbol : Mark)

variable {pieces : List Piece}

namespace Piece

/-- The texts of a piece: a keyword may be in any letter case. -/
def Spelled : Piece → List UInt8 → Prop
  | keyword kw _, text => SameLetters text (ascii kw)
  | identifier name, text => text = name.text
  | integer number, text => text = number.literal.text
  | string value _, text => text = char '\'' :: (escapeLoop value ++ [char '\''])
  | mark symbol, text => text = [char symbol.character]

/-- A piece does not run into what follows it. -/
def EndsBefore : Piece → List UInt8 → Prop
  | keyword _ _, r | identifier _, r => isIdentifierChar (r.headD 0) = false
  | integer number, r => number.literal.EndsBefore r
  | string _ _, r => r.head? ≠ some (char '\'')
  | mark _, _ => True

end Piece

/-- A text writes pieces in front of another text. -/
inductive Writes (tail : List UInt8) : List UInt8 → List Piece → Prop
  | nil : Writes tail tail []
  | cons {gap text r : List UInt8} {piece : Piece} {pieces : List Piece}
      (blank : ∀ c ∈ gap, isWhitespace c = true) (spelled : piece.Spelled text)
      (ends : piece.EndsBefore r) (others : Writes tail r pieces) :
      Writes tail (gap ++ (text ++ r)) (piece :: pieces)

/-- A token stands for a piece. -/
def Token.StandsFor (token : Token) : Piece → Prop
  | .keyword kw _ =>
    token.type = lookupKeyword (ascii kw) ∧ (tokenGetText token).map toUpper = ascii kw
  | .identifier name => token.type = tokenIdentifier ∧ tokenGetText token = name.text
  | .integer number => token.type = tokenInteger ∧ token.integerValue = number.value
  | .string value _ => token.type = tokenString ∧ token.stringValue = value
  | .mark symbol => token.type = symbol.type

/-! ### The tokens of pieces -/

section Tokens

variable {text : List UInt8} {piece : Piece}

theorem toUpper_identifier (c : UInt8) :
    isIdentifierStart (toUpper c) = isIdentifierStart c ∧
      isIdentifierChar (toUpper c) = isIdentifierChar c := by
  have table : ∀ byte : Fin 256,
      isIdentifierStart (toUpper (.ofFin byte)) = isIdentifierStart (.ofFin byte) ∧
        isIdentifierChar (toUpper (.ofFin byte)) = isIdentifierChar (.ofFin byte) := by
    decide +kernel
  exact table _

/-- A keyword in any letter case is a word. -/
theorem isUpperWord_spelled {upper : List UInt8} (isWord : isUpperWord upper = true)
    (same : SameLetters text upper) :
    text.map toUpper = upper ∧ isIdentifierStart (text.headD 0) = true ∧
      ∀ c ∈ text, isIdentifierChar c = true := by
  rw [isUpperWord, Bool.and_eq_true, Bool.and_eq_true, decide_eq_true_iff, all_eq_true]
    at isWord
  obtain ⟨⟨starts, identifier⟩, isUpper⟩ := isWord
  obtain rfl := (sameLetters_iff_toUpper isUpper).mp same
  refine ⟨rfl, ?_, fun c isByte => ?_⟩
  · cases text with
    | nil => exact starts
    | cons c others => exact (toUpper_identifier c).1.symm.trans starts
  · exact (toUpper_identifier c).2.symm.trans
      (identifier _ (mem_map_of_mem isByte))

theorem Int64Literal.stored_eq (number : Int64Literal) : number.literal.stored = number.value := by
  refine Int64.toInt_inj.mp ((number.literal.stored_eq_iff.mpr number.fits).trans ?_)
  exact (Int64.toInt_ofNat_of_lt number.fits).symm

/-- A piece is read as its token. -/
theorem Piece.lexes (spelled : piece.Spelled text) (ends : piece.EndsBefore r)
    (bytes : lexer.skipWhitespace.rest = text ++ r) :
    lexer.nextTokenInternal.1.StandsFor piece ∧ lexer.nextTokenInternal.2.rest = r := by
  cases piece with
  | keyword kw isWord =>
    obtain ⟨upper, starts, identifier⟩ := isUpperWord_spelled isWord spelled
    obtain ⟨isType, same, behind⟩ := Lexer.nextTokenInternal_word starts identifier ends bytes
    exact ⟨⟨by rw [isType, upper], by rw [same, upper]⟩, behind⟩
  | identifier name =>
    obtain rfl : text = name.text := spelled
    obtain ⟨isName, same, behind⟩ :=
      Lexer.nextTokenInternal_word name.starts name.identifier ends bytes
    exact ⟨⟨isName.trans name.lookup, same⟩, behind⟩
  | integer number =>
    obtain rfl : text = number.literal.text := spelled
    obtain ⟨isInteger, same, behind⟩ := number.literal.lexes ends bytes
    exact ⟨⟨isInteger, same.trans number.stored_eq⟩, behind⟩
  | string value noNul =>
    obtain rfl : text = char '\'' :: (escapeLoop value ++ [char '\'']) := spelled
    obtain ⟨isString, same, behind⟩ := Lexer.nextTokenInternal_quoted ends noNul
      (bytes.trans (by rw [cons_append, append_assoc, singleton_append]))
    exact ⟨⟨isString, same⟩, behind⟩
  | mark symbol =>
    obtain rfl : text = [char symbol.character] := spelled
    have operator := Lexer.nextTokenInternal_operator (c := char _) (r := r) bytes
      (by cases symbol <;> decide)
    rw [operator]
    generalize lexer.skipWhitespace = start at bytes ⊢
    have behind : start.advance.rest = r := Lexer.advance_cons bytes
    rw [Lexer.scanOperator, Lexer.currentChar_cons bytes]
    cases symbol <;> exact ⟨rfl, behind⟩

/-- No piece begins with white space. -/
theorem Piece.Spelled.visible (spelled : piece.Spelled text) :
    ∃ c others, text = c :: others ∧ isWhitespace c = false := by
  have word {text : List UInt8} (starts : isIdentifierStart (text.headD 0) = true) :
      ∃ c others, text = c :: others ∧ isWhitespace c = false := by
    cases text with
    | nil => cases starts
    | cons c others =>
      have start : isIdentifierStart c = true := starts
      exact ⟨c, others, rfl, isWhitespace_of_word (by rw [start, Bool.true_or])⟩
  cases piece with
  | keyword kw isWord => exact word (isUpperWord_spelled isWord spelled).2.1
  | identifier name =>
    obtain rfl : text = name.text := spelled
    exact word name.starts
  | integer number =>
    obtain rfl : text = number.literal.text := spelled
    obtain ⟨literal, fits⟩ := number
    cases literal with
    | decimal digits nonempty areDigits =>
      obtain ⟨c, others, rfl⟩ := exists_cons_of_ne_nil nonempty
      have digit := areDigits c mem_cons_self
      exact ⟨c, others, rfl, isWhitespace_of_word (by rw [digit, Bool.or_true])⟩
    | hexadecimal => exact ⟨char '0', _, rfl, by decide⟩
  | string value noNul => exact ⟨char '\'', _, spelled, by decide⟩
  | mark symbol => exact ⟨_, [], spelled, by cases symbol <;> decide⟩

theorem Token.StandsFor.notEof {token : Token} (stands : token.StandsFor piece) :
    token.type ≠ tokenEof := by
  cases piece with
  | keyword kw isWord =>
    rw [stands.1]
    exact lookupKeyword_notEof _
  | identifier | integer | string => rw [stands.1]; decide
  | mark symbol =>
    have isMark : token.type = symbol.type := stands
    rw [isMark]
    cases symbol <;> decide

/-- The lexer finds one token for each piece of a text. -/
theorem Writes.tokens (writes : Writes tail text pieces) (bytes : lexer.rest = text) :
    ∃ tokens behind, lexer.tokens = tokens ++ Lexer.tokens behind ∧
      List.Forall₂ Token.StandsFor tokens pieces := by
  induction writes generalizing lexer with
  | nil => exact ⟨[], lexer, rfl, .nil⟩
  | @cons gap text r piece pieces blank spelled ends others inductionHypothesis =>
    have starts : lexer.skipWhitespace.rest = text ++ r := by
      obtain ⟨c, rest, rfl, visible⟩ := spelled.visible
      rw [Lexer.skipWhitespace_rest, bytes, dropWhile_append_of_pos blank, cons_append,
        dropWhile_cons_of_neg (by simp [visible])]
    obtain ⟨stands, behind⟩ := piece.lexes spelled ends starts
    obtain ⟨tokens, last, same, rest⟩ := inductionHypothesis behind
    refine ⟨lexer.nextTokenInternal.1 :: tokens, last, ?_, .cons stands rest⟩
    rw [lexer.tokens_cons stands.notEof, same, cons_append]

/-- The parser of a text stands in front of the tokens of its pieces. -/
theorem Writes.parserCreate (writes : Writes tail text (piece :: pieces)) :
    ∃ parser tokens others, TinyDb.parserCreate text = some parser ∧
      List.Forall₂ Token.StandsFor tokens (piece :: pieces) ∧
      parser.At false (tokens ++ others) := by
  have nonempty : text ≠ [] := by
    cases writes with
    | cons blank spelled ends others =>
      obtain ⟨c, rest, rfl, -⟩ := spelled.visible
      simp
  obtain ⟨lexer, created⟩ : ∃ lexer, lexerCreate text = some lexer := by
    rw [lexerCreate, if_neg (by simpa using nonempty)]
    exact ⟨_, rfl⟩
  obtain ⟨ready, atStart⟩ := lexerCreate_ready created
  have bytes : lexer.rest = text := by rw [Lexer.rest, atStart, ready.text, drop_zero]
  obtain ⟨tokens, behind, same, stands⟩ := writes.tokens bytes
  have isParser : ∃ parser, TinyDb.parserCreate text = some parser := by
    rw [TinyDb.parserCreate, created]
    exact ⟨_, rfl⟩
  obtain ⟨parser, isParser⟩ := isParser
  have whole : tokensOf text = tokens ++ behind.tokens := by
    rw [tokensOf, created]
    exact same
  exact ⟨parser, tokens, behind.tokens, isParser, stands, whole ▸ parserCreate_at isParser⟩

end Tokens

/-! ### A layout for all pieces -/

/-- One text of a piece. -/
def Piece.text : Piece → List UInt8
  | keyword kw _ => ascii kw
  | identifier name => name.text
  | integer number => number.literal.text
  | string value _ => char '\'' :: (escapeLoop value ++ [char '\''])
  | mark symbol => [char symbol.character]

/-- Pieces with a space in front of each. -/
def spacedText (pieces : List Piece) : List UInt8 :=
  pieces.flatMap fun piece => char ' ' :: piece.text

theorem Piece.endsBefore_space (piece : Piece) (r : List UInt8) :
    piece.EndsBefore (char ' ' :: r) := by
  have separated : Separated (char ' ' :: r) := .inl rfl
  cases piece with
  | keyword | identifier => exact (by decide : isIdentifierChar (char ' ') = false)
  | integer number =>
    obtain ⟨literal, fits⟩ := number
    cases literal with
    | decimal digits => exact separated.endsDecimal _
    | hexadecimal => exact (by decide : isXDigit (char ' ') = false)
  | string => exact (by decide : some (char ' ') ≠ some (char '\''))
  | mark => trivial

theorem Piece.spelled_text (piece : Piece) : piece.Spelled piece.text := by
  cases piece <;> rfl

/-- Every list of pieces is written by a text. -/
theorem writes_spaced {sql : List UInt8} (spaced : spacedText pieces ++ char ' ' :: r = sql) :
    Writes (char ' ' :: r) sql pieces := by
  subst spaced
  induction pieces with
  | nil => exact .nil
  | cons piece pieces inductionHypothesis =>
    have ends : piece.EndsBefore (spacedText pieces ++ char ' ' :: r) := by
      cases pieces with
      | nil => exact piece.endsBefore_space r
      | cons next others => exact piece.endsBefore_space _
    have blank : ∀ c ∈ [char ' '], isWhitespace c = true := forall_mem_singleton.mpr rfl
    have written := Writes.cons blank piece.spelled_text ends inductionHypothesis
    rwa [← append_assoc, ← append_assoc] at written

/-! ### Lists -/

/-- A list that is not empty. -/
structure OneOrMore (β : Type) where
  first : β
  others : List β

def OneOrMore.toList {β : Type} (list : OneOrMore β) : List β := list.first :: list.others

/-- Items with commas between them. -/
def listed {β : Type} (item : β → List Piece) (list : OneOrMore β) : List Piece :=
  item list.first ++ list.others.flatMap fun next => .mark .comma :: item next

theorem standsFor_cons {tokens : List Token} {piece : Piece}
    (stands : List.Forall₂ Token.StandsFor tokens (piece :: pieces)) :
    ∃ token rest, tokens = token :: rest ∧ token.StandsFor piece ∧
      List.Forall₂ Token.StandsFor rest pieces := by
  obtain ⟨token, rest, stand, others, rfl⟩ := forall₂_cons_right_iff.mp stands
  exact ⟨token, rest, rfl, stand, others⟩

theorem standsFor_nil {tokens : List Token} (stands : List.Forall₂ Token.StandsFor tokens []) :
    tokens = [] :=
  forall₂_nil_right_iff.mp stands

/-! ### Following the parser -/

namespace Parser

/-- A call returns a value, without an error, and stands in front of the rest. -/
def Yields {α : Type} (call : Option (Option α × Parser)) (value : α) (rest : List Token) : Prop :=
  ∃ parser, call = some (some value, parser) ∧ parser.At false rest

variable {α β : Type} {parser : Parser} {token : Token} {tokens rest : List Token}

theorem At.yields (stands : parser.At false rest) (value : α) :
    Yields (some (some value, parser)) value rest :=
  ⟨parser, rfl, stands⟩

/-- Going on behind a value. -/
theorem Yields.orNull {call : Option (Option α × Parser)} {value : α}
    (yields : Yields call value rest) {next : α → Parser → Option (Option β × Parser)} {result : β}
    {final : List Token}
    (onward : ∀ parser, parser.At false rest → Yields (next value parser) result final) :
    Yields (orNull call next) result final := by
  obtain ⟨parser, rfl, stands⟩ := yields
  exact onward _ stands

section

variable (stands : parser.At false (token :: rest))
include stands

theorem At.yieldsName {name : ColumnName}
    (isName : token.StandsFor (.identifier name)) :
    Yields (some parser.parseIdentifier) name.text rest := by
  rw [stands.parseIdentifier isName.1, isName.2]
  exact stands.advance.yields _

theorem At.passToken {type : TokenType}
    (isType : token.type = type) (msg : String) : (parser.expectToken type msg).At false rest := by
  rw [Parser.expectToken, if_neg (not_not_intro (stands.type_eq.trans isType))]
  exact stands.advance

/-- A keyword that both tables have is recognised. -/
theorem At.seesKeyword {isWord : isUpperWord (ascii kw) = true} (isKeyword : token.StandsFor (.keyword kw isWord))
    (known : keywordToTokenType kw = some (lookupKeyword (ascii kw))) :
    parser.checkKeyword kw = true := by
  rw [Parser.checkKeyword, stands.current, Parser.isKeyword, known, isKeyword.1, decide_eq_true rfl,
    Bool.true_or]

end

theorem At.missesKeyword (stands : parser.At false rest) (kw : String) {type : TokenType}
    (known : keywordToTokenType kw = some type)
    (isKeyword : lookupKeyword (ascii kw) ≠ tokenIdentifier) (other : firstType rest ≠ type) :
    ¬parser.checkKeyword kw = true := by
  rw [stands.checkKeyword known isKeyword, decide_eq_true_iff]
  exact other

theorem At.passKeyword {isWord : isUpperWord (ascii kw) = true}
    (stands : parser.At false (token :: rest)) (isKeyword : token.StandsFor (.keyword kw isWord))
    (known : keywordToTokenType kw = some (lookupKeyword (ascii kw))) (msg : String) :
    (parser.expectKeyword kw msg).At false rest := by
  rw [Parser.expectKeyword, if_pos (stands.seesKeyword isKeyword known)]
  exact stands.advance

/-- A loop over items takes all of them, up to the token that closes the list. -/
theorem Yields.listed {parseAll : Parser → Option (Option (List α) × Parser)}
    {item : β → List Piece} {value : β → α} (noComma : close ≠ tokenComma) (list : OneOrMore β)
    (step : ∀ one ∈ list.toList, ∀ {tokens rest : List Token} {parser : Parser},
      List.Forall₂ Token.StandsFor tokens (item one) →
      firstType rest = tokenComma ∨ firstType rest = close → parser.At false (tokens ++ rest) →
      ∃ next, parseAll parser = listItem parseAll (value one) next ∧ next.At false rest)
    (stands : List.Forall₂ Token.StandsFor tokens (TinyDb.listed item list))
    (closes : firstType rest = close) (atTokens : parser.At false (tokens ++ rest)) :
    Yields (parseAll parser) (list.toList.map value) rest := by
  obtain ⟨first, others⟩ := list
  induction others generalizing first tokens parser with
  | nil =>
    rw [TinyDb.listed, flatMap_nil, append_nil] at stands
    obtain ⟨next, same, atRest⟩ := step first mem_cons_self stands (.inr closes) atTokens
    rw [same, listItem, if_neg (by rw [atRest.type_eq, closes]; exact noComma)]
    exact atRest.yields _
  | cons second others inductionHypothesis =>
    obtain ⟨front, back, rfl, standsFirst, standsRest⟩ := forall₂_append_right stands
    obtain ⟨comma, back, rfl, isMark, standsOthers⟩ := standsFor_cons standsRest
    have isComma : comma.type = tokenComma := isMark
    rw [append_assoc] at atTokens
    have follows : firstType (comma :: back ++ rest) = tokenComma := isComma
    obtain ⟨next, same, atComma⟩ :=
      step _ mem_cons_self standsFirst (.inl follows) atTokens
    obtain ⟨after, returned, atRest⟩ := inductionHypothesis atComma.advance _
      (fun one member => step one (mem_cons_of_mem _ member)) standsOthers
    refine ⟨after, ?_, atRest⟩
    rw [same, listItem, if_pos (atComma.type_eq.trans isComma), returned]
    rfl

/-- The same for the loops whose items are parsed by a function of their own. -/
theorem Yields.items {ends : Parser → Prop} [DecidablePred ends]
    {parseItem : Parser → Option (Option α × Parser)} {item : β → List Piece} {value : β → α}
    (noComma : close ≠ tokenComma) (list : OneOrMore β)
    (step : ∀ one ∈ list.toList, ∀ {tokens rest : List Token} {parser : Parser},
      List.Forall₂ Token.StandsFor tokens (item one) →
      firstType rest = tokenComma ∨ firstType rest = close → parser.At false (tokens ++ rest) →
      ¬ends parser ∧ Yields (parseItem parser) (value one) rest)
    (stands : List.Forall₂ Token.StandsFor tokens (TinyDb.listed item list))
    (closes : firstType rest = close) (atTokens : parser.At false (tokens ++ rest)) :
    Yields (parseItems ends parseItem parser) (list.toList.map value) rest := by
  refine .listed noComma _ (fun one member tokens rest parser standsOne follows atOne => ?_)
    stands closes atTokens
  obtain ⟨goesOn, next, returned, atRest⟩ := step one member standsOne follows atOne
  refine ⟨next, ?_, atRest⟩
  rw [parseItems_eq, if_neg goesOn, returned]
  rfl

end Parser

end TinyDb

/-
This file prints expressions and parses them back. Every compound expression is printed
in parentheses, and the pieces of the text have spaces between them. The lexer then
finds one token for each piece, and the parser, which groups operands to the right
whatever the operators are, has nothing to group: it returns the tree that was printed.
-/

import Mathlib.Data.List.Forall2
import TinyDb.Escaping
import TinyDb.Grouping

namespace TinyDb

open TokenType List

variable {op : TokenType} {r : List UInt8} {c : UInt8} {lexer : Lexer} {tokens : List Token}

/-! ### Pieces of text -/

/-- The text of the tokens that are printed in one way only. -/
def TokenType.spelling : TokenType → String
  | tokenPlus => "+"
  | tokenMinus => "-"
  | tokenStar => "*"
  | tokenSlash => "/"
  | tokenPercent => "%"
  | tokenEq => "="
  | tokenNeq => "!="
  | tokenLt => "<"
  | tokenGt => ">"
  | tokenLte => "<="
  | tokenGte => ">="
  | tokenAnd => "AND"
  | tokenOr => "OR"
  | tokenNot => "NOT"
  | tokenIn => "IN"
  | tokenLike => "LIKE"
  | tokenNull => "NULL"
  | tokenLparen => "("
  | tokenRparen => ")"
  | tokenComma => ","
  | _ => ""

/-- The name of a column: an identifier that is no keyword. -/
structure ColumnName where
  text : List UInt8
  starts : isIdentifierStart (text.headD 0) = true
  identifier : ∀ c ∈ text, isIdentifierChar c = true
  noKeyword : ∀ entry ∈ keywords, text.map toUpper ≠ entry.1

/-- A piece of text that is one token. -/
inductive Lexeme
  | integer (value : Int64) (notNegative : 0 ≤ value.toInt)
  | string (value : List UInt8) (noNul : ∀ c ∈ value, c ≠ 0)
  | name (column : ColumnName)
  | symbol (type : TokenType) (spelled : type.spelling ≠ "")

variable {lexeme : Lexeme}

/-- A number in decimal digits. -/
def decimal (number : Nat) : List UInt8 := (Nat.toDigits 10 number).map char

def Lexeme.text : Lexeme → List UInt8
  | integer value _ => decimal value.toInt.toNat
  | string value _ => char '\'' :: (escapeLoop value ++ [char '\''])
  | name column => column.text
  | symbol type _ => ascii type.spelling

/-- The pieces with spaces between them. -/
def spaced : List Lexeme → List UInt8
  | [] => []
  | first :: rest => first.text ++ rest.flatMap fun next => char ' ' :: next.text

/-- A token that stands for a piece of text. -/
def Token.Reads (token : Token) : Lexeme → Prop
  | .integer value _ => token.type = tokenInteger ∧ token.integerValue = value
  | .string value _ => token.type = tokenString ∧ token.stringValue = value
  | .name column => token.type = tokenIdentifier ∧ tokenGetText token = column.text
  | .symbol type _ => token.type = type

/-! ### Printing -/

/-- The operators in front of one operand. -/
def isUnaryOperator : TokenType → Bool
  | tokenNot | tokenMinus | tokenPlus => true
  | _ => false

theorem isUnaryOperator_spelled (isOperator : isUnaryOperator op = true) :
    op.spelling ≠ "" := by
  cases op <;> first | decide | cases isOperator

theorem isUnaryOperator_cases (isOperator : isUnaryOperator op = true) :
    op = tokenNot ∨ op = tokenMinus ∨ op = tokenPlus := by
  cases op <;> first | decide | cases isOperator

theorem isBinaryOperator_spelled (isOperator : isBinaryOperator op = true) :
    op.spelling ≠ "" := by
  cases op <;> first | decide | cases isOperator

/-- The expressions that are printed. -/
inductive Printable
  | integer (value : Int64) (notNegative : 0 ≤ value.toInt)
  | string (value : List UInt8) (noNul : ∀ c ∈ value, c ≠ 0)
  | null
  | column (name : ColumnName)
  | unary (op : TokenType) (isOperator : isUnaryOperator op = true) (operand : Printable)
  | binary (left : Printable) (op : TokenType) (isOperator : isBinaryOperator op = true)
      (right : Printable)
  | like (str pattern : Printable)
  | inList (value : Printable) (list : List Printable)

/-- Pieces in parentheses. -/
def enclosed (pieces : List Lexeme) : List Lexeme :=
  .symbol tokenLparen (by decide) :: (pieces ++ [.symbol tokenRparen (by decide)])

namespace Printable

mutual

/-- The tree of an expression. -/
def tree : Printable → Expression
  | integer value _ => .literalInt value
  | string value _ => .literalString value
  | null => .literalNull
  | column name => .column (-1) name.text
  | unary op _ operand => .unary op.code operand.tree
  | binary left op _ right => .binary left.tree op.code right.tree
  | like str pattern => .like str.tree pattern.tree 0 false
  | inList value list => .inList value.tree (trees list) false

def trees : List Printable → List Expression
  | [] => []
  | first :: rest => first.tree :: trees rest

end

mutual

/-- The pieces that are printed of an expression. -/
def lexemes : Printable → List Lexeme
  | integer value notNegative => [.integer value notNegative]
  | string value noNul => [.string value noNul]
  | null => [.symbol tokenNull (by decide)]
  | column name => [.name name]
  | unary op isOperator operand =>
    enclosed (.symbol op (isUnaryOperator_spelled isOperator) :: operand.lexemes)
  | binary left op isOperator right =>
    enclosed (left.lexemes ++ .symbol op (isBinaryOperator_spelled isOperator) :: right.lexemes)
  | like str pattern =>
    enclosed (str.lexemes ++ .symbol tokenLike (by decide) :: pattern.lexemes)
  | inList value list =>
    enclosed (value.lexemes ++ .symbol tokenIn (by decide) :: enclosed (listLexemes list))

/-- The items of a list, with commas between them. -/
def listLexemes : List Printable → List Lexeme
  | [] => []
  | first :: rest =>
    first.lexemes ++
      if rest.isEmpty then [] else .symbol tokenComma (by decide) :: listLexemes rest

end

/-- The text of an expression. -/
def print (expr : Printable) : List UInt8 := spaced expr.lexemes

end Printable

/-! ### Words, numbers and operators -/

/-- A piece of text ends in front of a space or a semicolon. -/
def Separated (r : List UInt8) : Prop := r.headD 0 = char ' ' ∨ r.headD 0 = char ';'

theorem Separated.elim (separated : Separated r) {motive : UInt8 → Prop} (space : motive (char ' '))
    (semicolon : motive (char ';')) : motive (r.headD 0) := by
  obtain is | is := separated
  · rwa [is]
  · rwa [is]

/-- What stands behind a decimal number does not continue it. -/
structure EndsDecimal (text r : List UInt8) : Prop where
  noDigit : isDigit (r.headD 0) = false
  noFraction : ¬(r.headD 0 = char '.' ∧ isDigit (r.getD 1 0) = true)
  noExponent : ¬(r.headD 0 = char 'e' ∨ r.headD 0 = char 'E')
  noHex : text = [char '0'] → r.headD 0 ≠ char 'x' ∧ r.headD 0 ≠ char 'X'

theorem Separated.endsDecimal (separated : Separated r) (text : List UInt8) :
    EndsDecimal text r where
  noDigit := separated.elim (motive := (isDigit · = false)) (by decide) (by decide)
  noFraction fraction :=
    separated.elim (motive := (· ≠ char '.')) (by decide) (by decide) fraction.1
  noExponent := separated.elim (motive := fun c => ¬(c = char 'e' ∨ c = char 'E')) (by decide)
    (by decide)
  noHex _ := separated.elim (motive := fun c => c ≠ char 'x' ∧ c ≠ char 'X') (by decide) (by decide)

namespace Lexer

variable {lexer : Lexer} {text r : List UInt8}

/-- Skipping stops behind the bytes that pass the test. -/
theorem skip_over {test : UInt8 → Bool} (bytes : lexer.rest = text ++ r)
    (passes : ∀ c ∈ text, test c = true) (stops : test (r.headD 0) = false) :
    (lexer.skip test).rest = r := by
  rw [skip_rest, bytes, dropWhile_append_of_pos passes]
  cases r with
  | nil => rfl
  | cons c r => exact dropWhile_cons_of_neg (by simpa using stops)

/-- The bytes between two positions, if one knows what follows them. -/
theorem Moves.textFrom_eq {next : Lexer} (moves : Moves lexer next) (bytes : lexer.rest = text ++ r)
    (behind : next.rest = r) : next.textFrom lexer.pos = text := by
  have whole := moves.rest
  rw [bytes, behind] at whole
  exact (append_cancel_right whole).symm

/-- A word is one token: a keyword, or an identifier. -/
theorem nextTokenInternal_word (starts : isIdentifierStart (text.headD 0) = true)
    (identifier : ∀ c ∈ text, isIdentifierChar c = true)
    (ends : isIdentifierChar (r.headD 0) = false) (bytes : lexer.skipWhitespace.rest = text ++ r) :
    lexer.nextTokenInternal.1.type = lookupKeyword (text.map toUpper) ∧
      tokenGetText lexer.nextTokenInternal.1 = text ∧ lexer.nextTokenInternal.2.rest = r := by
  cases text with
  | nil => cases starts
  | cons c others =>
    have isStart : isIdentifierStart c = true := starts
    rw [nextTokenInternal_eq bytes, if_pos isStart]
    generalize lexer.skipWhitespace = start at bytes ⊢
    have current : start.currentChar = c := currentChar_cons bytes
    have behind : (start.advance.skip isIdentifierChar).rest = r :=
      skip_over (advance_cons bytes) (forall_mem_cons.mp identifier).2 ends
    have word : (start.advance.skip isIdentifierChar).textFrom start.pos = c :: others :=
      (start.advance_moves.trans (skip_moves _ _)).textFrom_eq bytes behind
    rw [scanIdentifier, current, if_pos isStart]
    dsimp only
    rw [word]
    exact ⟨rfl, rfl, behind⟩

/-- What a digit is not. -/
theorem isDigit_excludes (digit : isDigit c = true) :
    isIdentifierStart c = false ∧ c ≠ char 'x' ∧ c ≠ char 'X' := by
  have table : ∀ byte : Fin 256, isDigit (.ofFin byte) = true →
      isIdentifierStart (.ofFin byte) = false ∧ UInt8.ofFin byte ≠ char 'x' ∧
        UInt8.ofFin byte ≠ char 'X' := by decide +kernel
  exact table _ digit

/-- Digits are one token. -/
theorem nextTokenInternal_digits (nonempty : text ≠ []) (digits : ∀ c ∈ text, isDigit c = true)
    (ends : EndsDecimal text r) (bytes : lexer.skipWhitespace.rest = text ++ r) :
    lexer.nextTokenInternal.1.type = tokenInteger ∧
      lexer.nextTokenInternal.1.integerValue = atoll text ∧ lexer.nextTokenInternal.2.rest = r := by
  obtain ⟨c, others, rfl⟩ := exists_cons_of_ne_nil nonempty
  obtain ⟨isFirst, areDigits⟩ := forall_mem_cons.mp digits
  rw [nextTokenInternal_eq bytes, if_neg (by simp [(isDigit_excludes isFirst).1]), if_pos isFirst]
  generalize lexer.skipWhitespace = start at bytes ⊢
  have notHex : ¬(start.currentChar = char '0' ∧
      (start.peekChar = char 'x' ∨ start.peekChar = char 'X')) := by
    rw [currentChar_rest, peekChar_rest, bytes]
    rintro ⟨isZero, isX⟩
    cases others with
    | nil =>
      have peek : ([c] ++ r).getD 1 0 = r.headD 0 := by cases r <;> rfl
      have noX := ends.noHex (congrArg (fun c => [c]) isZero)
      rw [peek] at isX
      exact isX.elim noX.1 noX.2
    | cons d others =>
      have noX := (isDigit_excludes (areDigits d mem_cons_self)).2
      exact isX.elim noX.1 noX.2
  have behind : (start.skip isDigit).rest = r := skip_over bytes digits ends.noDigit
  have next : (start.skip isDigit).currentChar = r.headD 0 := by
    rw [currentChar_rest, behind]
    cases r <;> rfl
  have word := (skip_moves _ _).textFrom_eq bytes behind
  have noFraction : (start.skip isDigit).scanFraction = (false, start.skip isDigit) := by
    rw [scanFraction, next, peekChar_rest, behind, if_neg ends.noFraction]
  have noExponent : (start.skip isDigit).scanExponent = (false, start.skip isDigit) := by
    rw [scanExponent, next, if_neg ends.noExponent]
  rw [scanNumber, if_neg notHex]
  simp only [noFraction, noExponent, word]
  exact ⟨rfl, rfl, behind⟩

theorem nextTokenInternal_operator (bytes : lexer.skipWhitespace.rest = c :: r)
    (notOther : (isIdentifierStart c || isDigit c || c == char '\'' || c == char '"' ||
      c == char '$') = false) :
    lexer.nextTokenInternal = lexer.skipWhitespace.scanOperator := by
  simp only [Bool.or_eq_false_iff, beq_eq_false_iff_ne] at notOther
  obtain ⟨⟨⟨⟨notStart, notDigit⟩, notQuote⟩, notDoubleQuote⟩, notDollar⟩ := notOther
  rw [nextTokenInternal_eq bytes]
  simp only [notStart, notDigit, notQuote, notDoubleQuote, notDollar, or_self, if_false,
    Bool.false_eq_true]

/-- A token that is printed in one way only is read from its text. -/
theorem nextTokenInternal_symbol {type : TokenType} (spelled : type.spelling ≠ "")
    (separated : Separated r) (bytes : lexer.skipWhitespace.rest = ascii type.spelling ++ r) :
    lexer.nextTokenInternal.1.type = type ∧ lexer.nextTokenInternal.2.rest = r := by
  cases type
  case tokenAnd | tokenOr | tokenNot | tokenIn | tokenLike | tokenNull =>
    obtain ⟨isType, -, behind⟩ := nextTokenInternal_word (by decide) (by decide +kernel)
      (separated.elim (motive := (isIdentifierChar · = false)) (by decide) (by decide)) bytes
    exact ⟨isType.trans (by decide +kernel), behind⟩
  case tokenPlus | tokenMinus | tokenStar | tokenSlash | tokenPercent | tokenEq | tokenLparen |
      tokenRparen | tokenComma =>
    rw [nextTokenInternal_operator bytes (by decide)]
    generalize lexer.skipWhitespace = start at bytes ⊢
    rw [scanOperator, currentChar_cons bytes]
    exact ⟨rfl, (advance_rest start).trans (congrArg _ bytes)⟩
  case tokenLt | tokenGt =>
    rw [nextTokenInternal_operator bytes (by decide)]
    generalize lexer.skipWhitespace = start at bytes ⊢
    have behind : start.advance.rest = r := (advance_rest _).trans (congrArg _ bytes)
    have second : start.advance.currentChar ≠ char '=' ∧ start.advance.currentChar ≠ char '>' := by
      have next : start.advance.currentChar = r.headD 0 := by
        rw [currentChar_rest, behind]
        cases r <;> rfl
      rw [next]
      exact separated.elim (motive := fun c => c ≠ char '=' ∧ c ≠ char '>') (by decide) (by decide)
    rw [scanOperator, currentChar_cons bytes]
    simp only [second]
    exact ⟨rfl, behind⟩
  case tokenNeq | tokenLte | tokenGte =>
    rw [nextTokenInternal_operator bytes (by decide)]
    generalize lexer.skipWhitespace = start at bytes ⊢
    have next : start.advance.rest = char '=' :: r :=
      (advance_rest _).trans (congrArg _ bytes)
    rw [scanOperator, currentChar_cons bytes]
    simp only [currentChar_cons next]
    exact ⟨rfl, (advance_rest _).trans (congrArg _ next)⟩
  all_goals exact absurd rfl spelled

end Lexer

/-! ### Names and numbers -/

theorem toUpper_toLower (c : UInt8) : toUpper (toLower c) = toUpper c := by
  have table : ∀ byte : Fin 256, toUpper (toLower (.ofFin byte)) = toUpper (.ofFin byte) := by
    decide +kernel
  exact table _

theorem toUpper_toUpper (c : UInt8) : toUpper (toUpper c) = toUpper c := by
  have table : ∀ byte : Fin 256, toUpper (toUpper (.ofFin byte)) = toUpper (.ofFin byte) := by
    decide +kernel
  exact table _

theorem SameLetters.map_toUpper {text other : List UInt8} (same : SameLetters text other) :
    text.map toUpper = other.map toUpper := by
  have letters := congrArg (List.map toUpper) same
  simpa only [List.map_map, Function.comp_def, toUpper_toLower] using letters

/-- The keyword table has no entry for the name of a column. -/
theorem ColumnName.lookup (name : ColumnName) :
    lookupKeyword (name.text.map toUpper) = tokenIdentifier := by
  refine lookupKeyword_identifier fun entry isEntry same => name.noKeyword _ isEntry ?_
  have upper : ∀ entry ∈ keywords, entry.1.map toUpper = entry.1 := by decide +kernel
  have letters := same.map_toUpper
  rwa [List.map_map, upper _ isEntry, map_congr_left _] at letters
  exact fun c _ => toUpper_toUpper c

theorem char_digit {c : Char} (digit : c.isDigit = true) :
    isDigit (char c) = true ∧ (char c - char '0').toNat = c.toNat - '0'.toNat := by
  have table : ∀ digit : Fin 10, isDigit (UInt8.ofNat (48 + digit)) = true ∧
      (UInt8.ofNat (48 + digit) - char '0').toNat = digit := by decide +kernel
  obtain ⟨low, high⟩ : 48 ≤ c.toNat ∧ c.toNat ≤ 57 := by
    simp only [Char.isDigit, Bool.and_eq_true, decide_eq_true_eq] at digit
    exact digit
  have same : char c = UInt8.ofNat (48 + (c.toNat - 48)) := by
    rw [Nat.add_sub_cancel' low]
    rfl
  rw [same]
  exact table ⟨c.toNat - 48, by omega⟩

theorem decimal_digits (number : Nat) : ∀ c ∈ decimal number, isDigit c = true := by
  intro c isDecimal
  obtain ⟨character, isCharacter, rfl⟩ := mem_map.mp isDecimal
  exact (char_digit (Nat.isDigit_of_mem_toDigits (by decide) (by decide) isCharacter)).1

theorem decimal_ne_nil (number : Nat) : decimal number ≠ [] := by
  simp [decimal]

theorem foldl_digits (digits : List Char) (areDigits : ∀ c ∈ digits, c.isDigit = true)
    (value : Nat) :
    (digits.map char).foldl (fun value digit => value * 10 + (digit - char '0').toNat) value =
      Nat.ofDigitChars 10 digits value := by
  induction digits generalizing value with
  | nil => rfl
  | cons c digits inductionHypothesis =>
    obtain ⟨digit, rest⟩ := forall_mem_cons.mp areDigits
    rw [map_cons, foldl_cons, inductionHypothesis rest, (char_digit digit).2,
      Nat.mul_comm _]
    rfl

theorem decimalValue_decimal (number : Nat) : Lexer.decimalValue (decimal number) = number := by
  refine (foldl_digits _ ?_ 0).trans Nat.ofDigitChars_ten_toDigits
  exact fun c isDigit => Nat.isDigit_of_mem_toDigits (by decide) (by decide) isDigit

theorem atoll_decimal {value : Int64} (notNegative : 0 ≤ value.toInt) :
    Lexer.atoll (decimal value.toInt.toNat) = value := by
  have bound := value.toInt_lt
  have whole : (decimal value.toInt.toNat).takeWhile isDigit = decimal value.toInt.toNat :=
    takeWhile_eq_self_iff.mpr (decimal_digits _)
  have fits : min (value.toInt.toNat : Int) 9223372036854775807 = value.toInt := by omega
  rw [Lexer.atoll, whole, decimalValue_decimal, fits, Int64.ofInt_toInt]

/-! ### The tokens of printed text -/

/-- A piece of text is read as its token. -/
theorem Lexeme.lexes (lexeme : Lexeme) (separated : Separated r)
    (bytes : lexer.skipWhitespace.rest = lexeme.text ++ r) :
    lexer.nextTokenInternal.1.Reads lexeme ∧ lexer.nextTokenInternal.2.rest = r := by
  cases lexeme with
  | integer value notNegative =>
    obtain ⟨isInteger, same, behind⟩ := Lexer.nextTokenInternal_digits (decimal_ne_nil _)
      (decimal_digits _) (separated.endsDecimal _) bytes
    exact ⟨⟨isInteger, same.trans (atoll_decimal notNegative)⟩, behind⟩
  | string value noNul =>
    have noQuote : r.head? ≠ some (char '\'') := by
      have other := separated.elim (motive := (· ≠ char '\'')) (by decide) (by decide)
      exact fun quote => other (by rw [headD_eq_head?_getD, quote]; rfl)
    obtain ⟨isString, same, behind⟩ := Lexer.nextTokenInternal_quoted noQuote noNul
      (bytes.trans (by rw [text, cons_append, append_assoc, singleton_append]))
    exact ⟨⟨isString, same⟩, behind⟩
  | name column =>
    obtain ⟨isName, same, behind⟩ := Lexer.nextTokenInternal_word column.starts column.identifier
      (separated.elim (motive := (isIdentifierChar · = false)) (by decide) (by decide)) bytes
    exact ⟨⟨isName.trans column.lookup, same⟩, behind⟩
  | symbol type spelled => exact Lexer.nextTokenInternal_symbol spelled separated bytes

theorem isWhitespace_of_word (word : (isIdentifierStart c || isDigit c) = true) :
    isWhitespace c = false := by
  have table : ∀ byte : Fin 256, (isIdentifierStart (.ofFin byte) || isDigit (.ofFin byte)) = true →
      isWhitespace (.ofFin byte) = false := by decide +kernel
  exact table _ word

/-- No piece of text begins with white space. -/
theorem Lexeme.text_visible (lexeme : Lexeme) :
    ∃ c others, lexeme.text = c :: others ∧ isWhitespace c = false := by
  cases lexeme with
  | integer value notNegative =>
    obtain ⟨c, others, digits⟩ := exists_cons_of_ne_nil (decimal_ne_nil _)
    have digit := decimal_digits _ c (by rw [digits]; exact mem_cons_self)
    exact ⟨c, others, digits, isWhitespace_of_word (by rw [digit, Bool.or_true])⟩
  | string value noNul => exact ⟨char '\'', _, rfl, by decide⟩
  | name column =>
    obtain ⟨text, starts, -, -⟩ := column
    cases text with
    | nil => cases starts
    | cons c others =>
      have start : isIdentifierStart c = true := starts
      exact ⟨c, others, rfl, isWhitespace_of_word (by rw [start, Bool.true_or])⟩
  | symbol type spelled =>
    cases type <;> first | exact absurd rfl spelled | exact ⟨_, _, rfl, by decide⟩

theorem Token.Reads.notEof {token : Token} (reads : token.Reads lexeme) :
    token.type ≠ tokenEof := by
  cases lexeme with
  | integer | string | name => rw [reads.1]; decide
  | symbol type spelled =>
    intro eof
    rw [Token.Reads, eof] at reads
    exact spelled (by rw [← reads]; rfl)

/-- The pieces of a text, each behind a space. -/
def spacedPieces (lexemes : List Lexeme) : List UInt8 :=
  lexemes.flatMap fun next => char ' ' :: next.text

theorem Separated.spacedPieces (separated : Separated r) (lexemes : List Lexeme) :
    Separated (spacedPieces lexemes ++ r) := by
  cases lexemes with
  | nil => exact separated
  | cons first rest => exact .inl rfl

/-- The lexer finds one token for each piece. -/
theorem Lexer.tokens_pieces (lexemes : List Lexeme) (separated : Separated r)
    (bytes : lexer.skipWhitespace.rest = (spacedPieces lexemes ++ r).dropWhile isWhitespace) :
    ∃ tokens behind, lexer.tokens = tokens ++ Lexer.tokens behind ∧
      List.Forall₂ Token.Reads tokens lexemes ∧
      behind.skipWhitespace.rest = r.dropWhile isWhitespace := by
  induction lexemes generalizing lexer with
  | nil => exact ⟨[], lexer, rfl, .nil, bytes⟩
  | cons first rest inductionHypothesis =>
    have starts : lexer.skipWhitespace.rest = first.text ++ (spacedPieces rest ++ r) := by
      obtain ⟨c, others, text, visible⟩ := first.text_visible
      rw [bytes, spacedPieces, flatMap_cons, append_assoc, cons_append,
        dropWhile_cons_of_pos (by decide), text, cons_append,
        dropWhile_cons_of_neg (by simp [visible])]
      rfl
    obtain ⟨reads, behind⟩ := first.lexes (separated.spacedPieces _) starts
    have next : lexer.nextTokenInternal.2.skipWhitespace.rest =
        (spacedPieces rest ++ r).dropWhile isWhitespace := by
      rw [skipWhitespace, skip_rest, behind]
    obtain ⟨tokens, last, same, readRest, lastBytes⟩ := inductionHypothesis next
    refine ⟨lexer.nextTokenInternal.1 :: tokens, last, ?_, .cons reads readRest, lastBytes⟩
    rw [lexer.tokens_cons reads.notEof, same, cons_append]

theorem spaced_visible (lexemes : List Lexeme) (r : List UInt8) :
    (spaced lexemes ++ r).dropWhile isWhitespace =
      (spacedPieces lexemes ++ r).dropWhile isWhitespace := by
  cases lexemes with
  | nil => rfl
  | cons first rest =>
    rfl

/-! ### The tree of printed text -/

/-- A list that is related to two lists, one behind the other, consists of two parts. -/
theorem forall₂_append_right {α β : Type} {related : α → β → Prop} {list : List α}
    {front back : List β} (relates : List.Forall₂ related list (front ++ back)) :
    ∃ first second, list = first ++ second ∧ List.Forall₂ related first front ∧
      List.Forall₂ related second back :=
  ⟨list.take _, list.drop _, (take_append_drop _ _).symm,
    forall₂_take_append _ _ _ relates, forall₂_drop_append _ _ _ relates⟩

theorem reads_enclosed {pieces : List Lexeme}
    (reads : List.Forall₂ Token.Reads tokens (enclosed pieces)) :
    ∃ opens inner closes, tokens = opens :: (inner ++ [closes]) ∧ opens.type = tokenLparen ∧
      closes.type = tokenRparen ∧ List.Forall₂ Token.Reads inner pieces := by
  obtain ⟨opens, others, isOpen, readOthers, rfl⟩ := forall₂_cons_right_iff.mp reads
  obtain ⟨inner, last, rfl, readInner, readLast⟩ := forall₂_append_right readOthers
  obtain ⟨closes, nothing, isClose, readNothing, rfl⟩ := forall₂_cons_right_iff.mp readLast
  obtain rfl := forall₂_nil_right_iff.mp readNothing
  exact ⟨opens, inner, closes, rfl, isOpen, isClose, readInner⟩

/-- The tokens of a piece between two others. -/
theorem reads_between {front back : List Lexeme} {middle : Lexeme}
    (reads : List.Forall₂ Token.Reads tokens (front ++ middle :: back)) :
    ∃ first token second, tokens = first ++ token :: second ∧ List.Forall₂ Token.Reads first front ∧
      token.Reads middle ∧ List.Forall₂ Token.Reads second back := by
  obtain ⟨first, others, rfl, readFirst, readOthers⟩ := forall₂_append_right reads
  obtain ⟨token, second, isMiddle, readSecond, rfl⟩ := forall₂_cons_right_iff.mp readOthers
  exact ⟨first, token, second, rfl, readFirst, isMiddle, readSecond⟩

theorem reads_single (reads : List.Forall₂ Token.Reads tokens [lexeme]) :
    ∃ token, tokens = [token] ∧ token.Reads lexeme := by
  obtain ⟨token, nothing, isLexeme, readNothing, rfl⟩ := forall₂_cons_right_iff.mp reads
  obtain rfl := forall₂_nil_right_iff.mp readNothing
  exact ⟨token, rfl, isLexeme⟩

/-- A literal of one token. -/
theorem ReadTo.token {token : Token} {tree : Expression}
    (literal : ∀ (parser : Parser) (rest : List Token), firstType rest ≠ tokenDot →
      parser.At false (token :: rest) → parser.parseLiteral = some (some tree, parser.advance)) :
    ReadTo true [token] tree :=
  .of_literal fun parser _ noDot stands =>
    ⟨parser.advance, literal _ _ noDot stands, stands.advance⟩

theorem ReadTo.integer {token : Token} (isInteger : token.type = tokenInteger) :
    ReadTo true [token] (.literalInt token.integerValue) :=
  .of_literal (integerOperand _ isInteger).operand.reads

theorem ReadTo.string {token : Token} (isString : token.type = tokenString) :
    ReadTo true [token] (.literalString token.stringValue) := by
  refine .token fun parser rest _ stands => ?_
  have current : parser.type = tokenString := stands.type_eq.trans isString
  rw [Parser.parseLiteral_eq, Parser.literalBody]
  simp only [current, stands.current]
  rfl

theorem ReadTo.null {token : Token} (isNull : token.type = tokenNull) :
    ReadTo true [token] .literalNull := by
  refine .token fun parser rest _ stands => ?_
  have current : parser.type = tokenNull := stands.type_eq.trans isNull
  rw [Parser.parseLiteral_eq, Parser.literalBody]
  simp only [current]
  rfl

theorem ReadTo.column {token : Token} (isName : token.type = tokenIdentifier) :
    ReadTo true [token] (.column (-1) (tokenGetText token)) := by
  refine .token fun parser rest noDot stands => ?_
  have current : parser.type = tokenIdentifier := stands.type_eq.trans isName
  have behind : parser.advance.type ≠ tokenDot := by
    rw [stands.advance.type_eq]
    exact noDot
  rw [Parser.parseLiteral_eq, Parser.literalBody]
  simp only [current]
  rw [Parser.parseColumn, stands.parseIdentifier isName]
  simp only [behind]
  rfl

namespace Printable

mutual

theorem readTo : ∀ (expr : Printable) {tokens : List Token},
    List.Forall₂ Token.Reads tokens expr.lexemes → ReadTo true tokens expr.tree
  | .integer value notNegative, tokens, reads => by
    obtain ⟨token, rfl, isInteger, rfl⟩ := reads_single reads
    exact .integer isInteger
  | .string value noNul, tokens, reads => by
    obtain ⟨token, rfl, isString, rfl⟩ := reads_single reads
    exact .string isString
  | .null, tokens, reads => by
    obtain ⟨token, rfl, isNull⟩ := reads_single reads
    exact .null isNull
  | .column name, tokens, reads => by
    obtain ⟨token, rfl, isName, text⟩ := reads_single reads
    rw [tree, ← text]
    exact .column isName
  | .unary op isOperator operand, tokens, reads => by
    obtain ⟨opens, inner, closes, rfl, isOpen, isClose, readInner⟩ := reads_enclosed reads
    obtain ⟨token, others, isOp, readOperand, rfl⟩ := forall₂_cons_right_iff.mp readInner
    obtain rfl : token.type = op := isOp
    obtain isNot | isSign := isUnaryOperator_cases isOperator
    · rw [tree, isNot]
      exact ((operand.readTo readOperand).not isNot).parenthesis isOpen isClose
    · exact ((operand.readTo readOperand).sign isSign).parenthesis isOpen isClose
  | .binary left op isOperator right, tokens, reads => by
    obtain ⟨opens, inner, closes, rfl, isOpen, isClose, readInner⟩ := reads_enclosed reads
    obtain ⟨front, token, back, rfl, readLeft, isOp, readRight⟩ := reads_between readInner
    obtain rfl : token.type = op := isOp
    exact ((left.readTo readLeft).binary isOperator (right.readTo readRight)).parenthesis isOpen
      isClose
  | .like str pattern, tokens, reads => by
    obtain ⟨opens, inner, closes, rfl, isOpen, isClose, readInner⟩ := reads_enclosed reads
    obtain ⟨front, token, back, rfl, readStr, isLike, readPattern⟩ := reads_between readInner
    exact ((str.readTo readStr).like isLike (pattern.readTo readPattern)).parenthesis isOpen isClose
  | .inList value list, tokens, reads => by
    obtain ⟨opens, inner, closes, rfl, isOpen, isClose, readInner⟩ := reads_enclosed reads
    obtain ⟨front, token, back, rfl, readValue, isIn, readList⟩ := reads_between readInner
    obtain ⟨listOpens, items, listCloses, rfl, isListOpen, isListClose, readItems⟩ :=
      reads_enclosed readList
    exact ((value.readTo readValue).inList isIn isListOpen isListClose
      (itemsReadTo _ readItems)).parenthesis isOpen isClose

theorem itemsReadTo : ∀ list {tokens : List Token},
    List.Forall₂ Token.Reads tokens (listLexemes list) →
      tokens = [] ∧ trees list = [] ∨ ItemsReadTo tokens (trees list)
  | [], tokens, reads => .inl ⟨List.forall₂_nil_right_iff.mp reads, rfl⟩
  | [first], tokens, reads => by
    rw [listLexemes, List.isEmpty_nil, if_pos rfl, List.append_nil] at reads
    exact .inr (.one (first.readTo reads))
  | first :: second :: rest, tokens, reads => by
    obtain ⟨front, comma, back, rfl, readFirst, isComma, readRest⟩ := reads_between reads
    obtain ⟨-, impossible⟩ | others := itemsReadTo _ readRest
    · cases impossible
    · exact .inr (.cons isComma (first.readTo readFirst) others)

end

end Printable

theorem Lexer.nextTokenInternal_semicolon {more : List UInt8}
    (bytes : lexer.skipWhitespace.rest = char ';' :: more) :
    lexer.nextTokenInternal.1.type = tokenSemicolon ∧ lexer.nextTokenInternal.2.rest = more := by
  rw [nextTokenInternal_operator bytes (by decide)]
  generalize lexer.skipWhitespace = start at bytes ⊢
  rw [scanOperator, currentChar_cons bytes]
  exact ⟨rfl, (advance_rest _).trans (congrArg _ bytes)⟩

/-- The tokens of a printed expression in front of a semicolon. -/
theorem tokensOf_print (expr : Printable) (gap : Nat) (more : List UInt8) :
    ∃ tokens semicolon others,
      tokensOf (expr.print ++ (List.replicate gap (char ' ') ++ char ';' :: more)) =
        tokens ++ semicolon :: others ∧
      List.Forall₂ Token.Reads tokens expr.lexemes ∧ semicolon.type = tokenSemicolon ∧
      others.map Token.content = (tokensOf more).map Token.content := by
  generalize behind : List.replicate gap (char ' ') ++ char ';' :: more = r
  have separated : Separated r := by
    cases gap with
    | zero => exact .inr (by rw [← behind]; rfl)
    | succ gap => exact .inl (by rw [← behind]; rfl)
  have atSemicolon : r.dropWhile isWhitespace = char ';' :: more := by
    rw [← behind, dropWhile_append_of_pos fun c isSpace => by
      rw [eq_of_mem_replicate isSpace]; decide]
    rfl
  obtain ⟨lexer, created⟩ : ∃ lexer, lexerCreate (expr.print ++ r) = some lexer := by
    rw [lexerCreate, if_neg (by simp [← behind])]
    exact ⟨_, rfl⟩
  obtain ⟨ready, atStart⟩ := lexerCreate_ready created
  have bytes : lexer.skipWhitespace.rest =
      (spacedPieces expr.lexemes ++ r).dropWhile isWhitespace := by
    rw [Lexer.skipWhitespace, Lexer.skip_rest, Lexer.rest, atStart, ready.text]
    exact spaced_visible _ r
  obtain ⟨tokens, last, same, reads, lastBytes⟩ :=
    Lexer.tokens_pieces _ separated bytes
  obtain ⟨isSemicolon, rest⟩ := Lexer.nextTokenInternal_semicolon (lastBytes.trans atSemicolon)
  refine ⟨tokens, last.nextTokenInternal.1, last.nextTokenInternal.2.tokens, ?_, reads, isSemicolon,
    (tokensOf_eq _ _ rest).symm⟩
  rw [tokensOf, created, ← last.tokens_cons (by rw [isSemicolon]; decide)]
  exact same

/-- For every expression and every text behind a semicolon, the parser of the printed expression
returns the tree of the expression, in front of the semicolon and without an error. -/
theorem parse_print (expr : Printable) (gap : Nat) (more : List UInt8) :
    ∃ parser after, parserCreate (expr.print ++ (List.replicate gap (char ' ') ++ char ';' :: more)) =
        some parser ∧
      parser.parseExpression = some (some expr.tree, after) ∧ parserError after = none ∧
      after.type = tokenSemicolon ∧
      after.lexer.tokens.map Token.content = (tokensOf more).map Token.content := by
  obtain ⟨tokens, semicolon, others, same, reads, isSemicolon, behind⟩ :=
    tokensOf_print _ gap _
  obtain ⟨parser, created⟩ : ∃ parser,
      parserCreate (expr.print ++ (List.replicate gap (char ' ') ++ char ';' :: more)) =
        some parser := by
    rw [parserCreate, lexerCreate, if_neg (by simp)]
    exact ⟨_, rfl⟩
  have stands := parserCreate_at created
  rw [same] at stands
  obtain ⟨after, returned, afterStands⟩ := (expr.readTo reads).expression _
    _ 0 (by rw [firstType_cons, isSemicolon]; rfl)
    (by rw [firstType_cons, isSemicolon]; decide) stands
  refine ⟨parser, after, created, returned, ?_, afterStands.type_eq.trans isSemicolon, ?_⟩
  · rw [parserError, afterStands.failed]
    rfl
  · rw [afterStands.lexer_tokens]
    exact behind

example :
    (Printable.inList (.column ⟨ascii "a", by decide, by decide +kernel, by decide +kernel⟩)
      [.integer 10 (by decide), .string (ascii "it's") (by decide +kernel)]).print =
        ascii "( a IN ( 10 , 'it''s' ) )" := by decide +kernel

end TinyDb

/-
This file models the SQL lexer. Text is a buffer of bytes, which may contain NUL
bytes; the end of the buffer reads as NUL too. Character classes are those of the
C locale.

The loops of the lexer move forward byte by byte, so a bound of the bytes that are
left is enough for each of them. What `atoll` does past the range of an `int64_t`
is the clamping of the common C library; a decimal is read by Lean's model of
binary64 numbers.
-/

namespace TinyDb

/-- The bytes of a string constant. -/
def ascii (text : String) : List UInt8 := text.toUTF8.data.toList

/-! ### Tokens -/

/-- `TokenType`, in the order of the source. -/
inductive TokenType
  | tokenEof | tokenError
  | tokenIdentifier | tokenInteger | tokenReal | tokenString
  | tokenPlus | tokenMinus | tokenStar | tokenSlash | tokenPercent
  | tokenEq | tokenNeq | tokenLt | tokenGt | tokenLte | tokenGte | tokenDoubleEq
  | tokenLikeOp | tokenInOp | tokenBetweenOp
  | tokenSelect | tokenFrom | tokenWhere | tokenAnd | tokenOr | tokenNot | tokenIn | tokenLike
  | tokenBetween | tokenIs | tokenNull
  | tokenInsert | tokenInto | tokenValues | tokenUpdate | tokenSet
  | tokenDelete | tokenCreate | tokenDrop | tokenTable | tokenIndex | tokenIf | tokenExists
  | tokenBegin | tokenCommit | tokenRollback | tokenTransaction
  | tokenOrder | tokenBy | tokenAsc | tokenDesc | tokenLimit | tokenOffset | tokenDistinct | tokenAs
  | tokenOn | tokenPrimary | tokenKey | tokenUnique | tokenDefault | tokenAutoincrement
  | tokenIntegerKw | tokenRealKw | tokenTextKw | tokenBlobKw
  | tokenLparen | tokenRparen | tokenComma | tokenDot | tokenSemicolon | tokenQuestion
  | tokenPlaceholder
  deriving DecidableEq

/-- The value of the enumeration constant. -/
def TokenType.code (type : TokenType) : Int := type.ctorIdx

open TokenType

/-- A token. The three values share their memory in the source; each is read for its own type of
token only. -/
structure Token where
  type : TokenType
  lexeme : Option (List UInt8)
  lexemeLen : Nat
  line : Int
  column : Int
  integerValue : Int64
  floatValue : Float
  stringValue : List UInt8

/-- `token_get_text`. -/
def tokenGetText (token : Token) : List UInt8 := token.lexeme.getD []

/-! ### Characters -/

/-- A character constant. -/
def char (character : Char) : UInt8 := character.val.toUInt8

/-- `isalpha`. -/
def isAlpha (c : UInt8) : Bool :=
  (char 'A' ≤ c && c ≤ char 'Z') || (char 'a' ≤ c && c ≤ char 'z')

/-- `isdigit`. -/
def isDigit (c : UInt8) : Bool := char '0' ≤ c && c ≤ char '9'

/-- `isxdigit`. -/
def isXDigit (c : UInt8) : Bool :=
  isDigit c || (char 'A' ≤ c && c ≤ char 'F') || (char 'a' ≤ c && c ≤ char 'f')

/-- `is_alphanumeric`. -/
def isAlphanumeric (c : UInt8) : Bool := isAlpha c || isDigit c

/-- `is_whitespace`. -/
def isWhitespace (c : UInt8) : Bool :=
  c == char ' ' || c == char '\t' || c == char '\r' || c == char '\n'

/-- `is_identifier_start`. -/
def isIdentifierStart (c : UInt8) : Bool := isAlpha c || c == char '_'

/-- `is_identifier_char`. -/
def isIdentifierChar (c : UInt8) : Bool := isAlphanumeric c || c == char '_'

/-- `toupper`. -/
def toUpper (c : UInt8) : UInt8 := if char 'a' ≤ c ∧ c ≤ char 'z' then c - 32 else c

/-- `tolower`. -/
def toLower (c : UInt8) : UInt8 := if char 'A' ≤ c ∧ c ≤ char 'Z' then c + 32 else c

/-! ### Keywords -/

/-- The keyword table. -/
def keywords : List (List UInt8 × TokenType) :=
  [(ascii "AND", tokenAnd), (ascii "AS", tokenAs), (ascii "ASC", tokenAsc),
    (ascii "AUTOINCREMENT", tokenAutoincrement), (ascii "BEGIN", tokenBegin),
    (ascii "BETWEEN", tokenBetween), (ascii "BY", tokenBy), (ascii "COMMIT", tokenCommit),
    (ascii "CREATE", tokenCreate), (ascii "DEFAULT", tokenDefault), (ascii "DELETE", tokenDelete),
    (ascii "DESC", tokenDesc), (ascii "DISTINCT", tokenDistinct), (ascii "DROP", tokenDrop),
    (ascii "EXISTS", tokenExists), (ascii "FROM", tokenFrom), (ascii "IF", tokenIf),
    (ascii "IN", tokenIn), (ascii "INDEX", tokenIndex), (ascii "INSERT", tokenInsert),
    (ascii "INTO", tokenInto), (ascii "IS", tokenIs), (ascii "KEY", tokenKey),
    (ascii "LIKE", tokenLike), (ascii "LIMIT", tokenLimit), (ascii "NOT", tokenNot),
    (ascii "NULL", tokenNull), (ascii "OFFSET", tokenOffset), (ascii "ON", tokenOn),
    (ascii "OR", tokenOr), (ascii "ORDER", tokenOrder), (ascii "PRIMARY", tokenPrimary),
    (ascii "REAL", tokenRealKw), (ascii "ROLLBACK", tokenRollback), (ascii "SELECT", tokenSelect),
    (ascii "SET", tokenSet), (ascii "TABLE", tokenTable), (ascii "TEXT", tokenTextKw),
    (ascii "TRANSACTION", tokenTransaction), (ascii "UNIQUE", tokenUnique),
    (ascii "UPDATE", tokenUpdate), (ascii "VALUES", tokenValues), (ascii "WHERE", tokenWhere),
    (ascii "INTEGER", tokenIntegerKw), (ascii "BLOB", tokenBlobKw)]

/-- `strncasecmp`: whether the first bytes are equal, or else how the first difference compares. -/
def strncasecmp : Nat → List UInt8 → List UInt8 → Ordering
  | 0, _, _ => .eq
  | _, [], [] => .eq
  | _, [], _ :: _ => .lt
  | _, _ :: _, [] => .gt
  | count + 1, first :: rest, second :: others =>
    (compare (toLower first) (toLower second)).then (strncasecmp count rest others)

/-- How `lookup_keyword` compares a text with a keyword: a prefix comes first. -/
def compareKeyword (text keyword : List UInt8) : Ordering :=
  (strncasecmp (min text.length keyword.length) text keyword).then
    (compare text.length keyword.length)

/-- The binary search of `lookup_keyword`; every step narrows the range. -/
def lookupLoop (text : List UInt8) : Nat → Int → Int → TokenType
  | 0, _, _ => tokenIdentifier
  | steps + 1, low, high =>
    if low ≤ high then
      let mid := (low + high) / 2
      match keywords[mid.toNat]? with
      | none => tokenIdentifier
      | some (keyword, type) =>
        match compareKeyword text keyword with
        | .eq => type
        | .lt => lookupLoop text steps low (mid - 1)
        | .gt => lookupLoop text steps (mid + 1) high
    else tokenIdentifier

/-- `lookup_keyword`. -/
def lookupKeyword (text : List UInt8) : TokenType :=
  lookupLoop text (keywords.length + 1) 0 (keywords.length - 1)

/-! ### The lexer -/

/-- The lexer. -/
structure Lexer where
  sql : List UInt8
  pos : Nat
  line : Int
  column : Int
  peekToken : Option Token
  error : String
  errorLine : Int
  errorColumn : Int

/-- `lexer_create`. -/
def lexerCreate (sql : List UInt8) : Option Lexer :=
  if sql.isEmpty then none
  else some {
    sql
    pos := 0
    line := 1
    column := 1
    peekToken := none
    error := ""
    errorLine := 0
    errorColumn := 0 }

namespace Lexer

/-- `current_char`: NUL behind the end. -/
def currentChar (lexer : Lexer) : UInt8 := lexer.sql.getD lexer.pos 0

/-- `peek_char`. -/
def peekChar (lexer : Lexer) : UInt8 := lexer.sql.getD (lexer.pos + 1) 0

/-- `advance`. -/
def advance (lexer : Lexer) : Lexer :=
  if lexer.pos < lexer.sql.length then
    if lexer.currentChar = char '\n' then
      { lexer with line := lexer.line + 1, column := 1, pos := lexer.pos + 1 }
    else { lexer with column := lexer.column + 1, pos := lexer.pos + 1 }
  else lexer

/-- The bytes that are left. -/
def left (lexer : Lexer) : Nat := lexer.sql.length - lexer.pos

/-- The loop that advances while a test holds. -/
def skipLoop (test : UInt8 → Bool) : Nat → Lexer → Lexer
  | 0, lexer => lexer
  | steps + 1, lexer =>
    if test lexer.currentChar then skipLoop test steps lexer.advance else lexer

/-- Advancing while a test holds that no NUL passes. -/
def skip (test : UInt8 → Bool) (lexer : Lexer) : Lexer := skipLoop test lexer.left lexer

/-- The text between a position and the current one. -/
def textFrom (lexer : Lexer) (start : Nat) : List UInt8 :=
  (lexer.sql.drop start).take (lexer.pos - start)

/-- `set_error`. -/
def setError (lexer : Lexer) (msg : String) : Lexer :=
  { lexer with error := msg, errorLine := lexer.line, errorColumn := lexer.column }

/-- `make_token`. -/
def makeToken (lexer : Lexer) (type : TokenType) (text : List UInt8) : Token where
  type
  lexeme := if text.isEmpty then none else some text
  lexemeLen := text.length
  line := lexer.line
  column := lexer.column - text.length
  integerValue := 0
  floatValue := 0
  stringValue := []

/-- `make_error_token`. -/
def makeErrorToken (lexer : Lexer) (msg : String) : Token × Lexer :=
  (lexer.makeToken tokenError [], lexer.setError msg)

/-- `skip_whitespace`. -/
def skipWhitespace (lexer : Lexer) : Lexer := lexer.skip isWhitespace

/-- `scan_identifier`. -/
def scanIdentifier (lexer : Lexer) : Token × Lexer :=
  let start := lexer.pos
  if isIdentifierStart lexer.currentChar then
    let lexer := lexer.advance.skip isIdentifierChar
    let text := lexer.textFrom start
    (lexer.makeToken (lookupKeyword (text.map toUpper)) text, lexer)
  else lexer.makeErrorToken "Invalid identifier start"

/-- The digits of a decimal number. -/
def decimalValue (digits : List UInt8) : Nat :=
  digits.foldl (fun value digit => value * 10 + (digit - char '0').toNat) 0

/-- `atoll` of decimal digits. -/
def atoll (text : List UInt8) : Int64 :=
  Int64.ofInt (min (decimalValue (text.takeWhile isDigit)) 9223372036854775807)

/-- The value of a hexadecimal digit. -/
def hexDigit (c : UInt8) : Nat :=
  if isDigit c then (c - char '0').toNat
  else if char 'a' ≤ c then (c - char 'a').toNat + 10
  else (c - char 'A').toNat + 10

/-- The hexadecimal number behind `0x`, in the 64 bits of the value. -/
def hexValue (digits : List UInt8) : Int64 :=
  Int64.ofNat (digits.foldl (fun value digit => value * 16 + hexDigit digit) 0)

/-- `atof` of digits with an optional fraction and an optional exponent. -/
def atof (text : List UInt8) : Float :=
  let whole := text.takeWhile isDigit
  let rest := text.dropWhile isDigit
  let fraction := if rest.head? = some (char '.') then rest.tail.takeWhile isDigit else []
  let rest := if rest.head? = some (char '.') then rest.tail.dropWhile isDigit else rest
  let isExponent := rest.head? = some (char 'e') ∨ rest.head? = some (char 'E')
  let isNegative := isExponent ∧ rest.tail.head? = some (char '-')
  let isSigned := isNegative ∨ isExponent ∧ rest.tail.head? = some (char '+')
  let exponent : Int := if isExponent then
    decimalValue ((if isSigned then rest.tail.tail else rest.tail).takeWhile isDigit) else 0
  let scale : Int := (if isNegative then -exponent else exponent) - fraction.length
  Float.ofScientific (decimalValue (whole ++ fraction)) (scale < 0) scale.natAbs

/-- The end of a decimal number: a fraction and an exponent, if there are any. -/
def scanFraction (lexer : Lexer) : Bool × Lexer :=
  if lexer.currentChar = char '.' ∧ isDigit lexer.peekChar then
    (true, lexer.advance.skip isDigit)
  else (false, lexer)

def scanExponent (lexer : Lexer) : Bool × Lexer :=
  if lexer.currentChar = char 'e' ∨ lexer.currentChar = char 'E' then
    let lexer := lexer.advance
    let lexer := if lexer.currentChar = char '+' ∨ lexer.currentChar = char '-' then lexer.advance
      else lexer
    (true, lexer.skip isDigit)
  else (false, lexer)

/-- `scan_number`. The column is set back to the start of the number. -/
def scanNumber (lexer : Lexer) : Token × Lexer :=
  let start := lexer.pos
  let startColumn := lexer.column
  if lexer.currentChar = char '0' ∧ (lexer.peekChar = char 'x' ∨ lexer.peekChar = char 'X') then
    let lexer := lexer.advance.advance.skip isXDigit
    let text := lexer.textFrom start
    let lexer := { lexer with column := startColumn }
    ({ lexer.makeToken tokenInteger text with integerValue := hexValue (text.drop 2) }, lexer)
  else
    let lexer := lexer.skip isDigit
    let (hasDot, lexer) := lexer.scanFraction
    let (hasE, lexer) := lexer.scanExponent
    let text := lexer.textFrom start
    let lexer := { lexer with column := startColumn }
    if hasDot || hasE then
      ({ lexer.makeToken tokenReal text with floatValue := atof text }, lexer)
    else ({ lexer.makeToken tokenInteger text with integerValue := atoll text }, lexer)

/-- The loop of `scan_string`: the content, or nothing when the text ends before the string. -/
def stringLoop (quote : UInt8) : Nat → List UInt8 → Lexer → Option (List UInt8) × Lexer
  | 0, _, lexer => (none, lexer)
  | steps + 1, content, lexer =>
    if lexer.currentChar = 0 then (none, lexer)
    else if lexer.currentChar = quote then
      if lexer.peekChar = quote then
        stringLoop quote steps (content ++ [char '\'']) lexer.advance.advance
      else (some content, lexer.advance)
    else stringLoop quote steps (content ++ [lexer.currentChar]) lexer.advance

/-- `scan_string`. -/
def scanString (lexer : Lexer) : Token × Lexer :=
  let start := lexer.pos
  let startColumn := lexer.column
  let quote := lexer.currentChar
  let opened := lexer.advance
  match stringLoop quote (opened.left + 1) [] opened with
  | (none, lexer) => { lexer with column := startColumn }.makeErrorToken "Unterminated string"
  | (some content, lexer) =>
    let lexer := { lexer with column := startColumn }
    ({ lexer.makeToken tokenString (lexer.textFrom start) with stringValue := content }, lexer)

/-- The end of `scan_operator` for one more character of the operator. -/
def operatorToken (lexer : Lexer) (type : TokenType) (text : String) : Token × Lexer :=
  (lexer.advance.makeToken type (ascii text), lexer.advance)

/-- `scan_operator`. -/
def scanOperator (lexer : Lexer) : Token × Lexer :=
  match Char.ofUInt8 lexer.currentChar with
  | '+' => lexer.operatorToken tokenPlus "+"
  | '-' => lexer.operatorToken tokenMinus "-"
  | '*' => lexer.operatorToken tokenStar "*"
  | '/' => lexer.operatorToken tokenSlash "/"
  | '%' => lexer.operatorToken tokenPercent "%"
  | '(' => lexer.operatorToken tokenLparen "("
  | ')' => lexer.operatorToken tokenRparen ")"
  | ',' => lexer.operatorToken tokenComma ","
  | '.' => lexer.operatorToken tokenDot "."
  | ';' => lexer.operatorToken tokenSemicolon ";"
  | '?' => lexer.operatorToken tokenQuestion "?"
  | '=' => lexer.operatorToken tokenEq "="
  | '<' =>
    let second := lexer.advance
    if second.currentChar = char '=' then second.operatorToken tokenLte "<="
    else if second.currentChar = char '>' then second.operatorToken tokenNeq "<>"
    else lexer.operatorToken tokenLt "<"
  | '>' =>
    let second := lexer.advance
    if second.currentChar = char '=' then second.operatorToken tokenGte ">="
    else lexer.operatorToken tokenGt ">"
  | '!' =>
    let second := lexer.advance
    if second.currentChar = char '=' then second.operatorToken tokenNeq "!="
    else second.makeErrorToken "Unexpected character '!'"
  | _ => lexer.advance.makeErrorToken "Unexpected character"

/-- The placeholders `$1`, `$2` of `next_token_internal`. -/
def scanPlaceholder (lexer : Lexer) : Token × Lexer :=
  let start := lexer.pos
  let lexer := lexer.advance
  if isDigit lexer.currentChar then
    let lexer := lexer.skip isDigit
    (lexer.makeToken tokenPlaceholder (lexer.textFrom start), lexer)
  else lexer.makeErrorToken "Invalid placeholder"

/-- `next_token_internal`. -/
def nextTokenInternal (lexer : Lexer) : Token × Lexer :=
  let lexer := lexer.skipWhitespace
  if lexer.pos ≥ lexer.sql.length then (lexer.makeToken tokenEof [], lexer)
  else
    let c := lexer.currentChar
    if isIdentifierStart c then lexer.scanIdentifier
    else if isDigit c then lexer.scanNumber
    else if c = char '\'' ∨ c = char '"' then lexer.scanString
    else if c = char '$' then lexer.scanPlaceholder
    else lexer.scanOperator

end Lexer

/-- `lexer_next_token`. -/
def lexerNextToken (lexer : Lexer) : Token × Lexer :=
  match lexer.peekToken with
  | some token => (token, { lexer with peekToken := none })
  | none => lexer.nextTokenInternal

/-- `lexer_peek_token`. -/
def lexerPeekToken (lexer : Lexer) : Token × Lexer :=
  match lexer.peekToken with
  | some token => (token, lexer)
  | none =>
    let (token, lexer) := lexer.nextTokenInternal
    (token, { lexer with peekToken := some token })

end TinyDb

/-
This file models the SQL parser. A parser holds one token and takes the next one from
its lexer. Once an error is recorded it takes no further token, while the functions
and their loops go on with the token they have.

The functions of the parser may therefore run for ever. Each returns in `Option`, and
`none` says that the call never returns. A call that returns `NULL` is
`some (none, parser)`. A function that calls itself, or a loop, is given by its body,
which names the functions it calls as parameters; the function is what the body makes
of enough further calls, and satisfies the equation of the source.
-/

import Mathlib
import TinyDb.Ast
import TinyDb.Lib.Recursion

namespace TinyDb

open TokenType Recursion

/-- The parser. -/
structure Parser where
  lexer : Lexer
  currentToken : Token
  hasError : Bool
  error : String
  errorLine : Int
  errorColumn : Int

/-- `parser_create`; it fails on an empty text. -/
def parserCreate (sql : List UInt8) : Option Parser :=
  match lexerCreate sql with
  | none => none
  | some lexer =>
    let (token, lexer) := lexerNextToken lexer
    some {
      lexer
      currentToken := token
      hasError := false
      error := ""
      errorLine := 0
      errorColumn := 0 }

/-- `parser_error`. -/
def parserError (parser : Parser) : Option String :=
  if parser.hasError then some parser.error else none

namespace Parser

/-- `parser_set_error`. -/
def setError (parser : Parser) (msg : String) : Parser :=
  { parser with
    hasError := true
    error := msg
    errorLine := parser.currentToken.line
    errorColumn := parser.currentToken.column }

/-! ### Tokens -/

/-- `keyword_to_token_type`. -/
def keywordToTokenType (kw : String) : Option TokenType :=
  match kw with
  | "INTO" => some tokenInto
  | "VALUES" => some tokenValues
  | "FROM" => some tokenFrom
  | "WHERE" => some tokenWhere
  | "AND" => some tokenAnd
  | "OR" => some tokenOr
  | "NOT" => some tokenNot
  | "NULL" => some tokenNull
  | "LIKE" => some tokenLike
  | "BETWEEN" => some tokenBetween
  | "IN" => some tokenIn
  | "IS" => some tokenIs
  | "SET" => some tokenSet
  | "BEGIN" => some tokenBegin
  | "COMMIT" => some tokenCommit
  | "ROLLBACK" => some tokenRollback
  | "PRIMARY" => some tokenPrimary
  | "KEY" => some tokenKey
  | "IF" => some tokenIf
  | "EXISTS" => some tokenExists
  | "ORDER" => some tokenOrder
  | "BY" => some tokenBy
  | "ASC" => some tokenAsc
  | "DESC" => some tokenDesc
  | "LIMIT" => some tokenLimit
  | "OFFSET" => some tokenOffset
  | "AS" => some tokenAs
  | "ON" => some tokenOn
  | "UNIQUE" => some tokenUnique
  | "DEFAULT" => some tokenDefault
  | "AUTOINCREMENT" => some tokenAutoincrement
  | _ => none

/-- Whether a token passes for a keyword, also as an identifier with its text. -/
def isKeyword (token : Token) (kw : String) : Bool :=
  keywordToTokenType kw = some token.type ||
    (token.type = tokenIdentifier && (tokenGetText token).map toUpper = ascii kw)

/-- `check_keyword`. -/
def checkKeyword (parser : Parser) (kw : String) : Bool := isKeyword parser.currentToken kw

/-- The type of the current token. -/
def type (parser : Parser) : TokenType := parser.currentToken.type

/-- `advance`: nothing moves once there is an error. -/
def advance (parser : Parser) : Parser :=
  if parser.hasError then parser
  else
    let (token, lexer) := lexerNextToken parser.lexer
    { parser with currentToken := token, lexer }

/-- `expect_token`. -/
def expectToken (parser : Parser) (type : TokenType) (expected : String) : Parser :=
  if parser.type ≠ type then parser.setError expected else parser.advance

/-- `expect_keyword`. -/
def expectKeyword (parser : Parser) (kw msg : String) : Parser :=
  if parser.checkKeyword kw then parser.advance else parser.setError msg

/-- `parse_identifier`. -/
def parseIdentifier (parser : Parser) : Option (List UInt8) × Parser :=
  if parser.type ≠ tokenIdentifier then (none, parser.setError "Expected identifier")
  else (some (tokenGetText parser.currentToken), parser.advance)

/-! ### Expressions -/

/-- `get_precedence`. -/
def getPrecedence (type : TokenType) : Int :=
  match type with
  | tokenOr => 4
  | tokenAnd => 5
  | tokenNot => 6
  | tokenEq | tokenNeq | tokenLt | tokenGt | tokenLte | tokenGte => 7
  | tokenLikeOp | tokenInOp | tokenBetweenOp => 8
  | tokenPlus | tokenMinus => 9
  | tokenStar | tokenSlash | tokenPercent => 10
  | _ => 0

/-- `is_right_assoc`. -/
def isRightAssoc (_type : TokenType) : Bool := false

/-- The column of `parse_literal`. Only the name of a column without a table gets the index that
the analyzer is to replace. -/
def parseColumn (parser : Parser) : Option Expression × Parser :=
  match parser.parseIdentifier with
  | (none, parser) => (none, parser)
  | (some name, parser) =>
    if parser.type = tokenDot then
      match parser.advance.parseIdentifier with
      | (none, parser) => (none, parser)
      | (some colName, parser) => (some (.column 0 colName), parser)
    else (some (.column (-1) name), parser)

/-- The end of a parenthesis in `parse_literal`. -/
def closeParenthesis (parser : Parser) : Parser :=
  if parser.type = tokenRparen then parser.advance else parser.setError "Expected ')'"

section Bodies

variable {m : Type → Type} [Monad m]

/-- A call whose caller returns `NULL` when it returns `NULL`. -/
def orNull {α β : Type} (call : m (Option α × Parser))
    (next : α → Parser → m (Option β × Parser)) : m (Option β × Parser) := do
  match ← call with
  | (none, parser) => return (none, parser)
  | (some value, parser) => next value parser

/-- The body of `parse_literal`. -/
def literalBody (parseBinaryExpr : Parser → Int → m (Option Expression × Parser))
    (parseLiteral : Parser → m (Option Expression × Parser)) (parser : Parser) :
    m (Option Expression × Parser) :=
  match parser.type with
  | tokenInteger => return (some (.literalInt parser.currentToken.integerValue), parser.advance)
  | tokenReal => return (some (.literalFloat parser.currentToken.floatValue), parser.advance)
  | tokenString => return (some (.literalString parser.currentToken.stringValue), parser.advance)
  | tokenNull => return (some .literalNull, parser.advance)
  | tokenIdentifier => return parser.parseColumn
  | tokenLparen => do
    let (expr, parser) ← parseBinaryExpr parser.advance 0
    return (expr, parser.closeParenthesis)
  | tokenMinus => do
    let (operand, parser) ← parseLiteral parser.advance
    return (operand.map (.unary tokenMinus.code), parser)
  | tokenPlus => do
    let (operand, parser) ← parseLiteral parser.advance
    return (operand.map (.unary tokenPlus.code), parser)
  | _ => return (none, parser.setError "Unexpected token in expression")

/-- The body of `parse_unary_not`. -/
def unaryNotBody (parseLiteral parseUnaryNot : Parser → m (Option Expression × Parser))
    (parser : Parser) : m (Option Expression × Parser) :=
  if parser.checkKeyword "NOT" then do
    let (operand, parser) ← parseUnaryNot parser.advance
    return (operand.map (.unary tokenNot.code), parser)
  else parseLiteral parser

/-- The body of `parse_binary_expr`, which ignores the precedence it is called with. -/
def binaryExprBody (parseUnaryNot : Parser → m (Option Expression × Parser))
    (parseBinaryLoop : Expression → Parser → m (Option Expression × Parser)) (parser : Parser)
    (_minPrec : Int) : m (Option Expression × Parser) :=
  orNull (parseUnaryNot parser) fun left parser =>
    if parser.hasError then return (some left, parser) else parseBinaryLoop left parser

/-- One turn of the loop of `parse_binary_expr`. -/
def binaryLoopBody (parseBinaryExpr : Parser → Int → m (Option Expression × Parser))
    (parseExpressions : Parser → m (Option (List Expression) × Parser))
    (parseBinaryLoop : Expression → Parser → m (Option Expression × Parser)) (left : Expression)
    (parser : Parser) : m (Option Expression × Parser) :=
  let op := parser.type
  let prec := getPrecedence op
  if op = tokenLike then
    orNull (parseBinaryExpr parser.advance (prec + 1)) fun pattern parser =>
    parseBinaryLoop (.like left pattern 0 false) parser
  else if op = tokenIn then
    let parser := parser.advance
    if parser.type ≠ tokenLparen then parseBinaryLoop left parser
    else
      let parser := parser.advance
      if parser.type ≠ tokenRparen then
        orNull (parseExpressions parser) fun list parser =>
        parseBinaryLoop (.inList left list false) (parser.expectToken tokenRparen "Expected ')'")
      else parseBinaryLoop (.inList left [] false) (parser.expectToken tokenRparen "Expected ')'")
  else if op = tokenBetween then
    orNull (parseBinaryExpr parser.advance (prec + 1)) fun low parser =>
    if parser.checkKeyword "AND" then
      orNull (parseBinaryExpr parser.advance (prec + 1)) fun high parser =>
      parseBinaryLoop (.between left low high false) parser
    else return (none, parser.setError "Expected AND in BETWEEN expression")
  else if prec = 0 then return (some left, parser)
  else if op = tokenIs then
    let parser := parser.advance
    let isNot := parser.checkKeyword "NOT"
    let parser := if isNot then parser.advance else parser
    if parser.checkKeyword "NULL" then
      parseBinaryLoop (.binary left (if isNot then tokenNeq.code else tokenEq.code) .literalNull)
        parser.advance
    else return (none, parser.setError "Expected NULL after IS")
  else if op = tokenNot then return (some left, parser)
  else
    orNull (parseBinaryExpr parser.advance (prec + if isRightAssoc op then 0 else 1))
      fun right parser => parseBinaryLoop (.binary left op.code right) parser

/-- What follows an item of a list in the loops over lists. -/
def listItem {α : Type} (parseItems : Parser → m (Option (List α) × Parser)) (item : α)
    (parser : Parser) : m (Option (List α) × Parser) := do
  if parser.type = tokenComma then
    let (rest, parser) ← parseItems parser.advance
    return (rest.map (item :: ·), parser)
  else return (some [item], parser)

/-- One turn of the loop over the expressions of a list, in `IN` and in `parse_expression_list`. -/
def expressionsBody (parseBinaryExpr : Parser → Int → m (Option Expression × Parser))
    (parseExpressions : Parser → m (Option (List Expression) × Parser)) (parser : Parser) :
    m (Option (List Expression) × Parser) :=
  orNull (parseBinaryExpr parser 0) (listItem parseExpressions)

end Bodies

section Null

variable {α β γ : Type}

@[simp] theorem orNull_none (parser : Parser) (next : α → Parser → Option (Option β × Parser)) :
    orNull (some (none, parser)) next = some (none, parser) := rfl

@[simp] theorem orNull_some (value : α) (parser : Parser)
    (next : α → Parser → Option (Option β × Parser)) :
    orNull (some (some value, parser)) next = next value parser := rfl

theorem orNull_congr {call : Option (Option α × Parser)}
    {next later : α → Parser → Option (Option β × Parser)}
    (same : ∀ value parser, call = some (some value, parser) → next value parser = later value parser) :
    orNull call next = orNull call later := by
  rcases call with _ | ⟨_ | value, parser⟩
  · rfl
  · rfl
  · exact same _ _ rfl

theorem orNull_assoc (call : Option (Option α × Parser))
    (next : α → Parser → Option (Option β × Parser))
    (later : β → Parser → Option (Option γ × Parser)) :
    orNull (orNull call next) later =
      orNull call fun value parser => orNull (next value parser) later := by
  rcases call with _ | ⟨_ | value, parser⟩ <;> rfl

end Null

/-- The calls of the functions that read expressions. -/
inductive ExpressionCall
  | literal (parser : Parser)
  | unaryNot (parser : Parser)
  | binaryExpr (parser : Parser) (minPrec : Int)
  | binaryLoop (left : Expression) (parser : Parser)
  | expressions (parser : Parser)

/-- What a call returns. -/
abbrev ExpressionCall.Result : ExpressionCall → Type
  | .expressions _ => Option (List Expression) × Parser
  | _ => Option Expression × Parser

section Calls

open ExpressionCall

/-- The body of each call. -/
def expressionBody :
    ∀ call : ExpressionCall, Calls ExpressionCall ExpressionCall.Result call.Result
  | .literal parser =>
    literalBody (fun parser minPrec => Calls.ask (binaryExpr parser minPrec))
      (fun parser => Calls.ask (literal parser)) parser
  | .unaryNot parser =>
    unaryNotBody (fun parser => Calls.ask (literal parser))
      (fun parser => Calls.ask (unaryNot parser)) parser
  | .binaryExpr parser minPrec =>
    binaryExprBody (fun parser => Calls.ask (unaryNot parser))
      (fun left parser => Calls.ask (binaryLoop left parser)) parser minPrec
  | .binaryLoop left parser =>
    binaryLoopBody (fun parser minPrec => Calls.ask (binaryExpr parser minPrec))
      (fun parser => Calls.ask (expressions parser))
      (fun left parser => Calls.ask (binaryLoop left parser)) left parser
  | .expressions parser =>
    expressionsBody (fun parser minPrec => Calls.ask (binaryExpr parser minPrec))
      (fun parser => Calls.ask (expressions parser)) parser

end Calls

section Answers

variable {Arg : Type} {Res : Arg → Type} (answers : ∀ arg, Option (Res arg)) {α β : Type}

@[simp] theorem answer_orNull (call : Calls Arg Res (Option α × Parser))
    (next : α → Parser → Calls Arg Res (Option β × Parser)) :
    (orNull call next).answer answers =
      orNull (call.answer answers) fun value parser => (next value parser).answer answers := by
  rw [orNull, Calls.answer_bind]
  refine bind_congr fun ⟨value, parser⟩ => ?_
  cases value <;> rfl

@[simp] theorem answer_listItem (parseItems : Parser → Calls Arg Res (Option (List α) × Parser))
    (item : α) (parser : Parser) :
    (listItem parseItems item parser).answer answers =
      listItem (fun parser => (parseItems parser).answer answers) item parser := by
  rw [listItem, listItem]
  split <;> simp

variable (self : ∀ call : ExpressionCall, Option call.Result)

theorem answer_literal (parser : Parser) :
    (expressionBody (.literal parser)).answer self =
      literalBody (fun parser minPrec => self (.binaryExpr parser minPrec))
        (fun parser => self (.literal parser)) parser := by
  rw [expressionBody, literalBody, literalBody]
  split <;> simp

theorem answer_unaryNot (parser : Parser) :
    (expressionBody (.unaryNot parser)).answer self =
      unaryNotBody (fun parser => self (.literal parser)) (fun parser => self (.unaryNot parser))
        parser := by
  rw [expressionBody, unaryNotBody, unaryNotBody]
  split <;> simp

theorem answer_binaryExpr (parser : Parser) (minPrec : Int) :
    (expressionBody (.binaryExpr parser minPrec)).answer self =
      binaryExprBody (fun parser => self (.unaryNot parser))
        (fun left parser => self (.binaryLoop left parser)) parser minPrec := by
  simp [expressionBody, binaryExprBody, apply_ite _]

theorem answer_binaryLoop (left : Expression) (parser : Parser) :
    (expressionBody (.binaryLoop left parser)).answer self =
      binaryLoopBody (fun parser minPrec => self (.binaryExpr parser minPrec))
        (fun parser => self (.expressions parser)) (fun left parser => self (.binaryLoop left parser))
        left parser := by
  simp only [expressionBody, binaryLoopBody, apply_ite (Calls.answer _), answer_orNull,
    Calls.answer_ask, Calls.answer_pure]

theorem answer_expressions (parser : Parser) :
    (expressionBody (.expressions parser)).answer self =
      expressionsBody (fun parser minPrec => self (.binaryExpr parser minPrec))
        (fun parser => self (.expressions parser)) parser := by
  simp [expressionBody, expressionsBody]

end Answers

noncomputable section

/-- `parse_literal`. -/
def parseLiteral (parser : Parser) : Option (Option Expression × Parser) :=
  fix expressionBody (.literal parser)

/-- `parse_unary_not`. -/
def parseUnaryNot (parser : Parser) : Option (Option Expression × Parser) :=
  fix expressionBody (.unaryNot parser)

/-- `parse_binary_expr`. -/
def parseBinaryExpr (parser : Parser) (minPrec : Int) : Option (Option Expression × Parser) :=
  fix expressionBody (.binaryExpr parser minPrec)

/-- The loop of `parse_binary_expr`. -/
def parseBinaryLoop (left : Expression) (parser : Parser) : Option (Option Expression × Parser) :=
  fix expressionBody (.binaryLoop left parser)

/-- The loop over the expressions of a list. -/
def parseExpressions (parser : Parser) : Option (Option (List Expression) × Parser) :=
  fix expressionBody (.expressions parser)

theorem parseLiteral_eq (parser : Parser) :
    parseLiteral parser = literalBody parseBinaryExpr parseLiteral parser :=
  (fix_eq _ _).trans (answer_literal _ _)

theorem parseUnaryNot_eq (parser : Parser) :
    parseUnaryNot parser = unaryNotBody parseLiteral parseUnaryNot parser :=
  (fix_eq _ _).trans (answer_unaryNot _ _)

theorem parseBinaryExpr_eq (parser : Parser) (minPrec : Int) :
    parseBinaryExpr parser minPrec = binaryExprBody parseUnaryNot parseBinaryLoop parser minPrec :=
  (fix_eq _ _).trans (answer_binaryExpr _ _ _)

theorem parseBinaryLoop_eq (left : Expression) (parser : Parser) :
    parseBinaryLoop left parser =
      binaryLoopBody parseBinaryExpr parseExpressions parseBinaryLoop left parser :=
  (fix_eq _ _).trans (answer_binaryLoop _ _ _)

theorem parseExpressions_eq (parser : Parser) :
    parseExpressions parser = expressionsBody parseBinaryExpr parseExpressions parser :=
  (fix_eq _ _).trans (answer_expressions _ _)

/-- `parse_expression`. -/
def parseExpression (parser : Parser) :
    Option (Option Expression × Parser) := parseBinaryExpr parser 0

/-! ### Statements -/

/-- `parse_column_type`: text unless the type is known. -/
def parseColumnType (parser : Parser) : ColumnType × Parser :=
  if parser.type = tokenIntegerKw then (.integer, parser.advance)
  else if parser.type = tokenRealKw ∨ parser.checkKeyword "REAL" then (.float, parser.advance)
  else if parser.type = tokenTextKw ∨ parser.checkKeyword "TEXT" then (.text, parser.advance)
  else if parser.type = tokenBlobKw ∨ parser.checkKeyword "BLOB" then (.blob, parser.advance)
  else (.text, parser)

/-- One turn of the loop of `parse_column_def` over the constraints; the word behind `NOT` is not
looked at. -/
def constraintsBody (col : ColumnDef) (parser : Parser) :
    Calls (ColumnDef × Parser) (fun _ => ColumnDef × Parser) (ColumnDef × Parser) :=
  if parser.checkKeyword "NOT" then
    .ask ({ col with notNull := true }, parser.advance.advance)
  else if parser.checkKeyword "PRIMARY" then
    let parser := parser.advance
    if parser.checkKeyword "KEY" then
      .ask ({ col with primaryKey := true }, parser.advance)
    else .ask (col, parser)
  else if parser.checkKeyword "AUTOINCREMENT" then
    .ask ({ col with autoincrement := true }, parser.advance)
  else if parser.checkKeyword "DEFAULT" then do
    let (defaultValue, parser) ← .ofOption parser.advance.parseExpression
    .ask ({ col with defaultValue }, parser)
  else return (col, parser)

/-- The loop of `parse_column_def` over the constraints. -/
def parseConstraints (col : ColumnDef) (parser : Parser) : Option (ColumnDef × Parser) :=
  fix (fun (col, parser) => constraintsBody col parser) (col, parser)

/-- `parse_column_def`. -/
def parseColumnDef (parser : Parser) : Option (Option ColumnDef × Parser) :=
  orNull (some parser.parseIdentifier) fun name parser => do
    let (type, parser) := parser.parseColumnType
    let (col, parser) ← parseConstraints
      { name, type, notNull := false, primaryKey := false, autoincrement := false,
        defaultValue := none } parser
    return (some col, parser)

/-- One turn of a loop over the items of a list. -/
def itemsBody {α : Type} (ends : Parser → Prop) [DecidablePred ends]
    (parseItem : Parser → Option (Option α × Parser)) (parser : Parser) :
    Calls Parser (fun _ => Option (List α) × Parser) (Option (List α) × Parser) :=
  if ends parser then return (some [], parser)
  else orNull (.ofOption (parseItem parser)) (listItem .ask)

/-- A loop over the items of a list, which may be empty where it `ends`. -/
def parseItems {α : Type} (ends : Parser → Prop) [DecidablePred ends]
    (parseItem : Parser → Option (Option α × Parser)) (parser : Parser) :
    Option (Option (List α) × Parser) :=
  fix (itemsBody ends parseItem) parser

theorem parseItems_eq {α : Type} (ends : Parser → Prop) [DecidablePred ends]
    (parseItem : Parser → Option (Option α × Parser)) (parser : Parser) :
    parseItems ends parseItem parser =
      if ends parser then some (some [], parser)
      else orNull (parseItem parser) (listItem (parseItems ends parseItem)) := by
  rw [parseItems, fix_eq, itemsBody]
  split
  · rfl
  · simp only [answer_orNull, answer_listItem, Calls.answer_ofOption, Calls.answer_ask]
    rfl

/-- The loop of `parse_create_table` over the columns. -/
def parseColumnDefs : Parser → Option (Option (List ColumnDef) × Parser) :=
  parseItems (fun parser => parser.type = tokenRparen ∨ parser.hasError) parseColumnDef

/-- The `IF NOT EXISTS` of `parse_create_table`. -/
def parseIfNotExists (parser : Parser) : Option Bool × Parser :=
  if parser.type = tokenIf then
    let parser := parser.advance
    if parser.type = tokenNot then
      let parser := parser.advance
      if parser.type = tokenExists then (some true, parser.advance)
      else (none, parser.setError "Expected EXISTS after IF NOT")
    else (none, parser.setError "Expected NOT after IF")
  else (some false, parser)

/-- `parse_create_table`. -/
def parseCreateTable (parser : Parser) : Option (Option AstNode × Parser) :=
  orNull (some parser.parseIfNotExists) fun ifNotExists parser =>
  orNull (some parser.parseIdentifier) fun tableName parser =>
  let parser := parser.expectToken tokenLparen "Expected '(' after table name"
  orNull parser.parseColumnDefs fun columns parser =>
  let parser := parser.expectToken tokenRparen "Expected ')' after column definitions"
  let parser := parser.expectToken tokenSemicolon "Expected ';' after CREATE TABLE"
  some (some (.createTable { tableName, ifNotExists, columns }), parser)

/-- The `IF EXISTS` of `parse_drop_table`. -/
def parseIfExists (parser : Parser) : Option Bool × Parser :=
  if parser.type = tokenIf then
    let parser := parser.advance
    if parser.type = tokenExists then (some true, parser.advance)
    else (none, parser.setError "Expected EXISTS after IF")
  else (some false, parser)

/-- `parse_drop_table`. -/
def parseDropTable (parser : Parser) : Option (Option AstNode × Parser) :=
  orNull (some parser.parseIfExists) fun ifExists parser =>
  orNull (some parser.parseIdentifier) fun tableName parser =>
  let parser := parser.expectToken tokenSemicolon "Expected ';' after DROP TABLE"
  some (some (.dropTable { tableName, ifExists }), parser)

/-- `parse_create_index`. -/
def parseCreateIndex (parser : Parser) : Option (Option AstNode × Parser) :=
  let unique := parser.checkKeyword "UNIQUE"
  let parser := if unique then parser.advance else parser
  orNull (some parser.parseIdentifier) fun indexName parser =>
  if parser.checkKeyword "ON" then
    orNull (some parser.advance.parseIdentifier) fun tableName parser =>
    let parser := parser.expectToken tokenLparen "Expected '(' in CREATE INDEX"
    orNull (some parser.parseIdentifier) fun columnName parser =>
    let parser := parser.expectToken tokenRparen "Expected ')' after column name"
    let parser := parser.expectToken tokenSemicolon "Expected ';' after CREATE INDEX"
    some (some (.createIndex { indexName, tableName, columnName, unique }), parser)
  else some (none, parser.setError "Expected ON in CREATE INDEX")

/-- `parse_drop_index`. -/
def parseDropIndex (parser : Parser) : Option (Option AstNode × Parser) :=
  orNull (some parser.parseIdentifier) fun indexName parser =>
  let parser := parser.expectToken tokenSemicolon "Expected ';' after DROP INDEX"
  some (some (.dropIndex { indexName }), parser)

/-- `parse_expression_list`; an empty list is `NULL`. -/
def parseExpressionList (parser : Parser) : Option (Option (List Expression) × Parser) :=
  if parser.type = tokenRparen then some (none, parser) else parser.parseExpressions

/-- A column of `parse_insert`. -/
def parseInsertColumn (parser : Parser) : Option (Option ColumnItem × Parser) :=
  orNull (some parser.parseIdentifier) fun name parser =>
  some (some { name, columnAlias := none }, parser)

/-- The loop of `parse_insert` over the columns. -/
def parseInsertColumns : Parser → Option (Option (List ColumnItem) × Parser) :=
  parseItems (fun parser => parser.type = tokenRparen ∨ parser.hasError) parseInsertColumn

/-- The optional column list of `parse_insert`. -/
def parseInsertColumnList (parser : Parser) : Option (Option (List ColumnItem) × Parser) :=
  if parser.type = tokenLparen then
    orNull parser.advance.parseInsertColumns fun columns parser =>
    some (some columns, parser.expectToken tokenRparen "Expected ')' after column list")
  else some (some [], parser)

/-- A value list of `parse_insert`. -/
def parseValueList (parser : Parser) : Option (Option (List Expression) × Parser) :=
  orNull (parser.expectToken tokenLparen "Expected '(' before VALUES").parseExpressionList
    fun exprs parser => some (some exprs, parser.expectToken tokenRparen "Expected ')' after VALUES")

/-- The loop of `parse_insert` over the value lists. -/
def parseValueLists : Parser → Option (Option (List (List Expression)) × Parser) :=
  parseItems (fun parser => parser.hasError) parseValueList

/-- `parse_insert`. -/
def parseInsert (parser : Parser) : Option (Option AstNode × Parser) :=
  let parser := parser.advance.expectKeyword "INTO" "Expected INTO after INSERT"
  orNull (some parser.parseIdentifier) fun tableName parser =>
  orNull parser.parseInsertColumnList fun columns parser =>
  let parser := parser.expectKeyword "VALUES" "Expected VALUES after INSERT"
  orNull parser.parseValueLists fun values parser =>
  let parser := parser.expectToken tokenSemicolon "Expected ';' after INSERT"
  some (some (.insert { tableName, columns, values }), parser)

/-- A clause of `parse_update`. -/
def parseSetClause (parser : Parser) : Option (Option SetClause × Parser) :=
  orNull (some parser.parseIdentifier) fun columnName parser =>
  orNull (parser.expectToken tokenEq "Expected '=' in SET clause").parseExpression
    fun value parser => some (some { columnName, value }, parser)

/-- The loop of `parse_update` over the clauses. -/
def parseSetClauses : Parser → Option (Option (List SetClause) × Parser) :=
  parseItems (fun parser => parser.hasError) parseSetClause

/-- A clause of a keyword and an expression that may be missing. -/
def parseClause (kw : String) (parser : Parser) : Option (Option (Option Expression) × Parser) :=
  if parser.checkKeyword kw then
    orNull parser.advance.parseExpression fun expr parser => some (some (some expr), parser)
  else some (some none, parser)

/-- The `WHERE` that `UPDATE` and `DELETE` require. -/
def parseWhere (msg : String) (parser : Parser) : Option (Option Expression × Parser) :=
  if parser.checkKeyword "WHERE" then parser.advance.parseExpression
  else some (none, parser.setError msg)

/-- `parse_update`. -/
def parseUpdate (parser : Parser) : Option (Option AstNode × Parser) :=
  orNull (some parser.advance.parseIdentifier) fun tableName parser =>
  let parser := parser.expectKeyword "SET" "Expected SET after UPDATE table name"
  orNull parser.parseSetClauses fun setClauses parser =>
  orNull (parser.parseWhere "UPDATE requires WHERE clause") fun whereClause parser =>
  let parser := parser.expectToken tokenSemicolon "Expected ';' after UPDATE"
  some (some (.update { tableName, setClauses, whereClause }), parser)

/-- `parse_delete`. -/
def parseDelete (parser : Parser) : Option (Option AstNode × Parser) :=
  let parser := parser.advance.expectKeyword "FROM" "Expected FROM after DELETE"
  orNull (some parser.parseIdentifier) fun tableName parser =>
  orNull (parser.parseWhere "DELETE requires WHERE clause") fun whereClause parser =>
  let parser := parser.expectToken tokenSemicolon "Expected ';' after DELETE"
  some (some (.delete { tableName, whereClause }), parser)

/-- The alias of a column in `parse_column_list`; a failure to read it is not looked at. -/
def parseAlias (parser : Parser) : Option (List UInt8) × Parser :=
  if parser.checkKeyword "AS" ∨ parser.type = tokenAs then parser.advance.parseIdentifier
  else (none, parser)

/-- One turn of the loop of `parse_column_list`. -/
def columnListBody (parser : Parser) :
    Calls Parser (fun _ => Option (List ColumnItem) × Parser) (Option (List ColumnItem) × Parser) :=
  if parser.type = tokenStar then
    return (some [{ name := ascii "*", columnAlias := none }], parser.advance)
  else
    orNull (pure parser.parseIdentifier) fun name parser =>
    let (columnAlias, parser) := parser.parseAlias
    listItem .ask { name, columnAlias } parser

/-- `parse_column_list`. -/
def parseColumnList (parser : Parser) : Option (Option (List ColumnItem) × Parser) :=
  fix columnListBody parser

theorem parseColumnList_eq (parser : Parser) :
    parser.parseColumnList =
      if parser.type = tokenStar then some (some [⟨ascii "*", none⟩], parser.advance)
      else orNull (some parser.parseIdentifier) fun name named =>
        listItem parseColumnList ⟨name, named.parseAlias.1⟩ named.parseAlias.2 := by
  rw [parseColumnList, fix_eq, columnListBody]
  split
  · rfl
  · simp only [answer_orNull, answer_listItem, Calls.answer_ask]
    rfl

/-- The direction of an item in `parse_order_by`. -/
def parseDirection (parser : Parser) : Bool × Parser :=
  if parser.checkKeyword "DESC" then (true, parser.advance)
  else if parser.checkKeyword "ASC" then (false, parser.advance)
  else (false, parser)

/-- An item of `parse_order_by`. -/
def parseOrderByItem (parser : Parser) : Option (Option OrderByItem × Parser) :=
  orNull (some parser.parseIdentifier) fun columnName parser =>
  let (descending, parser) := parser.parseDirection
  some (some { columnName, descending }, parser)

/-- `parse_order_by`; an empty list is `NULL`. -/
def parseOrderBy : Parser → Option (Option (List OrderByItem) × Parser) :=
  parseItems (fun parser => parser.hasError) parseOrderByItem

/-- The `ORDER BY` of `parse_select`; `ORDER` alone is skipped. -/
def parseOrderClause (parser : Parser) : Option (Option (List OrderByItem) × Parser) :=
  if parser.checkKeyword "ORDER" then
    let parser := parser.advance
    if parser.checkKeyword "BY" then
      orNull parser.advance.parseOrderBy fun items parser =>
      if items.isEmpty then some (none, parser) else some (some items, parser)
    else some (some [], parser)
  else some (some [], parser)

/-- `parse_select`. -/
def parseSelect (parser : Parser) : Option (Option AstNode × Parser) :=
  let parser := parser.advance
  let isDistinct := parser.checkKeyword "DISTINCT"
  let parser := if isDistinct then parser.advance else parser
  orNull parser.parseColumnList fun columns parser =>
  if parser.type ≠ tokenFrom then
    some (none, parser.setError "Expected FROM after SELECT columns")
  else
    orNull (some parser.advance.parseIdentifier) fun tableName parser =>
    orNull (parser.parseClause "WHERE") fun whereClause parser =>
    orNull parser.parseOrderClause fun orderBy parser =>
    orNull (parser.parseClause "LIMIT") fun limit parser =>
    orNull (parser.parseClause "OFFSET") fun offset parser =>
    let parser := parser.expectToken tokenSemicolon "Expected ';' after SELECT"
    some (some (.select { columns, isDistinct, tableName, whereClause, orderBy, limit, offset }),
      parser)

/-- `parse_transaction`. -/
def parseTransaction (parser : Parser) : Option (Option AstNode × Parser) :=
  let finish (transactionType : TransactionType) (parser : Parser) :=
    some (some (.transaction transactionType),
      parser.expectToken tokenSemicolon "Expected ';' after transaction statement")
  match parser.type with
  | tokenBegin =>
    let parser := parser.advance
    finish .txBegin (if parser.checkKeyword "TRANSACTION" then parser.advance else parser)
  | tokenCommit => finish .txCommit parser.advance
  | tokenRollback => finish .txRollback parser.advance
  | _ => some (none, parser.setError "Invalid transaction statement")

/-- `parse_statement`. -/
def parseStatement (parser : Parser) : Option (Option AstNode × Parser) :=
  match parser.type with
  | tokenCreate =>
    let parser := parser.advance
    if parser.type = tokenTable then parser.advance.parseCreateTable
    else if parser.type = tokenIndex then parser.advance.parseCreateIndex
    else some (none, parser.setError "Expected TABLE or INDEX after CREATE")
  | tokenDrop =>
    let parser := parser.advance
    if parser.type = tokenTable then parser.advance.parseDropTable
    else if parser.type = tokenIndex then parser.advance.parseDropIndex
    else some (none, parser.setError "Expected TABLE or INDEX after DROP")
  | tokenInsert => parser.parseInsert
  | tokenUpdate => parser.parseUpdate
  | tokenDelete => parser.parseDelete
  | tokenSelect => parser.parseSelect
  | tokenBegin | tokenCommit | tokenRollback => parser.parseTransaction
  | _ => some (none, parser.setError "Unexpected token at start of statement")

end

end Parser

/-- `parser_parse`. -/
noncomputable def parserParse (parser : Parser) : Option (Option AstNode × Parser) :=
  if parser.hasError then some (none, parser) else parser.parseStatement

end TinyDb

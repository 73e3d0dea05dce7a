/-
This file shows that parsing gives a query or an insertion back. A `SELECT` of columns or of
`*`, with an order and limits or without, and an `INSERT` of rows of literals are written in
any layout, and the parser returns the statement that was written and records no error.
-/

import TinyDb.StatementText

namespace TinyDb

open TokenType List

variable {kw : String} {types : List TokenType} {token : Token} {tokens : List Token}

/-! ### Queries -/

/-- A column of a query, with its alias. -/
structure SelectItem where
  name : ColumnName
  columnAlias : Option ColumnName

namespace SelectItem

def pieces (item : SelectItem) : List Piece :=
  .identifier item.name ::
    match item.columnAlias with
    | none => []
    | some columnAlias => [.keyword "AS" (by decide), .identifier columnAlias]

def tree (item : SelectItem) : ColumnItem where
  name := item.name.text
  columnAlias := item.columnAlias.map ColumnName.text

end SelectItem

/-- What a query selects. -/
inductive SelectList
  | star
  | items (list : OneOrMore SelectItem)

namespace SelectList

def pieces : SelectList → List Piece
  | star => [.mark .star]
  | items list => listed SelectItem.pieces list

def tree : SelectList → List ColumnItem
  | star => [{ name := ascii "*", columnAlias := none }]
  | items list => list.toList.map SelectItem.tree

end SelectList

/-- An item of an order, with its direction. -/
structure OrderItem where
  column : ColumnName
  descending : Bool

namespace OrderItem

def pieces (item : OrderItem) : List Piece :=
  [.identifier item.column,
    if item.descending then .keyword "DESC" (by decide) else .keyword "ASC" (by decide)]

def tree (item : OrderItem) : OrderByItem where
  columnName := item.column.text
  descending := item.descending

end OrderItem

def orderPieces : Option (OneOrMore OrderItem) → List Piece
  | none => []
  | some list =>
    .keyword "ORDER" (by decide) :: .keyword "BY" (by decide) :: listed OrderItem.pieces list

def orderTree : Option (OneOrMore OrderItem) → List OrderByItem
  | none => []
  | some list => list.toList.map OrderItem.tree

/-- A clause of a keyword and an integer. -/
def clausePieces (kw : String) (isWord : isUpperWord (ascii kw) = true) :
    Option Int64Literal → List Piece
  | none => []
  | some number => [.keyword kw isWord, .integer number]

def clauseTree (number : Option Int64Literal) : Option Expression :=
  number.map fun number => .literalInt number.value

/-- A query without a condition. -/
structure SelectText where
  columns : SelectList
  table : ColumnName
  orderBy : Option (OneOrMore OrderItem)
  limit : Option Int64Literal
  offset : Option Int64Literal

namespace SelectText

def pieces (statement : SelectText) : List Piece :=
  .keyword "SELECT" (by decide) :: (statement.columns.pieces ++
    .keyword "FROM" (by decide) :: .identifier statement.table ::
      (orderPieces statement.orderBy ++ (clausePieces "LIMIT" (by decide) statement.limit ++
        (clausePieces "OFFSET" (by decide) statement.offset ++ [.mark .semicolon]))))

def node (statement : SelectText) : AstNode :=
  .select {
    columns := statement.columns.tree
    isDistinct := false
    tableName := statement.table.text
    whereClause := none
    orderBy := orderTree statement.orderBy
    limit := clauseTree statement.limit
    offset := clauseTree statement.offset }

end SelectText

namespace Parser

variable {parser : Parser} {tokens rest : List Token}

/-- A column of a query ends in front of a comma or `FROM`. -/
theorem At.selectItem (item : SelectItem)
    (stands : List.Forall₂ Token.StandsFor tokens item.pieces)
    (follows : firstType rest = tokenComma ∨ firstType rest = tokenFrom)
    (atTokens : parser.At false (tokens ++ rest)) :
    ∃ next, parser.parseColumnList = Parser.listItem parseColumnList item.tree next ∧
      next.At false rest := by
  obtain ⟨token, others, rfl, isName, standsAlias⟩ := standsFor_cons stands
  have notStar : parser.type ≠ tokenStar := by
    rw [atTokens.type_eq, cons_append, firstType_cons, isName.1]
    decide
  have named := atTokens.advance
  rw [parseColumnList_eq, if_neg notStar, atTokens.parseIdentifier isName.1, isName.2]
  obtain ⟨name, columnAlias⟩ := item
  cases columnAlias with
  | none =>
    obtain rfl := standsFor_nil standsAlias
    have noAs : ¬(parser.advance.checkKeyword "AS" = true ∨ parser.advance.type = tokenAs) := by
      rw [named.checkKeyword rfl (by decide), named.type_eq]
      simp only [decide_eq_true_eq, or_self]
      obtain comma | isFrom := follows
      · exact fun isAs => TokenType.noConfusion (comma.symm.trans isAs)
      · exact fun isAs => TokenType.noConfusion (isFrom.symm.trans isAs)
    refine ⟨parser.advance, ?_, named⟩
    rw [orNull_some, parseAlias, if_neg noAs]
    rfl
  | some columnAlias =>
    obtain ⟨asToken, others, rfl, isAs, standsName⟩ := standsFor_cons standsAlias
    obtain ⟨aliasToken, others, rfl, isAlias, standsNothing⟩ := standsFor_cons standsName
    obtain rfl := standsFor_nil standsNothing
    have atAs : parser.advance.type = tokenAs := named.type_eq.trans (isAs.1.trans (by decide))
    have atAlias := named.advance
    refine ⟨parser.advance.advance.advance, ?_, atAlias.advance⟩
    rw [orNull_some, parseAlias, if_pos (.inr atAs), atAlias.parseIdentifier isAlias.1, isAlias.2]
    rfl

/-- The columns of a query end in front of `FROM`. -/
theorem At.selectList (list : SelectList)
    (stands : List.Forall₂ Token.StandsFor tokens list.pieces)
    (follows : firstType rest = tokenFrom) (atTokens : parser.At false (tokens ++ rest)) :
    Yields parser.parseColumnList list.tree rest := by
  cases list with
  | star =>
    obtain ⟨token, others, rfl, isStar, standsNothing⟩ := standsFor_cons stands
    obtain rfl := standsFor_nil standsNothing
    have atStar : parser.type = tokenStar := atTokens.type_eq.trans isStar
    rw [parseColumnList_eq, if_pos atStar]
    exact atTokens.advance.yields _
  | items list =>
    exact Yields.listed (by decide) _ (fun item _ _ _ _ => At.selectItem item) stands follows
      atTokens

/-- An item of an order has its direction behind it. -/
theorem At.orderItem (item : OrderItem) (stands : List.Forall₂ Token.StandsFor tokens item.pieces)
    (atTokens : parser.At false (tokens ++ rest)) :
    Yields parser.parseOrderByItem item.tree rest := by
  obtain ⟨token, others, rfl, isName, standsDirection⟩ := standsFor_cons stands
  obtain ⟨direction, others, rfl, isDirection, standsNothing⟩ := standsFor_cons standsDirection
  obtain rfl := standsFor_nil standsNothing
  refine (atTokens.yieldsName isName).orNull fun parser atDirection => ?_
  have isDesc : parser.checkKeyword "DESC" = decide (direction.type = tokenDesc) :=
    atDirection.checkKeyword rfl (by decide)
  have isAsc : parser.checkKeyword "ASC" = decide (direction.type = tokenAsc) :=
    atDirection.checkKeyword rfl (by decide)
  have directed : parser.parseDirection = (item.descending, parser.advance) := by
    rw [parseDirection, isDesc, isAsc]
    obtain ⟨column, descending⟩ := item
    cases descending with
    | false =>
      have isType : direction.type = tokenAsc := isDirection.1.trans (by decide)
      rw [isType]
      rfl
    | true =>
      have isType : direction.type = tokenDesc := isDirection.1.trans (by decide)
      rw [isType]
      rfl
  rw [directed]
  exact atDirection.advance.yields _

/-- An order ends in front of any token but a comma. -/
theorem At.orderClause_yields (list : Option (OneOrMore OrderItem))
    (stands : List.Forall₂ Token.StandsFor tokens (orderPieces list))
    (noComma : firstType rest ≠ tokenComma) (noOrder : firstType rest ≠ tokenOrder)
    (atTokens : parser.At false (tokens ++ rest)) :
    Yields parser.parseOrderClause (orderTree list) rest := by
  cases list with
  | none =>
    obtain rfl := standsFor_nil stands
    rw [parseOrderClause, if_neg (atTokens.missesKeyword "ORDER" rfl (by decide) noOrder)]
    exact atTokens.yields _
  | some list =>
    obtain ⟨order, others, rfl, isOrder, standsBy⟩ := standsFor_cons stands
    obtain ⟨byToken, others, rfl, isBy, standsItems⟩ := standsFor_cons standsBy
    have atBy := atTokens.advance
    have items : Yields parser.advance.advance.parseOrderBy (list.toList.map OrderItem.tree) rest :=
      Yields.items noComma _ (fun item _ _ _ _ standsItem _ atItem =>
        ⟨by simp [atItem.failed], At.orderItem _ standsItem atItem⟩) standsItems rfl
        atBy.advance
    rw [parseOrderClause, if_pos (atTokens.seesKeyword isOrder (by decide))]
    rw [if_pos (atBy.seesKeyword isBy (by decide))]
    exact items.orNull fun parser atRest => atRest.yields _

theorem At.noClause_yields (misses : ¬parser.checkKeyword kw = true)
    (atTokens : parser.At false rest) : Yields (parser.parseClause kw) none rest := by
  rw [parseClause, if_neg misses]
  exact atTokens.yields _

/-- A clause ends in front of a token that ends an expression. -/
theorem At.clause_yields {isWord : isUpperWord (ascii kw) = true}
    (known : keywordToTokenType kw = some (lookupKeyword (ascii kw)))
    (isKeyword : lookupKeyword (ascii kw) ≠ tokenIdentifier) (number : Option Int64Literal)
    (stands : List.Forall₂ Token.StandsFor tokens (clausePieces kw isWord number))
    (ends : endsExpression (firstType rest) = true) (noDot : firstType rest ≠ tokenDot)
    (other : firstType rest ≠ lookupKeyword (ascii kw))
    (atTokens : parser.At false (tokens ++ rest)) :
    Yields (parser.parseClause kw) (clauseTree number) rest := by
  cases number with
  | none =>
    obtain rfl := standsFor_nil stands
    exact At.noClause_yields (atTokens.missesKeyword kw known isKeyword other) atTokens
  | some number =>
    obtain ⟨keyword, others, rfl, isType, standsNumber⟩ := standsFor_cons stands
    obtain ⟨token, others, rfl, ⟨isInteger, value⟩, standsNothing⟩ := standsFor_cons standsNumber
    obtain rfl := standsFor_nil standsNothing
    rw [parseClause, if_pos (atTokens.seesKeyword isType known)]
    have read : Yields parser.advance.parseExpression (.literalInt token.integerValue) rest :=
      (ReadTo.integer isInteger).expression _ _ 0 ends noDot atTokens.advance
    rw [value] at read
    exact read.orNull fun parser atRest => atRest.yields _

end Parser

section Queries

variable {tokens rest : List Token} {parser : Parser}

/-- The first of the tokens of a clause that may be missing. -/
theorem firstType_clause {isWord : isUpperWord (ascii kw) = true} {type : TokenType}
    (known : lookupKeyword (ascii kw) = type) {number : Option Int64Literal}
    (stands : List.Forall₂ Token.StandsFor tokens (clausePieces kw isWord number))
    (follows : firstType rest ∈ types) : firstType (tokens ++ rest) ∈ type :: types := by
  cases number with
  | none =>
    obtain rfl := standsFor_nil stands
    exact mem_cons_of_mem _ follows
  | some number =>
    obtain ⟨keyword, others, rfl, isType, -⟩ := standsFor_cons stands
    rw [cons_append, firstType_cons, isType.1, known]
    exact mem_cons_self

theorem firstType_order {list : Option (OneOrMore OrderItem)}
    (stands : List.Forall₂ Token.StandsFor tokens (orderPieces list))
    (follows : firstType rest ∈ types) : firstType (tokens ++ rest) ∈ tokenOrder :: types := by
  cases list with
  | none =>
    obtain rfl := standsFor_nil stands
    exact mem_cons_of_mem _ follows
  | some list =>
    obtain ⟨keyword, others, rfl, isType, -⟩ := standsFor_cons stands
    have isOrder : keyword.type = tokenOrder := isType.1.trans (by decide)
    rw [cons_append, firstType_cons, isOrder]
    exact mem_cons_self

/-- A statement is returned without an error. -/
theorem Parser.Yields.parseText {sql : List UInt8} {node : AstNode}
    (created : parserCreate sql = some parser) (yields : Yields parser.parseStatement node rest) :
    ∃ after, TinyDb.parseText sql = some (some node, some after) ∧ parserError after = none := by
  obtain ⟨after, returned, atRest⟩ := yields
  refine ⟨after, ?_, (parserError_eq_none _).mpr atRest.failed⟩
  rw [parseText_eq created, returned]
  rfl

/-- The clauses of a query are taken up to the semicolon. -/
theorem Parser.At.clauses_yield (orderBy : Option (OneOrMore OrderItem))
    (limit offset : Option Int64Literal) (stands : List.Forall₂ Token.StandsFor tokens
      (orderPieces orderBy ++ (clausePieces "LIMIT" (by decide) limit ++
        (clausePieces "OFFSET" (by decide) offset ++ [.mark .semicolon]))))
    (atTokens : parser.At false (tokens ++ rest)) (msg : String)
    (build : Option Expression → List OrderByItem → Option Expression → Option Expression →
      AstNode) :
    Yields (orNull (parser.parseClause "WHERE") fun whereClause parser =>
      orNull parser.parseOrderClause fun orderBy parser =>
      orNull (parser.parseClause "LIMIT") fun limit parser =>
      orNull (parser.parseClause "OFFSET") fun offset parser =>
      some (some (build whereClause orderBy limit offset), parser.expectToken tokenSemicolon msg))
      (build none (orderTree orderBy) (clauseTree limit) (clauseTree offset)) rest := by
  obtain ⟨orderTokens, tokens, rfl, standOrder, stands⟩ := forall₂_append_right stands
  obtain ⟨limitTokens, tokens, rfl, standLimit, stands⟩ := forall₂_append_right stands
  obtain ⟨offsetTokens, tokens, rfl, standOffset, stands⟩ := forall₂_append_right stands
  obtain ⟨semicolon, tokens, rfl, isSemicolon, stands⟩ := standsFor_cons stands
  obtain rfl := standsFor_nil stands
  simp only [append_assoc] at atTokens
  have atEnd : firstType (semicolon :: rest) ∈ [tokenSemicolon] :=
    mem_singleton.mpr isSemicolon
  have atOffset := firstType_clause (show _ = tokenOffset by decide) standOffset atEnd
  have atLimit := firstType_clause (show _ = tokenLimit by decide) standLimit atOffset
  have atOrder := firstType_order standOrder atLimit
  have noWhere := atTokens.missesKeyword "WHERE" rfl (by decide)
    ((by decide : ∀ type ∈ [tokenOrder, tokenLimit, tokenOffset, tokenSemicolon],
      type ≠ tokenWhere) _ atOrder)
  refine (At.noClause_yields noWhere atTokens).orNull fun parser atTokens => ?_
  have ordered := (by decide : ∀ type ∈ [tokenLimit, tokenOffset, tokenSemicolon],
    type ≠ tokenComma ∧ type ≠ tokenOrder) _ atLimit
  refine (At.orderClause_yields _ standOrder ordered.1 ordered.2 atTokens).orNull
    fun parser atTokens => ?_
  have limited := (by decide : ∀ type ∈ [tokenOffset, tokenSemicolon],
    endsExpression type = true ∧ type ≠ tokenDot ∧ type ≠ lookupKeyword (ascii "LIMIT")) _ atOffset
  refine (At.clause_yields (by decide) (by decide) _ standLimit limited.1 limited.2.1
    limited.2.2 atTokens).orNull fun parser atTokens => ?_
  have ended := (by decide : ∀ type ∈ [tokenSemicolon],
    endsExpression type = true ∧ type ≠ tokenDot ∧ type ≠ lookupKeyword (ascii "OFFSET")) _ atEnd
  refine (At.clause_yields (by decide) (by decide) _ standOffset ended.1 ended.2.1
    ended.2.2 atTokens).orNull fun parser atSemicolon => ?_
  exact (atSemicolon.passToken isSemicolon _).yields _

theorem Parser.At.select_yields (statement : SelectText)
    (stands : List.Forall₂ Token.StandsFor tokens statement.pieces)
    (atTokens : parser.At false (tokens ++ rest)) :
    Yields parser.parseStatement statement.node rest := by
  obtain ⟨select, tokens, rfl, isSelect, stands⟩ := standsFor_cons stands
  obtain ⟨columns, tokens, rfl, standColumns, stands⟩ := forall₂_append_right stands
  obtain ⟨fromToken, tokens, rfl, isFrom, stands⟩ := standsFor_cons stands
  obtain ⟨table, tokens, rfl, isTable, standClauses⟩ := standsFor_cons stands
  simp only [append_assoc, cons_append] at atTokens
  have selectType : parser.type = tokenSelect :=
    atTokens.type_eq.trans (isSelect.1.trans (by decide))
  have fromType : firstType (fromToken :: table :: (tokens ++ rest)) = tokenFrom :=
    isFrom.1.trans (by decide)
  have notDistinct : parser.advance.checkKeyword "DISTINCT" = false :=
    atTokens.advance.checkKeyword_none rfl (by decide)
  rw [parseStatement, selectType]
  rw [parseSelect, notDistinct]
  refine (At.selectList _ standColumns fromType atTokens.advance).orNull
    fun parser atFrom => ?_
  rw [if_neg (not_not_intro (atFrom.type_eq.trans fromType))]
  refine (atFrom.advance.yieldsName isTable).orNull fun parser atClauses => ?_
  exact atClauses.clauses_yield _ _ _ standClauses _
    fun whereClause orderBy limit offset => .select {
      columns := statement.columns.tree, isDistinct := false, tableName := statement.table.text,
      whereClause, orderBy, limit, offset }

/-- For every query of columns with or without an alias, or of `*`, from a table, with an order or
without, and with or without a limit and an offset, in every layout of its text, parsing returns
exactly this query, with no condition and not distinct, and records no error. -/
theorem select_round_trip (statement : SelectText) (sql more : List UInt8)
    (writes : Writes more sql statement.pieces) :
    ∃ parser, parseText sql = some (some statement.node, some parser) ∧
      parserError parser = none := by
  obtain ⟨parser, tokens, others, created, stands, atTokens⟩ := writes.parserCreate
  exact (Parser.At.select_yields _ stands atTokens).parseText created

theorem select_round_trip_ordered :
    ∃ parser, parseText (ascii " SELECT a , b AS c FROM t ORDER BY a DESC LIMIT 10 OFFSET 0x2 ; ") =
        some (some (.select {
          columns := [⟨ascii "a", none⟩, ⟨ascii "b", some (ascii "c")⟩]
          isDistinct := false
          tableName := ascii "t"
          whereClause := none
          orderBy := [⟨ascii "a", true⟩]
          limit := some (.literalInt 10)
          offset := some (.literalInt 2) }), some parser) ∧
      parserError parser = none :=
  select_round_trip {
    columns := .items {
      first := ⟨⟨ascii "a", by decide, by decide +kernel, by decide +kernel⟩, none⟩
      others := [⟨⟨ascii "b", by decide, by decide +kernel, by decide +kernel⟩,
        some ⟨ascii "c", by decide, by decide +kernel, by decide +kernel⟩⟩] }
    table := ⟨ascii "t", by decide, by decide +kernel, by decide +kernel⟩
    orderBy := some ⟨⟨⟨ascii "a", by decide, by decide +kernel, by decide +kernel⟩, true⟩, []⟩
    limit := some ⟨.decimal (ascii "10") (by decide) (by decide +kernel), by decide +kernel⟩
    offset := some ⟨.hexadecimal _ (.inl rfl) (ascii "2") (by decide) (by decide +kernel),
      by decide +kernel⟩ } _ [char ' '] (writes_spaced (by decide +kernel))

end Queries

/-! ### Insertions -/

theorem isUpperWord_null : isUpperWord (ascii "NULL") = true := by decide

/-- A literal of a row. -/
inductive InsertLiteral
  | integer (number : Int64Literal)
  | string (value : List UInt8) (noNul : ∀ c ∈ value, c ≠ 0)
  | null

namespace InsertLiteral

def piece : InsertLiteral → Piece
  | integer number => .integer number
  | string value noNul => .string value noNul
  | null => .keyword "NULL" isUpperWord_null

def tree : InsertLiteral → Expression
  | integer number => .literalInt number.value
  | string value _ => .literalString value
  | null => .literalNull

theorem readTo (literal : InsertLiteral) (stands : token.StandsFor literal.piece) :
    ReadTo true [token] literal.tree := by
  cases literal with
  | integer number =>
    obtain ⟨isInteger, value⟩ := stands
    rw [tree, ← value]
    exact .integer isInteger
  | string value noNul =>
    obtain ⟨isString, rfl⟩ := stands
    exact .string isString
  | null => exact .null (stands.1.trans (by decide))

theorem notRparen (literal : InsertLiteral) (stands : token.StandsFor literal.piece) :
    token.type ≠ tokenRparen := by
  cases literal with
  | integer | string => rw [stands.1]; decide
  | null =>
    have isNull : token.type = tokenNull := stands.1.trans (by decide)
    rw [isNull]
    decide

end InsertLiteral

/-- Items between parentheses. -/
def parenthesised {β : Type} (item : β → List Piece) (list : OneOrMore β) : List Piece :=
  .mark .lparen :: (listed item list ++ [.mark .rparen])

def rowPieces (row : OneOrMore InsertLiteral) : List Piece :=
  parenthesised (fun literal => [literal.piece]) row

def rowTree (row : OneOrMore InsertLiteral) : List Expression := row.toList.map InsertLiteral.tree

def columnsPieces : Option (OneOrMore ColumnName) → List Piece
  | none => []
  | some columns => parenthesised (fun column => [.identifier column]) columns

def columnsTree : Option (OneOrMore ColumnName) → List ColumnItem
  | none => []
  | some columns => columns.toList.map fun column => { name := column.text, columnAlias := none }

/-- An insertion of rows of literals. -/
structure InsertText where
  table : ColumnName
  columns : Option (OneOrMore ColumnName)
  rows : OneOrMore (OneOrMore InsertLiteral)

namespace InsertText

def pieces (statement : InsertText) : List Piece :=
  .keyword "INSERT" (by decide) :: .keyword "INTO" (by decide) :: .identifier statement.table ::
    (columnsPieces statement.columns ++ .keyword "VALUES" (by decide) ::
      (listed rowPieces statement.rows ++ [.mark .semicolon]))

def node (statement : InsertText) : AstNode :=
  .insert {
    tableName := statement.table.text
    columns := columnsTree statement.columns
    values := statement.rows.toList.map rowTree }

end InsertText

/-- The tokens of pieces between parentheses. -/
theorem standsFor_enclosed {pieces : List Piece} (stands : List.Forall₂ Token.StandsFor tokens
      (.mark .lparen :: (pieces ++ [.mark .rparen]))) :
    ∃ opens inner closes, tokens = opens :: (inner ++ [closes]) ∧ opens.type = tokenLparen ∧
      closes.type = tokenRparen ∧ List.Forall₂ Token.StandsFor inner pieces := by
  obtain ⟨opens, others, rfl, isOpen, stands⟩ := standsFor_cons stands
  obtain ⟨inner, others, rfl, standInner, stands⟩ := forall₂_append_right stands
  obtain ⟨closes, others, rfl, isClose, stands⟩ := standsFor_cons stands
  obtain rfl := standsFor_nil stands
  exact ⟨opens, inner, closes, rfl, isOpen, isClose, standInner⟩

namespace Parser

variable {parser : Parser} {tokens rest : List Token}

/-- The literals of a row end in front of the parenthesis. -/
theorem At.literals_yield (row : OneOrMore InsertLiteral)
    (stands : List.Forall₂ Token.StandsFor tokens (listed (fun literal => [literal.piece]) row))
    (closes : firstType rest = tokenRparen) (atTokens : parser.At false (tokens ++ rest)) :
    Yields parser.parseExpressionList (rowTree row) rest := by
  have opens : parser.type ≠ tokenRparen := by
    obtain ⟨token, others, rfl, isLiteral, -⟩ := standsFor_cons stands
    rw [atTokens.type_eq, cons_append]
    exact row.first.notRparen isLiteral
  rw [parseExpressionList, if_neg opens]
  refine Yields.listed (by decide) row
    (fun literal _ tokens rest parser stands follows atTokens => ?_) stands closes atTokens
  obtain ⟨token, others, rfl, isLiteral, standsNothing⟩ := standsFor_cons stands
  obtain rfl := standsFor_nil standsNothing
  have ended : endsExpression (firstType rest) = true ∧ firstType rest ≠ tokenDot := by
    obtain is | is := follows <;> rw [is] <;> decide
  obtain ⟨next, returned, atRest⟩ :=
    (literal.readTo isLiteral).expression _ _ 0 ended.1 ended.2 atTokens
  refine ⟨next, ?_, atRest⟩
  rw [parseExpressions_eq, expressionsBody, returned, orNull_some]

theorem At.row_yields (row : OneOrMore InsertLiteral)
    (stands : List.Forall₂ Token.StandsFor tokens (rowPieces row))
    (atTokens : parser.At false (tokens ++ rest)) :
    Yields parser.parseValueList (rowTree row) rest := by
  obtain ⟨opens, inner, closes, rfl, isOpen, isClose, standInner⟩ := standsFor_enclosed stands
  rw [cons_append, append_assoc] at atTokens
  have follows : firstType (closes :: rest) = tokenRparen := isClose
  refine (At.literals_yield row standInner follows (atTokens.passToken isOpen _)).orNull
    fun parser atClose => ?_
  exact (atClose.passToken isClose _).yields _

/-- The column list of an insertion, if there is one, ends in front of `VALUES`. -/
theorem At.insertColumns_yield (columns : Option (OneOrMore ColumnName))
    (stands : List.Forall₂ Token.StandsFor tokens (columnsPieces columns))
    (follows : firstType rest = tokenValues) (atTokens : parser.At false (tokens ++ rest)) :
    Yields parser.parseInsertColumnList (columnsTree columns) rest := by
  rw [parseInsertColumnList, atTokens.type_eq]
  cases columns with
  | none =>
    obtain rfl := standsFor_nil stands
    rw [if_neg (by rw [nil_append, follows]; decide)]
    exact atTokens.yields _
  | some columns =>
    obtain ⟨opens, inner, closes, rfl, isOpen, isClose, standInner⟩ :=
      standsFor_enclosed stands
    rw [cons_append, append_assoc] at atTokens
    have closed : firstType (closes :: rest) = tokenRparen := isClose
    have items : Yields parser.advance.parseInsertColumns
        (columns.toList.map fun column => ⟨column.text, none⟩) (closes :: rest) := by
      refine Yields.items (by decide) _
        (fun column _ tokens rest parser stands follows atTokens => ?_) standInner closed
        atTokens.advance
      obtain ⟨token, others, rfl, isName, standsNothing⟩ := standsFor_cons stands
      obtain rfl := standsFor_nil standsNothing
      refine ⟨?_, (atTokens.yieldsName isName).orNull fun parser atRest => atRest.yields _⟩
      rw [atTokens.type_eq, atTokens.failed, cons_append, firstType_cons, isName.1]
      decide
    rw [if_pos (by exact isOpen)]
    exact items.orNull fun parser atClose => (atClose.passToken isClose _).yields _

end Parser

theorem Parser.At.insert_yields (statement : InsertText) {parser : Parser} {rest : List Token}
    (stands : List.Forall₂ Token.StandsFor tokens statement.pieces)
    (atTokens : parser.At false (tokens ++ rest)) :
    Yields parser.parseStatement statement.node rest := by
  obtain ⟨insert, tokens, rfl, isInsert, stands⟩ := standsFor_cons stands
  obtain ⟨into, tokens, rfl, isInto, stands⟩ := standsFor_cons stands
  obtain ⟨table, tokens, rfl, isTable, stands⟩ := standsFor_cons stands
  obtain ⟨columns, tokens, rfl, standColumns, stands⟩ := forall₂_append_right stands
  obtain ⟨values, tokens, rfl, isValues, stands⟩ := standsFor_cons stands
  obtain ⟨rows, tokens, rfl, standRows, stands⟩ := forall₂_append_right stands
  obtain ⟨semicolon, tokens, rfl, isSemicolon, stands⟩ := standsFor_cons stands
  obtain rfl := standsFor_nil stands
  simp only [append_assoc, cons_append] at atTokens
  have insertType : parser.type = tokenInsert :=
    atTokens.type_eq.trans (isInsert.1.trans (by decide))
  have atValues : firstType (values :: (rows ++ semicolon :: rest)) = tokenValues :=
    isValues.1.trans (by decide)
  have atEnd : firstType (semicolon :: rest) = tokenSemicolon := isSemicolon
  rw [parseStatement, insertType]
  refine ((atTokens.advance.passKeyword isInto (by decide) _).yieldsName isTable).orNull
    fun parser atColumns => ?_
  refine (At.insertColumns_yield _ standColumns atValues atColumns).orNull
    fun parser atValues => ?_
  have rowsYield : Yields
      (parser.expectKeyword "VALUES" "Expected VALUES after INSERT").parseValueLists
      (statement.rows.toList.map rowTree) (semicolon :: rest) :=
    Yields.items (by decide) _ (fun row _ _ _ _ standRow _ atRow =>
      ⟨by simp [atRow.failed], At.row_yields row standRow atRow⟩) standRows atEnd
      (atValues.passKeyword isValues (by decide) _)
  refine rowsYield.orNull fun parser atSemicolon => ?_
  exact (atSemicolon.passToken isSemicolon _).yields _

/-- For every table, with a list of columns or without, and all rows of integers, strings and
`NULL`s, in every layout of its text, parsing returns exactly this insertion and records no
error. -/
theorem insert_round_trip (statement : InsertText) (sql more : List UInt8)
    (writes : Writes more sql statement.pieces) :
    ∃ parser, parseText sql = some (some statement.node, some parser) ∧
      parserError parser = none := by
  obtain ⟨parser, tokens, others, created, stands, atTokens⟩ := writes.parserCreate
  exact (Parser.At.insert_yields _ stands atTokens).parseText created

theorem insert_round_trip_rows :
    ∃ parser, parseText (ascii
        " INSERT INTO t ( a , b ) VALUES ( 1 , 'it''s' ) , ( 2 , NULL ) ; ") =
        some (some (.insert {
          tableName := ascii "t"
          columns := [⟨ascii "a", none⟩, ⟨ascii "b", none⟩]
          values := [[.literalInt 1, .literalString (ascii "it's")],
            [.literalInt 2, .literalNull]] }),
          some parser) ∧
      parserError parser = none :=
  insert_round_trip {
    table := ⟨ascii "t", by decide, by decide +kernel, by decide +kernel⟩
    columns := some {
      first := ⟨ascii "a", by decide, by decide +kernel, by decide +kernel⟩
      others := [⟨ascii "b", by decide, by decide +kernel, by decide +kernel⟩] }
    rows := {
      first := {
        first := .integer ⟨.decimal (ascii "1") (by decide) (by decide +kernel), by decide +kernel⟩
        others := [.string _ (by decide +kernel)] }
      others := [{
        first := .integer ⟨.decimal (ascii "2") (by decide) (by decide +kernel), by decide +kernel⟩
        others := [.null] }] } } _ [char ' '] (writes_spaced (by decide +kernel))

end TinyDb

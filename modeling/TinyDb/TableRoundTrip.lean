/-
This file decides which tables parsing gives back. A `CREATE TABLE` of columns with their types
and constraints is written in any layout, and the parser returns the columns that were written
exactly if none of them is an `INTEGER`: the word is missing in the table of keywords, so the
parser takes no type and stops in front of it.
-/

import TinyDb.StatementRoundTrip

namespace TinyDb

open TokenType List

variable {closed : Bool} {sql : List UInt8}

/-! ### Tables -/

/-- A constraint of a column. -/
inductive Constraint
  | notNull | primaryKey | autoincrement
  deriving DecidableEq

namespace Constraint

def pieces : Constraint → List Piece
  | notNull => [.keyword "NOT" (by decide), .keyword "NULL" isUpperWord_null]
  | primaryKey => [.keyword "PRIMARY" (by decide), .keyword "KEY" (by decide)]
  | autoincrement => [.keyword "AUTOINCREMENT" (by decide)]

/-- A column with one more constraint. -/
def add (col : ColumnDef) : Constraint → ColumnDef
  | notNull => { col with notNull := true }
  | primaryKey => { col with primaryKey := true }
  | autoincrement => { col with autoincrement := true }

theorem foldl_add (col : ColumnDef) (constraints : List Constraint) :
    constraints.foldl add col = { col with
      notNull := col.notNull || decide (notNull ∈ constraints)
      primaryKey := col.primaryKey || decide (primaryKey ∈ constraints)
      autoincrement := col.autoincrement || decide (autoincrement ∈ constraints) } := by
  induction constraints generalizing col with
  | nil => simp
  | cons constraint constraints inductionHypothesis =>
    rw [foldl_cons, inductionHypothesis]
    cases constraint <;> simp [add]

end Constraint

def ColumnType.piece : ColumnType → Piece
  | integer => .keyword "INTEGER" (by decide)
  | float => .keyword "REAL" (by decide)
  | text => .keyword "TEXT" (by decide)
  | blob => .keyword "BLOB" (by decide)

/-- A column of a table, with its type and constraints. -/
structure ColumnText where
  name : ColumnName
  type : ColumnType
  constraints : List Constraint

namespace ColumnText

def pieces (column : ColumnText) : List Piece :=
  .identifier column.name :: column.type.piece :: column.constraints.flatMap Constraint.pieces

def tree (column : ColumnText) : ColumnDef where
  name := column.name.text
  type := column.type
  notNull := .notNull ∈ column.constraints
  primaryKey := .primaryKey ∈ column.constraints
  autoincrement := .autoincrement ∈ column.constraints
  defaultValue := none

end ColumnText

/-- A table of columns. -/
structure TableText where
  table : ColumnName
  columns : OneOrMore ColumnText

namespace TableText

def pieces (statement : TableText) : List Piece :=
  .keyword "CREATE" (by decide) :: .keyword "TABLE" (by decide) :: .identifier statement.table ::
    (parenthesised ColumnText.pieces statement.columns ++ [.mark .semicolon])

def node (statement : TableText) : AstNode :=
  .createTable {
    tableName := statement.table.text
    ifNotExists := false
    columns := statement.columns.toList.map ColumnText.tree }

end TableText

/-! ### Columns -/

theorem Token.StandsFor.isKeyword {token : Token} {kw : String}
    {isWord : isUpperWord (ascii kw) = true} (stands : token.StandsFor (.keyword kw isWord))
    (other : String) :
    Parser.isKeyword token other =
      (Parser.keywordToTokenType other = some (lookupKeyword (ascii kw)) ||
        (lookupKeyword (ascii kw) = tokenIdentifier && ascii kw = ascii other)) := by
  rw [Parser.isKeyword, stands.1, stands.2]

/-- The words that are written for the types of columns: the parser takes those that it knows, and
stops in front of the others. -/
structure TypeWords where
  piece : ColumnType → Piece
  known : ColumnType → Bool
  read {type : ColumnType} {token : Token} {rest : List Token} {parser : Parser} :
    token.StandsFor (piece type) → parser.At false (token :: rest) →
      parser.parseColumnType = if known type then (type, parser.advance) else (.text, parser)
  unknown {type : ColumnType} {token : Token} :
    known type = false → token.StandsFor (piece type) → token.type = tokenIdentifier

/-- The types as they are written in statements. -/
def sqlWords : TypeWords where
  piece := ColumnType.piece
  known type := type ≠ .integer
  read {type} _ _ _ stands atType := by
    rw [Parser.parseColumnType, Parser.type, Parser.checkKeyword, Parser.checkKeyword,
      Parser.checkKeyword, atType.current]
    cases type with
    | integer | float | text | blob =>
      rw [stands.isKeyword "REAL", stands.isKeyword "TEXT", stands.isKeyword "BLOB", stands.1]
      rfl
  unknown {type} _ isInteger stands := by
    cases type with
    | integer => exact stands.1.trans (by decide)
    | float | text | blob => cases isInteger

/-- A column with its type in words. -/
def TypeWords.columnPieces (words : TypeWords) (column : ColumnText) : List Piece :=
  .identifier column.name :: words.piece column.type ::
    column.constraints.flatMap Constraint.pieces

/-- What stands behind the columns of a table, with the parenthesis or without it. -/
def closing (closed : Bool) : List Piece :=
  (if closed then [.mark .rparen] else []) ++ [.mark .semicolon]

/-- A table of written columns. -/
def tablePieces (table : ColumnName) (columns : List Piece) (closed : Bool) : List Piece :=
  .keyword "CREATE" (by decide) :: .keyword "TABLE" (by decide) :: .identifier table ::
    .mark .lparen :: (columns ++ closing closed)

namespace Parser

variable {parser : Parser} {token : Token} {tokens rest : List Token} {words : TypeWords}

/-- The loop over the constraints takes all of them. -/
theorem At.constraints_yield (constraints : List Constraint) (col : ColumnDef)
    (stands : List.Forall₂ Token.StandsFor tokens (constraints.flatMap Constraint.pieces))
    (ends : startsConstraint (firstType rest) = false)
    (atTokens : parser.At false (tokens ++ rest)) :
    ∃ next, parseConstraints col parser = some (constraints.foldl Constraint.add col, next) ∧
      next.At false rest := by
  induction constraints generalizing col tokens parser with
  | nil =>
    obtain rfl := standsFor_nil stands
    exact ⟨parser, atTokens.constraints_end ends col, atTokens⟩
  | cons constraint constraints inductionHypothesis =>
    obtain ⟨front, back, rfl, standsOne, standsOthers⟩ := forall₂_append_right stands
    rw [append_assoc] at atTokens
    rw [atTokens.parseConstraints_eq]
    cases constraint with
    | notNull =>
      obtain ⟨first, others, rfl, isNot, standsNull⟩ := standsFor_cons standsOne
      obtain ⟨second, others, rfl, -, standsNothing⟩ := standsFor_cons standsNull
      obtain rfl := standsFor_nil standsNothing
      have notType : first.type = tokenNot := isNot.1.trans (by decide)
      rw [cons_append, firstType_cons, notType]
      exact inductionHypothesis _ standsOthers atTokens.advance.advance
    | primaryKey =>
      obtain ⟨first, others, rfl, isPrimary, standsKey⟩ := standsFor_cons standsOne
      obtain ⟨second, others, rfl, isKey, standsNothing⟩ := standsFor_cons standsKey
      obtain rfl := standsFor_nil standsNothing
      have primaryType : first.type = tokenPrimary := isPrimary.1.trans (by decide)
      have atKey : parser.advance.checkKeyword "KEY" = true :=
        atTokens.advance.seesKeyword isKey (by decide)
      rw [cons_append, firstType_cons, primaryType,
        if_pos atKey]
      exact inductionHypothesis _ standsOthers atTokens.advance.advance
    | autoincrement =>
      obtain ⟨first, others, rfl, isAutoincrement, standsNothing⟩ := standsFor_cons standsOne
      obtain rfl := standsFor_nil standsNothing
      have autoincrementType : first.type = tokenAutoincrement :=
        isAutoincrement.1.trans (by decide)
      rw [cons_append, firstType_cons, autoincrementType]
      exact inductionHypothesis _ standsOthers atTokens.advance

/-- A column of a known type is taken as it was written. -/
theorem At.columnDef_yields (column : ColumnText) (known : words.known column.type = true)
    (stands : List.Forall₂ Token.StandsFor tokens (words.columnPieces column))
    (ends : startsConstraint (firstType rest) = false)
    (atTokens : parser.At false (tokens ++ rest)) :
    Yields parser.parseColumnDef column.tree rest := by
  obtain ⟨name, others, rfl, isName, stands⟩ := standsFor_cons stands
  obtain ⟨type, others, rfl, isType, stands⟩ := standsFor_cons stands
  refine (atTokens.yieldsName isName).orNull fun parser atType => ?_
  obtain ⟨next, returned, atRest⟩ := At.constraints_yield column.constraints
    ⟨column.name.text, column.type, false, false, false, none⟩ stands ends atType.advance
  rw [words.read isType atType, if_pos known]
  dsimp only
  rw [returned, Constraint.foldl_add]
  exact atRest.yields _

/-- A column of another type ends in front of the type. -/
theorem At.columnDef_stops (column : ColumnText) (unknown : words.known column.type = false)
    (stands : List.Forall₂ Token.StandsFor tokens (words.columnPieces column))
    (atTokens : parser.At false (tokens ++ rest)) :
    ∃ col behind, Yields parser.parseColumnDef col behind ∧ firstType behind = tokenIdentifier := by
  obtain ⟨name, others, rfl, isName, stands⟩ := standsFor_cons stands
  obtain ⟨type, others, rfl, isType, stands⟩ := standsFor_cons stands
  have identifierType := words.unknown unknown isType
  refine ⟨⟨column.name.text, .text, false, false, false, none⟩, type :: (others ++ rest),
    (atTokens.yieldsName isName).orNull fun parser atType => ?_, identifierType⟩
  rw [words.read isType atType, unknown, if_neg Bool.false_ne_true]
  dsimp only
  rw [atType.constraints_end (show startsConstraint type.type = false by rw [identifierType]; rfl)]
  exact atType.yields _

theorem At.columnDefs_open (column : ColumnText)
    (stands : List.Forall₂ Token.StandsFor tokens (words.columnPieces column))
    (atTokens : parser.At false (tokens ++ rest)) :
    ¬(parser.type = tokenRparen ∨ parser.hasError = true) := by
  obtain ⟨name, others, rfl, isName, -⟩ := standsFor_cons stands
  rw [atTokens.type_eq, atTokens.failed, cons_append, firstType_cons, isName.1]
  decide

/-- Columns of known types are taken as they were written. -/
theorem At.columnDefs_yield (columns : OneOrMore ColumnText)
    (known : ∀ column ∈ columns.toList, words.known column.type = true)
    (stands : List.Forall₂ Token.StandsFor tokens (listed words.columnPieces columns))
    (closes : firstType rest = tokenRparen ∨ firstType rest = tokenSemicolon)
    (atTokens : parser.At false (tokens ++ rest)) :
    Yields parser.parseColumnDefs (columns.toList.map ColumnText.tree) rest := by
  have noComma : firstType rest ≠ tokenComma := by
    obtain is | is := closes <;> rw [is] <;> decide
  have noConstraint : startsConstraint (firstType rest) = false := by
    obtain is | is := closes <;> rw [is] <;> rfl
  refine Yields.items noComma _
    (fun column member tokens rest parser stands follows atTokens => ?_) stands rfl atTokens
  have ends : startsConstraint (firstType rest) = false := by
    obtain is | is := follows <;> rw [is]
    · rfl
    · exact noConstraint
  exact ⟨atTokens.columnDefs_open _ stands,
    At.columnDef_yields _ (known _ member) stands ends atTokens⟩

theorem At.columnDefs_stop_first (column : ColumnText)
    (unknown : words.known column.type = false)
    (stands : List.Forall₂ Token.StandsFor tokens (words.columnPieces column))
    (atTokens : parser.At false (tokens ++ rest)) :
    ∃ cols behind, Yields parser.parseColumnDefs cols behind ∧
      firstType behind = tokenIdentifier := by
  obtain ⟨col, behind, yields, atType⟩ := At.columnDef_stops _ unknown stands atTokens
  refine ⟨[col], behind, ?_, atType⟩
  rw [parseColumnDefs, parseItems_eq, if_neg (atTokens.columnDefs_open _ stands)]
  refine yields.orNull fun parser atBehind => ?_
  rw [Parser.listItem, if_neg (by rw [atBehind.type_eq, atType]; decide)]
  exact atBehind.yields [col]

/-- The loop over the columns ends in front of the first other type. -/
theorem At.columnDefs_stop (columns : OneOrMore ColumnText)
    (found : ∃ column ∈ columns.toList, words.known column.type = false)
    (stands : List.Forall₂ Token.StandsFor tokens (listed words.columnPieces columns))
    (atTokens : parser.At false (tokens ++ rest)) :
    ∃ cols behind, Yields parser.parseColumnDefs cols behind ∧
      firstType behind = tokenIdentifier := by
  obtain ⟨first, others⟩ := columns
  induction others generalizing first tokens parser with
  | nil =>
    obtain ⟨column, member, unknown⟩ := found
    obtain rfl := mem_singleton.mp member
    rw [listed, flatMap_nil, append_nil] at stands
    exact At.columnDefs_stop_first _ unknown stands atTokens
  | cons second others inductionHypothesis =>
    obtain ⟨front, back, rfl, standsFirst, standsRest⟩ := forall₂_append_right stands
    obtain ⟨comma, back, rfl, isMark, standsOthers⟩ := standsFor_cons standsRest
    rw [append_assoc] at atTokens
    cases known : words.known first.type with
    | false => exact At.columnDefs_stop_first _ known standsFirst atTokens
    | true =>
      have isComma : firstType (comma :: back ++ rest) = tokenComma := isMark
      have foundBehind : ∃ column ∈ second :: others, words.known column.type = false := by
        obtain ⟨column, member, unknown⟩ := found
        obtain rfl | member := mem_cons.mp member
        · cases known.symm.trans unknown
        · exact ⟨column, member, unknown⟩
      obtain ⟨next, returned, atComma⟩ :=
        At.columnDef_yields _ known standsFirst (by rw [isComma]; rfl) atTokens
      obtain ⟨cols, behind, ⟨after, others, atBehind⟩, atType⟩ :=
        inductionHypothesis atComma.advance _ foundBehind standsOthers
      refine ⟨first.tree :: cols, behind, ⟨after, ?_, atBehind⟩, atType⟩
      rw [parseColumnDefs, parseItems_eq, if_neg (atTokens.columnDefs_open _ standsFirst),
        returned, orNull_some, Parser.listItem, if_pos (atComma.type_eq.trans isComma),
        ← parseColumnDefs, others]
      rfl

end Parser

/-! ### Statements -/

section Statements

variable {parser : Parser} {tokens rest : List Token}

/-- The statement is the loop over the columns and the two tokens behind it. -/
theorem Parser.At.parseStatement_table (table : ColumnName) {columns : List Piece}
    (stands : List.Forall₂ Token.StandsFor tokens (tablePieces table columns closed))
    (atTokens : parser.At false (tokens ++ rest)) :
    ∃ (next : Parser) (inner closes : List Token),
      List.Forall₂ Token.StandsFor inner columns ∧
      List.Forall₂ Token.StandsFor closes (closing closed) ∧
      next.At false (inner ++ (closes ++ rest)) ∧
      parser.parseStatement = orNull next.parseColumnDefs fun columns parser =>
        some (some (.createTable ⟨table.text, false, columns⟩),
          (parser.expectToken tokenRparen "Expected ')' after column definitions").expectToken
            tokenSemicolon "Expected ';' after CREATE TABLE") := by
  obtain ⟨create, tokens, rfl, isCreate, stands⟩ := standsFor_cons stands
  obtain ⟨tableToken, tokens, rfl, isTable, stands⟩ := standsFor_cons stands
  obtain ⟨name, tokens, rfl, isName, stands⟩ := standsFor_cons stands
  obtain ⟨opens, tokens, rfl, isOpen, stands⟩ := standsFor_cons stands
  obtain ⟨inner, closes, rfl, standInner, standCloses⟩ := forall₂_append_right stands
  simp only [List.append_assoc, List.cons_append] at atTokens
  have atTable := atTokens.advance
  have atName := atTable.advance
  have createType : parser.type = tokenCreate :=
    atTokens.type_eq.trans (isCreate.1.trans (by decide))
  have tableType : parser.advance.type = tokenTable :=
    atTable.type_eq.trans (isTable.1.trans (by decide))
  have nameType : parser.advance.advance.type ≠ tokenIf := by
    rw [atName.type_eq, List.tail_cons, List.tail_cons, firstType_cons, isName.1]
    decide
  refine ⟨_, inner, closes, standInner, standCloses,
    atName.advance.passToken isOpen "Expected '(' after table name", ?_⟩
  rw [parseStatement, createType]
  rw [if_pos tableType, parseCreateTable, parseIfNotExists, if_neg nameType, orNull_some,
    atName.parseIdentifier isName.1, isName.2]
  rfl

/-- Behind the columns stand the parenthesis and the semicolon. -/
theorem standsFor_closing {closes : List Token}
    (stands : List.Forall₂ Token.StandsFor closes (closing true)) :
    ∃ close semicolon, closes = [close, semicolon] ∧ close.type = tokenRparen ∧
      semicolon.type = tokenSemicolon := by
  obtain ⟨close, closes, rfl, isClose, stands⟩ := standsFor_cons stands
  obtain ⟨semicolon, closes, rfl, isSemicolon, stands⟩ := standsFor_cons stands
  obtain rfl := standsFor_nil stands
  exact ⟨close, semicolon, rfl, isClose, isSemicolon⟩

theorem Parser.At.table_yields (words : TypeWords) (statement : TableText)
    (known : ∀ column ∈ statement.columns.toList, words.known column.type = true)
    (stands : List.Forall₂ Token.StandsFor tokens
      (tablePieces statement.table (listed words.columnPieces statement.columns) true))
    (atTokens : parser.At false (tokens ++ rest)) :
    Yields parser.parseStatement statement.node rest := by
  obtain ⟨next, inner, closes, standInner, standCloses, atColumns, returned⟩ :=
    atTokens.parseStatement_table _ stands
  obtain ⟨close, semicolon, rfl, isClose, isSemicolon⟩ := standsFor_closing standCloses
  have closes : firstType ([close, semicolon] ++ rest) = tokenRparen := isClose
  rw [returned]
  refine (At.columnDefs_yield _ known standInner (.inl closes) atColumns).orNull
    fun parser atClose => ?_
  exact ((atClose.passToken isClose _).passToken isSemicolon _).yields _

/-- Another type, or the semicolon, is not the parenthesis that the parser looks for behind the
columns. -/
theorem Parser.At.table_fails (words : TypeWords) (statement : TableText) (fails : ¬(closed = true ∧
      ∀ column ∈ statement.columns.toList, words.known column.type = true))
    (stands : List.Forall₂ Token.StandsFor tokens
      (tablePieces statement.table (listed words.columnPieces statement.columns) closed))
    (atTokens : parser.At false (tokens ++ rest)) :
    ∃ node after, parser.parseStatement = some (some node, after) ∧ after.hasError = true := by
  obtain ⟨next, inner, closes, standInner, standCloses, atColumns, returned⟩ :=
    atTokens.parseStatement_table _ stands
  obtain ⟨cols, behind, ⟨stopped, columns, atBehind⟩, notClose⟩ :
      ∃ cols behind, Yields next.parseColumnDefs cols behind ∧
        firstType behind ≠ tokenRparen := by
    by_cases known : ∀ column ∈ statement.columns.toList, words.known column.type = true
    · have isOpen : closed = false := Bool.eq_false_iff.mpr fun isClosed => fails ⟨isClosed, known⟩
      subst isOpen
      obtain ⟨semicolon, closes, rfl, isMark, -⟩ := standsFor_cons standCloses
      have isSemicolon : firstType (semicolon :: closes ++ rest) = tokenSemicolon := isMark
      refine ⟨_, _, At.columnDefs_yield _ known standInner (.inr isSemicolon) atColumns, ?_⟩
      rw [isSemicolon]
      decide
    · push Not at known
      simp only [← Bool.eq_false_iff] at known
      obtain ⟨cols, behind, yields, atType⟩ := At.columnDefs_stop _ known standInner atColumns
      refine ⟨cols, behind, yields, ?_⟩
      rw [atType]
      decide
  have failed : (stopped.expectToken tokenRparen "Expected ')' after column definitions").At true
      behind := by
    rw [Parser.expectToken, if_pos (atBehind.type_eq ▸ notClose)]
    exact atBehind.setError _
  rw [returned, columns]
  exact ⟨_, _, rfl, (failed.expectToken_failed _ _).failed⟩

/-- A text has one statement at most. -/
theorem parsed_iff_eq {node : AstNode}
    (parsed : ∃ parser, parseText sql = some (some node, some parser) ∧ parserError parser = none)
    (other : AstNode) :
    (∃ parser, parseText sql = some (some other, some parser) ∧ parserError parser = none) ↔
      other = node := by
  refine ⟨fun ⟨_, again, _⟩ => ?_, fun same => same ▸ parsed⟩
  obtain ⟨after, parsed, -⟩ := parsed
  exact Option.some.inj (Prod.mk.inj (Option.some.inj (again.symm.trans parsed))).1

/-- A table is returned without an error exactly if it is closed and all its types are known. -/
theorem TypeWords.parsed_iff (words : TypeWords) (statement : TableText) {more : List UInt8}
    (writes : Writes more sql
      (tablePieces statement.table (listed words.columnPieces statement.columns) closed))
    (node : AstNode) :
    (∃ parser, parseText sql = some (some node, some parser) ∧ parserError parser = none) ↔
      (closed = true ∧ ∀ column ∈ statement.columns.toList, words.known column.type = true) ∧
        node = statement.node := by
  obtain ⟨parser, tokens, others, created, stands, atTokens⟩ := writes.parserCreate
  by_cases known : closed = true ∧
    ∀ column ∈ statement.columns.toList, words.known column.type = true
  · obtain ⟨rfl, known⟩ := known
    rw [parsed_iff_eq ((atTokens.table_yields _ _ known stands).parseText created),
      and_iff_right ⟨rfl, known⟩]
  · refine iff_of_false (fun ⟨after, parsed, noError⟩ => ?_) (fun ⟨isKnown, _⟩ => known isKnown)
    obtain ⟨node, failed, returned, hasError⟩ := atTokens.table_fails _ _ known stands
    rw [parseText_eq created, returned] at parsed
    cases (Prod.mk.inj (Option.some.inj parsed)).2
    rw [parserError_eq_none, hasError] at noError
    cases noError

/-- For every table of columns with their types and constraints, in every layout of its text and in
every letter case of its keywords, parsing returns exactly these columns and records no error,
exactly if no column is an `INTEGER`. -/
theorem create_table_round_trip_iff (statement : TableText) (sql more : List UInt8)
    (writes : Writes more sql statement.pieces) :
    (∃ parser, parseText sql = some (some statement.node, some parser) ∧
      parserError parser = none) ↔
      ∀ column ∈ statement.columns.toList, column.type ≠ .integer := by
  have pieces : statement.pieces =
      tablePieces statement.table (listed sqlWords.columnPieces statement.columns) true := by
    rw [TableText.pieces, parenthesised, cons_append, append_assoc]
    rfl
  rw [sqlWords.parsed_iff statement (pieces ▸ writes), and_iff_left rfl, and_iff_right rfl]
  exact forall₂_congr fun column _ => decide_eq_true_iff

theorem create_table_round_trip_typed :
    ∃ parser, parseText (ascii
        " CREATE TABLE t ( a REAL PRIMARY KEY AUTOINCREMENT , b TEXT , c BLOB NOT NULL ) ; ") =
        some (some (.createTable {
          tableName := ascii "t"
          ifNotExists := false
          columns := [⟨ascii "a", .float, false, true, true, none⟩,
            ⟨ascii "b", .text, false, false, false, none⟩,
            ⟨ascii "c", .blob, true, false, false, none⟩] }), some parser) ∧
      parserError parser = none :=
  (create_table_round_trip_iff {
    table := ⟨ascii "t", by decide, by decide +kernel, by decide +kernel⟩
    columns := {
      first := ⟨⟨ascii "a", by decide, by decide +kernel, by decide +kernel⟩, .float,
        [.primaryKey, .autoincrement]⟩
      others := [
        ⟨⟨ascii "b", by decide, by decide +kernel, by decide +kernel⟩, .text, []⟩,
        ⟨⟨ascii "c", by decide, by decide +kernel, by decide +kernel⟩, .blob, [.notNull]⟩] } }
    _ [char ' '] (writes_spaced (by decide +kernel))).mpr (by decide)

/-- The parser returns a statement for a table of integers, but it records an error. -/
theorem integer_column_not_parsed :
    ∃ node parser, parseText (ascii "CREATE TABLE t (a INTEGER);") = some (some node, some parser) ∧
      parserError parser ≠ none :=
  parseText_records (by decide +kernel)

end Statements

end TinyDb

/-
This file models the syntax trees of SQL statements. An operator is the integer the
parser stores, not an enumeration, since the evaluator compares it with character
constants and with token codes alike.

Reference counts are left out, and so are the three kinds of expressions that no
function builds.
-/
import TinyDb.Lexer

namespace TinyDb

/-! ### Expressions -/

/-- `Expression`. -/
inductive Expression
  | literalInt (asInt : Int64)
  | literalFloat (asFloat : Float)
  | literalString (str : List UInt8)
  | literalNull
  | column (colIndex : Int) (colName : List UInt8)
  | binary (left : Expression) (op : Int) (right : Expression)
  | unary (op : Int) (operand : Expression)
  | inList (value : Expression) (list : List Expression) (isNot : Bool)
  | between (value low high : Expression) (isNot : Bool)
  | like (str pattern : Expression) (escape : Int) (isNot : Bool)

/-! ### Statements -/

/-- `ColumnType`. -/
inductive ColumnType
  | integer | float | text | blob
  deriving DecidableEq

/-- `ColumnDef`, an item of a list in `CREATE TABLE`. -/
structure ColumnDef where
  name : List UInt8
  type : ColumnType
  notNull : Bool
  primaryKey : Bool
  autoincrement : Bool
  defaultValue : Option Expression

/-- `ColumnList`, an item of the columns of `SELECT` or `INSERT`. -/
structure ColumnItem where
  name : List UInt8
  columnAlias : Option (List UInt8)

/-- `OrderByItem`. -/
structure OrderByItem where
  columnName : List UInt8
  descending : Bool

/-- `SetClause`. -/
structure SetClause where
  columnName : List UInt8
  value : Expression

structure AstCreateTable where
  tableName : List UInt8
  ifNotExists : Bool
  columns : List ColumnDef

structure AstDropTable where
  tableName : List UInt8
  ifExists : Bool

structure AstCreateIndex where
  indexName : List UInt8
  tableName : List UInt8
  columnName : List UInt8
  unique : Bool

structure AstDropIndex where
  indexName : List UInt8

/-- `AstInsert`; a value list is the list of its expressions. -/
structure AstInsert where
  tableName : List UInt8
  columns : List ColumnItem
  values : List (List Expression)

structure AstUpdate where
  tableName : List UInt8
  setClauses : List SetClause
  whereClause : Option Expression

structure AstDelete where
  tableName : List UInt8
  whereClause : Option Expression

structure AstSelect where
  columns : List ColumnItem
  isDistinct : Bool
  tableName : List UInt8
  whereClause : Option Expression
  orderBy : List OrderByItem
  limit : Option Expression
  offset : Option Expression

inductive TransactionType
  | txBegin | txCommit | txRollback

/-- `AstNode`, with the type of the statement as its constructor. -/
inductive AstNode
  | createTable (statement : AstCreateTable)
  | dropTable (statement : AstDropTable)
  | createIndex (statement : AstCreateIndex)
  | dropIndex (statement : AstDropIndex)
  | insert (statement : AstInsert)
  | update (statement : AstUpdate)
  | delete (statement : AstDelete)
  | select (statement : AstSelect)
  | transaction (transactionType : TransactionType)

end TinyDb

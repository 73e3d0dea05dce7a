/-
This file models the executor: the dispatch over the statements, the statements
that are implemented and the ones that only report success.

The text of a table and the bytes of a row are built in buffers of fixed size on
the stack, and a write past the end of such a buffer is a fault. `CREATE TABLE`
closes the handle of the new tree twice. The second call reads and frees memory
that has been freed; what comes of it is a parameter here. The counter of the row
ids is a static variable of the source, so it belongs to the process and outlives
the executor; here it is a field of the executor.
-/

import TinyDb.Ast
import TinyDb.LeafTree
import TinyDb.Storage

namespace TinyDb

open Heaps Bytes CStrings

/-! ### Executors -/

/-- `TxnState`. -/
inductive TxnState
  | none
  | active
  | committed
  | rolledBack
  deriving DecidableEq

/-- `Executor`, with the row id counter of `executor_exec_insert`. -/
structure Executor where
  storage : Storage
  inTransaction : Bool
  txnState : TxnState
  rowidCounter : UInt64

/-- `executor_create`, in a process that has used some row ids. -/
def executorCreate (storage : Storage) (rowidCounter : UInt64) : Executor where
  storage
  inTransaction := false
  txnState := .none
  rowidCounter

/-- What a statement returns: a code of the library, or the `-1` of the tree. -/
inductive ReturnCode
  | success
  | execTableNotFound
  | txAlreadyActive
  | txNotActive
  | storageIo
  | internal
  | failure
  deriving DecidableEq

/-- What the tree returns. -/
def ReturnCode.ofTree (done : Bool) : ReturnCode := if done then .success else .failure

/-- The executor with the cache as a call left it. -/
def Executor.withCache (exec : Executor) (cache : PageCache) : Executor :=
  { exec with storage := { exec.storage with cache } }

/-! ### Transaction execution -/

/-- `executor_exec_begin`. -/
def executorExecBegin (exec : Executor) : ReturnCode × Executor :=
  if exec.inTransaction then (.txAlreadyActive, exec)
  else if tinydbBegin exec.storage then
    (.success, { exec with inTransaction := true, txnState := .active })
  else (.internal, exec)

/-- `executor_exec_commit`. -/
def executorExecCommit (exec : Executor) : ReturnCode × Executor :=
  if exec.inTransaction then
    if tinydbCommit exec.storage then
      (.success, { exec with inTransaction := false, txnState := .committed })
    else (.internal, exec)
  else (.txNotActive, exec)

/-- `executor_exec_rollback`. -/
def executorExecRollback (exec : Executor) : ReturnCode × Executor :=
  if exec.inTransaction then
    if tinydbRollback exec.storage then
      (.success, { exec with inTransaction := false, txnState := .rolledBack })
    else (.internal, exec)
  else (.txNotActive, exec)

/-! ### The text of a table -/

def sqlBufferSize : Nat := 512

/-- The buffer of a text: the string in it, and the offset, which counts what did not fit. -/
structure SqlBuffer where
  text : List UInt8
  offset : Nat

/-- `offset += snprintf(sql + offset, sizeof(sql) - offset, ...)`; past the end of the buffer the
size wraps and nothing stops the write. -/
def snprintf (sql : SqlBuffer) (text : List UInt8) : Except Fault SqlBuffer :=
  if sql.offset ≤ sqlBufferSize then
    return { text := sql.text ++ text.take (sqlBufferSize - 1 - sql.offset)
             offset := sql.offset + text.length }
  else .error .outOfBounds

/-- The name of a column type. -/
def columnTypeText : ColumnType → List UInt8
  | .integer => ascii "INT"
  | .float => ascii "FLOAT"
  | .text => ascii "TEXT"
  | .blob => ascii "BLOB"

/-- The body of the loop over the columns. -/
def columnSql (sql : SqlBuffer) (first : Bool) (col : ColumnDef) : Except Fault SqlBuffer := do
  let sql ← if first then pure sql else snprintf sql (ascii ", ")
  let sql ← snprintf sql (untilNul col.name ++ ascii " ")
  let sql ← snprintf sql (columnTypeText col.type)
  let sql ← if col.notNull then snprintf sql (ascii " NOT NULL") else pure sql
  if col.primaryKey then snprintf sql (ascii " PRIMARY KEY") else pure sql

/-- The loop over the columns, which stops when the buffer is nearly full. -/
def columnsSql : SqlBuffer → Bool → List ColumnDef → Except Fault SqlBuffer
  | sql, _, [] => return sql
  | sql, first, col :: next =>
    if sql.offset < sqlBufferSize - 50 then do
      let sql ← columnSql sql first col
      columnsSql sql false next
    else return sql

/-- The text that `CREATE TABLE` puts into the catalog. -/
def createTableSql (stmt : AstCreateTable) : Except Fault (List UInt8) := do
  let sql ← snprintf { text := [], offset := 0 }
    (ascii "CREATE TABLE " ++ untilNul stmt.tableName ++ ascii " (")
  let sql ← columnsSql sql true stmt.columns
  let sql ← if sql.offset < sqlBufferSize - 2 then snprintf sql (ascii ")") else pure sql
  return sql.text

/-! ### Schema execution -/

/-- What becomes of a second `btree_close` of one handle, which is undefined: the freed memory may
still hold the handle, or the program stops. -/
inductive FreedHandle
  | intact
  | lost

/-- `btree_close` of a handle that was closed before. -/
def btreeCloseAgain (freed : FreedHandle) (cache : PageCache) : Except Fault PageCache :=
  match freed with
  | .intact => btreeClose cache
  | .lost => .error .useAfterFree

/-- The entry `CREATE TABLE` makes. -/
def createTableEntry (stmt : AstCreateTable) (sql : List UInt8) (rootPage : UInt32) :
    CatalogEntry where
  type := .table
  name := strncpy 63 stmt.tableName
  tblName := strncpy 63 stmt.tableName
  sql := strncpy 511 sql
  rootPage
  isValid := true

/-- `executor_exec_create_table`. -/
def executorExecCreateTable (freed : FreedHandle) (exec : Executor) (stmt : AstCreateTable) :
    Except Fault (ReturnCode × Executor) := do
  let sql ← createTableSql stmt
  match ← btreeCreate exec.storage.cache with
  | (none, cache) => return (.storageIo, exec.withCache cache)
  | (some tableTree, cache) =>
    let cache ← btreeClose cache
    let (done, cache) ← catalogInsert cache exec.storage.catalog
      (createTableEntry stmt sql tableTree.rootPage)
    let cache ← btreeCloseAgain freed cache
    return (.ofTree done, exec.withCache cache)

/-! ### Row data -/

def rowBufferSize : Nat := 1024

/-- The bytes of one value. -/
def valueBytes : Expression → List UInt8
  | .literalInt asInt => native64 asInt.toUInt64
  | .literalFloat asFloat => native64 asFloat.toBits
  | .literalString str => untilNul str ++ [0]
  | _ => [0]

/-- One value is put behind the others. -/
def appendValue (row : List UInt8) (expr : Expression) : Except Fault (List UInt8) :=
  if row.length + (valueBytes expr).length ≤ rowBufferSize then return row ++ valueBytes expr
  else .error .outOfBounds

/-- The bytes of all value lists, of which the first sixteen values count. -/
def serializeValues (values : List (List Expression)) : Except Fault (List UInt8) :=
  (values.flatMap (·.take 16)).foldlM appendValue []

/-! ### Statements on rows -/

/-- `executor_exec_insert`. -/
def executorExecInsert (exec : Executor) (stmt : AstInsert) :
    Except Fault (ReturnCode × Executor) := do
  let (tableEntry, cache) ←
    catalogLookupTypeName exec.storage.cache exec.storage.catalog .table stmt.tableName
  match tableEntry with
  | none => return (.execTableNotFound, exec.withCache cache)
  | some tableEntry =>
    if tableEntry.rootPage > 0 then
      let rowid := exec.rowidCounter + 1
      let valueBuf ← serializeValues stmt.values
      let (done, cache) ← btreeInsert cache (btreeOpen tableEntry.rootPage) rowid valueBuf
      let cache ← btreeClose cache
      return (.ofTree done, { exec.withCache cache with rowidCounter := rowid })
    else return (.storageIo, exec.withCache cache)

def selectBufferSize : Nat := 2048

/-- `executor_exec_select`: the rows are read and counted, and handed to nobody. -/
def executorExecSelect (exec : Executor) (stmt : AstSelect) :
    Except Fault (ReturnCode × Executor) := do
  let (tableEntry, cache) ←
    catalogLookupTypeName exec.storage.cache exec.storage.catalog .table stmt.tableName
  match tableEntry with
  | none => return (.execTableNotFound, exec.withCache cache)
  | some tableEntry =>
    if tableEntry.rootPage > 0 then
      let (rows, cache) ← btreeScan cache (btreeOpen tableEntry.rootPage)
      if rows.all (·.2.length ≤ selectBufferSize) then
        let cache ← btreeClose cache
        return (.success, exec.withCache cache)
      else .error .outOfBounds
    else return (.success, exec.withCache cache)

/-! ### Dispatch -/

/-- `executor_exec`; the other statements are not implemented and report success. -/
def executorExec (freed : FreedHandle) (exec : Executor) :
    AstNode → Except Fault (ReturnCode × Executor)
  | .createTable stmt => executorExecCreateTable freed exec stmt
  | .insert stmt => executorExecInsert exec stmt
  | .select stmt => executorExecSelect exec stmt
  | .transaction .txBegin => return executorExecBegin exec
  | .transaction .txCommit => return executorExecCommit exec
  | .transaction .txRollback => return executorExecRollback exec
  | .dropTable _ | .createIndex _ | .dropIndex _ | .update _ | .delete _ => return (.success, exec)

end TinyDb

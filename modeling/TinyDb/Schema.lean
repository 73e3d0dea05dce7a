/-
This file models the schema of a table: its creation from a list of columns, and
the binary form it can be kept in.

The serialised form is a header of 84 bytes and 336 bytes for each column. Its
length depends on the number of columns alone. The writer stores field after field
into the buffer it is given, and the reader takes the number of columns from the
bytes it reads.
-/

import TinyDb.Lib.Fields
import TinyDb.Pager

namespace TinyDb

open Bytes Heaps CStrings

/-! ### Schemas -/

/-- `MAX_COLUMNS`. -/
def maxColumns : Nat := 64

/-- `SCHEMA_MAX_SIZE`. -/
def schemaMaxSize : Nat := 8192

/-- `SCHEMA_MAGIC`. -/
def schemaMagic : UInt32 := 0x5343484D

/-- `SCHEMA_VERSION`. -/
def schemaVersion : UInt32 := 1

/-- `Column`. The type is the number of a `ColumnType`, or whatever word was read for one. -/
structure Column where
  name : CharArray 64
  type : UInt32
  notNull : Int32
  primaryKey : Int32
  autoIncrement : Int32
  defaultValue : CharArray 256

/-- `Schema`; `col_count` is the length of the list. -/
structure Schema where
  tableName : CharArray 64
  columns : List Column
  rootPage : UInt32
  autoIncrement : UInt64
  isOpen : Bool

/-- `schema_create`. -/
def schemaCreate (tableName : List UInt8) (columns : List Column) : Option Schema :=
  if columns.isEmpty then none
  else some {
    tableName := .ofString (strncpy 63 tableName)
    columns
    rootPage := 0
    autoIncrement := 1
    isOpen := true }

/-! ### Serialization -/

/-- A flag as it is stored. -/
def flagBytes (flag : Int32) : List UInt8 := wordBytes (if flag ≠ 0 then 1 else 0)

/-- The fields of a column; an empty default value is not copied. -/
def columnFields (col : Column) : List (List UInt8) :=
  [(strncpy 63 col.name.bytes).array, wordBytes col.type, flagBytes col.notNull,
    flagBytes col.primaryKey, flagBytes col.autoIncrement,
    if col.defaultValue.bytes.headD 0 ≠ 0 then (strncpy 255 col.defaultValue.bytes).array
    else List.replicate 256 0]

/-- The fields of a schema, in the order in which they are stored. -/
def schemaFields (schema : Schema) : List (List UInt8) :=
  wordBytes schemaMagic :: ([wordBytes schemaVersion, (strncpy 63 schema.tableName.bytes).array,
    wordBytes (UInt32.ofNat schema.columns.length),
    wordBytes (schema.autoIncrement >>> 32).toUInt32,
    wordBytes (schema.autoIncrement &&& 0xFFFFFFFF).toUInt32] ++
      schema.columns.flatMap columnFields)

/-- `schema_serialize` into a buffer, with the size it reports. -/
def schemaSerialize {capacity : Nat} (schema : Schema) (buf : Buffer capacity) :
    Except Fault (Buffer capacity × UInt32) := do
  let (buf, offset) ← storeFields buf 0 (schemaFields schema)
  return (buf, UInt32.ofNat offset)

/-! ### Deserialization -/

/-- A word of a buffer. -/
def loadWord {size : Nat} (data : Buffer size) (offset : Nat) : Except Fault UInt32 := do
  let bytes ← loadBytes data offset 4
  return wordAt bytes 0

/-- A stored flag. -/
def flagOf (word : UInt32) : Int32 := if word ≠ 0 then 1 else 0

/-- One turn of the loop over the columns. -/
def deserializeColumn {size : Nat} (data : Buffer size) (offset : Nat) : Except Fault Column := do
  let name ← loadString 63 data offset
  let type ← loadWord data (offset + 64)
  let notNull ← loadWord data (offset + 68)
  let primaryKey ← loadWord data (offset + 72)
  let autoIncrement ← loadWord data (offset + 76)
  let defaultValue ← loadString 255 data (offset + 80)
  return {
    name := .ofString name
    type
    notNull := flagOf notNull
    primaryKey := flagOf primaryKey
    autoIncrement := flagOf autoIncrement
    defaultValue := .ofString defaultValue }

/-- The bytes that a column takes. -/
def columnSize : Nat := 336

/-- The loop over the columns. -/
def deserializeColumns {size : Nat} (data : Buffer size) : Nat → Nat → Except Fault (List Column)
  | 0, _ => return []
  | count + 1, offset => do
    let col ← deserializeColumn data offset
    let cols ← deserializeColumns data count (offset + columnSize)
    return col :: cols

/-- `schema_deserialize` of a buffer of `size` bytes. -/
def schemaDeserialize {size : UInt32} (data : Buffer size.toNat) :
    Except Fault (Option Schema) :=
  if size < 148 then return none
  else do
    let magic ← loadWord data 0
    if magic ≠ schemaMagic then return none
    else
      let version ← loadWord data 4
      if version ≠ schemaVersion then return none
      else
        let tableName ← loadString 63 data 8
        let colCount ← loadWord data 72
        if maxColumns < colCount.toNat then return none
        else
          let high ← loadWord data 76
          let low ← loadWord data 80
          let columns ← deserializeColumns data colCount.toNat 84
          return (schemaCreate tableName.bytes columns).map fun schema =>
            { schema with autoIncrement := high.toUInt64 <<< 32 ||| low.toUInt64 }

end TinyDb

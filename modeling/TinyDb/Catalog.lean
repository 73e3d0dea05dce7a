/-
This file models the catalog: a tree whose values are the entries of the tables
and indexes, each serialised into 652 bytes.

The key of an entry is made from the kind of the entry and the length of its
name. A lookup does not use the key: it walks all entries and compares names. The
character arrays of an entry are NUL-terminated strings, and its flag is a truth
value. A value that is not as long as an entry would overrun the buffer of the
cursor or leave part of it uninitialised, which is a fault here.
-/

import TinyDb.BTree
import TinyDb.Lib.CString

namespace TinyDb

open Heaps Bytes CStrings

/-! ### Catalog entry serialization -/

/-- `CatalogEntryType`; a word read from a page may be neither of its two values. -/
inductive CatalogEntryType
  | table
  | index
  | other (code : UInt32) (foreign : code ≠ 1 ∧ code ≠ 2)
  deriving DecidableEq

namespace CatalogEntryType

def code : CatalogEntryType → UInt32
  | .table => 1
  | .index => 2
  | .other code _ => code

def ofCode (code : UInt32) : CatalogEntryType :=
  if table : code = 1 then .table
  else if index : code = 2 then .index
  else .other code ⟨table, index⟩

end CatalogEntryType

/-- `CatalogEntry`. -/
structure CatalogEntry where
  type : CatalogEntryType
  name : CString 63
  tblName : CString 63
  sql : CString 511
  rootPage : UInt32
  isValid : Bool
  deriving DecidableEq

def catalogEntrySize : Nat := 652

/-- `serialize_entry`. -/
def serializeEntry (entry : CatalogEntry) : List UInt8 :=
  wordBytes entry.type.code ++ ((strncpy 63 entry.name.bytes).array ++
    ((strncpy 63 entry.tblName.bytes).array ++ ((strncpy 511 entry.sql.bytes).array ++
      (wordBytes entry.rootPage ++ wordBytes (if entry.isValid then 1 else 0)))))

/-- `deserialize_entry`. -/
def deserializeEntry (buf : List UInt8) : CatalogEntry where
  type := .ofCode (wordAt buf 0)
  name := strncpy 63 (buf.drop 4)
  tblName := strncpy 63 (buf.drop 68)
  sql := strncpy 511 (buf.drop 132)
  rootPage := wordAt buf 644
  isValid := wordAt buf 648 != 0

/-! ### Catalog lifecycle -/

/-- A catalog. -/
structure Catalog where
  tree : BTree
  isOpen : Bool

/-- `catalog_open`: the catalog is a new tree, whatever the file holds. -/
def catalogOpen (cache : PageCache) : Except Fault (Option Catalog × PageCache) := do
  match ← btreeCreate cache with
  | (none, cache) => return (none, cache)
  | (some tree, cache) => return (some { tree, isOpen := true }, cache)

/-- `catalog_close`. -/
def catalogClose (cache : PageCache) : Except Fault PageCache := btreeClose cache

/-! ### Catalog iteration -/

/-- `CatalogCursor`. -/
structure CatalogCursor where
  btreeCursor : Option BTreeCursor
  isEnd : Bool

/-- `catalog_cursor_create`. -/
def catalogCursorCreate (cache : PageCache) (catalog : Catalog) :
    Except Fault (CatalogCursor × PageCache) := do
  let (btreeCursor, cache) ← btreeFirst cache catalog.tree
  return ({ btreeCursor, isEnd := btreeCursor.isNone }, cache)

/-- `catalog_cursor_next`. -/
def catalogCursorNext (cache : PageCache) (cursor : CatalogCursor) :
    Except Fault (CatalogCursor × PageCache) := do
  match cursor.isEnd, cursor.btreeCursor with
  | false, some btreeCursor =>
    let (btreeCursor, cache) ← btreeCursorNext cache btreeCursor
    return ({ btreeCursor := some btreeCursor, isEnd := !btreeCursorValid btreeCursor }, cache)
  | _, _ => return (cursor, cache)

/-- `catalog_cursor_get`. -/
def catalogCursorGet (cache : PageCache) (cursor : CatalogCursor) :
    Except Fault (Option CatalogEntry × PageCache) := do
  match cursor.isEnd, cursor.btreeCursor with
  | false, some btreeCursor =>
    match ← btreeGet cache btreeCursor with
    | (none, cache) => return (none, cache)
    | (some (_, value), cache) =>
      if value.length = catalogEntrySize then return (some (deserializeEntry value), cache)
      else .error .outOfBounds
  | _, _ => return (none, cache)

/-- `catalog_cursor_valid`. -/
def catalogCursorValid (cursor : CatalogCursor) : Bool :=
  match cursor.isEnd, cursor.btreeCursor with
  | false, some btreeCursor => btreeCursorValid btreeCursor
  | _, _ => false

/-! ### Catalog operations -/

/-- The key `catalog_insert` stores an entry under. -/
def catalogKey (entry : CatalogEntry) : UInt64 :=
  if entry.type = .table then 1 + UInt64.ofNat entry.name.bytes.length
  else 0x80000000 + UInt64.ofNat entry.name.bytes.length

/-- `catalog_insert`: whether it returned `SUCCESS`. -/
def catalogInsert (cache : PageCache) (catalog : Catalog) (entry : CatalogEntry) :
    Except Fault (Bool × PageCache) :=
  btreeInsert cache catalog.tree (catalogKey entry) (serializeEntry entry)

/-- The test of `catalog_lookup_type_name`. -/
def CatalogEntry.isNamed (entry : CatalogEntry) (type : CatalogEntryType) (name : List UInt8) :
    Bool :=
  entry.type == type && entry.name.bytes == untilNul name

/-- The loop of `catalog_lookup_type_name`. -/
def catalogLookupLoop (type : CatalogEntryType) (name : List UInt8) :
    Nat → CatalogCursor → PageCache → Except Fault (Option CatalogEntry × PageCache)
  | 0, cursor, cache =>
    if catalogCursorValid cursor then .error .diverges else return (none, cache)
  | fuel + 1, cursor, cache => do
    if catalogCursorValid cursor then
      let (entry, cache) ← catalogCursorGet cache cursor
      match entry.filter (·.isNamed type name) with
      | some result => return (some result, cache)
      | none =>
        let (cursor, cache) ← catalogCursorNext cache cursor
        catalogLookupLoop type name fuel cursor cache
    else return (none, cache)

/-- `catalog_lookup_type_name`; a node has fewer than 2 ^ 16 cells. -/
def catalogLookupTypeName (cache : PageCache) (catalog : Catalog) (type : CatalogEntryType)
    (name : List UInt8) : Except Fault (Option CatalogEntry × PageCache) := do
  let (cursor, cache) ← catalogCursorCreate cache catalog
  catalogLookupLoop type name 65536 cursor cache

/-- The loop of `catalog_get_tables` and `catalog_get_indexes`: the wanted entries are copied behind
those found before. -/
def catalogCollectLoop (wanted : CatalogEntry → Bool) :
    Nat → CatalogCursor → List CatalogEntry → PageCache →
      Except Fault (List CatalogEntry × PageCache)
  | 0, cursor, found, cache =>
    if catalogCursorValid cursor then .error .diverges else return (found, cache)
  | fuel + 1, cursor, found, cache => do
    if catalogCursorValid cursor then
      let (entry, cache) ← catalogCursorGet cache cursor
      let (cursor, cache) ← catalogCursorNext cache cursor
      catalogCollectLoop wanted fuel cursor (found ++ (entry.filter wanted).toList) cache
    else return (found, cache)

/-- The wanted entries of a catalog, in the order of a scan. -/
def catalogCollect (wanted : CatalogEntry → Bool) (cache : PageCache) (catalog : Catalog) :
    Except Fault (List CatalogEntry × PageCache) := do
  let (cursor, cache) ← catalogCursorCreate cache catalog
  catalogCollectLoop wanted 65536 cursor [] cache

/-- `catalog_get_tables`. -/
def catalogGetTables : PageCache → Catalog → Except Fault (List CatalogEntry × PageCache) :=
  catalogCollect fun entry => entry.type == .table

/-- `catalog_get_indexes`. -/
def catalogGetIndexes (tableName : List UInt8) :
    PageCache → Catalog → Except Fault (List CatalogEntry × PageCache) :=
  catalogCollect fun entry => entry.type == .index && entry.tblName.bytes == untilNul tableName

/-- All entries, one after the other, as a cursor finds them. -/
def catalogScan : PageCache → Catalog → Except Fault (List CatalogEntry × PageCache) :=
  catalogCollect fun _ => true

end TinyDb

/-
This file models the storage handle, which owns the pager, the cache and the
catalog of one database. The pager is part of the cache here, so the handle is
the cache and the catalog.

Opening tries to open the database and creates one if that fails, for whatever
reason it failed. The hooks for transactions only look whether the handle is open.
-/

import TinyDb.Catalog

namespace TinyDb

open Heaps

/-- `Storage`. -/
structure Storage where
  cache : PageCache
  catalog : Catalog
  isOpen : Bool

/-- What `tinydb_open` is given: a path, or `NULL`, which stands for the file `:memory:`. -/
inductive Location
  | named (path : Path)
  | memory (path : Path)

/-- The pager of `tinydb_open`. -/
def openPager : Location → Option Pager × Path
  | .named path =>
    match pagerOpen path with
    | (some pager, path) => (some pager, path)
    | (none, path) => pagerCreate path
  | .memory path => pagerCreate path

/-- `page_cache_create` with 256 pages; the default size is not used. -/
def storageCache (pager : Pager) : PageCache := pageCacheCreate 256 256 (some pager)

/-- `page_cache_destroy` and `pager_close`: the path as the closed pager leaves it. -/
def closePager (cache : PageCache) : Except Fault (Option Path) := do
  let pager ← pageCacheDestroy cache
  return pager.map pagerClose

/-- `tinydb_open`: the handle, or nothing for `ERR_STORAGE_IO`, and the path as a call that failed
leaves it. -/
def tinydbOpen (location : Location) : Except Fault (Option Storage × Path) :=
  match openPager location with
  | (none, path) => return (none, path)
  | (some pager, path) => do
    match ← catalogOpen (storageCache pager) with
    | (some catalog, cache) => return (some { cache, catalog, isOpen := true }, path)
    | (none, cache) =>
      let closed ← closePager cache
      return (none, closed.getD path)

/-- `tinydb_close`: the path as the closed pager leaves it. -/
def tinydbClose (storage : Storage) : Except Fault (Option Path) := do
  let cache ← catalogClose storage.cache
  closePager cache

/-- `tinydb_begin`: whether it returned `SUCCESS`. -/
def tinydbBegin (storage : Storage) : Bool := storage.isOpen

/-- `tinydb_commit`. -/
def tinydbCommit (storage : Storage) : Bool := storage.isOpen

/-- `tinydb_rollback`. -/
def tinydbRollback (storage : Storage) : Bool := storage.isOpen

end TinyDb

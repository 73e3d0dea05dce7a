/-
This file models the page cache. Page objects live on a heap. Each one carries
the links of two lists: the chain of its hash bucket and the list of recently
used pages, whose ends the cache holds. Every access through a pointer can
fault, and a walk that meets a cycle never ends.

The pointer assignments are the source's, in the source's order, and a field is
read again wherever the source reads it again: with links gone wrong two of the
pointers in one assignment can be the same page.

Allocation of a page object always succeeds here, and the locks of the source
are left out: a cache is used by one thread.
-/

import TinyDb.Lib.Heap
import TinyDb.Pager

namespace TinyDb

open Heaps

/-! ### Pages and caches -/

/-- A cached page. -/
structure Page where
  data : PageData
  id : UInt32
  refcount : Int32
  isDirty : Bool
  isWal : Bool
  lruNext : Option Addr
  lruPrev : Option Addr
  hashNext : Option Addr
  hashPrev : Option Addr

/-- The cache, with the page objects it has allocated and the pager it refers to. -/
structure PageCache where
  heap : Heap Page
  pages : Nat → Option Addr
  tableSize : Nat
  lruHead : Option Addr
  lruTail : Option Addr
  count : Int
  maxPages : Int
  hitCount : Int32
  missCount : Int32
  pager : Option Pager
  pinCount : Int32
  evictCount : Int32

namespace PageCache

/-- `page->field = value`. -/
def update (cache : PageCache) (page : Addr) (change : Page → Page) : Except Fault PageCache := do
  let heap ← cache.heap.modify page change
  return { cache with heap }

/-- `if (page) page->field = value`. -/
def updateIf (cache : PageCache) (page : Option Addr) (change : Page → Page) :
    Except Fault PageCache :=
  match page with
  | none => return cache
  | some page => cache.update page change

end PageCache

/-- `hash_page_id`. -/
def hashPageId (pageId : UInt32) (tableSize : Nat) : Nat :=
  (pageId * 31 &&& (UInt32.ofNat tableSize - 1)).toNat

/-! ### The list of recently used pages -/

/-- `lru_remove`: the ends of the list, which the cache holds, stay as they are. -/
def lruRemove (cache : PageCache) (page : Addr) : Except Fault PageCache := do
  let read ← cache.heap.load page
  let cache ← cache.updateIf read.lruPrev ({ · with lruNext := read.lruNext })
  let read ← cache.heap.load page
  let cache ← cache.updateIf read.lruNext ({ · with lruPrev := read.lruPrev })
  cache.update page ({ · with lruPrev := none, lruNext := none })

/-- `lru_add_front`. -/
def lruAddFront (cache : PageCache) (page : Addr) : Except Fault PageCache := do
  let cache ← cache.update page ({ · with lruNext := cache.lruHead, lruPrev := none })
  let cache ← cache.updateIf cache.lruHead ({ · with lruPrev := some page })
  return { cache with lruHead := some page, lruTail := cache.lruTail.or (some page) }

/-- `lru_mru`. -/
def lruMru (cache : PageCache) (page : Addr) : Except Fault PageCache := do
  let cache ← lruRemove cache page
  lruAddFront cache page

/-! ### The hash table -/

/-- `hash_insert`. -/
def hashInsert (cache : PageCache) (page : Addr) : Except Fault PageCache := do
  let read ← cache.heap.load page
  let idx := hashPageId read.id cache.tableSize
  let cache ← cache.update page ({ · with hashNext := cache.pages idx, hashPrev := none })
  let cache ← cache.updateIf (cache.pages idx) ({ · with hashPrev := some page })
  return { cache with pages := Function.update cache.pages idx (some page) }

/-- The first assignment of `hash_remove`: the page before, or the bucket, skips the page. -/
def hashBypass (cache : PageCache) (hashPrev : Option Addr) (idx : Nat) (hashNext : Option Addr) :
    Except Fault PageCache :=
  match hashPrev with
  | some prev => cache.update prev ({ · with hashNext })
  | none => return { cache with pages := Function.update cache.pages idx hashNext }

/-- `hash_remove`. -/
def hashRemove (cache : PageCache) (page : Addr) : Except Fault PageCache := do
  let read ← cache.heap.load page
  let idx := hashPageId read.id cache.tableSize
  let cache ← hashBypass cache read.hashPrev idx read.hashNext
  let read ← cache.heap.load page
  let cache ← cache.updateIf read.hashNext ({ · with hashPrev := read.hashPrev })
  cache.update page ({ · with hashNext := none, hashPrev := none })

/-- The walk of `hash_find`. A chain of more pages than were ever allocated is a cycle. -/
def hashFindLoop (heap : Heap Page) (pageId : UInt32) :
    Nat → Option Addr → Except Fault (Option Addr)
  | _, none => return none
  | 0, some _ => .error .diverges
  | fuel + 1, some page => do
    let read ← heap.load page
    if read.id = pageId then return some page else hashFindLoop heap pageId fuel read.hashNext

/-- `hash_find`. -/
def hashFind (cache : PageCache) (pageId : UInt32) : Except Fault (Option Addr) :=
  hashFindLoop cache.heap pageId cache.heap.next (cache.pages (hashPageId pageId cache.tableSize))

/-! ### Eviction -/

/-- `page_alloc`. -/
def pageAlloc (pageId : UInt32) : Page where
  data _ := 0
  id := pageId
  refcount := 0
  isDirty := false
  isWal := false
  lruNext := none
  lruPrev := none
  hashNext := none
  hashPrev := none

/-- The write of a page, if it is dirty and there is a pager. -/
def writeBack (cache : PageCache) (page : Page) : Bool × PageCache :=
  match page.isDirty, cache.pager with
  | true, some pager =>
    let (written, pager) := pagerWritePage pager page.id page.data
    (written, { cache with pager := some pager })
  | _, _ => (true, cache)

/-- The end of both evictions: the page leaves both lists and is freed. -/
def dropPage (cache : PageCache) (page : Addr) : Except Fault PageCache := do
  let cache ← lruRemove cache page
  let cache ← hashRemove cache page
  let heap ← cache.heap.free page
  return { cache with heap, count := cache.count - 1, evictCount := cache.evictCount + 1 }

/-- The search of `evict_lru_page` for a page that is not pinned. -/
def findVictimLoop (heap : Heap Page) : Nat → Option Addr → Except Fault (Option Addr)
  | _, none => return none
  | 0, some _ => .error .diverges
  | fuel + 1, some page => do
    let read ← heap.load page
    if read.refcount = 0 then return some page else findVictimLoop heap fuel read.lruPrev

/-- The victim `evict_lru_page` finds. -/
def findVictim (cache : PageCache) : Except Fault (Option Addr) :=
  findVictimLoop cache.heap cache.heap.next cache.lruTail

/-- `evict_lru_page`: whether it returned `0`. -/
def evictLruPage (cache : PageCache) : Except Fault (Bool × PageCache) := do
  match ← findVictim cache with
  | none => return (false, cache)
  | some victim =>
    match writeBack cache (← cache.heap.load victim) with
    | (false, cache) => return (false, cache)
    | (true, cache) => return (true, ← dropPage cache victim)

/-- The loop of `page_cache_get` that evicts until there is room. -/
def makeRoom : Nat → PageCache → Except Fault (Bool × PageCache)
  | 0, cache => if cache.count ≥ cache.maxPages then .error .diverges else return (true, cache)
  | fuel + 1, cache =>
    if cache.count ≥ cache.maxPages then do
      match ← evictLruPage cache with
      | (false, cache) => return (false, cache)
      | (true, cache) => makeRoom fuel cache
    else return (true, cache)

/-! ### Lifecycle -/

/-- The doubling of `page_cache_create`, within the width of an `int`. -/
def growTable (maxPages : Int) : Nat → Nat → Nat
  | 0, tableSize => tableSize
  | fuel + 1, tableSize =>
    if (tableSize : Int) < maxPages * 2 then growTable maxPages fuel (tableSize * 2) else tableSize

def pagerMaxPages : Int := 65536

/-- The size `page_cache_create` settles on; the default is a constant of the build. -/
def clampMaxPages (defaultCacheSize maxPages : Int) : Int :=
  let maxPages := if maxPages ≤ 0 then defaultCacheSize else maxPages
  if maxPages > pagerMaxPages then pagerMaxPages else maxPages

/-- `page_cache_create`. -/
def pageCacheCreate (defaultCacheSize maxPages : Int) (pager : Option Pager) : PageCache where
  heap := Heap.empty
  pages _ := none
  tableSize := growTable (clampMaxPages defaultCacheSize maxPages) 31 16
  lruHead := none
  lruTail := none
  count := 0
  maxPages := clampMaxPages defaultCacheSize maxPages
  hitCount := 0
  missCount := 0
  pager
  pinCount := 0
  evictCount := 0

/-! ### Page operations -/

/-- A cache hit: the page moves to the front and is pinned. -/
def hitPage (cache : PageCache) (page : Addr) : Except Fault PageCache := do
  let cache ← lruMru { cache with hitCount := cache.hitCount + 1 } page
  let cache ← cache.update page fun read => { read with refcount := read.refcount + 1 }
  return { cache with pinCount := cache.pinCount + 1 }

/-- The end of a cache miss: the page is read, entered into both lists and pinned. -/
def loadPage (cache : PageCache) (pager : Pager) (pageId : UInt32) :
    Except Fault (Option Addr × PageCache) := do
  let page := cache.heap.next
  let cache := { cache with heap := cache.heap.alloc (pageAlloc pageId) }
  match pagerReadPage pager pageId with
  | (none, pager) =>
    let heap ← cache.heap.free page
    return (none, { cache with heap, pager := some pager })
  | (some data, pager) =>
    let cache ← { cache with pager := some pager }.update page ({ · with data })
    let cache ← hashInsert cache page
    let cache ← lruAddFront cache page
    let cache ← { cache with count := cache.count + 1 }.update page ({ · with refcount := 1 })
    return (some page, { cache with pinCount := cache.pinCount + 1 })

/-- `page_cache_get`. After a miss the page is searched a second time: with more threads another
one could have loaded it. -/
def pageCacheGet (cache : PageCache) (pageId : UInt32) :
    Except Fault (Option Addr × PageCache) := do
  match ← hashFind cache pageId with
  | some page => return (some page, ← hitPage cache page)
  | none =>
    let cache := { cache with missCount := cache.missCount + 1 }
    if cache.pager.isNone then return (none, cache)
    else
      match ← hashFind cache pageId with
      | some page => return (some page, ← hitPage cache page)
      | none =>
        match ← makeRoom (cache.count - cache.maxPages + 1).toNat cache with
        | (false, cache) => return (none, cache)
        | (true, cache) =>
          match cache.pager with
          | none => return (none, cache)
          | some pager => loadPage cache pager pageId

/-- `page_unpin`. -/
def pageUnpin (cache : PageCache) (page : Addr) : Except Fault PageCache :=
  cache.update page fun read =>
    if read.refcount > 0 then { read with refcount := read.refcount - 1 } else read

/-- `page_mark_dirty`. -/
def pageMarkDirty (cache : PageCache) (page : Addr) : Except Fault PageCache :=
  cache.update page ({ · with isDirty := true })

/-! ### Cache management -/

/-- The body of the loops of `page_cache_flush`: whether the page was written. -/
def flushPage (cache : PageCache) (page : Addr) : Except Fault (Bool × PageCache) := do
  let read ← cache.heap.load page
  match read.isDirty, cache.pager with
  | true, some pager =>
    match pagerWritePage pager read.id read.data with
    | (false, pager) => return (false, { cache with pager := some pager })
    | (true, pager) =>
      let cache ← { cache with pager := some pager }.update page ({ · with isDirty := false })
      return (true, cache)
  | _, _ => return (false, cache)

/-- The walk of `page_cache_flush` along one hash chain, with the pages flushed so far. -/
def flushChain : Nat → PageCache → Option Addr → Nat → Except Fault (Nat × PageCache)
  | _, cache, none, flushed => return (flushed, cache)
  | 0, _, some _, _ => .error .diverges
  | fuel + 1, cache, some page, flushed => do
    let (written, cache) ← flushPage cache page
    let read ← cache.heap.load page
    flushChain fuel cache read.hashNext (flushed + written.toNat)

/-- The loop of `page_cache_flush` over some buckets. -/
def flushBuckets : List Nat → PageCache → Nat → Except Fault (Nat × PageCache)
  | [], cache, flushed => return (flushed, cache)
  | idx :: rest, cache, flushed => do
    let (flushed, cache) ← flushChain cache.heap.next cache (cache.pages idx) flushed
    flushBuckets rest cache flushed

/-- `page_cache_flush`. -/
def pageCacheFlush (cache : PageCache) : Except Fault (Nat × PageCache) :=
  flushBuckets (List.range cache.tableSize) cache 0

/-- `page_cache_flush_page`: whether it returned `0`. -/
def pageCacheFlushPage (cache : PageCache) (pageId : UInt32) : Except Fault (Bool × PageCache) := do
  match ← hashFind cache pageId with
  | none => return (false, cache)
  | some page =>
    let read ← cache.heap.load page
    match read.isDirty, cache.pager with
    | true, some _ => flushPage cache page
    | _, _ => return (true, cache)

/-- `page_cache_evict`: whether it returned `0`. -/
def pageCacheEvict (cache : PageCache) (pageId : UInt32) : Except Fault (Bool × PageCache) := do
  match ← hashFind cache pageId with
  | none => return (false, cache)
  | some page =>
    let read ← cache.heap.load page
    if read.refcount > 0 then return (false, cache)
    else
      match writeBack cache read with
      | (false, cache) => return (false, cache)
      | (true, cache) => return (true, ← dropPage cache page)

/-- The walk of `page_cache_clear` along one hash chain: pinned or not, every page is freed, and
whether it could be written is not looked at. -/
def clearChain : Nat → PageCache → Option Addr → Except Fault PageCache
  | _, cache, none => return cache
  | 0, _, some _ => .error .diverges
  | fuel + 1, cache, some page => do
    let read ← cache.heap.load page
    let cache := (writeBack cache read).2
    let cache ← lruRemove cache page
    let heap ← cache.heap.free page
    clearChain fuel { cache with heap } read.hashNext

/-- The loop of `page_cache_clear` over some buckets. -/
def clearBuckets : List Nat → PageCache → Except Fault PageCache
  | [], cache => return cache
  | idx :: rest, cache => do
    let cache ← clearChain cache.heap.next cache (cache.pages idx)
    clearBuckets rest { cache with pages := Function.update cache.pages idx none }

/-- `page_cache_clear`. -/
def pageCacheClear (cache : PageCache) : Except Fault PageCache := do
  let cache ← clearBuckets (List.range cache.tableSize) cache
  return { cache with count := 0, lruHead := none, lruTail := none }

/-- The walk of `page_cache_destroy` along one hash chain. -/
def freeChain : Nat → Heap Page → Option Addr → Except Fault (Heap Page)
  | _, heap, none => return heap
  | 0, _, some _ => .error .diverges
  | fuel + 1, heap, some page => do
    let read ← heap.load page
    let heap ← heap.free page
    freeChain fuel heap read.hashNext

/-- `page_cache_destroy`: the pager is what remains. -/
def pageCacheDestroy (cache : PageCache) : Except Fault (Option Pager) := do
  let (_, cache) ← pageCacheFlush cache
  let _ ← (List.range cache.tableSize).foldlM
    (fun heap idx => freeChain cache.heap.next heap (cache.pages idx)) cache.heap
  return cache.pager

end TinyDb

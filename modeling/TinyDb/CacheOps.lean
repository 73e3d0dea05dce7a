/-
This file says what a hit, a load, an eviction and a flush do to the cache, in
every state in which they do not fault. Each is put together from the pointer
assignments of the list operations, and each keeps the hash table.
-/

import TinyDb.HashTable

namespace TinyDb

open Heaps Chains List Function

variable {addr : Addr} {bucket : Nat → List Addr} {next : PageCache}

/-! ### Hits -/

/-- What a hit did: the page moved to the front of the list and was pinned. -/
structure PageHit (cache next : PageCache) (page : Addr) : Prop where
  core : coreOf next.heap = Function.update (coreOf cache.heap) page
    ((coreOf cache.heap page).map fun read => { read with refcount := read.refcount + 1 })
  size : next.heap.next = cache.heap.next
  hashNext : link Page.hashNext next.heap = link Page.hashNext cache.heap
  hashPrev : link Page.hashPrev next.heap = link Page.hashPrev cache.heap
  lruNext : link Page.lruNext next.heap =
    Function.update (unlink (link Page.lruNext cache.heap) (link Page.lruPrev cache.heap) page)
      page cache.lruHead
  lruPrev : link Page.lruPrev next.heap = setAt cache.lruHead (some page)
    (Function.update (unlink (link Page.lruPrev cache.heap) (link Page.lruNext cache.heap) page)
      page none)
  rest : next = { cache with
    heap := next.heap
    lruHead := some page
    lruTail := cache.lruTail.or (some page)
    hitCount := cache.hitCount + 1
    pinCount := cache.pinCount + 1 }

section Hits

variable {demand : Demand} {cache next : PageCache} {page : Addr}

/-- A hit returns if the page, its neighbours in the list and the head are live. -/
theorem hitPage_ensures (live : demand = .must → cache.heap.Live page ∧
      (∀ addr, link Page.lruPrev cache.heap page = some addr → cache.heap.Live addr) ∧
      (∀ addr, link Page.lruNext cache.heap page = some addr → cache.heap.Live addr) ∧
      ∀ addr, cache.lruHead = some addr → cache.heap.Live addr) :
    Ensures demand (hitPage cache page) fun next => PageHit cache next page := by
  rw [hitPage, lruMru, bind_assoc]
  refine (lruRemove_ensures fun must => ?_).bind fun unlisted removed => ?_
  · exact ⟨(live must).1, (live must).2.1, (live must).2.2.1⟩
  have head := congrArg PageCache.lruHead removed.rest
  have tail := congrArg PageCache.lruTail removed.rest
  refine (lruAddFront_ensures fun must => ⟨(live_congr removed.core _).mpr (live must).1,
    fun addr first => (live_congr removed.core _).mpr
      ((live must).2.2.2 _ (head ▸ first))⟩).bind fun listed added => ?_
  have core := added.core.trans removed.core
  refine (Ensures.of_returns fun must =>
    update_of_live ((live_congr core _).mpr (live must).1) _).bind
    fun pinned pin => Ensures.ok ?_
  obtain ⟨-, rest, size⟩ := update_rest pin
  refine ⟨?_, (size.trans added.size).trans removed.size, ?_, ?_, ?_, ?_, ?_⟩
  · refine (update_coreOf pin (fun read => { read with refcount := read.refcount + 1 })
      fun _ => rfl).trans ?_
    rw [core]
  · rw [update_link_same pin _ fun _ => rfl, added.hashNext, removed.hashNext]
  · rw [update_link_same pin _ fun _ => rfl, added.hashPrev, removed.hashPrev]
  · rw [update_link_same pin _ fun _ => rfl, added.lruNext, removed.lruNext, head]
  · rw [update_link_same pin _ fun _ => rfl, added.lruPrev, removed.lruPrev, head]
  · rw [rest, added.rest, removed.rest]

theorem hitPage_spec (run : hitPage cache page = .ok next) : PageHit cache next page :=
  (hitPage_ensures nofun : Ensures .may _ _).elim run

/-- A change to one page keeps the fields that it does not touch. -/
theorem map_update {Value : Type} {core : Addr → Option Page} {change : Page → Page}
    (field : Page → Value) (same : ∀ read, field (change read) = field read) (page addr : Addr) :
    (Function.update core page ((core page).map change) addr).map field =
      (core addr).map field := by
  by_cases here : addr = page
  · rw [here, update_self, Option.map_map]
    exact congrArg (Option.map · _) (funext same)
  · rw [update_of_ne here]

theorem live_of_ids {heap after : Heap Page}
    (ids : (coreOf after addr).map Page.id = (coreOf heap addr).map Page.id) :
    after.Live addr ↔ heap.Live addr := by
  rw [live_iff_coreOf, live_iff_coreOf, ← Option.isSome_map, ids, Option.isSome_map]

theorem PageHit.ids (hit : PageHit cache next page) (addr : Addr) :
    (coreOf next.heap addr).map Page.id = (coreOf cache.heap addr).map Page.id := by
  rw [hit.core]
  refine map_update _ ?_ _ _
  exact fun _ => rfl

theorem PageHit.hashSound (hit : PageHit cache next page) (sound : HashSound cache bucket) :
    HashSound next bucket :=
  sound.frame hit.hashNext hit.hashPrev hit.ids (by rw [hit.rest]) (by rw [hit.rest])

theorem PageHit.live_iff (hit : PageHit cache next page) (addr : Addr) :
    next.heap.Live addr ↔ cache.heap.Live addr := live_of_ids (hit.ids _)

end Hits

/-- The links of the list of recently used pages, good or bad, lead to live pages. -/
structure LinksLive (cache : PageCache) : Prop where
  next : ∀ page addr, link Page.lruNext cache.heap page = some addr → cache.heap.Live addr
  prev : ∀ page addr, link Page.lruPrev cache.heap page = some addr → cache.heap.Live addr
  head : ∀ addr, cache.lruHead = some addr → cache.heap.Live addr

/-! ### Evictions -/

/-- What dropping a page did. -/
structure PageDropped (cache next : PageCache) (page : Addr) : Prop where
  core : coreOf next.heap = Function.update (coreOf cache.heap) page none
  size : next.heap.next = cache.heap.next
  lruNext : link Page.lruNext next.heap =
    unlink (link Page.lruNext cache.heap) (link Page.lruPrev cache.heap) page
  lruPrev : link Page.lruPrev next.heap =
    unlink (link Page.lruPrev cache.heap) (link Page.lruNext cache.heap) page
  rest : next = { cache with
    heap := next.heap
    pages := next.pages
    count := cache.count - 1
    evictCount := cache.evictCount + 1 }
  hashSound : ∀ bucket, HashSound cache bucket → HashSound next fun idx => (bucket idx).erase page

section Evictions

variable {page : Addr} {cache : PageCache}

theorem unlink_self {links back : Addr → Option Addr} : unlink links back page page = none :=
  update_self _ _ _

theorem LruRemoved.hashSound (removed : LruRemoved cache next page) (sound : HashSound cache bucket) :
    HashSound next bucket :=
  sound.frame removed.hashNext removed.hashPrev (fun addr => by rw [removed.core])
    (by rw [removed.rest]) (by rw [removed.rest])

/-- Dropping a live page returns if the table is sound and the links lead to live pages. -/
theorem dropPage_ensures {demand : Demand} (live : cache.heap.Live page)
    (safe : demand = .must → (∃ bucket, HashSound cache bucket) ∧ LinksLive cache) :
    Ensures demand (dropPage cache page) fun next => PageDropped cache next page := by
  refine (lruRemove_ensures fun must =>
    ⟨live, (safe must).2.prev _, (safe must).2.next _⟩).bind fun unlisted lru => ?_
  obtain ⟨read, found⟩ := Option.isSome_iff_exists.mp
    (live_iff_coreOf.mp ((live_congr lru.core _).mpr live))
  refine (hashRemove_ensures found fun must => ?_).bind fun unhashed hash => ?_
  · obtain ⟨bucket, sound⟩ := (safe must).1
    have kept := lru.hashSound sound
    have member := kept.mem_bucket found
    exact ⟨fun addr prev => kept.live ((kept.linked _).prev_mem member prev),
      fun addr next => kept.live ((kept.linked _).next_mem member next)⟩
  have core := hash.core.trans lru.core
  refine (Ensures.of_returns fun _ =>
    ⟨_, Heap.free_eq_ok.mpr ⟨(live_congr core _).mpr live, rfl⟩⟩).bind
    fun heap free => Ensures.ok ?_
  obtain ⟨-, cells⟩ := Heap.free_eq_ok.mp free
  have lruNext : link Page.lruNext heap = link Page.lruNext unhashed.heap :=
    link_free free (by rw [hash.lruNext, lru.lruNext, unlink_self])
  have lruPrev : link Page.lruPrev heap = link Page.lruPrev unhashed.heap :=
    link_free free (by rw [hash.lruPrev, lru.lruPrev, unlink_self])
  have size : heap.next = unhashed.heap.next := by rw [cells, Heap.set_next]
  refine ⟨?_, (size.trans hash.size).trans lru.size, ?_, ?_, ?_, fun bucket sound => ?_⟩
  · rw [coreOf_free free, core]
  · rw [lruNext, hash.lruNext, lru.lruNext]
  · rw [lruPrev, hash.lruPrev, lru.lruPrev]
  · rw [hash.rest, lru.rest]
  · have number : Numbered unlisted.heap page read.id := numbered_iff.mpr ⟨read, found, rfl⟩
    have removed := (hashSound_iff.mp (lru.hashSound sound)).remove number hash
    refine hashSound_iff.mpr (removed.frame ?_ ?_ rfl rfl (fun other pageId => ?_) fun _ _ => id)
    · exact link_free free (by rw [hash.hashNext, unlink_self])
    · exact link_free free (by rw [hash.hashPrev, unlink_self])
    · rw [Numbered, Numbered, coreOf_free free, hash.core]
      by_cases same : other = page <;> simp [same]

theorem dropPage_spec (run : dropPage cache page = .ok next) :
    PageDropped cache next page := by
  have live : cache.heap.Live page := by
    simp only [dropPage, bind_eq_ok] at run
    obtain ⟨unlisted, remove, -⟩ := run
    exact lruRemove_live remove
  exact (dropPage_ensures live nofun : Ensures .may _ _).elim run

end Evictions

/-! ### Loads -/

/-- What loading a page did: a new page with the data from the file, at the front of the list. -/
structure PageLoaded (cache next : PageCache) (pageId : UInt32) (data : PageData) (pager : Pager) :
    Prop where
  core : coreOf next.heap = Function.update (coreOf cache.heap) cache.heap.next
    (some { pageAlloc pageId with data, refcount := 1 })
  size : next.heap.next = cache.heap.next + 1
  lruNext : link Page.lruNext next.heap =
    Function.update (link Page.lruNext cache.heap) cache.heap.next cache.lruHead
  lruPrev : link Page.lruPrev next.heap = setAt cache.lruHead (some cache.heap.next)
    (Function.update (link Page.lruPrev cache.heap) cache.heap.next none)
  rest : next = { cache with
    heap := next.heap
    pages := next.pages
    lruHead := some cache.heap.next
    lruTail := cache.lruTail.or (some cache.heap.next)
    count := cache.count + 1
    pager := some pager
    pinCount := cache.pinCount + 1 }
  headLive : ∀ addr, cache.lruHead = some addr → cache.heap.Live addr ∨ addr = cache.heap.next
  hashSound : ∀ bucket, HashSound cache bucket →
    (∀ addr read, coreOf cache.heap addr = some read → read.id ≠ pageId) →
    HashSound next (Function.update bucket (hashPageId pageId cache.tableSize)
      (cache.heap.next :: bucket (hashPageId pageId cache.tableSize)))

/-- What a load left that could not read the page: the new page is freed again. -/
structure PageNotLoaded (cache next : PageCache) (pageId : UInt32) (pager : Pager) : Prop where
  rest : next = { cache with heap := next.heap, pager := some pager }
  core : coreOf next.heap = coreOf cache.heap
  links : ∀ field, field (pageAlloc pageId) = none → link field next.heap = link field cache.heap

section Loads

variable {demand : Demand} {cache next : PageCache} {pager after : Pager} {pageId : UInt32}
  {data : PageData} {result : Option Addr}

theorem PageNotLoaded.sameShape (failed : PageNotLoaded cache next pageId after) :
    SameShape cache next :=
  .of_links (failed.links _ rfl) (failed.links _ rfl) (failed.links _ rfl) (failed.links _ rfl)
    (fun addr => by rw [failed.core]) (by rw [failed.rest])

theorem loadPage_failed (reading : pagerReadPage pager pageId = (none, after))
    (run : loadPage cache pager pageId = .ok (result, next)) :
    result = none ∧ PageNotLoaded cache next pageId after := by
  simp only [loadPage, reading, bind_eq_ok] at run
  obtain ⟨heap, free, same⟩ := run
  cases same
  refine ⟨rfl, rfl, ?_, fun field empty => ?_⟩
  · rw [coreOf_free free, coreOf_alloc, update_idem, update_eq_iff]
    refine ⟨?_, fun _ _ => rfl⟩
    rw [eq_comm, ← Option.not_isSome_iff_eq_none, ← live_iff_coreOf]
    exact cache.heap.not_live_next
  · rw [link_free free, link_alloc _ empty]
    rw [link_alloc _ empty, link_of_dead cache.heap.not_live_next]

theorem PageLoaded.live (loaded : PageLoaded cache next pageId data after)
    (before : cache.heap.Live addr) : next.heap.Live addr := by
  rw [live_iff_coreOf, loaded.core, update_of_ne (Nat.ne_of_lt before.lt_next),
    ← live_iff_coreOf]
  exact before

theorem PageLoaded.live_new (loaded : PageLoaded cache next pageId data after) :
    next.heap.Live cache.heap.next := by
  rw [live_iff_coreOf, loaded.core, update_self]
  rfl

/-- Loading a page that can be read returns if the table is sound and the head is live. -/
theorem loadPage_ensures (reading : pagerReadPage pager pageId = (some data, after))
    (safe : demand = .must → (∃ bucket, HashSound cache bucket) ∧
      ∀ addr, cache.lruHead = some addr → cache.heap.Live addr) :
    Ensures demand (loadPage cache pager pageId) fun (result, next) =>
      result = some cache.heap.next ∧ PageLoaded cache next pageId data after := by
  rw [loadPage, reading]
  refine (Ensures.of_returns fun _ => update_of_live ?_ _).bind fun filled fill => ?_
  · exact Heap.live_of_eq (Heap.alloc_cell_next _ _)
  obtain ⟨-, fillRest, fillSize⟩ := update_rest fill
  have fillCore : coreOf filled.heap = Function.update (coreOf cache.heap) cache.heap.next
      (some { pageAlloc pageId with data }) := by
    refine (update_coreOf fill ({ · with data }) fun _ => rfl).trans ?_
    simp only [coreOf_alloc, update_self, update_idem]
    rfl
  have fillLink : ∀ field : Page → Option Addr, (∀ read, field { read with data } = field read) →
      field (pageAlloc pageId) = none → link field filled.heap = link field cache.heap := by
    intro field kept empty
    exact (update_link_same fill _ kept).trans (link_alloc _ empty)
  have fillLive : ∀ {addr}, cache.heap.Live addr → filled.heap.Live addr := by
    intro addr live
    rw [live_iff_coreOf, fillCore, update_of_ne (Nat.ne_of_lt live.lt_next),
      ← live_iff_coreOf]
    exact live
  have foundFilled : coreOf filled.heap cache.heap.next = some { pageAlloc pageId with data } := by
    rw [fillCore, update_self]
  have filledSize : filled.tableSize = cache.tableSize := by rw [fillRest]
  have filledHead : filled.lruHead = cache.lruHead := by rw [fillRest]
  have filledPages : filled.pages = cache.pages := by rw [fillRest]
  refine (hashInsert_ensures foundFilled fun must addr head => ?_).bind fun hashed hash => ?_
  · obtain ⟨bucket, sound⟩ := (safe must).1
    exact fillLive (sound.live ((sound.linked _).head_mem (filledPages ▸ head)))
  rw [filledSize] at hash
  have hashedHead : hashed.lruHead = cache.lruHead := by rw [hash.rest, filledHead]
  have hashedLive := (live_congr hash.core _).mpr (live_of_coreOf foundFilled)
  refine (lruAddFront_ensures fun must => ⟨hashedLive, fun addr head => ?_⟩).bind
    fun listed lru => ?_
  · exact (live_congr hash.core _).mpr (fillLive ((safe must).2 _ (hashedHead ▸ head)))
  refine (Ensures.of_returns fun _ => update_of_live ?_ _).bind fun pinned pin => Ensures.ok ?_
  · exact (live_congr lru.core _).mpr hashedLive
  obtain ⟨-, pinRest, pinSize⟩ := update_rest pin
  have pinCore : coreOf pinned.heap = Function.update (coreOf cache.heap) cache.heap.next
      (some { pageAlloc pageId with data, refcount := 1 }) := by
    refine (update_coreOf pin ({ · with refcount := 1 }) fun _ => rfl).trans ?_
    simp only [lru.core, hash.core, fillCore, update_self, update_idem]
    rfl
  refine ⟨rfl, pinCore, ?_, ?_, ?_, ?_, fun addr head => ?_, fun bucket sound fresh => ?_⟩
  · exact (pinSize.trans lru.size).trans (hash.size.trans fillSize)
  · refine (update_link_same pin _ fun _ => rfl).trans ?_
    simp only [lru.lruNext, hash.lruNext, fillLink Page.lruNext (fun _ => rfl) rfl, hashedHead]
  · refine (update_link_same pin _ fun _ => rfl).trans ?_
    simp only [lru.lruPrev, hash.lruPrev, fillLink Page.lruPrev (fun _ => rfl) rfl, hashedHead]
  · rw [pinRest, lru.rest, hash.rest, fillRest]
  · by_cases same : addr = cache.heap.next
    · exact Or.inr same
    · have live := lru.headLive _ (hashedHead ▸ head)
      rw [live_iff_coreOf, hash.core, fillCore, update_of_ne same,
        ← live_iff_coreOf] at live
      exact Or.inl live
  · have filling := (hashSound_iff.mp sound).frame (fillLink _ (fun _ => rfl) rfl)
      (fillLink _ (fun _ => rfl) rfl) filledPages filledSize (fun _ _ => Iff.rfl)
      fun addr number old => (numbered_alloc cache.heap.not_live_next fillCore).mpr (.inr old)
    have number : Numbered filled.heap cache.heap.next pageId :=
      numbered_iff.mpr ⟨_, foundFilled, rfl⟩
    rw [← filledSize] at hash
    have inserted := filling.insert number (fun other old => by
      obtain ⟨read, found, same⟩ := numbered_iff.mp old
      exact fresh _ _ found same) hash
    rw [filledSize] at inserted
    refine hashSound_iff.mpr (inserted.frame ?_ ?_ (by rw [pinRest, lru.rest])
      (by rw [pinRest, lru.rest]) (fun addr number => ?_) fun _ _ => id)
    · exact (update_link_same pin _ fun _ => rfl).trans lru.hashNext
    · exact (update_link_same pin _ fun _ => rfl).trans lru.hashPrev
    · exact numbered_alloc cache.heap.not_live_next pinCore

theorem loadPage_ok (reading : pagerReadPage pager pageId = (some data, after))
    (run : loadPage cache pager pageId = .ok (result, next)) :
    result = some cache.heap.next ∧ PageLoaded cache next pageId data after :=
  (loadPage_ensures reading nofun : Ensures .may _ _).elim run

/-- A load that returned has read the page or not. -/
theorem loadPage_cases (run : loadPage cache pager pageId = .ok (result, next)) :
    (∃ after, pagerReadPage pager pageId = (none, after) ∧ result = none ∧
      PageNotLoaded cache next pageId after) ∨
    ∃ data after, pagerReadPage pager pageId = (some data, after) ∧
      result = some cache.heap.next ∧ PageLoaded cache next pageId data after := by
  cases reading : pagerReadPage pager pageId with
  | mk data after =>
    cases data with
    | none =>
      obtain ⟨nothing, failed⟩ := loadPage_failed reading run
      exact Or.inl ⟨after, rfl, nothing, failed⟩
    | some data =>
      obtain ⟨new, loaded⟩ := loadPage_ok reading run
      exact Or.inr ⟨data, after, rfl, new, loaded⟩

end Loads

/-! ### Flushes -/

/-- What flushing one page did. -/
structure PageFlushed (cache next : PageCache) (page : Addr) (written : Bool) : Prop where
  core : coreOf next.heap = if written then Function.update (coreOf cache.heap) page
      ((coreOf cache.heap page).map ({ · with isDirty := false })) else coreOf cache.heap
  size : next.heap.next = cache.heap.next
  links : ∀ field : Page → Option Addr, (∀ read, field { read with isDirty := false } = field read) →
    link field next.heap = link field cache.heap
  rest : next = { cache with heap := next.heap, pager := next.pager }

section Flushes

variable {demand : Demand} {cache next : PageCache} {page : Addr} {written : Bool}
  {bucket : Nat → List Addr}

theorem flushPage_ensures (live : demand = .must → cache.heap.Live page) :
    Ensures demand (flushPage cache page) fun (written, next) =>
      PageFlushed cache next page written := by
  refine (Ensures.of_returns fun must => (live must).load).bind fun read load => ?_
  split
  · split
    · exact Ensures.ok ⟨rfl, rfl, fun _ _ => rfl, rfl⟩
    · refine (Ensures.of_returns fun must => update_of_live ?_ _).bind
        fun cleaned clean => Ensures.ok ?_
      · exact live must
      obtain ⟨-, rest, size⟩ := update_rest clean
      refine ⟨?_, size, fun field kept => ?_, ?_⟩
      · exact update_coreOf clean _ fun _ => rfl
      · exact update_link_same clean _ kept
      · rw [rest]
  · exact Ensures.ok ⟨rfl, rfl, fun _ _ => rfl, rfl⟩

theorem flushPage_spec (run : flushPage cache page = .ok (written, next)) :
    PageFlushed cache next page written :=
  (flushPage_ensures nofun : Ensures .may _ _).elim run

section

variable (flushed : PageFlushed cache next page written)
include flushed

/-- Flushing changes no field of a page but whether it is dirty. -/
theorem PageFlushed.map_core {Value : Type}
    (field : Page → Value) (same : ∀ read, field { read with isDirty := false } = field read)
    (addr : Addr) : (coreOf next.heap addr).map field = (coreOf cache.heap addr).map field := by
  rw [flushed.core]
  cases written with
  | false => rfl
  | true => exact map_update _ same _ _

theorem PageFlushed.live_iff :
    next.heap.Live addr ↔ cache.heap.Live addr :=
  live_of_ids (flushed.map_core _ (fun _ => rfl) _)

theorem PageFlushed.sameShape :
    SameShape cache next :=
  .of_links (flushed.links _ fun _ => rfl) (flushed.links _ fun _ => rfl)
    (flushed.links _ fun _ => rfl) (flushed.links _ fun _ => rfl)
    (flushed.map_core _ fun _ => rfl) flushed.rest

end

/-- Flushing the pages of a list, one after the other. -/
def flushAll : List Addr → PageCache → Nat → Except Fault (Nat × PageCache)
  | [], cache, flushed => return (flushed, cache)
  | page :: rest, cache, flushed => do
    let (written, cache) ← flushPage cache page
    flushAll rest cache (flushed + written.toNat)

/-- What every flush of a page keeps, the flush of a list keeps; it does not fault. -/
theorem flushAll_invariant (Invariant : PageCache → Prop) (pages : List Addr)
    (keeps : ∀ cache next page written, page ∈ pages → Invariant cache →
      flushPage cache page = .ok (written, next) → Invariant next)
    (flushed : Nat) (live : ∀ page ∈ pages, cache.heap.Live page) (holds : Invariant cache) :
    ∃ total next, flushAll pages cache flushed = .ok (total, next) ∧ Invariant next := by
  induction pages generalizing cache flushed with
  | nil => exact ⟨flushed, cache, rfl, holds⟩
  | cons page rest inductionHypothesis =>
    obtain ⟨⟨written, next⟩, run, spec⟩ : Ensures .must _ _ :=
      flushPage_ensures fun _ => live _ mem_cons_self
    rw [flushAll, run]
    refine inductionHypothesis (fun cache next page written member => ?_) _ (fun page member => ?_) ?_
    · exact keeps _ next page written (mem_cons_of_mem _ member)
    · exact spec.live_iff.mpr (live _ (mem_cons_of_mem _ member))
    · exact keeps _ next page written mem_cons_self holds run

theorem flushAll_append (first second : List Addr) (cache : PageCache) (flushed : Nat) :
    flushAll (first ++ second) cache flushed =
      flushAll first cache flushed >>= fun result => flushAll second result.2 result.1 := by
  induction first generalizing cache flushed with
  | nil => rfl
  | cons page rest inductionHypothesis =>
    rw [cons_append, flushAll, flushAll, bind_assoc]
    congr 1
    funext result
    exact inductionHypothesis _ _

/-- The walk along a bucket flushes its pages in order. -/
theorem flushChain_eq {fuel flushed : Nat} {start : Option Addr} {visited : List Addr}
    (chain : Chain (link Page.hashNext cache.heap) start visited)
    (live : ∀ addr ∈ visited, cache.heap.Live addr) (enough : visited.length ≤ fuel) :
    flushChain fuel cache start flushed = flushAll visited cache flushed := by
  induction visited generalizing cache start fuel flushed with
  | nil =>
    cases chain
    rw [flushChain, flushAll]
  | cons page rest inductionHypothesis =>
    obtain rfl := chain.start_eq_head
    obtain ⟨fuel, rfl⟩ : ∃ less, fuel = less + 1 :=
      Nat.exists_eq_add_one_of_ne_zero (by simp at enough; omega)
    obtain ⟨⟨written, next⟩, run, spec⟩ : Ensures .must _ _ :=
      flushPage_ensures fun _ => live _ mem_cons_self
    obtain ⟨read, found⟩ := Heap.live_iff.mp
      (spec.live_iff.mpr (live _ mem_cons_self))
    have links := spec.links Page.hashNext fun _ => rfl
    have tail := chain.tail
    rw [← links, link_of_cell found] at tail
    simp only [head?_cons, flushChain, flushAll, run, ok_bind, Heap.load_eq_ok.mpr found]
    refine inductionHypothesis tail (fun addr member => ?_) (Nat.le_of_succ_le_succ enough)
    exact spec.live_iff.mpr (live _ (mem_cons_of_mem _ member))

/-- `page_cache_flush` flushes every bucket, page by page. -/
theorem pageCacheFlush_eq (sound : HashSound cache bucket) :
    pageCacheFlush cache = flushAll ((List.range cache.tableSize).flatMap bucket) cache 0 := by
  have buckets : ∀ (indices : List Nat) (cache : PageCache) (flushed : Nat),
      HashSound cache bucket →
      flushBuckets indices cache flushed = flushAll (indices.flatMap bucket) cache flushed := by
    intro indices
    induction indices with
    | nil =>
      intro cache flushed _
      rfl
    | cons idx rest inductionHypothesis =>
      intro cache flushed sound
      have linked := sound.linked idx
      have live := fun addr (member : addr ∈ bucket idx) => sound.live member
      rw [flushBuckets, flatMap_cons, flushAll_append,
        flushChain_eq linked.chain live (Heap.length_le_next linked.nodup live)]
      obtain ⟨total, next, run, kept⟩ := flushAll_invariant (HashSound · bucket) (bucket idx)
        (fun cache next page written _ sound run => sound.sameShape (flushPage_spec run).sameShape)
        _ live sound
      rw [run]
      exact inductionHypothesis next total kept
  exact buckets _ _ 0 sound

section

variable (sound : HashSound cache bucket)
  (Invariant : PageCache → Prop)
  (keeps : ∀ cache next page written, Invariant cache → flushPage cache page = .ok (written, next) → Invariant next)
  (holds : Invariant cache)
include sound Invariant keeps holds

/-- What every flush of a page keeps, `page_cache_flush` keeps; it does not fault. -/
theorem HashSound.flush_invariant :
    ∃ total next, pageCacheFlush cache = .ok (total, next) ∧ Invariant next := by
  rw [pageCacheFlush_eq sound]
  exact flushAll_invariant _ _
    (fun cache next page written _ => keeps _ next page written) 0
    (fun page member => (sound.residents.2 _).mp member) holds

/-- The same of a flush that is known to return. -/
theorem HashSound.flush_keeps {total : Nat}
    (run : pageCacheFlush cache = .ok (total, next)) : Invariant next := by
  obtain ⟨_, _, again, kept⟩ := sound.flush_invariant _ keeps holds
  cases (again.symm.trans run)
  exact kept

end

end Flushes

/-! ### The cases of the operations -/

section Cases

variable {cache next : PageCache} {pageId : UInt32} {page : Addr} {read : Page} {done : Bool}
  {result : Option Addr} {addr : Addr} {other : Page} {fuel : Nat}

/-- A write back touches nothing but the pager. -/
theorem writeBack_rest (run : writeBack cache read = (done, next)) :
    next = { cache with pager := next.pager } ∧ (next.pager = none ↔ cache.pager = none) := by
  unfold writeBack at run
  split at run
  · rename_i somePager
    cases run
    rw [somePager]
    exact ⟨rfl, nofun, nofun⟩
  · obtain ⟨-, rfl⟩ := Prod.mk.inj run
    exact ⟨rfl, Iff.rfl⟩

theorem writeBack_sameShape (run : writeBack cache read = (done, next)) : SameShape cache next := by
  obtain ⟨rest, -⟩ := writeBack_rest run
  exact rest ▸ .attach _ _

/-- A flush writes a page the way an eviction does. -/
theorem flushPage_writeBack (run : flushPage cache page = .ok (done, next)) :
    ∃ read, cache.heap.cell page = some read ∧ next.pager = (writeBack cache read).2.pager ∧
      done = (read.isDirty && cache.pager.isSome && (writeBack cache read).1) := by
  simp only [flushPage, bind_eq_ok] at run
  obtain ⟨read, load, run⟩ := run
  refine ⟨read, Heap.load_eq_ok.mp load, ?_⟩
  unfold writeBack
  split at run
  · rename_i pager dirty attached
    rw [dirty, attached]
    split at run
    · rename_i after writing
      cases run
      simp only [writing]
      exact ⟨trivial, rfl⟩
    · rename_i after writing
      simp only [bind_eq_ok] at run
      obtain ⟨cleaned, clean, same⟩ := run
      cases same
      obtain ⟨-, rest, -⟩ := update_rest clean
      rw [rest]
      simp only [writing]
      exact ⟨trivial, rfl⟩
  · rename_i other
    cases run
    refine ⟨rfl, ?_⟩
    cases dirty : read.isDirty with
    | false => rfl
    | true =>
      cases attached : cache.pager with
      | none => rfl
      | some pager => exact absurd attached (other _ dirty)

/-- The end of both evictions. -/
def Evicts (cache : PageCache) (page : Addr) (done : Bool) (next : PageCache) : Prop :=
  ∃ read written, cache.heap.cell page = some read ∧ writeBack cache read = (done, written) ∧
    if done then dropPage written page = .ok next else next = written

theorem evicts_of_run (found : cache.heap.cell page = some read)
    (run : (match writeBack cache read with
      | (false, cache) => return (false, cache)
      | (true, cache) => return (true, ← dropPage cache page)) = Except.ok (done, next)) :
    Evicts cache page done next := by
  split at run
  · next write =>
    cases run
    exact ⟨read, _, found, write, rfl⟩
  · next write =>
    simp only [bind_eq_ok] at run
    obtain ⟨dropped, drop, same⟩ := run
    cases same
    exact ⟨read, _, found, write, drop⟩

theorem evictLruPage_cases (run : evictLruPage cache = .ok (done, next)) :
    (findVictim cache = .ok none ∧ done = false ∧ next = cache) ∨
      ∃ victim, findVictim cache = .ok (some victim) ∧ Evicts cache victim done next := by
  simp only [evictLruPage, bind_eq_ok] at run
  obtain ⟨found, search, run⟩ := run
  cases found with
  | none =>
    cases run
    exact Or.inl ⟨search, rfl, rfl⟩
  | some victim =>
    simp only [bind_eq_ok, Heap.load_eq_ok] at run
    obtain ⟨read, found, run⟩ := run
    exact Or.inr ⟨victim, search, evicts_of_run found run⟩

/-- An eviction loads no page and changes none that stays. -/
theorem Evicts.cores (evicts : Evicts cache page done next)
    (found : coreOf next.heap addr = some other) : coreOf cache.heap addr = some other := by
  obtain ⟨read, written, -, write, finish⟩ := evicts
  obtain ⟨rest, -⟩ := writeBack_rest write
  have heap : written.heap = cache.heap := by rw [rest]
  cases done with
  | false =>
    obtain rfl := finish
    rw [← heap, found]
  | true =>
    rw [(dropPage_spec finish).core, heap] at found
    obtain ⟨-, old⟩ := update_none_eq_some found
    exact old

theorem evictLruPage_cores (run : evictLruPage cache = .ok (done, next))
    (found : coreOf next.heap addr = some other) : coreOf cache.heap addr = some other := by
  rcases evictLruPage_cases run with ⟨-, -, rfl⟩ | ⟨victim, -, evicts⟩
  · exact found
  · exact evicts.cores found

theorem pageCacheEvict_cases (run : pageCacheEvict cache pageId = .ok (done, next)) :
    (hashFind cache pageId = .ok none ∧ done = false ∧ next = cache) ∨
      ∃ page read, hashFind cache pageId = .ok (some page) ∧ cache.heap.cell page = some read ∧
        ((read.refcount > 0 ∧ done = false ∧ next = cache) ∨
          (¬read.refcount > 0 ∧ Evicts cache page done next)) := by
  simp only [pageCacheEvict, bind_eq_ok] at run
  obtain ⟨found, search, run⟩ := run
  cases found with
  | none =>
    cases run
    exact Or.inl ⟨search, rfl, rfl⟩
  | some page =>
    simp only [bind_eq_ok, Heap.load_eq_ok] at run
    obtain ⟨read, found, run⟩ := run
    refine Or.inr ⟨page, read, search, found, ?_⟩
    split at run
    · rename_i pinned
      cases run
      exact Or.inl ⟨pinned, rfl, rfl⟩
    · rename_i unpinned
      exact Or.inr ⟨unpinned, evicts_of_run found run⟩

theorem makeRoom_of_room (fuel : Nat) (room : cache.count < cache.maxPages) :
    makeRoom fuel cache = .ok (true, cache) := by
  have free : ¬cache.count ≥ cache.maxPages := Int.not_le.mpr room
  cases fuel with
  | zero => rw [makeRoom, if_neg free, pure_eq_ok]
  | succ fuel => rw [makeRoom, if_neg free, pure_eq_ok]

/-- What every eviction keeps, making room keeps; and if it succeeds, there is room. -/
theorem makeRoom_invariant (Invariant : PageCache → Prop)
    (keeps : ∀ cache next done, Invariant cache → evictLruPage cache = .ok (done, next) →
      Invariant next) (run : makeRoom fuel cache = .ok (done, next)) (holds : Invariant cache) :
    Invariant next ∧ (done = true → next.count < next.maxPages) := by
  induction fuel generalizing cache with
  | zero =>
    rw [makeRoom] at run
    split at run
    · cases run
    · cases run
      exact ⟨holds, fun _ => Int.not_le.mp ‹_›⟩
  | succ fuel inductionHypothesis =>
    rw [makeRoom] at run
    split at run
    · simp only [bind_eq_ok] at run
      obtain ⟨⟨evicted, after⟩, evict, run⟩ := run
      have kept := keeps _ _ _ holds evict
      cases evicted with
      | false =>
        cases run
        exact ⟨kept, nofun⟩
      | true => exact inductionHypothesis run kept
    · cases run
      exact ⟨holds, fun _ => Int.not_le.mp ‹_›⟩

theorem makeRoom_cores (run : makeRoom fuel cache = .ok (done, next)) {other : Page}
    (found : coreOf next.heap addr = some other) : coreOf cache.heap addr = some other := by
  have fewer := makeRoom_invariant
    (fun room => ∀ addr other, coreOf room.heap addr = some other →
      coreOf cache.heap addr = some other)
    (fun _ _ _ fewer evict addr other found => fewer _ _ (evictLruPage_cores evict found))
    run fun _ _ found => found
  exact fewer.1 _ _ found

theorem Evicts.pager (evicts : Evicts cache page done next) :
    next.pager = none ↔ cache.pager = none := by
  obtain ⟨read, written, -, write, finish⟩ := evicts
  obtain ⟨-, pager⟩ := writeBack_rest write
  cases done with
  | false =>
    obtain rfl := finish
    exact pager
  | true =>
    rw [(dropPage_spec finish).rest]
    exact pager

theorem makeRoom_pager (run : makeRoom fuel cache = .ok (done, next))
    (present : cache.pager ≠ none) : next.pager ≠ none := by
  refine (makeRoom_invariant (fun cache => cache.pager ≠ none) ?_ run present).1
  intro cache next done present evict
  rcases evictLruPage_cases evict with ⟨-, -, rfl⟩ | ⟨victim, -, evicts⟩
  · exact present
  · exact fun absent => present (evicts.pager.mp absent)

/-- The cases of `page_cache_get`: a hit, a miss without pager or room, and a load. -/
theorem pageCacheGet_cases (run : pageCacheGet cache pageId = .ok (result, next)) :
    (∃ page, hashFind cache pageId = .ok (some page) ∧ result = some page ∧
      hitPage cache page = .ok next) ∨
    (hashFind cache pageId = .ok none ∧ cache.pager = none ∧ result = none ∧
      next = { cache with missCount := cache.missCount + 1 }) ∨
    (hashFind cache pageId = .ok none ∧ cache.pager ≠ none ∧ ∃ done room,
      makeRoom (cache.count - cache.maxPages + 1).toNat
        { cache with missCount := cache.missCount + 1 } = .ok (done, room) ∧
      if done then ∃ pager, room.pager = some pager ∧ loadPage room pager pageId = .ok (result, next)
      else result = none ∧ next = room) := by
  simp only [pageCacheGet, bind_eq_ok] at run
  obtain ⟨found, search, run⟩ := run
  cases found with
  | some page =>
    simp only [bind_eq_ok] at run
    obtain ⟨after, hit, same⟩ := run
    cases same
    exact Or.inl ⟨page, search, rfl, hit⟩
  | none =>
    refine Or.inr ?_
    simp only at run
    split at run
    · rename_i absent
      cases run
      exact Or.inl ⟨search, Option.isNone_iff_eq_none.mp absent, rfl, rfl⟩
    · rename_i present
      have somePager : cache.pager ≠ none := fun absent =>
        present (Option.isNone_iff_eq_none.mpr absent)
      have again : hashFind { cache with missCount := cache.missCount + 1 } pageId = .ok none :=
        search
      simp only [again, ok_bind, bind_eq_ok] at run
      obtain ⟨⟨done, room⟩, making, run⟩ := run
      refine Or.inr ⟨search, somePager, done, room, making, ?_⟩
      cases done with
      | false =>
        cases run
        exact ⟨rfl, rfl⟩
      | true =>
        have kept := makeRoom_pager making somePager
        simp only at run
        split at run
        · rename_i absent
          exact absurd absent kept
        · rename_i pager present
          exact ⟨pager, present, run⟩

theorem pageUnpin_eq (cache : PageCache) (page : Addr) :
    pageUnpin cache page = cache.update page fun read => { read with
      refcount := if read.refcount > 0 then read.refcount - 1 else read.refcount } := by
  unfold pageUnpin
  congr 1
  funext read
  split <;> rfl

section Misses

variable {room : PageCache}

section

variable (search : hashFind cache pageId = .ok none)
include search

theorem pageCacheGet_detached
    (absent : cache.pager = none) :
    pageCacheGet cache pageId = .ok (none, { cache with missCount := cache.missCount + 1 }) := by
  have detached : cache.pager.isNone := Option.isNone_iff_eq_none.mpr absent
  simp only [pageCacheGet, search, ok_bind, if_pos detached, pure_eq_ok]

theorem pageCacheGet_full (present : cache.pager ≠ none)
    (making : makeRoom (cache.count - cache.maxPages + 1).toNat
      { cache with missCount := cache.missCount + 1 } = .ok (false, room)) :
    pageCacheGet cache pageId = .ok (none, room) := by
  have again : hashFind { cache with missCount := cache.missCount + 1 } pageId = .ok none := search
  have attached : ¬cache.pager.isNone := fun absent =>
    present (Option.isNone_iff_eq_none.mp absent)
  simp only [pageCacheGet, search, ok_bind, if_neg attached, again, making, pure_eq_ok]

theorem pageCacheGet_room {pager : Pager}
    (present : cache.pager ≠ none)
    (making : makeRoom (cache.count - cache.maxPages + 1).toNat
      { cache with missCount := cache.missCount + 1 } = .ok (true, room))
    (somePager : room.pager = some pager) :
    pageCacheGet cache pageId = loadPage room pager pageId := by
  have again : hashFind { cache with missCount := cache.missCount + 1 } pageId = .ok none := search
  have attached : ¬cache.pager.isNone := fun absent =>
    present (Option.isNone_iff_eq_none.mp absent)
  simp only [pageCacheGet, search, ok_bind, if_neg attached, again, making, somePager]

end

end Misses

/-- Below capacity a page that is not resident is loaded. -/
theorem pageCacheGet_load {pager after : Pager} {data : PageData} (sound : HashSound cache bucket)
    (headLive : ∀ addr, cache.lruHead = some addr → cache.heap.Live addr)
    (absent : ∀ addr read, coreOf cache.heap addr = some read → read.id ≠ pageId)
    (room : cache.count < cache.maxPages) (somePager : cache.pager = some pager)
    (reading : pagerReadPage pager pageId = (some data, after)) :
    ∃ next, pageCacheGet cache pageId = .ok (some cache.heap.next, next) ∧
      PageLoaded { cache with missCount := cache.missCount + 1 } next pageId data after := by
  have search : hashFind cache pageId = .ok none := by
    rcases sound.find pageId with ⟨addr, read, found, same, -⟩ | ⟨-, search⟩
    · exact absurd same (absent _ _ found)
    · exact search
  obtain ⟨⟨result, next⟩, load, rfl, loaded⟩ : Ensures .must _ _ :=
    loadPage_ensures reading fun _ => ⟨⟨bucket, sound.missed⟩, headLive⟩
  refine ⟨next, ?_, loaded⟩
  have present : cache.pager ≠ none := by
    rw [somePager]
    exact Option.some_ne_none _
  rw [pageCacheGet_room search present (makeRoom_of_room _ room) somePager]
  exact load

/-- A page that is resident is found. -/
theorem pageCacheGet_of_hit (sound : HashSound cache bucket)
    (found : coreOf cache.heap page = some read) (hit : hitPage cache page = .ok next) :
    pageCacheGet cache read.id = .ok (some page, next) := by
  have search : hashFind cache read.id = .ok (some page) := by
    rcases sound.find read.id with ⟨other, again, foundOther, same, search⟩ | ⟨absent, -⟩
    · rw [search, sound.unique _ _ _ _ found foundOther same.symm]
    · exact absurd rfl (absent _ _ found)
  simp only [pageCacheGet, search, ok_bind, hit, pure_eq_ok]

/-- A page that is resident is found and moved to the front. -/
theorem pageCacheGet_hit (sound : HashSound cache bucket) (links : LinksLive cache)
    (found : coreOf cache.heap page = some read) :
    ∃ next, pageCacheGet cache read.id = .ok (some page, next) ∧ PageHit cache next page := by
  obtain ⟨next, run, hit⟩ : Ensures .must _ _ := hitPage_ensures fun _ =>
    ⟨live_of_coreOf found, links.prev _, links.next _, links.head⟩
  exact ⟨next, pageCacheGet_of_hit sound found run, hit⟩

end Cases

end TinyDb

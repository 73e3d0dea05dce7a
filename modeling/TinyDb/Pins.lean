/-
This file says what the calls of the page cache do to the pins of its pages.

A page object keeps its number, and its count of pins changes only when the page
itself is returned by a get or is unpinned. A page whose count is not zero is
never the victim of a get that makes room, and one whose count is positive is
refused by an eviction. The one call that looks at no count is the one that
clears the cache: it frees every page, and who had pinned one holds a pointer to
freed memory.
-/

import TinyDb.PinnedPages
import TinyDb.Eviction

namespace TinyDb

open Heaps Chains Runs Relation List Option Function

variable {pager : Pager} {done : Bool} {middle : PageCache} {fuel : Nat} {count : Int32}

/-! ### Pins -/

/-- The number of a page object and how often it is pinned, if it lives. -/
def pinsAt (cache : PageCache) (page : Addr) : Option (UInt32 × Int32) :=
  (cache.heap.cell page).map fun read => (read.id, read.refcount)

/-- The count after `page_unpin`. -/
def unpinCount (count : Int32) : Int32 := if count > 0 then count - 1 else count

section Pins

variable {cache next : PageCache} {bucket : Nat → List Addr} {page : Addr} {pageId : UInt32}
  {count : Int32} {read : Page}

theorem pinsAt_eq_core (cache : PageCache) (page : Addr) :
    pinsAt cache page = (coreOf cache.heap page).map fun read => (read.id, read.refcount) := by
  rw [pinsAt, coreOf]
  cases cache.heap.cell page <;> rfl

theorem pinsAt_of_core (found : coreOf cache.heap page = some read) :
    pinsAt cache page = some (read.id, read.refcount) := by
  rw [pinsAt_eq_core, found]
  rfl

theorem pinsAt_eq_none : pinsAt cache page = none ↔ ¬cache.heap.Live page := by
  rw [pinsAt, map_eq_none_iff, Heap.Live, not_isSome_iff_eq_none]

theorem lt_next_of_pinsAt {pin : UInt32 × Int32} (pinned : pinsAt cache page = some pin) :
    page < cache.heap.next := by
  refine Heap.Live.lt_next ?_
  by_contra dead
  rw [pinsAt_eq_none.mpr dead] at pinned
  cases pinned

/-- Changing the core of one page changes its pins only. -/
theorem pinsAt_update {value : Option Page}
    (core : coreOf next.heap = Function.update (coreOf cache.heap) page value) :
    pinsAt next = Function.update (pinsAt cache) page
      (value.map fun read => (read.id, read.refcount)) := by
  funext addr
  rw [pinsAt_eq_core, core]
  by_cases same : addr = page
  · rw [same, update_self, update_self]
  · rw [update_of_ne same, update_of_ne same, pinsAt_eq_core]

theorem pinsAt_congr
    (same : ∀ addr, (coreOf next.heap addr).map (fun read => (read.id, read.refcount)) =
      (coreOf cache.heap addr).map fun read => (read.id, read.refcount)) :
    pinsAt next = pinsAt cache := by
  funext addr
  rw [pinsAt_eq_core, pinsAt_eq_core, same]

/-- Counting the pins of one page anew. -/
theorem pinsAt_recount (recount : Int32 → Int32)
    (core : coreOf next.heap = Function.update (coreOf cache.heap) page
      ((coreOf cache.heap page).map fun read => { read with refcount := recount read.refcount })) :
    pinsAt next = Function.update (pinsAt cache) page
      ((pinsAt cache page).map fun pin => (pin.1, recount pin.2)) := by
  rw [pinsAt_update core, pinsAt_eq_core _ _, Option.map_map, Option.map_map]
  rfl

/-- The search finds the page objects that live, by their number. -/
theorem HashSound.find_iff (hash : HashSound cache bucket) :
    hashFind cache pageId = .ok (some page) ↔
      ∃ count, pinsAt cache page = some (pageId, count) := by
  simp only [pinsAt_eq_core, map_eq_some_iff, Prod.mk.injEq]
  constructor
  · intro search
    obtain ⟨read, found, same⟩ := hash.find_some search
    exact ⟨read.refcount, read, found, same, rfl⟩
  · rintro ⟨count, read, found, rfl, rfl⟩
    rcases hash.find read.id with ⟨other, again, foundOther, same, search⟩ | ⟨absent, -⟩
    · rw [search, hash.unique _ _ _ _ found foundOther same.symm]
    · exact absurd rfl (absent _ _ found)

/-! ### What one page is put through -/

theorem PageHit.pins (hit : PageHit cache next page) :
    pinsAt next = Function.update (pinsAt cache) page
      ((pinsAt cache page).map fun pin => (pin.1, pin.2 + 1)) :=
  pinsAt_recount (· + 1) hit.core

theorem pageUnpin_pins (run : pageUnpin cache page = .ok next) :
    pinsAt next = Function.update (pinsAt cache) page
      ((pinsAt cache page).map fun pin => (pin.1, unpinCount pin.2)) := by
  rw [pageUnpin_eq] at run
  exact pinsAt_recount _ (update_coreOf run
    (fun read => { read with refcount := unpinCount read.refcount }) fun _ => rfl)

/-- An assignment to a page that changes neither its number nor its pins. -/
theorem update_pins {change : Page → Page} (run : cache.update page change = .ok next)
    (id : ∀ read, (change read).id = read.id)
    (refcount : ∀ read, (change read).refcount = read.refcount) : pinsAt next = pinsAt cache := by
  have changed := update_bind run fun read => some (read.id, read.refcount)
  simp only [id, refcount, update_eq_self] at changed
  funext addr
  rw [pinsAt, pinsAt, map_eq_bind, map_eq_bind]
  exact congrFun changed _

theorem PageDropped.pins (dropped : PageDropped cache next page) :
    pinsAt next = Function.update (pinsAt cache) page none :=
  pinsAt_update dropped.core

theorem PageLoaded.pins {data : PageData} (loaded : PageLoaded cache next pageId data pager) :
    pinsAt next = Function.update (pinsAt cache) cache.heap.next (some (pageId, 1)) :=
  pinsAt_update loaded.core

theorem PageNotLoaded.pins (failed : PageNotLoaded cache next pageId pager) :
    pinsAt next = pinsAt cache :=
  pinsAt_congr fun addr => by rw [failed.core]

theorem PageFlushed.pins {written : Bool} (flushed : PageFlushed cache next page written) :
    pinsAt next = pinsAt cache :=
  pinsAt_congr (flushed.map_core (fun read => (read.id, read.refcount)) fun _ => rfl)

/-- An eviction takes out the one page, if it succeeds. -/
theorem Evicts.pins (evicts : Evicts cache page done next) :
    pinsAt next = if done then Function.update (pinsAt cache) page none else pinsAt cache := by
  obtain ⟨read, written, -, write, finish⟩ := evicts
  obtain ⟨rest, -⟩ := writeBack_rest write
  have same : pinsAt written = pinsAt cache := by
    funext addr
    rw [pinsAt, rest, pinsAt]
  cases done with
  | false =>
    obtain rfl := finish
    exact same
  | true => rw [(dropPage_spec finish).pins, same, if_pos rfl]

theorem Evicts.hashSound (evicts : Evicts cache page done next) (hash : HashSound cache bucket) :
    ∃ after, HashSound next after := by
  obtain ⟨read, written, -, write, finish⟩ := evicts
  have kept := hash.sameShape (writeBack_sameShape write)
  cases done with
  | false =>
    obtain rfl := finish
    exact ⟨bucket, kept⟩
  | true => exact ⟨_, (dropPage_spec finish).hashSound _ kept⟩

end Pins

/-! ### Gets -/

/-- What making room did to the pins: some pages that were not pinned are gone. -/
structure Thinned (cache next : PageCache) : Prop where
  hash : ∃ bucket, HashSound next bucket
  size : next.heap.next = cache.heap.next
  maxPages : next.maxPages = cache.maxPages
  count : next.count ≤ cache.count
  pins : ∀ page, pinsAt next page = pinsAt cache page ∨
    (pinsAt next page = none ∧ ∃ pageId, pinsAt cache page = some (pageId, 0))

/-- What `page_cache_get` did to the pins: the page it returned is pinned once more, and a page that
is gone had no pins and left a full cache. -/
structure Got (cache next : PageCache) (pageId : UInt32) (result : Option Addr) : Prop where
  hash : ∃ bucket, HashSound next bucket
  size : cache.heap.next ≤ next.heap.next
  maxPages : next.maxPages = cache.maxPages
  count : next.count ≤ cache.count + 1
  kept : ∀ page number count, pinsAt cache page = some (number, count) →
    pinsAt next page = some (number, if result = some page then count + 1 else count) ∨
      (pinsAt next page = none ∧ count = 0 ∧ cache.maxPages ≤ cache.count)
  loaded : ∀ page pin, pinsAt cache page = none → pinsAt next page = some pin →
    result = some page ∧ pin.2 = 1 ∧ cache.heap.next ≤ page
  number : ∀ page, result = some page → ∃ count, pinsAt next page = some (pageId, count)

section Gets

variable {cache next : PageCache} {bucket : Nat → List Addr} {pageId : UInt32}
  {result : Option Addr} {done : Bool}

theorem Evicts.thinned {victim : Addr} (evicts : Evicts cache victim done next)
    (hash : HashSound cache bucket) (free : unpinned cache.heap victim) : Thinned cache next := by
  have kept := evicts.hashSound hash
  have pins := evicts.pins
  obtain ⟨read, written, found, write, finish⟩ := evicts
  obtain ⟨rest, -⟩ := writeBack_rest write
  cases done with
  | false =>
    obtain rfl := finish
    exact ⟨kept, by rw [rest], by rw [rest], by rw [rest], fun page => Or.inl (congrFun pins _)⟩
  | true =>
    have dropped := dropPage_spec finish
    refine ⟨kept, by rw [dropped.size, rest], by rw [dropped.rest, rest], ?_, fun page => ?_⟩
    · rw [dropped.rest, rest]
      exact Int.sub_le_self _ (by decide)
    · rw [pins]
      by_cases same : page = victim
      · subst same
        rw [unpinned, found, any_some, decide_eq_true_eq] at free
        refine Or.inr ⟨update_self .., read.id, ?_⟩
        rw [pinsAt, found, ← free]
        rfl
      · exact Or.inl (update_of_ne same ..)

theorem Thinned.trans (first : Thinned cache middle) (second : Thinned middle next) :
    Thinned cache next := by
  refine ⟨second.hash, second.size.trans first.size, second.maxPages.trans first.maxPages,
    second.count.trans first.count, fun page => ?_⟩
  rcases second.pins page with same | ⟨gone, pageId, unpinned⟩
  · rw [same]
    exact first.pins _
  · rcases first.pins page with same | ⟨dead, -⟩
    · exact Or.inr ⟨gone, pageId, same ▸ unpinned⟩
    · rw [dead] at unpinned
      cases unpinned

theorem HashSound.thinned (hash : HashSound cache bucket)
    (run : makeRoom fuel cache = .ok (done, next)) : Thinned cache next := by
  refine (makeRoom_invariant _ ?_ run
    ⟨⟨bucket, hash⟩, rfl, rfl, Int.le_refl _, fun _ => Or.inl rfl⟩).1
  intro room after done thinned evict
  rcases evictLruPage_cases evict with ⟨-, -, rfl⟩ | ⟨victim, search, evicts⟩
  · exact thinned
  · obtain ⟨_, hash⟩ := thinned.hash
    exact thinned.trans (evicts.thinned hash (findVictim_unpinned search))

/-- The heap grows by the page object of a load, read or not. -/
theorem loadPage_size (run : loadPage cache pager pageId = .ok (result, next)) :
    next.heap.next = cache.heap.next + 1 := by
  rcases loadPage_cases run with ⟨after, reading, -, -⟩ | ⟨data, after, -, -, loaded⟩
  · simp only [loadPage, reading, bind_eq_ok] at run
    obtain ⟨heap, free, same⟩ := run
    cases same
    obtain ⟨-, rfl⟩ := Heap.free_eq_ok.mp free
    rfl
  · exact loaded.size

/-- Room was made or not, and no page is loaded so far. -/
theorem Thinned.got (thinned : Thinned cache next)
    (room : cache.count < cache.maxPages → pinsAt next = pinsAt cache) :
    Got cache next pageId none := by
  refine ⟨thinned.hash, Nat.le_of_eq thinned.size.symm, thinned.maxPages,
    thinned.count.trans (Int.le_add_one (Int.le_refl _)), fun page number count pins => ?_,
    fun page pin dead pins => ?_, nofun⟩
  · rw [if_neg nofun]
    rcases thinned.pins page with same | ⟨gone, other, unpinned⟩
    · exact Or.inl (same.trans pins)
    · refine Or.inr ⟨gone, ?_, Int.not_lt.mp fun less => ?_⟩
      · rw [pins] at unpinned
        exact (Prod.mk.inj (Option.some.inj unpinned)).2
      · rw [room less, pins] at gone
        cases gone
  · rcases thinned.pins page with same | ⟨gone, -⟩
    · rw [same, dead] at pins
      cases pins
    · rw [gone] at pins
      cases pins

/-- The end of a miss. -/
theorem Got.load {room : PageCache} (got : Got cache room pageId none)
    (small : room.count ≤ cache.count)
    (absent : ∀ addr read, coreOf room.heap addr = some read → read.id ≠ pageId)
    (run : loadPage room pager pageId = .ok (result, next)) : Got cache next pageId result := by
  obtain ⟨bucket, hash⟩ := got.hash
  have size : cache.heap.next ≤ next.heap.next := by
    rw [loadPage_size run]
    exact Nat.le_succ_of_le got.size
  rcases loadPage_cases run with ⟨after, -, rfl, failed⟩ | ⟨data, after, -, rfl, loaded⟩
  · refine ⟨⟨bucket, hash.sameShape failed.sameShape⟩, size, by rw [failed.rest, got.maxPages],
      by rw [failed.rest]; exact got.count, ?_, ?_, nofun⟩
    · rw [failed.pins]
      exact got.kept
    · rw [failed.pins]
      exact got.loaded
  · refine ⟨⟨_, loaded.hashSound _ hash absent⟩, size, by rw [loaded.rest, got.maxPages], ?_,
      fun page number count pins => ?_, fun page pin dead pins => ?_, fun page same => ?_⟩
    · rw [loaded.rest]
      exact Int.add_le_add_right small 1
    · have other : page ≠ room.heap.next :=
        Nat.ne_of_lt (Nat.lt_of_lt_of_le (lt_next_of_pinsAt pins) got.size)
      rw [loaded.pins, update_of_ne other,
        if_neg fun same => other (Option.some.inj same).symm]
      exact got.kept _ _ _ pins
    · rw [loaded.pins] at pins
      obtain ⟨rfl, new⟩ | ⟨-, old⟩ := update_eq_some pins
      · rw [← Option.some.inj new]
        exact ⟨rfl, rfl, got.size⟩
      · exact absurd (got.loaded _ pin dead old).1 nofun
    · rw [← Option.some.inj same, loaded.pins, update_self]
      exact ⟨1, rfl⟩

/-- `page_cache_get`, whether it hits or misses and whatever it evicts. -/
theorem HashSound.got (hash : HashSound cache bucket)
    (run : pageCacheGet cache pageId = .ok (result, next)) : Got cache next pageId result := by
  have missed := hash.missed
  have missedPins : Thinned cache { cache with missCount := cache.missCount + 1 } :=
    ⟨⟨bucket, missed⟩, rfl, rfl, Int.le_refl _, fun _ => Or.inl rfl⟩
  rcases pageCacheGet_cases run with ⟨page, search, rfl, hit⟩ | ⟨-, -, rfl, rfl⟩ |
    ⟨search, -, done, room, making, finish⟩
  · obtain ⟨read, found, number⟩ := hash.find_some search
    have spec := hitPage_spec hit
    have pins := pinsAt_of_core found
    refine ⟨⟨bucket, spec.hashSound hash⟩, Nat.le_of_eq spec.size.symm, by rw [spec.rest],
      by rw [spec.rest]; exact Int.le_add_one (Int.le_refl _), fun other id count pinned => ?_,
      fun other pin dead pinned => ?_, fun other same => ?_⟩
    · rw [spec.pins]
      by_cases same : other = page
      · subst same
        rw [update_self, pinned, if_pos rfl]
        exact Or.inl rfl
      · rw [update_of_ne same, pinned,
          if_neg fun equal => same (Option.some.inj equal).symm]
        exact Or.inl rfl
    · rw [spec.pins] at pinned
      obtain ⟨rfl, -⟩ | ⟨-, old⟩ := update_eq_some pinned
      · rw [dead] at pins
        cases pins
      · rw [dead] at old
        cases old
    · rw [← Option.some.inj same, spec.pins, update_self, pins, ← number]
      exact ⟨read.refcount + 1, rfl⟩
  · exact missedPins.got fun _ => rfl
  · have thinned := missed.thinned making
    have same : cache.count < cache.maxPages → pinsAt room = pinsAt cache := by
      intro less
      cases (Except.ok.inj
        ((makeRoom_of_room _ (by exact less)).symm.trans making))
      rfl
    have got : Got cache room pageId none := (missedPins.trans thinned).got same
    cases done with
    | false =>
      obtain ⟨rfl, rfl⟩ := finish
      exact got
    | true =>
      obtain ⟨pager, -, load⟩ := finish
      exact got.load thinned.count
        (fun addr read found => hash.find_none search _ _ (makeRoom_cores making found)) load

end Gets

/-! ### Flushes and clearing -/

section Management

variable {cache next : PageCache} {bucket : Nat → List Addr} {pageId : UInt32} {done : Bool}

theorem HashSound.flush_pins {flushed : Nat} (hash : HashSound cache bucket)
    (run : pageCacheFlush cache = .ok (flushed, next)) :
    HashSound next bucket ∧ pinsAt next = pinsAt cache := by
  refine hash.flush_keeps (fun after => HashSound after _ ∧ pinsAt after = pinsAt _)
    (fun before after page written holds flush => ?_) ⟨hash, rfl⟩ run
  have spec := flushPage_spec flush
  exact ⟨holds.1.sameShape spec.sameShape, spec.pins.trans holds.2⟩

/-- `page_cache_flush_page` flushes the page or leaves the cache as it is. -/
theorem pageCacheFlushPage_cases (run : pageCacheFlushPage cache pageId = .ok (done, next)) :
    next = cache ∨ ∃ page, flushPage cache page = .ok (done, next) := by
  simp only [pageCacheFlushPage, bind_eq_ok] at run
  obtain ⟨found, -, run⟩ := run
  cases found with
  | none =>
    cases run
    exact Or.inl rfl
  | some page =>
    simp only [bind_eq_ok] at run
    obtain ⟨read, -, run⟩ := run
    split at run
    · exact Or.inr ⟨page, run⟩
    · obtain ⟨-, rfl⟩ := Prod.mk.inj (Except.ok.inj run)
      exact Or.inl rfl

end Management

/-- All pages hang in one list, whatever the cache takes for its ends. -/
structure Threaded (heap : Heap Page) (order : List Addr) : Prop where
  linked : ∃ head last, Linked (link Page.lruNext heap) (link Page.lruPrev heap) head last order
  members : ∀ addr, addr ∈ order ↔ heap.Live addr

/-- What clearing did: some pages are freed, and the chains of the others are as they were. -/
structure Cleared (cache next : PageCache) (gone : List Addr) : Prop where
  tableSize : next.tableSize = cache.tableSize
  live : ∀ addr, next.heap.Live addr ↔ cache.heap.Live addr ∧ addr ∉ gone
  hashNext : ∀ addr, addr ∉ gone →
    link Page.hashNext next.heap addr = link Page.hashNext cache.heap addr

section Clearing

variable {cache next : PageCache} {bucket : Nat → List Addr} {order : List Addr} {page : Addr}
  {demand : Demand}

theorem Cleared.trans {first second : List Addr} (one : Cleared cache middle first)
    (two : Cleared middle next second) :
    Cleared cache next (first ++ second) where
  tableSize := two.tableSize.trans one.tableSize
  live _ := by rw [two.live, one.live, mem_append, not_or, and_assoc]
  hashNext _ outside := by
    rw [mem_append, not_or] at outside
    rw [two.hashNext _ outside.2, one.hashNext _ outside.1]

/-- The body of the loop of `page_cache_clear` frees the page; it returns if all pages hang in one
list. -/
theorem clearPage_ensures {read : Page} (found : cache.heap.cell page = some read)
    (threaded : demand = .must → ∃ order, Threaded cache.heap order) :
    Ensures demand (lruRemove (writeBack cache read).2 page) fun removed =>
      ∃ heap, removed.heap.free page = .ok heap ∧ removed.pages = cache.pages ∧
        Cleared cache { removed with heap } [page] ∧
        (demand = .must → ∃ order, Threaded heap order) := by
  have live := Heap.live_of_eq found
  obtain ⟨same, -⟩ := writeBack_rest Prod.mk.eta.symm
  generalize (writeBack cache read).2 = written at same
  have removes : Ensures demand (lruRemove written page) fun removed =>
      LruRemoved written removed page := by
    rw [same]
    refine lruRemove_ensures fun must => ?_
    obtain ⟨order, ⟨head, last, linked⟩, members⟩ := threaded must
    have member := (members _).mpr live
    exact ⟨live, fun addr prev => (members _).mp (linked.prev_mem member prev),
      fun addr next => (members _).mp (linked.next_mem member next)⟩
  refine removes.mono fun removed spec => ?_
  have liveRemoved : removed.heap.Live page := by
    rw [live_congr spec.core, same]
    exact live
  obtain ⟨heap, free⟩ : ∃ heap, removed.heap.free page = .ok heap :=
    ⟨_, Heap.free_eq_ok.mpr ⟨liveRemoved, rfl⟩⟩
  have core : coreOf heap = Function.update (coreOf cache.heap) page none := by
    rw [coreOf_free free, spec.core, same]
  have alive : ∀ addr, heap.Live addr ↔ cache.heap.Live addr ∧ addr ≠ page := by
    intro addr
    rw [live_iff_coreOf, live_iff_coreOf, core]
    by_cases here : addr = page
    · simp [here]
    · simp [here]
  refine ⟨heap, free, by rw [spec.rest, same], ⟨by rw [spec.rest, same], fun addr => ?_,
    fun addr outside => ?_⟩, fun must => ?_⟩
  · rw [alive, mem_singleton]
  · obtain ⟨-, rfl⟩ := Heap.free_eq_ok.mp free
    rw [link, Heap.set_cell_ne _ (mem_singleton.not.mp outside), ← link, spec.hashNext, same]
  · obtain ⟨order, ⟨head, last, linked⟩, members⟩ := threaded must
    have lruNext : link Page.lruNext heap = link Page.lruNext removed.heap :=
      link_free free (by rw [spec.lruNext, unlink_self])
    have lruPrev : link Page.lruPrev heap = link Page.lruPrev removed.heap :=
      link_free free (by rw [spec.lruPrev, unlink_self])
    refine ⟨order.erase page, ?_, fun addr => ?_⟩
    · rw [lruNext, lruPrev, spec.lruNext, spec.lruPrev, same]
      exact ⟨_, _, linked.unlinked ((members _).mpr live)⟩
    · rw [linked.nodup.mem_erase_iff, members, alive, and_comm]

/-- The walk along a bucket frees its pages. -/
theorem clearChain_ensures {start : Option Addr} {visited : List Addr}
    (chain : Chain (link Page.hashNext cache.heap) start visited)
    (threaded : demand = .must → (∃ order, Threaded cache.heap order) ∧
      (∀ addr ∈ visited, cache.heap.Live addr) ∧ visited.length ≤ fuel) :
    Ensures demand (clearChain fuel cache start) fun next =>
      next.pages = cache.pages ∧ Cleared cache next visited ∧
        (demand = .must → ∃ order, Threaded next.heap order) := by
  induction visited generalizing cache start fuel with
  | nil =>
    cases chain
    rw [clearChain]
    exact Ensures.ok ⟨rfl, ⟨rfl, by simp, fun _ _ => rfl⟩, fun must => (threaded must).1⟩
  | cons page rest inductionHypothesis =>
    obtain rfl := chain.start_eq_head
    have positive : demand = .must → fuel ≠ 0 := by
      rintro must rfl
      exact Nat.not_succ_le_zero _ (threaded must).2.2
    cases fuel with
    | zero =>
      cases demand with
      | may => exact fun _ impossible => nomatch impossible
      | must => exact absurd rfl (positive rfl)
    | succ fuel =>
      have loads : Ensures demand (cache.heap.load page) fun read =>
          cache.heap.cell page = some read := by
        cases demand with
        | may => exact fun read => Heap.load_eq_ok.mp
        | must =>
          obtain ⟨read, found⟩ := Heap.live_iff.mp ((threaded rfl).2.1 _ mem_cons_self)
          exact ⟨read, Heap.load_eq_ok.mpr found, found⟩
      refine loads.bind fun read found => ?_
      obtain ⟨whole, again, -, apart, tail⟩ := chain_front chain (Heap.live_of_eq found)
      cases (found.symm.trans again)
      refine (clearPage_ensures found fun must => (threaded must).1).bind ?_
      rintro removed ⟨heap, free, pages, cleared, threadedRest⟩
      rw [free]
      have kept : Chain (link Page.hashNext heap) read.hashNext rest :=
        tail.congr fun node member => cleared.hashNext _ fun same =>
          apart (mem_singleton.mp same ▸ member)
      refine (@inductionHypothesis fuel { removed with heap } _ kept fun must => ?_).mono ?_
      · obtain ⟨-, live, enough⟩ := threaded must
        refine ⟨threadedRest must, fun addr member => (cleared.live _).mpr
          ⟨live _ (mem_cons_of_mem _ member), fun same => ?_⟩,
          Nat.le_of_succ_le_succ enough⟩
        exact apart (mem_singleton.mp same ▸ member)
      · rintro next ⟨samePages, clearedRest, threadedNext⟩
        exact ⟨samePages.trans pages, cleared.trans clearedRest, threadedNext⟩

/-- Clearing some buckets frees their pages, and leaves the other buckets as they were. -/
theorem clearBuckets_ensures {indices : List Nat} (distinct : indices.Nodup)
    (apart : ∀ {first second addr}, addr ∈ bucket first → addr ∈ bucket second → first = second)
    (chains : ∀ idx ∈ indices,
      Chain (link Page.hashNext cache.heap) (cache.pages idx) (bucket idx))
    (threaded : demand = .must → (∃ order, Threaded cache.heap order) ∧
      ∀ idx ∈ indices, ∀ addr ∈ bucket idx, cache.heap.Live addr) :
    Ensures demand (clearBuckets indices cache) fun next =>
      (∀ idx, next.pages idx = if idx ∈ indices then none else cache.pages idx) ∧
        Cleared cache next (indices.flatMap bucket) := by
  induction indices generalizing cache with
  | nil =>
    exact Ensures.ok ⟨fun _ => (if_neg not_mem_nil).symm, rfl, by simp, fun _ _ => rfl⟩
  | cons idx rest inductionHypothesis =>
    obtain ⟨outside, distinctRest⟩ := nodup_cons.mp distinct
    have chain := chains idx mem_cons_self
    refine (clearChain_ensures chain fun must => ?_).bind ?_
    · obtain ⟨threaded, live⟩ := threaded must
      have liveHere := live idx mem_cons_self
      exact ⟨threaded, liveHere, Heap.length_le_next chain.nodup liveHere⟩
    rintro cleared ⟨pages, here, threadedLeft⟩
    have elsewhere : ∀ {index addr}, index ∈ rest → addr ∈ bucket index → addr ∉ bucket idx :=
      fun member inBucket inside => outside (apart inBucket inside ▸ member)
    refine (@inductionHypothesis { cleared with pages := Function.update cleared.pages idx none }
      distinctRest (fun index member => ?_) fun must => ⟨threadedLeft must, ?_⟩).mono ?_
    · have other : index ≠ idx := fun same => outside (same ▸ member)
      simp only [pages, update_of_ne other]
      exact (chains _ (mem_cons_of_mem _ member)).congr fun node inBucket =>
        here.hashNext _ (elsewhere member inBucket)
    · intro index member addr inBucket
      exact (here.live _).mpr ⟨(threaded must).2 _ (mem_cons_of_mem _ member) _ inBucket,
        elsewhere member inBucket⟩
    · rintro next ⟨emptied, later⟩
      refine ⟨fun index => ?_, here.trans ⟨later.tableSize, later.live, later.hashNext⟩⟩
      simp only [emptied, pages]
      by_cases same : index = idx
      · rw [same, update_self, ite_self, if_pos mem_cons_self]
      · rw [update_of_ne same]
        simp only [mem_cons, same, false_or]

/-- `page_cache_clear` frees every page, pinned or not; it returns if all pages hang in one list. -/
theorem HashSound.clear_ensures (hash : HashSound cache bucket)
    (threaded : demand = .must → ∃ order, Threaded cache.heap order) :
    Ensures demand (pageCacheClear cache) fun next =>
      HashSound next (fun _ => []) ∧ ∀ page, ¬next.heap.Live page := by
  refine (clearBuckets_ensures nodup_range hash.same_bucket
    (fun idx _ => (hash.linked idx).chain)
    fun must => ⟨threaded must, fun idx _ addr => hash.live⟩).bind ?_
  rintro cleared ⟨emptied, freed⟩
  have dead : ∀ addr, ¬cleared.heap.Live addr := by
    intro addr live
    obtain ⟨before, outside⟩ := (freed.live _).mp live
    exact outside ((hash.residents.2 _).mpr before)
  have noCore : ∀ addr, coreOf cleared.heap addr = none := fun addr => by
    rw [← not_isSome_iff_eq_none, ← live_iff_coreOf]
    exact dead _
  refine Ensures.ok ⟨⟨fun idx => ?_, fun idx addr => ?_, fun first second one two found => ?_, ?_, ?_⟩,
    dead⟩
  · have empty : cleared.pages idx = none := by
      rw [emptied]
      split
      · rfl
      · rename_i outside
        have noPage : bucket idx = [] := eq_nil_iff_forall_not_mem.mpr fun addr member => by
          obtain ⟨page, -, rfl⟩ := (hash.members idx _).mp member
          exact outside (mem_range.mpr (hashPageId_lt _ hash.positive hash.bounded))
        rw [(hash.linked idx).first, noPage]
        rfl
    simp only [empty]
    exact .nil
  · simp [noCore _]
  · rw [noCore _] at found
    cases found
  · exact freed.tableSize ▸ hash.positive
  · exact freed.tableSize ▸ hash.bounded

theorem HashSound.cleared (hash : HashSound cache bucket) (run : pageCacheClear cache = .ok next) :
    HashSound next fun _ => [] :=
  ((hash.clear_ensures (nofun : Demand.may = .must → _)).elim run).1

/-- After `page_cache_clear` no page is found. -/
theorem HashSound.clear (hash : HashSound cache bucket) (run : pageCacheClear cache = .ok next)
    (pageId : UInt32) : hashFind next pageId = .ok none := by
  have cleared := hash.cleared run
  rcases cleared.find pageId with ⟨addr, read, found, -⟩ | ⟨-, search⟩
  · exact absurd (cleared.mem_bucket found) not_mem_nil
  · exact search

end Clearing

/-! ### Pinned pages stay -/

/-- The calls that are made on a cache. -/
inductive CacheCall
  | op (op : CacheOp)
  | flushPage (pageId : UInt32)
  | clear

/-- The cache after a call. -/
def CacheCall.run (cache : PageCache) : CacheCall → Except Fault PageCache
  | .op request => runOp cache request
  | .flushPage pageId => do return (← pageCacheFlushPage cache pageId).2
  | .clear => pageCacheClear cache

/-- The page object is the one found under the number, and it is pinned. -/
def PinnedAt (cache : PageCache) (pageId : UInt32) (page : Addr) : Prop :=
  hashFind cache pageId = .ok (some page) ∧
    ∃ read, cache.heap.cell page = some read ∧ 0 < read.refcount

instance (cache : PageCache) (pageId : UInt32) (page : Addr) :
    Decidable (PinnedAt cache pageId page) :=
  inferInstanceAs (Decidable (_ ∧ ∃ read ∈ cache.heap.cell page, 0 < read.refcount))

/-- A call while the page is still pinned. The cache is not cleared, and the page not pinned more
often than can be counted. -/
def PinnedStep (pageId : UInt32) (page : Addr) (cache next : PageCache) : Prop :=
  ∃ call : CacheCall, call ≠ .clear ∧
    (∀ read, cache.heap.cell page = some read → read.refcount ≠ 0 ∧
      (call = .op (.get pageId) → read.refcount ≠ Int32.maxValue)) ∧
    call.run cache = .ok next

theorem lt_add_one_of_ne_max (notMax : count ≠ Int32.maxValue) :
    count < count + 1 := by
  have below : count.toInt ≠ 2147483647 := fun same => notMax (Int32.toInt_inj.mp same)
  have range := Int32.toInt_lt count
  have low := Int32.le_toInt count
  rw [Int32.lt_iff_toInt_lt, Int32.toInt_add, Int32.toInt_one, Int.bmod_eq_of_le]
  · omega
  · omega
  · omega

theorem unpinCount_nonneg (nonneg : 0 ≤ count) : 0 ≤ unpinCount count := by
  unfold unpinCount
  split
  · rename_i positive
    have high := Int32.toInt_lt count
    rw [gt_iff_lt, Int32.lt_iff_toInt_lt, Int32.toInt_zero] at positive
    rw [Int32.le_iff_toInt_le, Int32.toInt_sub, Int32.toInt_zero, Int32.toInt_one,
      Int.bmod_eq_of_le]
    · omega
    · omega
    · omega
  · exact nonneg

section Stays

variable {cache next : PageCache} {bucket : Nat → List Addr} {page : Addr} {pageId : UInt32}
  {count : Int32}

/-- No call breaks the hash table. A call that does not clear the cache keeps a pinned page, and its
count is negative afterwards only when it wrapped. -/
theorem HashSound.call (hash : HashSound cache bucket) {call : CacheCall}
    (run : call.run cache = .ok next) :
    (∃ after, HashSound next after) ∧ (call ≠ .clear → ∀ {page pageId count},
      pinsAt cache page = some (pageId, count) → 0 < count →
        ∃ recount, pinsAt next page = some (pageId, recount) ∧
          (recount < 0 → call = .op (.get pageId) ∧ count = Int32.maxValue)) := by
  -- the calls that leave the pins of a pinned page as they are
  have untouched (kept : ∀ page pageId count, pinsAt cache page = some (pageId, count) → 0 < count →
      pinsAt next page = some (pageId, count)) : call ≠ .clear → ∀ {page pageId count},
      pinsAt cache page = some (pageId, count) → 0 < count →
        ∃ recount, pinsAt next page = some (pageId, recount) ∧
          (recount < 0 → call = .op (.get pageId) ∧ count = Int32.maxValue) :=
    fun _ _ _ _ pins positive => ⟨_, kept _ _ _ pins positive, fun negative =>
      absurd negative (Int32.not_lt.mpr (Int32.le_of_lt positive))⟩
  cases call with
  | clear => exact ⟨⟨_, hash.cleared run⟩, fun keeps => absurd rfl keeps⟩
  | flushPage other =>
    simp only [CacheCall.run, bind_eq_ok] at run
    obtain ⟨⟨done, after⟩, flush, same⟩ := run
    cases same
    rcases pageCacheFlushPage_cases flush with rfl | ⟨flushed, flush⟩
    · exact ⟨⟨bucket, hash⟩, untouched fun _ _ _ pins _ => pins⟩
    · have spec := flushPage_spec flush
      exact ⟨⟨bucket, hash.sameShape spec.sameShape⟩,
        untouched fun _ _ _ pins _ => spec.pins ▸ pins⟩
  | op op =>
    cases op with
    | get other =>
      simp only [CacheCall.run, runOp, bind_eq_ok] at run
      obtain ⟨⟨result, after⟩, get, same⟩ := run
      cases same
      have got := hash.got get
      refine ⟨got.hash, fun _ page pageId count pins positive => ?_⟩
      rcases got.kept page pageId count pins with kept | ⟨-, zero, -⟩
      · refine ⟨_, kept, fun negative => ?_⟩
        split at negative
        · rename_i here
          obtain ⟨recount, again⟩ := got.number _ here
          rw [kept] at again
          rw [(Prod.mk.inj (Option.some.inj again)).1]
          refine ⟨rfl, ?_⟩
          by_contra notMax
          have less := Int32.lt_trans positive (lt_add_one_of_ne_max notMax)
          exact Int32.lt_irrefl (Int32.lt_trans negative less)
        · exact absurd negative (Int32.not_lt.mpr (Int32.le_of_lt positive))
      · rw [zero] at positive
        exact absurd positive (Int32.lt_irrefl)
    | unpin other =>
      have moved := pageUnpin_pins run
      simp only [CacheCall.run, runOp] at run
      rw [pageUnpin_eq] at run
      refine ⟨⟨bucket, hash.update run fun _ => rfl⟩,
        fun _ page pageId count pins positive => ?_⟩
      have notNegative := unpinCount_nonneg (Int32.le_of_lt positive)
      rw [moved]
      by_cases here : page = other
      · rw [here] at pins ⊢
        rw [update_self, pins]
        exact ⟨_, rfl, fun negative => absurd negative (Int32.not_lt.mpr notNegative)⟩
      · rw [update_of_ne here, pins]
        exact ⟨_, rfl, fun negative => absurd negative (Int32.not_lt.mpr (Int32.le_of_lt positive))⟩
    | markDirty other =>
      refine ⟨⟨bucket, hash.update run fun _ => rfl⟩,
        untouched fun _ _ _ pins _ => ?_⟩
      rw [update_pins run (fun _ => rfl) fun _ => rfl, pins]
    | flush =>
      simp only [CacheCall.run, runOp, bind_eq_ok] at run
      obtain ⟨⟨flushed, after⟩, flush, same⟩ := run
      cases same
      obtain ⟨kept, samePins⟩ := hash.flush_pins flush
      exact ⟨⟨bucket, kept⟩, untouched fun _ _ _ pins _ => samePins ▸ pins⟩
    | evict other =>
      simp only [CacheCall.run, runOp, bind_eq_ok] at run
      obtain ⟨⟨done, after⟩, evict, same⟩ := run
      cases same
      rcases pageCacheEvict_cases evict with ⟨-, -, rfl⟩ |
        ⟨victim, read, -, found, ⟨-, -, rfl⟩ | ⟨free, evicts⟩⟩
      · exact ⟨⟨bucket, hash⟩, untouched fun _ _ _ pins _ => pins⟩
      · exact ⟨⟨bucket, hash⟩, untouched fun _ _ _ pins _ => pins⟩
      · refine ⟨evicts.hashSound hash, untouched fun page _ _ pins positive => ?_⟩
        have other : page ≠ victim := by
          rintro rfl
          rw [pinsAt, found] at pins
          exact free ((Prod.mk.inj (Option.some.inj pins)).2 ▸ positive)
        rw [evicts.pins]
        split
        · rw [update_of_ne other, pins]
        · exact pins

theorem HashSound.pinnedAt_iff (hash : HashSound cache bucket) :
    PinnedAt cache pageId page ↔ ∃ count, pinsAt cache page = some (pageId, count) ∧ 0 < count := by
  rw [PinnedAt, hash.find_iff]
  constructor
  · rintro ⟨⟨count, pins⟩, read, found, positive⟩
    have same := pins
    rw [pinsAt, found] at same
    exact ⟨count, pins, (Prod.mk.inj (Option.some.inj same)).2 ▸ positive⟩
  · rintro ⟨count, pins, positive⟩
    obtain ⟨read, found, same⟩ := map_eq_some_iff.mp pins
    exact ⟨⟨count, pins⟩, read, found, (Prod.mk.inj same).2 ▸ positive⟩

/-- A page that is pinned stays in the cache as the same object until its count is back to zero, if
the cache is not cleared meanwhile; and of the calls made while it is pinned exactly that one
removes it. -/
theorem pinned_page_stays_iff (hash : HashSound cache bucket) (pinned : PinnedAt cache pageId page)
    (run : ReflTransGen (PinnedStep pageId page) cache next) :
    hashFind next pageId = .ok (some page) ∧
      (PinnedAt next pageId page → ∀ (call : CacheCall) (after : PageCache),
        call.run next = .ok after →
          (hashFind after pageId = .ok (some page) ↔ call ≠ .clear)) := by
  obtain ⟨count, pins, positive⟩ := hash.pinnedAt_iff.mp pinned
  obtain ⟨⟨_, hashNext⟩, recount, pinsNext, -⟩ := run_invariant
    (fun cache => (∃ bucket, HashSound cache bucket) ∧
      ∃ count, pinsAt cache page = some (pageId, count) ∧ 0 ≤ count)
    (fun before after step holds => by
      obtain ⟨⟨bucket, hash⟩, count, pins, nonneg⟩ := holds
      obtain ⟨call, keeps, guard, run⟩ := step
      obtain ⟨read, found, same⟩ := map_eq_some_iff.mp pins
      obtain ⟨nonzero, notMax⟩ := guard _ found
      rw [(Prod.mk.inj same).2] at nonzero notMax
      have positive := Int32.lt_of_le_of_ne nonneg nonzero.symm
      obtain ⟨hashAfter, pinned⟩ := hash.call run
      obtain ⟨recount, again, wrapped⟩ := pinned keeps pins positive
      refine ⟨hashAfter, recount, again, Int32.not_lt.mp fun negative => ?_⟩
      obtain ⟨isGet, isMax⟩ := wrapped negative
      exact notMax isGet isMax)
    run ⟨⟨bucket, hash⟩, count, pins, Int32.le_of_lt positive⟩
  refine ⟨hashNext.find_iff.mpr ⟨recount, pinsNext⟩, fun pinnedNext call after run => ?_⟩
  constructor
  · rintro resident rfl
    rw [hashNext.clear run] at resident
    cases resident
  · intro keeps
    obtain ⟨count, pins, positive⟩ := hashNext.pinnedAt_iff.mp pinnedNext
    obtain ⟨⟨_, hashAfter⟩, pinned⟩ := hashNext.call run
    obtain ⟨recount, pinsAfter, -⟩ := pinned keeps pins positive
    exact hashAfter.find_iff.mpr ⟨recount, pinsAfter⟩

end Stays

/-- The first page that is loaded is pinned once. -/
theorem first_load_pinned : ∃ cache bucket order,
    pageCacheGet (pageCacheCreate 256 4 (some onePage)) 1 = .ok (some 0, cache) ∧
      CacheSound cache bucket order ∧ PinnedAt cache 1 0 ∧ cache.heap.next = 1 ∧
      pinsAt cache 0 = some (1, 1) := by
  obtain ⟨cache, get, pinned⟩ : ∃ cache,
      pageCacheGet (pageCacheCreate 256 4 (some onePage)) 1 = .ok (some 0, cache) ∧
        PinnedAt cache 1 0 ∧ cache.heap.next = 1 ∧ pinsAt cache 0 = some (1, 1) := by
    decide +kernel
  obtain ⟨bucket, order, sound⟩ :=
    (created_cacheSound 256 4 _).get (created_stepSafe ..) get
  exact ⟨cache, bucket, order, get, sound, pinned⟩

theorem pinned_page_stays_iff_flush : ∃ pager cache flushed next,
    pageCacheGet (pageCacheCreate 256 4 (some pager)) 1 = .ok (some 0, cache) ∧
      PinnedAt cache 1 0 ∧ pageCacheFlush cache = .ok (flushed, next) ∧
      hashFind next 1 = .ok (some 0) := by
  obtain ⟨cache, bucket, order, run, sound, pinned, -, pins⟩ := first_load_pinned
  obtain ⟨flushed, next, flush, -⟩ :=
    Resident.flush ⟨⟨⟨bucket, sound.hash⟩, sound.lru.linksLive⟩, rfl⟩
  have step : PinnedStep 1 0 cache next := by
    refine ⟨.op .flush, nofun, fun read found => ⟨fun zero => ?_, nofun⟩, ?_⟩
    · rw [pinsAt, found, map_some, zero] at pins
      exact absurd (Prod.mk.inj (Option.some.inj pins)).2 (by decide)
    · simp only [CacheCall.run, runOp, flush, ok_bind, pure_eq_ok]
  exact ⟨onePage, cache, flushed, next, run, pinned, flush,
    (pinned_page_stays_iff sound.hash pinned (.single step)).1⟩

/-- A page is loaded and pinned, the cache is cleared, and the page is freed. -/
theorem clear_frees_pinned_page : ∃ pager cache next,
    pageCacheGet (pageCacheCreate 256 4 (some pager)) 1 = .ok (some 0, cache) ∧
      PinnedAt cache 1 0 ∧ pageCacheClear cache = .ok next ∧
      hashFind next 1 = .ok none ∧ ¬next.heap.Live 0 := by
  refine ⟨onePage, ?_⟩
  simp only [exists_and_left]
  decide +kernel

end TinyDb

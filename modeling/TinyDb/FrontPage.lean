/-
This file is about the page that a cache returned last, whatever happened to the
cache before.

Hits and evictions break the list of recently used pages: its ends can be left at
freed pages. But a page that `page_cache_get` returns stands at the front, and its
own two links lead to live pages. So it can be pinned, changed and unpinned again
and again, as long as no other page is touched. All that this needs from the past of
the cache is a sound hash table, and no call breaks the hash table.
-/

import TinyDb.LeafTree
import TinyDb.Pins

namespace TinyDb

open Heaps Chains Posix Function

variable {addr : Addr}

/-! ### Caches with any past -/

/-- Whatever can happen to a cache: a call, an assignment to the data of a page, or a change to the
pager. -/
inductive CacheEvent : PageCache → PageCache → Prop
  | call {cache next : PageCache} {call : CacheCall} (run : call.run cache = .ok next) :
      CacheEvent cache next
  | write {cache next : PageCache} {page : Addr} {data : PageData}
      (run : cache.update page ({ · with data }) = .ok next) : CacheEvent cache next
  | pager {cache : PageCache} (pager : Pager) : CacheEvent cache { cache with pager := some pager }

/-- The hash table of a cache is always sound. -/
theorem hashSound_of_run {defaultCacheSize maxPages : Int} {pager : Option Pager}
    {cache : PageCache}
    (run : Relation.ReflTransGen CacheEvent (pageCacheCreate defaultCacheSize maxPages pager)
      cache) : ∃ bucket, HashSound cache bucket := by
  refine Runs.run_invariant (fun cache => ∃ bucket, HashSound cache bucket)
    (fun before after step holds => ?_) run
    ⟨_, (created_cacheSound _ _ _).hash⟩
  obtain ⟨bucket, hash⟩ := holds
  cases step with
  | call run => exact (hash.call run).1
  | write run => exact ⟨bucket, hash.update run fun _ => rfl⟩
  | pager pager => exact ⟨bucket, hash.attach _⟩

/-! ### The front of the list -/

/-- The page is at the front, and can be taken out there and put back. -/
structure AtFront (cache : PageCache) (page : Addr) : Prop where
  hash : ∃ bucket, HashSound cache bucket
  head : cache.lruHead = some page
  live : cache.heap.Live page
  next : ∀ addr, link Page.lruNext cache.heap page = some addr → cache.heap.Live addr
  prev : ∀ addr, link Page.lruPrev cache.heap page = some addr → cache.heap.Live addr

section Front

variable {cache next : PageCache} {bucket : Nat → List Addr} {page : Addr} {pageNum : UInt32}
  {whole : Page} {view : View}

/-- The backward link of the page that is put in front leads nowhere, or to the page. -/
theorem setAt_front {head : Option Addr} {links : Addr → Option Addr}
    (found : setAt head (some page) (Function.update links page none) page = some addr) :
    addr = page := by
  rcases setAt_value found with old | self
  · rw [update_self] at old
    cases old
  · exact (Option.some.inj self).symm

/-- A page that was hit is at the front. -/
theorem PageHit.atFront (hit : PageHit cache next page) (hash : HashSound cache bucket)
    (live : cache.heap.Live page)
    (headLive : ∀ addr, cache.lruHead = some addr → cache.heap.Live addr) : AtFront next page where
  hash := ⟨bucket, hit.hashSound hash⟩
  head := by rw [hit.rest]
  live := (hit.live_iff _).mpr live
  next addr found := by
    rw [hit.lruNext, update_self] at found
    exact (hit.live_iff _).mpr (headLive _ found)
  prev _ found := by
    rw [hit.lruPrev] at found
    rw [setAt_front found]
    exact (hit.live_iff _).mpr live

/-- A page that was loaded is at the front. -/
theorem PageLoaded.atFront {data : PageData} {after : Pager}
    (loaded : PageLoaded cache next pageNum data after) (hash : HashSound cache bucket)
    (absent : ∀ addr read, coreOf cache.heap addr = some read → read.id ≠ pageNum) :
    AtFront next cache.heap.next := by
  refine ⟨⟨_, loaded.hashSound _ hash absent⟩, by rw [loaded.rest], loaded.live_new,
    fun addr found => ?_, fun addr found => ?_⟩
  · rw [loaded.lruNext, update_self] at found
    rcases loaded.headLive addr found with before | rfl
    · exact loaded.live before
    · exact loaded.live_new
  · rw [loaded.lruPrev] at found
    rw [setAt_front found]
    exact loaded.live_new

theorem hitPage_headLive (run : hitPage cache page = .ok next) (head : cache.lruHead = some addr) :
    cache.heap.Live addr := by
  simp only [hitPage, lruMru, bind_eq_ok] at run
  obtain ⟨added, ⟨removed, remove, add⟩, -⟩ := run
  have removed := lruRemove_spec remove
  have live := (lruAddFront_spec add).headLive _ (by rw [removed.rest]; exact head)
  exact (live_congr removed.core _).mp live

/-- The page that `page_cache_get` returns is at the front. -/
theorem HashSound.get_atFront (hash : HashSound cache bucket)
    (run : pageCacheGet cache pageNum = .ok (some page, next)) :
    AtFront next page ∧ ∃ whole, next.heap.load page = .ok whole ∧ whole.id = pageNum := by
  have front : AtFront next page := by
    rcases pageCacheGet_cases run with ⟨_, search, same, hit⟩ | ⟨-, -, impossible, -⟩ |
      ⟨search, -, done, room, making, finish⟩
    · obtain rfl := Option.some.inj same
      obtain ⟨read, found, -⟩ := hash.find_some search
      have live : cache.heap.Live page := live_of_coreOf found
      exact (hitPage_spec hit).atFront hash live fun addr head => hitPage_headLive hit head
    · cases impossible
    · cases done with
      | false => cases finish.1
      | true =>
        obtain ⟨pager, -, load⟩ := finish
        obtain ⟨_, hashRoom⟩ := (hash.missed.thinned making).hash
        rcases loadPage_cases load with ⟨-, -, impossible, -⟩ | ⟨data, after, -, same, loaded⟩
        · cases impossible
        · rw [Option.some.inj same]
          exact loaded.atFront hashRoom fun addr read found =>
            hash.find_none search _ _ (makeRoom_cores making found)
  obtain ⟨count, pins⟩ := (hash.got run).number _ rfl
  obtain ⟨whole, found, same⟩ := Option.map_eq_some_iff.mp pins
  exact ⟨front, whole, Heap.load_eq_ok.mpr found, (Prod.mk.inj same).1⟩

/-- The page at the front can be had again. -/
theorem AtFront.get (front : AtFront cache page) (load : cache.heap.load page = .ok whole) :
    ∃ next again, pageCacheGet cache whole.id = .ok (some page, next) ∧ AtFront next page ∧
      next.heap.load page = .ok again ∧ again.id = whole.id ∧ again.data = whole.data := by
  obtain ⟨bucket, hash⟩ := front.hash
  have headLive : ∀ addr, cache.lruHead = some addr → cache.heap.Live addr := by
    intro addr head
    rw [front.head] at head
    exact Option.some.inj head ▸ front.live
  obtain ⟨next, run, hit⟩ : Ensures .must _ _ := hitPage_ensures fun _ =>
    ⟨front.live, front.prev, front.next, headLive⟩
  have found := coreOf_of_cell (Heap.load_eq_ok.mp load)
  obtain ⟨again, loadAgain, number, content⟩ := hit.load found
  have get := pageCacheGet_of_hit hash found run
  exact ⟨next, again, get, hit.atFront hash front.live headLive, loadAgain, number, content⟩

/-- Assigning to the page at the front, but not to its links. -/
theorem AtFront.change (front : AtFront cache page) (load : cache.heap.load page = .ok whole)
    (change : Page → Page) (place : ∀ read, (change read).place = read.place) :
    ∃ next, cache.update page change = .ok next ∧ AtFront next page ∧
      next.heap.load page = .ok (change whole) := by
  obtain ⟨bucket, hash⟩ := front.hash
  obtain ⟨next, run⟩ := update_of_live front.live change
  have shape := SameShape.update run place
  obtain ⟨read, found, same⟩ := update_eq_ok.mp run
  cases ((Heap.load_eq_ok.mp load).symm.trans found)
  have live := fun addr => (shape.live_iff addr).mpr
  refine ⟨next, run, ⟨⟨bucket, hash.sameShape shape⟩, by rw [shape.rest]; exact front.head,
    live _ front.live, fun addr found => live _ (front.next _ ?_),
    fun addr found => live _ (front.prev _ ?_)⟩, ?_⟩
  · rw [shape.lruNext] at found
    exact found
  · rw [shape.lruPrev] at found
    exact found
  · rw [same]
    exact Heap.load_eq_ok.mpr (Heap.set_cell_self front.live _)

/-- A view of one page. -/
def View.only (pageNum : UInt32) (data : PageData) : View :=
  Function.update (fun _ => none) pageNum (some data)

/-- The view is that of the page at the front. -/
def FrontHeld (cache : PageCache) (view : View) (page : Addr) : Prop :=
  AtFront cache page ∧ ∃ whole, cache.heap.load page = .ok whole ∧ view = .only whole.id whole.data

/-- The view is that of some page at the front. -/
def Front (cache : PageCache) (view : View) : Prop := ∃ page, FrontHeld cache view page

/-- Whatever the rest of the cache is like, it pins the page at the front. -/
theorem front_serves : Serves .must Front FrontHeld where
  pin := by
    rintro cache _ pageNum data ⟨page, front, whole, load, rfl⟩ found
    obtain ⟨rfl, same⟩ | ⟨-, impossible⟩ := update_eq_some found
    · obtain rfl := Option.some.inj same
      obtain ⟨next, again, run, frontNext, loadAgain, number, content⟩ := front.get load
      exact ⟨_, run, page, again, rfl, loadAgain, number, content, frontNext, again, loadAgain, by
        rw [number, content]⟩
    · cases impossible
  unpin := by
    rintro cache _ page ⟨front, whole, load, rfl⟩
    obtain ⟨next, run, frontNext, loadNext⟩ := front.change load (fun read => { read with
      refcount := if read.refcount > 0 then read.refcount - 1 else read.refcount }) fun _ => rfl
    exact ⟨next, by rw [pageUnpin_eq]; exact run, page, frontNext, _, loadNext, rfl⟩
  overwrite := by
    rintro cache _ page whole data ⟨front, _, again, rfl⟩ load
    cases (again.symm.trans load)
    obtain ⟨written, write, frontWritten, loadWritten⟩ := front.change load ({ · with data })
      fun _ => rfl
    obtain ⟨next, mark, frontNext, loadNext⟩ := frontWritten.change loadWritten
      ({ · with isDirty := true }) fun _ => rfl
    exact ⟨written, write, next, mark, frontNext, _, loadNext, update_idem ..⟩

/-- The root page of a new tree is at the front. -/
theorem HashSound.btreeCreate_front {tree : BTree} (hash : HashSound cache bucket)
    (create : btreeCreate cache = .ok (some tree, next)) :
    tree.isOpen = true ∧ ∃ view data, Front next view ∧ view tree.rootPage = some data ∧
      LeafLayout data pageSize [] := by
  obtain ⟨empty, emptyRun, layout⟩ := emptyLeaf_ok
  unfold btreeCreate at create
  split at create
  · cases create
  · split at create
    · cases create
    · rename_i root pager allocate
      simp only [bind_eq_ok, pinWrite] at create
      obtain ⟨⟨written, after⟩, ⟨⟨found, pinned⟩, get, write⟩, same⟩ := create
      cases found with
      | none =>
        cases write
        cases same
      | some page =>
        obtain ⟨front, whole, load, rfl⟩ := (hash.attach _).get_atFront get
        simp only [load, emptyRun, ok_bind, pure_eq_ok, bind_eq_ok] at write
        obtain ⟨filled, fill, marked, mark, unpinned, unpin, last⟩ := write
        cases last
        obtain ⟨made, rfl⟩ := Prod.mk.inj (Except.ok.inj same)
        cases made
        have held := ((front_serves.overwrite _ ⟨front, whole, load, rfl⟩ load).elim fill).elim mark
        exact ⟨rfl, _, empty, (front_serves.unpin held).elim unpin, update_self .., layout⟩

end Front

end TinyDb

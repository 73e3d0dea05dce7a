/-
This file proves that flushing a cache brings the file up to the array the cache
stands for, and that destroying the cache leaves that file behind.

The flush walks the buckets of the hash table. The buckets hold every resident
page, so no page is dirty afterwards. Destroying a cache flushes it and then frees
its pages bucket by bucket; no page lies in two buckets, so none is freed twice.
-/

import TinyDb.PinnedPages

namespace TinyDb

open Heaps Chains List Option

variable {cache : PageCache}

/-! ### Flushing pages -/

/-- A page after it was written. -/
def Page.cleaned (page : Page) : Page := { page with isDirty := false }

theorem Page.cleaned_of_clean {page : Page} (clean : page.isDirty = false) :
    page.cleaned = page := by
  rw [Page.cleaned, ← clean]

/-- What writing back some pages did. They are clean, those that were dirty are in the file, and
everything else is as it was. The header of the file is untouched unless page 0 was resident. -/
structure WritesBack (cache next : PageCache) (pager after : Pager) (pages : List Addr) : Prop where
  cell : ∀ addr, next.heap.cell addr =
    if addr ∈ pages then (cache.heap.cell addr).map Page.cleaned else cache.heap.cell addr
  rest : next = { cache with heap := next.heap, pager := some after }
  quiet : after.Quiet
  same : SamePages pager after
  dirty : ∀ addr ∈ pages, ∀ read, cache.heap.cell addr = some read → read.isDirty = true →
    diskPage after.fd.file read.id = read.data
  other : ∀ pageNum, (∀ addr ∈ pages, ∀ read, cache.heap.cell addr = some read →
    read.isDirty = true → read.id ≠ pageNum) →
    diskPage after.fd.file pageNum = diskPage pager.fd.file pageNum
  header : (∀ addr read, cache.heap.cell addr = some read → read.id ≠ 0) →
    headerOf after.fd.file = headerOf pager.fd.file

/-- What flushing some pages did. The header of the file is untouched unless page 0 was
resident. -/
structure Flushes (cache next : PageCache) (pager after : Pager) (pages : List Addr) : Prop where
  core : ∀ addr, coreOf next.heap addr =
    if addr ∈ pages then (coreOf cache.heap addr).map Page.cleaned else coreOf cache.heap addr
  rest : next = { cache with heap := next.heap, pager := next.pager }
  same : SamePages pager after
  header : (∀ addr read, coreOf cache.heap addr = some read → read.id ≠ 0) →
    headerOf after.fd.file = headerOf pager.fd.file

/-- Whether a dirty page lives at an address. -/
def dirtyAt (cache : PageCache) (addr : Addr) : Bool := (cache.heap.cell addr).any Page.isDirty

/-- The number of dirty pages. -/
def dirtyCount (cache : PageCache) : Nat := (List.range cache.heap.next).countP (dirtyAt cache)

section Flush

variable {cache middle next : PageCache} {pager between after : Pager}
  {flat : UInt32 → PageData} {page : Addr} {pages : List Addr} {ids : List UInt32} {read : Page}
  {bucket : Nat → List Addr}

/-- Writing back changes nothing of a page but whether it is dirty. -/
theorem WritesBack.bind_cell {Value : Type} (writes : WritesBack cache next pager after pages)
    (field : Page → Option Value) (same : ∀ read : Page, field read.cleaned = field read)
    (addr : Addr) : (next.heap.cell addr).bind field = (cache.heap.cell addr).bind field := by
  rw [writes.cell]
  split
  · rw [bind_map]
    congr 1
    funext read
    exact same _
  · rfl

theorem WritesBack.flushes (writes : WritesBack cache next pager after pages) :
    Flushes cache next pager after pages where
  core addr := by
    rw [coreOf, writes.cell, coreOf]
    split
    · cases cache.heap.cell addr <;> rfl
    · rfl
  rest := by rw [writes.rest]
  same := writes.same
  header nonzero := writes.header fun addr read found zero =>
    nonzero _ _ (coreOf_of_cell found) zero

/-- Flushing changes nothing of a page but whether it is dirty. -/
theorem Flushes.map_core {Value : Type} (flushes : Flushes cache next pager after pages)
    (field : Page → Value) (same : ∀ read : Page, field read.cleaned = field read) (addr : Addr) :
    (coreOf next.heap addr).map field = (coreOf cache.heap addr).map field := by
  rw [flushes.core]
  split
  · rw [Option.map_map]
    congr 1
    funext read
    exact same _
  · rfl

theorem WritesBack.hashSound (writes : WritesBack cache next pager after pages)
    (sound : HashSound cache bucket) : HashSound next bucket := by
  refine sound.frame (funext ?_) (funext ?_) ?_ (by rw [writes.rest]) (by rw [writes.rest])
  · exact writes.bind_cell _ fun _ => rfl
  · exact writes.bind_cell _ fun _ => rfl
  · exact writes.flushes.map_core _ fun _ => rfl

/-- Flushing one page. -/
theorem flushPage_quiet (attached : cache.pager = some pager) (quiet : pager.Quiet)
    (found : cache.heap.cell page = some read) :
    ∃ next after, flushPage cache page = .ok (read.isDirty, next) ∧
      WritesBack cache next pager after [page] := by
  have only : ∀ addr ∈ [page], ∀ other, cache.heap.cell addr = some other → other = read := by
    intro addr member other same
    rw [mem_singleton.mp member, found] at same
    exact (Option.some.inj same).symm
  cases dirty : read.isDirty with
  | false =>
    refine ⟨cache, pager, ?_, fun addr => ?_, ?_, quiet, .refl _,
      fun addr member other same set => ?_, fun _ _ => rfl, fun _ => rfl⟩
    · simp only [flushPage, Heap.load_eq_ok.mpr found, ok_bind, dirty, pure_eq_ok]
    · split
      · rename_i here
        rw [mem_singleton.mp here, found, map_some, Page.cleaned_of_clean dirty]
      · rfl
    · rw [← attached]
    · rw [only addr member _ same, dirty] at set
      cases set
  | true =>
    obtain ⟨after, writing, quietAfter⟩ := quiet.write read.id read.data
    obtain ⟨-, -, -, -, file⟩ := pagerWritePage_ok writing
    have live : ({ cache with pager := some after } : PageCache).heap.Live page :=
      Heap.live_of_eq found
    have clean : ({ cache with pager := some after }).update page
        ({ · with isDirty := false }) = .ok { cache with
          heap := cache.heap.set page (some read.cleaned)
          pager := some after } := update_eq_ok.mpr ⟨read, found, rfl⟩
    refine ⟨{ cache with heap := cache.heap.set page (some read.cleaned), pager := some after },
      after, ?_, fun addr => ?_, rfl, quietAfter, pagerWritePage_same writing,
      fun addr member other same _ => ?_, fun pageNum clean => ?_, fun nonzero => ?_⟩
    · simp only [flushPage, Heap.load_eq_ok.mpr found, ok_bind, dirty, attached, writing, clean,
        pure_eq_ok]
    · by_cases here : addr = page
      · rw [here, if_pos (mem_singleton_self _), found]
        exact Heap.set_cell_self live _
      · rw [if_neg (by simpa using here)]
        exact Heap.set_cell_ne _ here
    · rw [only addr member _ same, file, diskPage_write_self]
    · have different := clean _ (mem_singleton_self _) _ found dirty
      rw [file, diskPage_write_other _ read.data.toBytes_length different.symm]
    · rw [file, headerOf_write_page _ _ (headerSize_le_getPageOffset (nonzero _ _ found))]

section

variable (unique : ∀ first second one two, cache.heap.cell first = some one → cache.heap.cell second = some two → one.id = two.id → first = second)
include unique

theorem WritesBack.trans
    (one : WritesBack cache middle pager between [page]) (apart : page ∉ pages)
    (two : WritesBack middle next between after pages) :
    WritesBack cache next pager after (page :: pages) := by
  have others : ∀ addr ∈ pages, middle.heap.cell addr = cache.heap.cell addr := by
    intro addr member
    rw [one.cell, if_neg]
    exact fun here => apart (mem_singleton.mp here ▸ member)
  refine ⟨fun addr => ?_, ?_, two.quiet, one.same.trans two.same,
    fun addr member read found dirty => ?_, fun pageNum clean => ?_, fun nonzero => ?_⟩
  · rw [two.cell]
    by_cases here : addr = page
    · rw [here, if_neg apart, if_pos mem_cons_self, one.cell,
        if_pos (mem_singleton_self _)]
    · by_cases member : addr ∈ pages
      · rw [if_pos member, if_pos (mem_cons_of_mem _ member), others _ member]
      · rw [if_neg member, if_neg (by simp [here, member]), one.cell, if_neg (by simpa using here)]
  · rw [two.rest, one.rest]
  · rcases mem_cons.mp member with rfl | member
    · rw [two.other, one.dirty _ (mem_singleton_self _) _ found dirty]
      intro other inside old foundOther _ same
      rw [others _ inside] at foundOther
      exact apart (unique _ _ old _ foundOther found same ▸ inside)
    · exact two.dirty _ member _ ((others _ member).trans found) dirty
  · rw [two.other _ fun addr member read found => ?_, one.other _ fun addr member => ?_]
    · rw [mem_singleton.mp member]
      exact clean _ mem_cons_self
    · rw [others _ member] at found
      exact clean _ (mem_cons_of_mem _ member) _ found
  · rw [two.header, one.header nonzero]
    intro addr read found zero
    have numbers := one.bind_cell (fun read => some read.id) (fun _ => rfl) addr
    rw [found, bind_some, eq_comm, bind_eq_some_iff] at numbers
    obtain ⟨old, foundOld, number⟩ := numbers
    exact nonzero _ old foundOld ((Option.some.inj number).trans zero)

/-- Flushing different pages writes them all back, and counts those that were dirty. -/
theorem flushAll_quiet
    (attached : cache.pager = some pager) (quiet : pager.Quiet) (distinct : pages.Nodup)
    (live : ∀ page ∈ pages, cache.heap.Live page) (flushed : Nat) :
    ∃ next after, flushAll pages cache flushed =
        .ok (flushed + pages.countP (dirtyAt cache), next) ∧
      WritesBack cache next pager after pages := by
  induction pages generalizing cache pager flushed with
  | nil =>
    refine ⟨cache, pager, rfl, fun _ => ?_, by rw [← attached], quiet, .refl _, nofun,
      fun _ _ => rfl, fun _ => rfl⟩
    rw [if_neg not_mem_nil]
  | cons page rest inductionHypothesis =>
    obtain ⟨apart, distinctRest⟩ := nodup_cons.mp distinct
    obtain ⟨read, found⟩ := Heap.live_iff.mp (live _ mem_cons_self)
    obtain ⟨middle, between, run, one⟩ := flushPage_quiet attached quiet found
    have others : ∀ addr, addr ≠ page → middle.heap.cell addr = cache.heap.cell addr := by
      intro addr different
      rw [one.cell, if_neg (by simpa using different)]
    have numbers : ∀ addr new, middle.heap.cell addr = some new →
        ∃ old, cache.heap.cell addr = some old ∧ old.id = new.id := by
      intro addr new foundNew
      have same := one.bind_cell (fun read => some read.id) (fun _ => rfl) addr
      rw [foundNew, bind_some, eq_comm, bind_eq_some_iff] at same
      obtain ⟨old, foundOld, number⟩ := same
      exact ⟨old, foundOld, Option.some.inj number⟩
    obtain ⟨next, after, runRest, two⟩ := inductionHypothesis
      (fun first second new other foundNew foundOther same => by
        obtain ⟨old, foundOld, number⟩ := numbers _ new foundNew
        obtain ⟨older, foundOlder, numberOther⟩ := numbers _ _ foundOther
        exact unique _ _ old _ foundOld foundOlder
          (number.trans (same.trans numberOther.symm)))
      (by rw [one.rest]) one.quiet distinctRest
      (fun addr member => by
        rw [Heap.Live, others _ fun same => apart (same ▸ member)]
        exact live _ (mem_cons_of_mem _ member)) _
    refine ⟨next, after, ?_, one.trans unique apart two⟩
    have sameDirty : rest.countP (dirtyAt middle) = rest.countP (dirtyAt cache) := by
      refine countP_congr fun addr member => ?_
      rw [dirtyAt, dirtyAt, others _ fun same => apart (same ▸ member)]
    have counted : (page :: rest).countP (dirtyAt cache) =
        read.isDirty.toNat + rest.countP (dirtyAt cache) := by
      rw [countP_cons, dirtyAt, found, any_some, Nat.add_comm]
      cases read.isDirty <;> rfl
    rw [flushAll, run]
    refine runRest.trans ?_
    rw [sameDirty, counted, Nat.add_assoc]

end

theorem HashSound.countP_dirtyAt (hash : HashSound cache bucket) :
    ((List.range cache.tableSize).flatMap bucket).countP (dirtyAt cache) = dirtyCount cache := by
  obtain ⟨distinct, members⟩ := hash.residents
  rw [dirtyCount, countP_eq_length_filter, countP_eq_length_filter]
  refine List.Perm.length_eq ((perm_ext_iff_of_nodup (distinct.filter _)
    (nodup_range.filter _)).mpr fun addr => ?_)
  rw [mem_filter, mem_filter, members, mem_range]
  refine and_congr_left fun dirty => ⟨Heap.Live.lt_next, fun _ => ?_⟩
  rw [dirtyAt, Option.any_eq_true] at dirty
  obtain ⟨read, found, -⟩ := dirty
  exact Heap.live_of_eq found

/-- `page_cache_flush` writes back every page. -/
theorem HashSound.flush (hash : HashSound cache bucket) (attached : cache.pager = some pager)
    (quiet : pager.Quiet) :
    ∃ next after, pageCacheFlush cache = .ok (dirtyCount cache, next) ∧
      WritesBack cache next pager after ((List.range cache.tableSize).flatMap bucket) := by
  obtain ⟨distinct, members⟩ := hash.residents
  obtain ⟨next, after, run, writes⟩ := flushAll_quiet
    (fun first second one two foundOne foundTwo same => hash.unique _ _ _ _
      (coreOf_of_cell foundOne) (coreOf_of_cell foundTwo) same)
    attached quiet distinct (fun page member => (members _).mp member) 0
  rw [← pageCacheFlush_eq hash, Nat.zero_add, hash.countP_dirtyAt] at run
  exact ⟨next, after, run, writes⟩

/-- Writing back keeps the array. -/
theorem Store.writesBack (store : Store cache pager flat)
    (writes : WritesBack cache next pager after pages) : Store next after flat := by
  obtain ⟨bucket, hash⟩ := store.hash
  refine ⟨⟨bucket, writes.hashSound hash⟩, by rw [writes.rest], fun addr read found => ?_,
    fun pageId clean => ?_⟩
  · have same := writes.flushes.map_core (fun read => (read.id, read.data)) (fun _ => rfl) addr
    rw [found, map_some, eq_comm, map_eq_some_iff] at same
    obtain ⟨old, foundOld, equal⟩ := same
    obtain ⟨number, content⟩ := Prod.mk.inj equal
    rw [← number, ← content]
    exact store.resident _ old foundOld
  · by_cases written : ∃ addr ∈ pages, ∃ read, cache.heap.cell addr = some read ∧
        read.isDirty = true ∧ read.id = pageId
    · obtain ⟨addr, member, read, found, dirty, rfl⟩ := written
      rw [writes.dirty _ member _ found dirty]
      exact store.resident _ read.core (coreOf_of_cell found)
    · rw [writes.other _ fun addr member read found dirty same =>
        written ⟨addr, member, read, found, dirty, same⟩]
      refine store.disk _ fun addr core foundCore number => ?_
      obtain ⟨read, found, rfl⟩ := cell_of_coreOf foundCore
      by_cases member : addr ∈ pages
      · exact Bool.eq_false_iff.mpr fun dirty => written ⟨addr, member, read, found, dirty, number⟩
      · refine clean addr _ ?_ number
        rw [writes.flushes.core, if_neg member, foundCore]

/-- `page_cache_flush` brings the whole file up to the array. -/
theorem Store.flush (store : Store cache pager flat) (quiet : pager.Quiet) :
    ∃ total next after pages, pageCacheFlush cache = .ok (total, next) ∧ Store next after flat ∧
      after.Quiet ∧ Flushes cache next pager after pages ∧ diskPage after.fd.file = flat := by
  obtain ⟨bucket, hash⟩ := store.hash
  obtain ⟨next, after, run, writes⟩ := hash.flush store.attached quiet
  have storeNext := store.writesBack writes
  refine ⟨_, next, after, _, run, storeNext, writes.quiet, writes.flushes, funext fun pageNum => ?_⟩
  refine storeNext.disk _ fun addr read found _ => ?_
  have core := writes.flushes.core addr
  rw [found] at core
  split at core
  · obtain ⟨old, -, rfl⟩ := map_eq_some_iff.mp core.symm
    rfl
  · rename_i outside
    refine absurd ((hash.residents.2 _).mpr ?_) outside
    rw [live_iff_coreOf, ← core]
    rfl

/-- Flushing clean pages does nothing. -/
theorem flushAll_clean (clean : ∀ page ∈ pages, ∃ read, cache.heap.cell page = some read ∧
      read.isDirty = false) (flushed : Nat) :
    flushAll pages cache flushed = .ok (flushed, cache) := by
  induction pages with
  | nil => rfl
  | cons page rest inductionHypothesis =>
    obtain ⟨read, found, notDirty⟩ := clean _ mem_cons_self
    have run : flushPage cache page = .ok (false, cache) := by
      simp only [flushPage, Heap.load_eq_ok.mpr found, ok_bind, notDirty, pure_eq_ok]
    rw [flushAll, run]
    exact inductionHypothesis fun other member => clean _ (mem_cons_of_mem _ member)

/-- Flushing writes every dirty page to the file once, counts them, and leaves everything else; a
second flush finds nothing to do. -/
theorem flush_writes_back (hash : HashSound cache bucket) (attached : cache.pager = some pager)
    (quiet : pager.Quiet) :
    ∃ next after, pageCacheFlush cache = .ok (dirtyCount cache, next) ∧
      (∀ addr read, next.heap.cell addr = some read → read.isDirty = false) ∧
      (∀ addr read, cache.heap.cell addr = some read → read.isDirty = true →
        diskPage after.fd.file read.id = read.data) ∧
      (∀ pageNum, (∀ addr read, cache.heap.cell addr = some read → read.isDirty = true →
        read.id ≠ pageNum) → diskPage after.fd.file pageNum = diskPage pager.fd.file pageNum) ∧
      (∀ addr, next.heap.cell addr = (cache.heap.cell addr).map Page.cleaned) ∧
      next = { cache with heap := next.heap, pager := some after } ∧
      pageCacheFlush next = .ok (0, next) := by
  obtain ⟨next, after, run, writes⟩ := hash.flush attached quiet
  obtain ⟨-, members⟩ := hash.residents
  have cells : ∀ addr, next.heap.cell addr = (cache.heap.cell addr).map Page.cleaned := by
    intro addr
    rw [writes.cell]
    split
    · rfl
    · rename_i outside
      rw [members, Heap.Live, not_isSome_iff_eq_none] at outside
      rw [outside]
      rfl
  have clean : ∀ addr read, next.heap.cell addr = some read → read.isDirty = false := by
    intro addr read found
    rw [cells, map_eq_some_iff] at found
    obtain ⟨old, -, rfl⟩ := found
    rfl
  refine ⟨next, after, run, clean, fun addr read found dirty => ?_, fun pageNum untouched => ?_,
    cells, writes.rest, ?_⟩
  · exact writes.dirty _ ((members _).mpr (Heap.live_of_eq found)) _ found dirty
  · exact writes.other _ fun addr _ => untouched _
  · rw [pageCacheFlush_eq (writes.hashSound hash)]
    refine flushAll_clean (fun page member => ?_) 0
    obtain ⟨read, found⟩ := Heap.live_iff.mp ((writes.hashSound hash).residents.2 _ |>.mp member)
    exact ⟨read, found, clean _ _ found⟩

/-- One dirty page is written once. -/
theorem flush_writes_back_one : ∃ cache next, dirtyCount cache = 1 ∧
    pageCacheFlush cache = .ok (1, next) ∧ pageCacheFlush next = .ok (0, next) := by
  have run : Ensures .must (pageCacheGet (pageCacheCreate 256 4 (some onePage)) 1) fun loaded =>
      Ensures .must (pageMarkDirty loaded.2 0) fun cache =>
        dirtyCount cache = 1 ∧ ∃ pager ∈ cache.pager, pager.Quiet := by
    decide +kernel
  obtain ⟨⟨_, loaded⟩, get, cache, mark, count, pager, attached, quiet⟩ := run
  obtain ⟨bucket, order, sound⟩ :=
    (created_cacheSound 256 4 _).get (created_stepSafe ..) get
  obtain ⟨next, -, flush, -, -, -, -, -, again⟩ := flush_writes_back
    (sound.hash.update mark fun _ => rfl) attached quiet
  exact ⟨cache, next, count, count ▸ flush, again⟩

theorem Residents.flush (residents : Residents cache ids)
    (flushes : Flushes cache next pager after pages) : Residents next ids :=
  residents.frame (by rw [flushes.rest]) (flushes.map_core _ fun _ => rfl)

/-- Flushing keeps a cache below capacity ready. -/
theorem Ready.flush (ready : Ready cache pager flat ids) :
    ∃ total next after pages, pageCacheFlush cache = .ok (total, next) ∧
      Ready next after flat ids ∧ Flushes cache next pager after pages := by
  obtain ⟨total, next, after, pages, run, store, quiet, flushes, -⟩ :=
    ready.store.flush ready.quiet
  have usable : Usable cache := ⟨ready.store.hash, ready.links⟩
  exact ⟨total, next, after, pages, run, ⟨store, quiet, (usable.flush run).links,
    ready.residents.flush flushes⟩, flushes⟩

end Flush

/-! ### Destroying a cache -/

/-- Freeing the pages of a chain touches nothing else. -/
theorem freeChain_chain {heap : Heap Page} {fuel : Nat} {start : Option Addr} {visited : List Addr}
    (chain : Chain (link Page.hashNext heap) start visited)
    (live : ∀ addr ∈ visited, heap.Live addr) (enough : visited.length ≤ fuel) :
    ∃ next, freeChain fuel heap start = .ok next ∧
      ∀ addr, addr ∉ visited → next.cell addr = heap.cell addr := by
  induction visited generalizing heap start fuel with
  | nil =>
    cases chain
    exact ⟨heap, by rw [freeChain, pure_eq_ok], fun _ _ => rfl⟩
  | cons page rest inductionHypothesis =>
    have livePage := live _ mem_cons_self
    obtain ⟨read, found, rfl, apart, tail⟩ := chain_front chain livePage
    obtain ⟨fuel, rfl⟩ : ∃ less, fuel = less + 1 :=
      Nat.exists_eq_add_one_of_ne_zero (by simp at enough; omega)
    have others : ∀ addr, addr ≠ page → (heap.set page none).cell addr = heap.cell addr :=
      fun addr different => Heap.set_cell_ne _ different
    have kept : Chain (link Page.hashNext (heap.set page none)) read.hashNext rest := by
      refine tail.congr fun node member => ?_
      rw [link, link, others _ fun same => apart (same ▸ member)]
    have liveRest : ∀ addr ∈ rest, (heap.set page none).Live addr := by
      intro addr member
      rw [Heap.Live, others _ fun same => apart (same ▸ member)]
      exact live _ (mem_cons_of_mem _ member)
    obtain ⟨next, run, untouched⟩ := inductionHypothesis kept liveRest
      (Nat.le_of_succ_le_succ enough)
    have free : heap.free page = .ok (heap.set page none) := Heap.free_eq_ok.mpr ⟨livePage, rfl⟩
    refine ⟨next, ?_, fun addr outside => ?_⟩
    · simp only [freeChain, Heap.load_eq_ok.mpr found, free, ok_bind, run]
    · rw [mem_cons, not_or] at outside
      rw [untouched _ outside.2, others _ outside.1]

/-- The buckets can be freed one after the other. -/
theorem HashSound.freeBuckets {bucket : Nat → List Addr} (sound : HashSound cache bucket)
    (indices : List Nat) (distinct : indices.Nodup) (heap : Heap Page)
    (same : ∀ idx ∈ indices, ∀ addr ∈ bucket idx, heap.cell addr = cache.heap.cell addr) :
    ∃ next, indices.foldlM
      (fun heap idx => freeChain cache.heap.next heap (cache.pages idx)) heap = .ok next := by
  induction indices generalizing heap with
  | nil => exact ⟨heap, rfl⟩
  | cons idx rest inductionHypothesis =>
    have sameHere := same idx mem_cons_self
    have linked := sound.linked idx
    have live : ∀ addr ∈ bucket idx, cache.heap.Live addr := fun addr member => sound.live member
    have chain : Chain (link Page.hashNext heap) (cache.pages idx) (bucket idx) :=
      linked.chain.congr fun node member => by rw [link, link, sameHere _ member]
    obtain ⟨next, run, untouched⟩ := freeChain_chain chain
      (fun addr member => by rw [Heap.Live, sameHere _ member]; exact live _ member)
      (Heap.length_le_next linked.nodup live)
    obtain ⟨outside, distinctRest⟩ := nodup_cons.mp distinct
    obtain ⟨last, runRest⟩ := inductionHypothesis distinctRest next
      fun other member addr inBucket => by
        rw [untouched _, same _ (mem_cons_of_mem _ member) _ inBucket]
        intro inHere
        exact outside (sound.same_bucket inHere inBucket ▸ member)
    exact ⟨last, by rw [foldlM_cons, run, ok_bind, runRest]⟩

/-- `page_cache_destroy` leaves the array behind in the file. -/
theorem Store.destroy {pager : Pager} {flat : UInt32 → PageData} (store : Store cache pager flat)
    (quiet : pager.Quiet) :
    ∃ after, pageCacheDestroy cache = .ok (some after) ∧ after.Quiet ∧ SamePages pager after ∧
      diskPage after.fd.file = flat ∧
      ((∀ addr read, coreOf cache.heap addr = some read → read.id ≠ 0) →
        headerOf after.fd.file = headerOf pager.fd.file) := by
  obtain ⟨total, next, after, pages, run, storeNext, quietNext, flushes, disk⟩ := store.flush quiet
  obtain ⟨bucket, hash⟩ := storeNext.hash
  obtain ⟨freed, free⟩ := hash.freeBuckets (List.range next.tableSize) nodup_range _
    fun _ _ _ _ => rfl
  refine ⟨after, ?_, quietNext, flushes.same, disk, flushes.header⟩
  simp only [pageCacheDestroy, run, ok_bind, free, storeNext.attached, pure_eq_ok]

end TinyDb

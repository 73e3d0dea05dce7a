/-
This file proves that a cache that never has to evict is invisible, and that a
cache that does evict is invisible until it faults.

A client pins a page, reads or overwrites it, and unpins it. As long as the pages
it touches fit into the cache, every step returns what a plain array of pages
would return. With more pages the first eviction leaves the tail of the list of
recently used pages pointing to freed memory, and a later step follows it.
-/

import Mathlib.Data.List.Dedup
import TinyDb.CacheStore

namespace TinyDb

open Heaps Chains List Function

variable {done : Bool} {pinned : Option Addr} {pager : Pager}

/-! ### Below capacity -/

/-- A cache that stands for the array and cannot fault while there is room. -/
structure Ready (cache : PageCache) (pager : Pager) (flat : UInt32 → PageData)
    (ids : List UInt32) : Prop where
  store : Store cache pager flat
  quiet : pager.Quiet
  links : LinksLive cache
  residents : Residents cache ids

section Below

variable {cache next : PageCache} {pager after : Pager} {flat : UInt32 → PageData}
  {ids : List UInt32} {page : Addr} {pageId : UInt32} {read : Page}

/-- `page_cache_get` returns the page when it is resident or there is room for it. -/
theorem Ready.get (ready : Ready cache pager flat ids) (holds : pager.Holds pageId)
    (room : pageId ∈ ids ∨ (ids.length : Int) < cache.maxPages) :
    ∃ page read next after, pageCacheGet cache pageId = .ok (some page, next) ∧
      coreOf next.heap page = some read ∧ read.id = pageId ∧ next.maxPages = cache.maxPages ∧
      OnlyRead pager after ∧
      Ready next after flat (if pageId ∈ ids then ids else pageId :: ids) := by
  obtain ⟨bucket, hash⟩ := ready.store.hash
  by_cases resident : pageId ∈ ids
  · obtain ⟨page, read, found, rfl⟩ := (ready.residents.members _).mp resident
    obtain ⟨next, run, hit⟩ := pageCacheGet_hit hash ready.links found
    have live : cache.heap.Live page := live_of_coreOf found
    rw [if_pos resident]
    refine ⟨page, { read with refcount := read.refcount + 1 }, next, pager, run, ?_, rfl,
      by rw [hit.rest], .refl _, ready.store.hit hit found, ready.quiet,
      ready.links.hit hit live, ready.residents.frame (by rw [hit.rest]) hit.ids⟩
    rw [hit.core, update_self, found]
    rfl
  · have absent := ready.residents.absent resident
    obtain ⟨after, reading, quiet⟩ := ready.quiet.read holds
    have less := room.resolve_left resident
    rw [← ready.residents.counted] at less
    obtain ⟨next, run, loaded⟩ := pageCacheGet_load hash ready.links.head absent less
      ready.store.attached reading
    have missed : Store { cache with missCount := cache.missCount + 1 } pager flat :=
      ⟨⟨bucket, hash.missed⟩, ready.store.attached,
        ready.store.resident, ready.store.disk⟩
    have shape := SameShape.missed cache
    rw [if_neg resident]
    refine ⟨cache.heap.next, { pageAlloc _ with
      data := diskPage pager.fd.file pageId, refcount := 1 }, next, after, run, ?_, rfl,
      by rw [loaded.rest], pagerReadPage_onlyRead reading, missed.load loaded absent reading, quiet,
      (ready.links.sameShape shape).load loaded,
      (ready.residents.sameShape shape).load loaded resident⟩
    rw [loaded.core, update_self]

section

variable (ready : Ready cache pager flat ids) (found : coreOf cache.heap page = some read)
include ready found

/-- Assigning to the pin count. -/
theorem Ready.repin (refcount : Int32 → Int32) :
    ∃ next, cache.update page (fun read => { read with refcount := refcount read.refcount }) =
        .ok next ∧
      Ready next pager flat ids ∧ next.maxPages = cache.maxPages := by
  have live : cache.heap.Live page := live_of_coreOf found
  obtain ⟨next, run⟩ := update_of_live live
    fun read => { read with refcount := refcount read.refcount }
  have shape := SameShape.update run fun _ => rfl
  exact ⟨next, run, ⟨ready.store.repin refcount run, ready.quiet, ready.links.sameShape shape,
    ready.residents.sameShape shape⟩, by rw [shape.rest]⟩

theorem Ready.unpin :
    ∃ next, pageUnpin cache page = .ok next ∧ Ready next pager flat ids ∧
      next.maxPages = cache.maxPages := by
  rw [pageUnpin_eq]
  exact ready.repin found fun refcount => if refcount > 0 then refcount - 1 else refcount

/-- Overwriting a resident page and marking it dirty. -/
theorem Ready.overwrite (data : PageData) :
    ∃ written next, cache.update page ({ · with data }) = .ok written ∧
      pageMarkDirty written page = .ok next ∧
      Ready next pager (Function.update flat read.id data) ids ∧
      coreOf next.heap page = some { read with data, isDirty := true } ∧
      next.maxPages = cache.maxPages := by
  have live : cache.heap.Live page := live_of_coreOf found
  obtain ⟨written, write⟩ := update_of_live live ({ · with data })
  have coreWritten := update_coreOf write ({ · with data }) fun _ => rfl
  have foundWritten : coreOf written.heap page = some { read with data } := by
    rw [coreWritten, update_self, found]
    rfl
  have liveWritten : written.heap.Live page := live_of_coreOf foundWritten
  obtain ⟨next, mark⟩ := update_of_live liveWritten ({ · with isDirty := true })
  have coreNext := update_coreOf mark ({ · with isDirty := true }) fun _ => rfl
  have first := SameShape.update write fun _ => rfl
  have second := SameShape.update mark fun _ => rfl
  refine ⟨written, next, write, mark, ⟨ready.store.overwrite found write mark, ready.quiet,
    (ready.links.sameShape first).sameShape second,
    (ready.residents.sameShape first).sameShape second⟩, ?_, by rw [second.rest, first.rest]⟩
  rw [coreNext, update_self, foundWritten]
  rfl

/-- The data of a resident page is the array's. -/
theorem Ready.load :
    ∃ whole, cache.heap.load page = .ok whole ∧ whole.id = read.id ∧ whole.data = flat read.id := by
  have live : cache.heap.Live page := live_of_coreOf found
  obtain ⟨whole, cell⟩ := Heap.live_iff.mp live
  have same := found
  rw [coreOf_of_cell cell] at same
  cases same
  exact ⟨whole, Heap.load_eq_ok.mpr cell, rfl, ready.store.resident _ whole.core found⟩

end

end Below

/-! ### Clients -/

/-- One access: a page is pinned, read or overwritten, and unpinned. -/
inductive PageAccess
  | read (pageId : UInt32)
  | write (pageId : UInt32) (data : PageData)

/-- The page an access touches. -/
def PageAccess.pageId : PageAccess → UInt32
  | .read pageId => pageId
  | .write pageId _ => pageId

/-- An access through the cache, with the data the client has afterwards; nothing when the page
could not be pinned. -/
def accessPage (cache : PageCache) : PageAccess → Except Fault (Option PageData × PageCache)
  | .read pageId => do
    match ← pageCacheGet cache pageId with
    | (none, cache) => return (none, cache)
    | (some page, cache) =>
      let read ← cache.heap.load page
      let cache ← pageUnpin cache page
      return (some read.data, cache)
  | .write pageId data => do
    match ← pageCacheGet cache pageId with
    | (none, cache) => return (none, cache)
    | (some page, cache) =>
      let cache ← cache.update page ({ · with data })
      let cache ← pageMarkDirty cache page
      let cache ← pageUnpin cache page
      return (some data, cache)

/-- The accesses of a client, one after the other. -/
def accessPages : PageCache → List PageAccess → Except Fault (List (Option PageData) × PageCache)
  | cache, [] => return ([], cache)
  | cache, access :: rest => do
    let (answer, cache) ← accessPage cache access
    let (answers, cache) ← accessPages cache rest
    return (answer :: answers, cache)

/-- The array after an access. -/
def flatAfter (flat : UInt32 → PageData) : PageAccess → UInt32 → PageData
  | .read _ => flat
  | .write pageId data => Function.update flat pageId data

/-- The answers of a plain array of pages. -/
def flatAnswers : (UInt32 → PageData) → List PageAccess → List (Option PageData)
  | _, [] => []
  | flat, access :: rest =>
    some (flatAfter flat access access.pageId) :: flatAnswers (flatAfter flat access) rest

section Clients

variable {cache next : PageCache} {pager after : Pager} {flat : UInt32 → PageData}
  {ids : List UInt32}

/-- An access below capacity. -/
theorem Ready.access (ready : Ready cache pager flat ids) (access : PageAccess)
    (holds : pager.Holds access.pageId)
    (room : access.pageId ∈ ids ∨ (ids.length : Int) < cache.maxPages) :
    ∃ next after, accessPage cache access = .ok (some (flatAfter flat access access.pageId), next) ∧
      SamePages pager after ∧ next.maxPages = cache.maxPages ∧
      Ready next after (flatAfter flat access)
        (if access.pageId ∈ ids then ids else access.pageId :: ids) := by
  obtain ⟨page, read, got, after, get, found, number, maxGot, same, ready⟩ := ready.get holds room
  cases access with
  | read pageId =>
    obtain ⟨whole, load, -, data⟩ := ready.load found
    obtain ⟨next, unpin, ready, maxNext⟩ := ready.unpin found
    refine ⟨next, after, ?_, same.same, maxNext.trans maxGot, ready⟩
    simp only [PageAccess.pageId] at get number
    simp only [accessPage, get, ok_bind, load, unpin, pure_eq_ok, data, number, flatAfter,
      PageAccess.pageId]
  | write pageId data =>
    obtain ⟨written, marked, write, mark, ready, foundMarked, maxMarked⟩ :=
      ready.overwrite found _
    obtain ⟨next, unpin, ready, maxNext⟩ := ready.unpin foundMarked
    rw [number] at ready
    refine ⟨next, after, ?_, same.same, maxNext.trans (maxMarked.trans maxGot), ready⟩
    simp only [accessPage, PageAccess.pageId] at get ⊢
    simp only [get, ok_bind, write, mark, unpin, pure_eq_ok, flatAfter, update_self]

/-- There is room for every page of a set that fits. -/
theorem Ready.room (ready : Ready cache pager flat ids) {touched : List UInt32} {pageId : UInt32}
    (inside : ids ⊆ touched) (member : pageId ∈ touched)
    (fits : (touched.length : Int) ≤ cache.maxPages) :
    pageId ∈ ids ∨ (ids.length : Int) < cache.maxPages := by
  by_cases resident : pageId ∈ ids
  · exact Or.inl resident
  · have nodup := nodup_cons.mpr ⟨resident, ready.residents.nodup⟩
    have bounded := (nodup.subperm (cons_subset.mpr ⟨member, inside⟩)).length_le
    rw [length_cons] at bounded
    exact Or.inr (by omega)

/-- Accesses to no more pages than fit. -/
theorem Ready.accesses (ready : Ready cache pager flat ids) (accesses : List PageAccess)
    (touched : List UInt32) (fits : (touched.length : Int) ≤ cache.maxPages)
    (inside : ids ⊆ touched)
    (covered : ∀ access ∈ accesses, access.pageId ∈ touched ∧ pager.Holds access.pageId) :
    ∃ next, accessPages cache accesses = .ok (flatAnswers flat accesses, next) := by
  induction accesses generalizing cache pager flat ids with
  | nil => exact ⟨cache, rfl⟩
  | cons access rest inductionHypothesis =>
    obtain ⟨member, holds⟩ := covered _ mem_cons_self
    have room := ready.room inside member fits
    obtain ⟨middle, after, run, same, maxPages, ready⟩ := ready.access _ holds room
    obtain ⟨next, runRest⟩ := inductionHypothesis ready (maxPages ▸ fits) (by
      split
      · exact inside
      · exact cons_subset.mpr ⟨member, inside⟩)
      fun other inRest => by
        obtain ⟨inTouched, held⟩ := covered _ (mem_cons_of_mem _ inRest)
        exact ⟨inTouched, same.holds held⟩
    exact ⟨next, by simp only [accessPages, run, ok_bind, runRest, flatAnswers, pure_eq_ok]⟩

end Clients

/-! ### Beyond capacity -/

/-- Between accesses no page is pinned, during an access one page is. -/
structure Serving (cache : PageCache) (pager : Pager) (flat : UInt32 → PageData)
    (ids : List UInt32) (pinned : Option Addr) : Prop where
  store : Store cache pager flat
  quiet : pager.Quiet
  residents : Residents cache ids
  pins : ∀ addr read, coreOf cache.heap addr = some read →
    read.refcount = if pinned = some addr then 1 else 0
  tail : cache.lruTail = none → ids = []

section Beyond

variable {cache next : PageCache} {pager : Pager} {flat : UInt32 → PageData} {ids : List UInt32}
  {page : Addr} {pageId : UInt32} {read : Page}

theorem Residents.drop (residents : Residents cache ids) {bucket : Nat → List Addr}
    (hash : HashSound cache bucket) (found : coreOf cache.heap page = some read)
    (core : coreOf next.heap = Function.update (coreOf cache.heap) page none)
    (count : next.count = cache.count - 1) : Residents next (ids.erase read.id) := by
  have member := (residents.members _).mpr ⟨page, read, found, rfl⟩
  refine ⟨residents.nodup.erase _, fun other => ?_, ?_⟩
  · rw [residents.nodup.mem_erase_iff, residents.members, core]
    constructor
    · rintro ⟨different, addr, old, foundOld, rfl⟩
      refine ⟨addr, old, ?_, rfl⟩
      rw [update_of_ne]
      · exact foundOld
      · rintro rfl
        rw [found] at foundOld
        exact different (by rw [Option.some.inj foundOld])
    · rintro ⟨addr, old, foundOld, rfl⟩
      obtain ⟨other, foundOld⟩ := update_none_eq_some foundOld
      exact ⟨fun same => other (hash.unique _ _ _ _ foundOld found same), addr, old, foundOld, rfl⟩
  · have length := length_erase_of_mem member
    have positive := length_pos_of_mem member
    rw [count, residents.counted]
    omega

/-- With no page pinned the page at the tail is evicted. -/
theorem Serving.evict (serving : Serving cache pager flat ids none) (nonempty : ids ≠ [])
    (run : evictLruPage cache = .ok (done, next)) :
    done = true ∧ next.maxPages = cache.maxPages ∧ ∃ after less,
      Serving next after flat less none ∧ SamePages pager after ∧ less ⊆ ids := by
  rcases evictLruPage_cases run with ⟨none, -, -⟩ | ⟨victim, -, evicts⟩
  · exfalso
    obtain ⟨tail, last⟩ := Option.ne_none_iff_exists'.mp fun absent =>
      nonempty (serving.tail absent)
    rw [findVictim, last] at none
    cases size : cache.heap.next with
    | zero =>
      rw [size] at none
      cases none
    | succ fuel =>
      simp only [size, findVictimLoop, bind_eq_ok, Heap.load_eq_ok] at none
      obtain ⟨read, found, none⟩ := none
      have pins := serving.pins _ _ (coreOf_of_cell found)
      rw [if_pos (show read.refcount = 0 from pins)] at none
      cases none
  · obtain ⟨bucket, hash⟩ := serving.store.hash
    obtain ⟨rfl, ⟨after, store, quiet, same⟩, core⟩ := serving.store.evict serving.quiet evicts
    obtain ⟨read, written, found, write, finish⟩ := evicts
    obtain ⟨rest, -⟩ := writeBack_rest write
    have dropped := dropPage_spec finish
    have residents := serving.residents.drop hash (coreOf_of_cell found) core
      (by rw [dropped.rest, rest])
    refine ⟨rfl, by rw [dropped.rest, rest], after, _, ⟨store, quiet, residents,
      fun addr old foundOld => ?_, fun absent => ?_⟩, same, erase_subset⟩
    · rw [core] at foundOld
      obtain ⟨-, foundOld⟩ := update_none_eq_some foundOld
      exact serving.pins _ old foundOld
    · rw [dropped.rest, rest] at absent
      exact absurd (serving.tail absent) nonempty

/-- Making room succeeds. -/
theorem Serving.makeRoom {fuel : Nat} (serving : Serving cache pager flat ids none)
    (positive : 1 ≤ cache.maxPages) (run : TinyDb.makeRoom fuel cache = .ok (done, next)) :
    done = true ∧ next.maxPages = cache.maxPages ∧ ∃ after less,
      Serving next after flat less none ∧ SamePages pager after ∧ less ⊆ ids := by
  induction fuel generalizing cache pager ids with
  | zero =>
    rw [TinyDb.makeRoom] at run
    split at run
    · cases run
    · obtain ⟨rfl, rfl⟩ := Prod.mk.inj (Except.ok.inj run)
      exact ⟨rfl, rfl, pager, ids, serving, .refl _, List.Subset.refl ids⟩
  | succ fuel inductionHypothesis =>
    rw [TinyDb.makeRoom] at run
    split at run
    · rename_i full
      simp only [bind_eq_ok] at run
      obtain ⟨⟨evicted, smaller⟩, evict, run⟩ := run
      have nonempty : ids ≠ [] := by
        rintro rfl
        have count := serving.residents.counted
        simp only [length_nil] at count
        omega
      obtain ⟨rfl, maxPages, after, less, servingLess, same, subset⟩ :=
        serving.evict nonempty evict
      obtain ⟨isDone, maxNext, last, least, servingLeast, sameLast, subsetLast⟩ :=
        inductionHypothesis servingLess (maxPages ▸ positive) run
      exact ⟨isDone, maxNext.trans maxPages, last, least, servingLeast, same.trans sameLast,
        List.Subset.trans subsetLast subset⟩
    · obtain ⟨rfl, rfl⟩ := Prod.mk.inj (Except.ok.inj run)
      exact ⟨rfl, rfl, pager, ids, serving, .refl _, List.Subset.refl ids⟩

theorem Serving.missed (serving : Serving cache pager flat ids pinned) :
    Serving { cache with missCount := cache.missCount + 1 } pager flat ids pinned := by
  obtain ⟨bucket, hash⟩ := serving.store.hash
  exact ⟨⟨⟨bucket, hash.missed⟩, serving.store.attached,
    serving.store.resident, serving.store.disk⟩, serving.quiet,
    serving.residents.sameShape (.missed _), serving.pins, serving.tail⟩

/-- `page_cache_get` pins the page, whatever it has to evict. -/
theorem Serving.get {result : Option Addr} (serving : Serving cache pager flat ids none)
    (positive : 1 ≤ cache.maxPages) (holds : pager.Holds pageId)
    (run : pageCacheGet cache pageId = .ok (result, next)) :
    next.maxPages = cache.maxPages ∧ ∃ page read after more, result = some page ∧
      coreOf next.heap page = some read ∧ read.id = pageId ∧ SamePages pager after ∧
      Serving next after flat more (some page) := by
  obtain ⟨bucket, hash⟩ := serving.store.hash
  rcases pageCacheGet_cases run with ⟨page, search, rfl, hitRun⟩ | ⟨-, absent, -, -⟩ |
    ⟨search, -, done, room, making, finish⟩
  · have hit := hitPage_spec hitRun
    obtain ⟨read, found, number⟩ := hash.find_some search
    have core := hit.core
    rw [found, Option.map_some] at core
    refine ⟨by rw [hit.rest], page, { read with refcount := read.refcount + 1 }, pager, ids, rfl,
      by rw [core, update_self], number, .refl _, serving.store.hit hit found,
      serving.quiet, serving.residents.frame (by rw [hit.rest]) hit.ids,
      fun addr old foundOld => ?_, fun absent => ?_⟩
    · rw [core] at foundOld
      obtain ⟨same, pinned⟩ | ⟨other, foundOld⟩ := update_eq_some foundOld
      · rw [← Option.some.inj pinned, if_pos (by rw [same])]
        simp only [serving.pins _ _ found]
        rfl
      · rw [serving.pins _ old foundOld, if_neg nofun,
          if_neg fun equal => other (Option.some.inj equal).symm]
    · rw [hit.rest] at absent
      simp at absent
  · rw [serving.store.attached] at absent
    cases absent
  · obtain ⟨rfl, maxRoom, after, less, servingRoom, same, subset⟩ :=
      serving.missed.makeRoom positive making
    obtain ⟨attached, present, load⟩ := finish
    have outside : pageId ∉ less := by
      intro member
      obtain ⟨addr, read, found, number⟩ := (serving.residents.members _).mp (subset member)
      exact hash.find_none search _ _ found number
    rw [servingRoom.store.attached] at present
    cases present
    obtain ⟨last, reading, quiet⟩ := servingRoom.quiet.read (same.holds holds)
    obtain ⟨rfl, loaded⟩ := loadPage_ok reading load
    have absent := servingRoom.residents.absent outside
    refine ⟨by rw [loaded.rest]; exact maxRoom, room.heap.next, _, last, _, rfl,
      by rw [loaded.core, update_self], rfl, same.trans (pagerReadPage_onlyRead reading).same,
      servingRoom.store.load loaded absent reading, quiet, servingRoom.residents.load loaded outside,
      fun addr old foundOld => ?_, fun none => ?_⟩
    · rw [loaded.core] at foundOld
      obtain ⟨here, new⟩ | ⟨other, foundOld⟩ := update_eq_some foundOld
      · rw [← Option.some.inj new, if_pos (by rw [here])]
      · rw [servingRoom.pins _ old foundOld, if_neg nofun,
          if_neg fun equal => other (Option.some.inj equal).symm]
    · rw [loaded.rest] at none
      simp at none

/-- Unpinning the pinned page. -/
theorem Serving.unpin (serving : Serving cache pager flat ids (some page))
    (run : pageUnpin cache page = .ok next) :
    Serving next pager flat ids none ∧ next.maxPages = cache.maxPages := by
  rw [pageUnpin_eq] at run
  obtain ⟨-, rest, -⟩ := update_rest run
  have core := update_coreOf run (fun read => { read with
    refcount := if read.refcount > 0 then read.refcount - 1 else read.refcount }) fun _ => rfl
  refine ⟨⟨serving.store.repin
      (fun refcount => if refcount > 0 then refcount - 1 else refcount) run, serving.quiet,
    serving.residents.sameShape (.update run fun _ => rfl), fun addr old foundOld => ?_,
    fun absent => ?_⟩, by rw [rest]⟩
  · rw [core] at foundOld
    obtain ⟨-, changed⟩ | ⟨other, foundOld⟩ := update_eq_some foundOld
    · obtain ⟨read, found, rfl⟩ := Option.map_eq_some_iff.mp changed
      simp only [serving.pins _ _ found, if_neg (nofun : none ≠ some addr)]
      decide
    · rw [serving.pins _ old foundOld, if_neg fun equal => other (Option.some.inj equal).symm,
        if_neg nofun]
  · rw [rest] at absent
    exact serving.tail absent

/-- Overwriting the pinned page. -/
theorem Serving.overwrite {data : PageData} {written : PageCache}
    (serving : Serving cache pager flat ids pinned) (found : coreOf cache.heap page = some read)
    (write : cache.update page ({ · with data }) = .ok written)
    (mark : pageMarkDirty written page = .ok next) :
    Serving next pager (Function.update flat read.id data) ids pinned ∧
      next.maxPages = cache.maxPages := by
  obtain ⟨-, restWrite, -⟩ := update_rest write
  obtain ⟨-, restMark, -⟩ := update_rest mark
  have coreWritten := update_coreOf write ({ · with data }) fun _ => rfl
  have core := update_coreOf mark ({ · with isDirty := true }) fun _ => rfl
  rw [coreWritten, update_self, update_idem, found] at core
  refine ⟨⟨serving.store.overwrite found write mark, serving.quiet,
    (serving.residents.sameShape (.update write fun _ => rfl)).sameShape
      (.update mark fun _ => rfl),
    fun addr old foundOld => ?_, fun absent => ?_⟩, by rw [restMark, restWrite]⟩
  · rw [core] at foundOld
    obtain ⟨same, written⟩ | ⟨-, foundOld⟩ := update_eq_some foundOld
    · rw [← Option.some.inj written, same]
      exact serving.pins _ read found
    · exact serving.pins _ old foundOld
  · rw [restMark, restWrite] at absent
    exact serving.tail absent

/-- An access that does not fault returns what the array returns. -/
theorem Serving.access {access : PageAccess} {answer : Option PageData}
    (serving : Serving cache pager flat ids none) (positive : 1 ≤ cache.maxPages)
    (holds : pager.Holds access.pageId) (run : accessPage cache access = .ok (answer, next)) :
    answer = some (flatAfter flat access access.pageId) ∧ next.maxPages = cache.maxPages ∧
      ∃ after more, SamePages pager after ∧
        Serving next after (flatAfter flat access) more none := by
  cases access with
  | read pageId =>
    simp only [accessPage, bind_eq_ok] at run
    obtain ⟨⟨result, got⟩, get, run⟩ := run
    obtain ⟨maxGot, page, read, after, more, rfl, found, number, same, servingGot⟩ :=
      serving.get positive holds get
    simp only [bind_eq_ok, Heap.load_eq_ok] at run
    obtain ⟨whole, load, unpinned, unpin, finish⟩ := run
    cases finish
    obtain ⟨servingNext, maxNext⟩ := servingGot.unpin unpin
    rw [coreOf_of_cell load] at found
    have data := servingGot.store.resident _ _ (coreOf_of_cell load)
    rw [Option.some.inj found, number] at data
    exact ⟨congrArg _ (by rw [← Option.some.inj found] at data; exact data),
      maxNext.trans maxGot, after, more, same, servingNext⟩
  | write pageId data =>
    simp only [accessPage, bind_eq_ok] at run
    obtain ⟨⟨result, got⟩, get, run⟩ := run
    obtain ⟨maxGot, page, read, after, more, rfl, found, number, same, servingGot⟩ :=
      serving.get positive holds get
    simp only [bind_eq_ok] at run
    obtain ⟨written, write, marked, mark, unpinned, unpin, finish⟩ := run
    cases finish
    obtain ⟨servingMarked, maxMarked⟩ := servingGot.overwrite found write mark
    obtain ⟨servingNext, maxNext⟩ := servingMarked.unpin unpin
    rw [number] at servingNext
    refine ⟨congrArg _ ?_, maxNext.trans (maxMarked.trans maxGot), after, more, same,
      servingNext⟩
    rw [flatAfter, PageAccess.pageId.eq_def, update_self]

theorem Serving.accesses {accesses : List PageAccess} {answers : List (Option PageData)}
    (serving : Serving cache pager flat ids none) (positive : 1 ≤ cache.maxPages)
    (holds : ∀ access ∈ accesses, pager.Holds access.pageId)
    (run : accessPages cache accesses = .ok (answers, next)) :
    answers = flatAnswers flat accesses := by
  induction accesses generalizing cache pager flat ids answers with
  | nil =>
    cases run
    rfl
  | cons access rest inductionHypothesis =>
    simp only [accessPages, bind_eq_ok] at run
    obtain ⟨⟨answer, middle⟩, first, ⟨others, last⟩, second, finish⟩ := run
    cases finish
    obtain ⟨rfl, maxMiddle, after, more, same, servingMiddle⟩ :=
      serving.access positive (holds _ mem_cons_self) first
    rw [flatAnswers, inductionHypothesis servingMiddle (maxMiddle ▸ positive)
      (fun other member => same.holds (holds _ (mem_cons_of_mem _ member))) second]

end Beyond

theorem created_ready (defaultCacheSize maxPages : Int) (quiet : pager.Quiet) :
    Ready (pageCacheCreate defaultCacheSize maxPages (some pager)) pager
      (diskPage pager.fd.file) [] where
  store := ⟨⟨_, (created_cacheSound _ _ _).hash⟩, rfl, nofun,
    fun _ _ => rfl⟩
  quiet := quiet
  links := (created_cacheSound _ _ _).lru.linksLive
  residents := ⟨nodup_nil, fun _ => ⟨nofun, nofun⟩, rfl⟩

theorem created_serving (defaultCacheSize maxPages : Int) (quiet : pager.Quiet) :
    Serving (pageCacheCreate defaultCacheSize maxPages (some pager)) pager
      (diskPage pager.fd.file) [] none where
  store := (created_ready _ _ quiet).store
  quiet := quiet
  residents := (created_ready _ _ quiet).residents
  pins := nofun
  tail _ := rfl

theorem clampMaxPages_pos {defaultCacheSize maxPages : Int} (positive : 1 ≤ maxPages) :
    1 ≤ clampMaxPages defaultCacheSize maxPages := by
  have given : ¬maxPages ≤ 0 := by omega
  simp only [clampMaxPages, pagerMaxPages]
  omega

/-- A client that touches no more pages than the cache holds gets the answers of a plain array of
pages, and so does every client whose accesses do not fault. -/
theorem cache_answers_match {defaultCacheSize maxPages : Int} {pager : Pager}
    (accesses : List PageAccess) (positive : 1 ≤ maxPages) (quiet : pager.Quiet)
    (holds : ∀ access ∈ accesses, pager.Holds access.pageId) :
    (((accesses.map PageAccess.pageId).dedup.length : Int) ≤ min maxPages pagerMaxPages →
      ∃ cache, accessPages (pageCacheCreate defaultCacheSize maxPages (some pager)) accesses =
        .ok (flatAnswers (diskPage pager.fd.file) accesses, cache)) ∧
    ∀ answers cache,
      accessPages (pageCacheCreate defaultCacheSize maxPages (some pager)) accesses =
        .ok (answers, cache) →
      answers = flatAnswers (diskPage pager.fd.file) accesses := by
  refine ⟨fun fits => ?_, fun answers cache run => ?_⟩
  · refine (created_ready _ _ quiet).accesses _
      (accesses.map PageAccess.pageId).dedup ?_ (nil_subset _) fun access member => ?_
    · have given : ¬maxPages ≤ 0 := by omega
      simp only [pageCacheCreate, clampMaxPages]
      omega
    · exact ⟨mem_dedup.mpr (mem_map_of_mem member), holds _ member⟩
  · exact (created_serving _ _ quiet).accesses
      (clampMaxPages_pos positive) holds run

/-- The new database after its second allocation. -/
def twoPages : Pager := (pagerAllocatePage onePage).2

theorem cache_answers_match_two : ∃ pager cache,
    accessPages (pageCacheCreate 256 2 (some pager)) [.write 1 fun _ => 7, .read 2, .read 1] =
      .ok ([some fun _ => 7, some (diskPage pager.fd.file 2), some fun _ => 7], cache) := by
  have quiet : twoPages.Quiet := by decide +kernel
  have holds : ∀ access ∈ [PageAccess.write 1 fun _ => 7, .read 2, .read 1],
      twoPages.Holds access.pageId := by
    decide +kernel
  obtain ⟨cache, run⟩ := (cache_answers_match _ (by decide : (1 : Int) ≤ 2) quiet holds).1
    (by decide)
  exact ⟨twoPages, cache, run⟩

/-- A cache for one page follows a freed pointer when a second page is read. -/
theorem second_page_never_read : ∃ pager : Pager, pager.Quiet ∧ pager.Holds 1 ∧ pager.Holds 2 ∧
    ∀ answers cache,
      accessPages (pageCacheCreate 256 1 (some pager)) [.read 1, .read 2] ≠
        .ok (answers, cache) := by
  have faults : ¬Ensures .must (accessPages (pageCacheCreate 256 1 (some twoPages))
      [.read 1, .read 2]) fun _ => True := by
    decide +kernel
  exact ⟨twoPages, by decide +kernel, by decide +kernel, by decide +kernel,
    fun answers cache run => faults ⟨_, run, trivial⟩⟩

end TinyDb

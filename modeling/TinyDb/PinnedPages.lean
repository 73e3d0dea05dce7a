/-
This file says what a tree needs of the cache: that the pages of some view can be
pinned, hold the data of the view, and keep it until they are overwritten.

An invariant of the cache serves a view when pinning a page of the view finds its
data, and when pinning, unpinning and overwriting keep the invariant, with the
view changed as the page was. What the trees do with pages then follows without
looking into the cache. There are two such invariants: the pages of the view are
resident, whatever the pager does; or the view is a set of pages that fit into
the cache and can be read.
-/

import TinyDb.BTree
import TinyDb.CacheCapacity
import TinyDb.Lib.Ensures

namespace TinyDb

open Heaps Chains Option Function

variable {body : PageData → Except Fault (Option PageData)} {fault : Fault} {whole : Page}
  {cache next : PageCache} {pageNum : UInt32} {touched : List UInt32}

/-- Some pages and their data. -/
abbrev View := UInt32 → Option PageData

/-- The pages of the view can be pinned, overwritten and unpinned. `Free` holds between the visits
to a page, `Held` while a page is pinned. -/
structure Serves (demand : Demand) (Free : PageCache → View → Prop)
    (Held : PageCache → View → Addr → Prop) : Prop where
  pin : ∀ {cache view pageNum data}, Free cache view → view pageNum = some data →
    Ensures demand (pageCacheGet cache pageNum) fun out =>
      ∃ page whole, out.1 = some page ∧ out.2.heap.load page = .ok whole ∧ whole.id = pageNum ∧
        whole.data = data ∧ Held out.2 view page
  unpin : ∀ {cache view page}, Held cache view page →
    Ensures demand (pageUnpin cache page) fun next => Free next view
  overwrite : ∀ {cache view page whole} (data : PageData), Held cache view page →
    cache.heap.load page = .ok whole →
    Ensures demand (cache.update page ({ · with data })) fun written =>
      Ensures demand (pageMarkDirty written page) fun next =>
        Held next (Function.update view whole.id (some data)) page

/-- The view after a page was changed, or not. -/
def View.after (view : View) (pageNum : UInt32) (answer : Option PageData) : View :=
  match answer with
  | none => view
  | some data => Function.update view pageNum (some data)

namespace Serves

variable {demand : Demand} {Free : PageCache → View → Prop}
  {Held : PageCache → View → Addr → Prop} {cache : PageCache} {view : View}
  {pageNum : UInt32} {data : PageData}

section

variable (serves : Serves demand Free Held)
  (free : Free cache view)
  (found : view pageNum = some data)
include serves free found

/-- A visit that reads a page. -/
theorem read {Result : Type} {body : PageData → Except Fault Result}
    {post : Result → Prop} (returns : Ensures demand (body data) post) :
    Ensures demand (pinRead cache pageNum body) fun out =>
      (∃ result, out.1 = some result ∧ post result) ∧ Free out.2 view := by
  refine (serves.pin free found).bind ?_
  rintro ⟨_, pinned⟩ ⟨page, whole, rfl, load, -, rfl, held⟩
  simp only [load]
  refine returns.bind fun result holds => (serves.unpin held).bind fun next free => ?_
  exact Ensures.ok ⟨⟨result, rfl, holds⟩, free⟩

/-- A visit that may change a page. -/
theorem write {post : Option PageData → Prop}
    (returns : Ensures demand (body data) post) :
    Ensures demand (pinWrite cache pageNum body) fun out =>
      ∃ answer, out.1 = some answer.isSome ∧ post answer ∧ Free out.2 (view.after pageNum answer) := by
  refine (serves.pin free found).bind ?_
  rintro ⟨_, pinned⟩ ⟨page, whole, rfl, load, rfl, rfl, held⟩
  simp only [load]
  refine returns.bind fun answer holds => ?_
  cases answer with
  | none =>
    refine (serves.unpin held).bind fun next free => ?_
    exact Ensures.ok ⟨none, rfl, holds, free⟩
  | some new =>
    refine (serves.overwrite new held load).bind fun written marks => marks.bind fun marked held => ?_
    refine (serves.unpin held).bind fun next free => ?_
    exact Ensures.ok ⟨some new, rfl, holds, free⟩

end

/-- A visit whose body leaves the page. -/
theorem read_fault (serves : Serves .must Free Held) (free : Free cache view)
    (found : view pageNum = some data) {Result : Type} {body : PageData → Except Fault Result}
    (faults : body data = .error fault) :
    pinRead cache pageNum body = .error fault := by
  obtain ⟨⟨_, pinned⟩, pin, page, whole, rfl, load, -, rfl, -⟩ := serves.pin free found
  simp only [pinRead, pin, ok_bind, load, faults]
  rfl

theorem write_fault (serves : Serves .must Free Held) (free : Free cache view)
    (found : view pageNum = some data) (faults : body data = .error fault) :
    pinWrite cache pageNum body = .error fault := by
  obtain ⟨⟨_, pinned⟩, pin, page, whole, rfl, load, -, rfl, -⟩ := serves.pin free found
  simp only [pinWrite, pin, ok_bind, load, faults]
  rfl

/-- What must return may return. -/
theorem weaken (serves : Serves .must Free Held) : Serves demand Free Held where
  pin free found := (serves.pin free found).of_must
  unpin held := (serves.unpin held).of_must
  overwrite data held load :=
    ((serves.overwrite data held load).mono fun _ marks => marks.of_must).of_must

end Serves

/-! ### Resident pages -/

/-- The data of a page, if it is in the cache. -/
def residentPage (cache : PageCache) (pageNum : UInt32) : Option PageData :=
  match hashFind cache pageNum with
  | .ok (some page) => (cache.heap.cell page).map Page.data
  | _ => none

/-- The hash table is sound, and no link of the list leads to a freed page. -/
structure Usable (cache : PageCache) : Prop where
  hash : ∃ bucket, HashSound cache bucket
  links : LinksLive cache

/-- The cache can be used, and the view is its resident pages. -/
structure Resident (cache : PageCache) (view : View) : Prop where
  usable : Usable cache
  same : residentPage cache = view

section ResidentPages

variable {cache next : PageCache} {bucket : Nat → List Addr} {page : Addr} {pageNum : UInt32}
  {data : PageData} {read new : Page} {view : View}

section

variable (hash : HashSound cache bucket)
include hash

theorem residentPage_eq_some :
    residentPage cache pageNum = some data ↔
      ∃ addr read, coreOf cache.heap addr = some read ∧ read.id = pageNum ∧ read.data = data := by
  rcases hash.find pageNum with ⟨addr, read, found, same, search⟩ | ⟨absent, search⟩
  · obtain ⟨whole, cell⟩ := Heap.live_iff.mp (live_of_coreOf found)
    have core := coreOf_of_cell cell
    rw [found] at core
    cases core
    simp only [residentPage, search, cell, map_some, Option.some.injEq]
    constructor
    · rintro rfl
      exact ⟨addr, whole.core, found, same, rfl⟩
    · rintro ⟨other, again, foundOther, sameOther, rfl⟩
      obtain rfl := hash.unique _ _ _ _ found foundOther (same.trans sameOther.symm)
      rw [found] at foundOther
      rw [← Option.some.inj foundOther]
      rfl
  · simp only [residentPage, search]
    refine ⟨nofun, ?_⟩
    rintro ⟨addr, read, found, same, -⟩
    exact absurd same (absent _ _ found)

theorem HashSound.residentPage_of_core
    (found : coreOf cache.heap page = some read) : residentPage cache read.id = some read.data :=
  (residentPage_eq_some hash).mpr ⟨page, read, found, rfl, rfl⟩

/-- The resident pages depend on the numbers and the data of the pages only. -/
theorem residentPage_congr {after : Nat → List Addr}
    (kept : HashSound next after)
    (same : ∀ addr, (coreOf next.heap addr).map (fun read => (read.id, read.data)) =
      (coreOf cache.heap addr).map fun read => (read.id, read.data)) :
    residentPage next = residentPage cache := by
  have stored : ∀ heap pageNum data, (∃ addr read, coreOf heap addr = some read ∧
      read.id = pageNum ∧ read.data = data) ↔
        ∃ addr, (coreOf heap addr).map (fun read => (read.id, read.data)) = some (pageNum, data) := by
    simp only [map_eq_some_iff, Prod.mk.injEq, implies_true]
  funext pageNum
  refine Option.ext fun data => ?_
  simp only [residentPage_eq_some kept, residentPage_eq_some hash, stored, same]

/-- Changing or adding one page changes the resident pages at one place. -/
theorem residentPage_update {after : Nat → List Addr}
    (kept : HashSound next after)
    (core : coreOf next.heap = Function.update (coreOf cache.heap) page (some new))
    (before : ∀ read, coreOf cache.heap page = some read → read.id = new.id)
    (others : ∀ addr read, addr ≠ page → coreOf cache.heap addr = some read → read.id ≠ new.id) :
    residentPage next = Function.update (residentPage cache) new.id (some new.data) := by
  funext other
  refine Option.ext fun data => ?_
  rw [residentPage_eq_some kept, core]
  by_cases here : other = new.id
  · rw [here, update_self, Option.some.injEq]
    constructor
    · rintro ⟨addr, old, found, same, rfl⟩
      obtain ⟨-, changed⟩ | ⟨other, found⟩ := update_eq_some found
      · rw [Option.some.inj changed]
      · exact absurd same (others _ old other found)
    · rintro rfl
      exact ⟨page, new, update_self .., rfl, rfl⟩
  · rw [update_of_ne here, residentPage_eq_some hash]
    constructor
    · rintro ⟨addr, old, found, same, rfl⟩
      obtain ⟨-, changed⟩ | ⟨-, found⟩ := update_eq_some found
      · rw [← Option.some.inj changed] at same
        exact absurd same.symm here
      · exact ⟨addr, old, found, same, rfl⟩
    · rintro ⟨addr, old, found, same, rfl⟩
      refine ⟨addr, old, ?_, same, rfl⟩
      rw [update_of_ne]
      · exact found
      · rintro rfl
        exact here (by rw [← same, before old found])

/-- Changing one page, but not its number. -/
theorem residentPage_change (kept : HashSound next bucket)
    (found : coreOf cache.heap page = some read)
    (core : coreOf next.heap = Function.update (coreOf cache.heap) page (some new))
    (number : new.id = read.id) :
    residentPage next = Function.update (residentPage cache) read.id (some new.data) := by
  rw [← number]
  refine residentPage_update hash kept core (fun old same => ?_) fun addr old other same equal => ?_
  · rw [found] at same
    rw [← Option.some.inj same, number]
  · exact other (hash.unique _ _ old _ same found (equal.trans number))

end

theorem Resident.view_of_load (resident : Resident cache view)
    (load : cache.heap.load page = .ok whole) : view whole.id = some whole.data := by
  obtain ⟨bucket, hash⟩ := resident.usable.hash
  have found := hash.residentPage_of_core (coreOf_of_cell (Heap.load_eq_ok.mp load))
  rw [resident.same] at found
  exact found

theorem Usable.sameShape (usable : Usable cache) (same : SameShape cache next) : Usable next := by
  obtain ⟨bucket, hash⟩ := usable.hash
  exact ⟨⟨bucket, hash.sameShape same⟩, usable.links.sameShape same⟩

/-- Assigning to a page of the cache. -/
theorem Resident.change (resident : Resident cache view) (load : cache.heap.load page = .ok whole)
    (change : Page → Page) (place : ∀ read, (change read).place = read.place) :
    ∃ next, cache.update page change = .ok next ∧ next.heap.load page = .ok (change whole) ∧
      Resident next (Function.update view whole.id (some (change whole).data)) := by
  obtain ⟨bucket, hash⟩ := resident.usable.hash
  have cell := Heap.load_eq_ok.mp load
  obtain ⟨next, run⟩ := update_of_live (Heap.live_of_eq cell) change
  have shape := SameShape.update run place
  have core : coreOf next.heap =
      Function.update (coreOf cache.heap) page (some (change whole).core) := by
    have whole := update_bind run fun read => some read.core
    rw [cell] at whole
    exact whole
  refine ⟨next, run, ?_, resident.usable.sameShape shape, ?_⟩
  · obtain ⟨read, found, rfl⟩ := update_eq_ok.mp run
    rw [cell] at found
    cases found
    exact Heap.load_eq_ok.mpr (Heap.set_cell_self (Heap.live_of_eq cell) _)
  · rw [residentPage_change hash (hash.sameShape shape) (coreOf_of_cell cell) core
      (congrArg PagePlace.id (place _)), resident.same]
    rfl

/-- A hit changes neither the number nor the data of the page. -/
theorem PageHit.load (hit : PageHit cache next page) (found : coreOf cache.heap page = some read) :
    ∃ whole, next.heap.load page = .ok whole ∧ whole.id = read.id ∧ whole.data = read.data := by
  have core := congrFun hit.core page
  rw [found, update_self] at core
  obtain ⟨whole, cell, same⟩ := cell_of_coreOf core
  have number := congrArg Page.id same
  have content := congrArg Page.data same
  exact ⟨whole, Heap.load_eq_ok.mpr cell, number, content⟩

theorem Usable.hit (usable : Usable cache) (hit : PageHit cache next page)
    (found : coreOf cache.heap page = some read) :
    Usable next ∧ residentPage next = residentPage cache ∧
      ∃ whole, next.heap.load page = .ok whole ∧ whole.id = read.id ∧ whole.data = read.data := by
  obtain ⟨bucket, hash⟩ := usable.hash
  have live : cache.heap.Live page := live_of_coreOf found
  have core := hit.core
  rw [found] at core
  refine ⟨⟨⟨bucket, hit.hashSound hash⟩, usable.links.hit hit live⟩, ?_, hit.load found⟩
  rw [residentPage_change hash (hit.hashSound hash) found core rfl]
  exact update_eq_iff.mpr ⟨(hash.residentPage_of_core found).symm, fun _ _ => rfl⟩

/-- What `page_cache_get` did without evicting a page. -/
structure Fetched (cache next : PageCache) (pageNum : UInt32) (result : Option Addr) : Prop where
  usable : Usable next
  maxPages : next.maxPages = cache.maxPages
  count : next.count ≤ cache.count + 1
  failed : result = none → residentPage next = residentPage cache
  found : ∀ page, result = some page → ∃ whole, next.heap.load page = .ok whole ∧
    whole.id = pageNum ∧
    residentPage next = Function.update (residentPage cache) pageNum (some whole.data)

/-- `page_cache_get` of a page that is resident or has room. -/
theorem Usable.get {result : Option Addr} (usable : Usable cache)
    (room : (residentPage cache pageNum).isSome ∨ cache.count < cache.maxPages)
    (run : pageCacheGet cache pageNum = .ok (result, next)) :
    Fetched cache next pageNum result := by
  obtain ⟨bucket, hash⟩ := usable.hash
  rcases pageCacheGet_cases run with ⟨page, search, rfl, hit⟩ | ⟨-, -, rfl, rfl⟩ |
    ⟨search, -, done, ready, making, finish⟩
  · obtain ⟨read, found, rfl⟩ := hash.find_some search
    have rest := (hitPage_spec hit).rest
    obtain ⟨usableNext, same, whole, load, number, content⟩ := usable.hit (hitPage_spec hit) found
    refine ⟨usableNext, by rw [rest], by rw [rest]; exact Int.le_add_one (Int.le_refl _), nofun,
      fun other equal => ⟨whole, Option.some.inj equal ▸ load, number, ?_⟩⟩
    rw [same, content]
    exact (update_eq_iff.mpr
      ⟨(hash.residentPage_of_core found).symm, fun _ _ => rfl⟩).symm
  · exact ⟨usable.sameShape (.missed _), rfl, Int.le_add_one (Int.le_refl _),
      fun _ => residentPage_congr hash hash.missed fun _ => rfl, nofun⟩
  · have absent := hash.find_none search
    have free : cache.count < cache.maxPages := by
      refine room.resolve_left fun resident => ?_
      obtain ⟨data, found⟩ := isSome_iff_exists.mp resident
      obtain ⟨addr, read, core, number, -⟩ := (residentPage_eq_some hash).mp found
      exact absent _ _ core number
    cases (Except.ok.inj
      ((makeRoom_of_room _ (by exact free)).symm.trans making))
    obtain ⟨pager, -, load⟩ := finish
    have missed := usable.sameShape (.missed _)
    obtain ⟨after, -, rfl, failed⟩ | ⟨data, after, -, rfl, loaded⟩ := loadPage_cases load
    · exact ⟨missed.sameShape failed.sameShape, by rw [failed.rest],
        by rw [failed.rest]; exact Int.le_add_one (Int.le_refl _),
        fun _ => residentPage_congr hash (hash.missed.sameShape failed.sameShape)
          fun addr => by rw [failed.core], nofun⟩
    · have rest := loaded.rest
      have kept := loaded.hashSound _ hash.missed absent
      obtain ⟨whole, cell⟩ := Heap.live_iff.mp (live_iff_coreOf.mpr (by
        rw [loaded.core, update_self]
        rfl : (coreOf next.heap cache.heap.next).isSome))
      have same := coreOf_of_cell cell
      rw [loaded.core, update_self] at same
      have number : pageNum = whole.id := congrArg Page.id (Option.some.inj same)
      have content : data = whole.data := congrArg Page.data (Option.some.inj same)
      refine ⟨⟨⟨_, kept⟩, missed.links.load loaded⟩, by rw [rest], by rw [rest], nofun,
        fun page equal => ⟨whole, Option.some.inj equal ▸ Heap.load_eq_ok.mpr cell,
          number.symm, ?_⟩⟩
      have fresh : coreOf cache.heap cache.heap.next = none := by
        rw [← not_isSome_iff_eq_none, ← live_iff_coreOf]
        exact cache.heap.not_live_next
      rw [residentPage_update hash kept loaded.core
        (fun read found => nomatch fresh.symm.trans found) fun addr read _ => absent _ _]
      exact congrArg (fun data => Function.update _ _ _) content

/-- A step below capacity: any operation that evicts nothing, or a change to the pager. -/
inductive BelowCapacity : PageCache → PageCache → Prop
  | get {cache next : PageCache} {pageNum : UInt32} {result : Option Addr}
      (room : (residentPage cache pageNum).isSome ∨ cache.count < cache.maxPages)
      (run : pageCacheGet cache pageNum = .ok (result, next)) : BelowCapacity cache next
  | write {cache next : PageCache} {page : Addr} {data : PageData}
      (run : cache.update page ({ · with data }) = .ok next) : BelowCapacity cache next
  | markDirty {cache next : PageCache} {page : Addr}
      (run : pageMarkDirty cache page = .ok next) : BelowCapacity cache next
  | unpin {cache next : PageCache} {page : Addr}
      (run : pageUnpin cache page = .ok next) : BelowCapacity cache next
  | flush {cache next : PageCache} {flushed : Nat}
      (run : pageCacheFlush cache = .ok (flushed, next)) : BelowCapacity cache next
  | pager {cache : PageCache} (pager : Pager) :
      BelowCapacity cache { cache with pager := some pager }

theorem created_usable (defaultCacheSize maxPages : Int) (pager : Option Pager) :
    Usable (pageCacheCreate defaultCacheSize maxPages pager) :=
  ⟨⟨_, (created_cacheSound _ _ _).hash⟩,
    (created_cacheSound _ _ _).lru.linksLive⟩

/-- `page_cache_flush` returns, and keeps the resident pages. -/
theorem Resident.flush (resident : Resident cache view) :
    ∃ flushed next, pageCacheFlush cache = .ok (flushed, next) ∧ Resident next view ∧
      next.count = cache.count ∧ next.maxPages = cache.maxPages := by
  obtain ⟨bucket, hash⟩ := resident.usable.hash
  refine hash.flush_invariant (fun after => Resident _ _ ∧ after.count = cache.count ∧
    after.maxPages = cache.maxPages) (fun before after page written holds flush => ?_)
    ⟨resident, rfl, rfl⟩
  obtain ⟨⟨usable, same⟩, count, maxPages⟩ := holds
  obtain ⟨bucket, hash⟩ := usable.hash
  have flushed := flushPage_spec flush
  refine ⟨⟨usable.sameShape flushed.sameShape, ?_⟩, by rw [flushed.rest]; exact count,
    by rw [flushed.rest]; exact maxPages⟩
  rw [residentPage_congr hash (hash.sameShape flushed.sameShape)
    (flushed.map_core (fun read => (read.id, read.data)) fun _ => rfl), same]

theorem Usable.flush {flushed : Nat} (usable : Usable cache)
    (run : pageCacheFlush cache = .ok (flushed, next)) : Usable next := by
  obtain ⟨total, last, flush, kept, -⟩ := Resident.flush ⟨usable, rfl⟩
  cases (flush.symm.trans run)
  exact kept.usable

theorem Usable.withPager (usable : Usable cache) (pager : Pager) :
    Usable { cache with pager := some pager } :=
  usable.sameShape (.attach _ _)

/-- A cache that never exceeded its capacity can be used. -/
theorem usable_of_run {defaultCacheSize maxPages : Int} {pager : Option Pager}
    (run : Relation.ReflTransGen BelowCapacity (pageCacheCreate defaultCacheSize maxPages pager)
      cache) : Usable cache := by
  refine Runs.run_invariant _ (fun before after step usable => ?_) run
    (created_usable _ _ _)
  cases step with
  | get room run => exact (usable.get room run).usable
  | write run => exact usable.sameShape (.update run fun _ => rfl)
  | markDirty run => exact usable.sameShape (.update run fun _ => rfl)
  | unpin run =>
    rw [pageUnpin_eq] at run
    exact usable.sameShape (.update run fun _ => rfl)
  | flush run => exact usable.flush run
  | pager pager => exact usable.withPager _

/-- A page of the cache can be used. -/
def ResidentHeld (cache : PageCache) (view : View) (page : Addr) : Prop :=
  Resident cache view ∧ ∃ whole, cache.heap.load page = .ok whole

/-- Whether or not there is room for more, a cache pins its resident pages. -/
theorem resident_serves : Serves .must Resident ResidentHeld where
  pin := by
    intro cache view pageNum data resident found
    obtain ⟨bucket, hash⟩ := resident.usable.hash
    have here := found
    rw [← resident.same, residentPage_eq_some hash] at here
    obtain ⟨page, read, core, rfl, rfl⟩ := here
    obtain ⟨next, run, hit⟩ := pageCacheGet_hit hash resident.usable.links core
    obtain ⟨usable, same, whole, load, number, content⟩ := resident.usable.hit hit core
    exact ⟨_, run, page, whole, rfl, load, number, content, ⟨usable, same.trans resident.same⟩,
      whole, load⟩
  unpin := by
    rintro cache view page ⟨resident, whole, load⟩
    obtain ⟨next, run, -, kept⟩ := resident.change load (fun read => { read with
      refcount := if read.refcount > 0 then read.refcount - 1 else read.refcount }) fun _ => rfl
    refine ⟨next, by rw [pageUnpin_eq]; exact run, ?_⟩
    rw [← resident.view_of_load load, update_eq_self] at kept
    exact kept
  overwrite := by
    rintro cache view page whole data ⟨resident, -⟩ load
    obtain ⟨written, write, loadWritten, kept⟩ := resident.change load ({ · with data })
      fun _ => rfl
    obtain ⟨next, mark, loadNext, kept⟩ := kept.change loadWritten ({ · with isDirty := true })
      fun _ => rfl
    rw [update_idem] at kept
    exact ⟨written, write, next, mark, kept, _, loadNext⟩

end ResidentPages

theorem pageUnpin_rest {page : Addr} (run : pageUnpin cache page = .ok next) :
    next = { cache with heap := next.heap } := by
  exact (update_rest run).2.1

/-- A page that was pinned is resident afterwards, with the data the body returned. -/
theorem Usable.pinWrite {result : Option Bool} (usable : Usable cache)
    (room : (residentPage cache pageNum).isSome ∨ cache.count < cache.maxPages)
    (run : TinyDb.pinWrite cache pageNum body = .ok (result, next)) :
    next.maxPages = cache.maxPages ∧ next.count ≤ cache.count + 1 ∧
      ((result = none ∧ Resident next (residentPage cache)) ∨
        ∃ old answer, body old = .ok answer ∧ result = some answer.isSome ∧
          Resident next (Function.update (residentPage cache) pageNum
            (some (answer.getD old)))) := by
  simp only [TinyDb.pinWrite, bind_eq_ok] at run
  obtain ⟨⟨result, pinned⟩, get, run⟩ := run
  have fetched := usable.get room get
  cases result with
  | none =>
    cases run
    exact ⟨fetched.maxPages, fetched.count, Or.inl ⟨rfl, fetched.usable, fetched.failed rfl⟩⟩
  | some page =>
    obtain ⟨whole, load, rfl, same⟩ := fetched.found _ rfl
    have resident : Resident pinned _ := ⟨fetched.usable, same⟩
    simp only [bind_eq_ok] at run
    obtain ⟨again, loadAgain, answer, returns, run⟩ := run
    cases (load.symm.trans loadAgain)
    cases answer with
    | none =>
      simp only [bind_eq_ok] at run
      obtain ⟨unpinned, unpin, finish⟩ := run
      cases finish
      have kept := (resident_serves.unpin ⟨resident, whole, load⟩).elim unpin
      rw [pageUnpin_rest unpin]
      rw [pageUnpin_rest unpin] at kept
      exact ⟨fetched.maxPages, fetched.count, Or.inr ⟨whole.data, none, returns, rfl, kept⟩⟩
    | some new =>
      simp only [bind_eq_ok] at run
      obtain ⟨written, write, marked, mark, unpinned, unpin, finish⟩ := run
      obtain ⟨rfl, rfl⟩ := Prod.mk.inj (Except.ok.inj finish)
      have held := ((resident_serves.overwrite new ⟨resident, whole, load⟩ load).elim write).elim mark
      have kept := (resident_serves.unpin held).elim unpin
      rw [update_idem] at kept
      have maxPages : unpinned.maxPages = pinned.maxPages := by
        rw [pageUnpin_rest unpin, (update_rest mark).2.1, (update_rest write).2.1]
      have count : unpinned.count = pinned.count := by
        rw [pageUnpin_rest unpin, (update_rest mark).2.1, (update_rest write).2.1]
      exact ⟨maxPages.trans fetched.maxPages, count.symm ▸ fetched.count,
        Or.inr ⟨whole.data, some new, returns, rfl, kept⟩⟩

/-! ### Pages that fit into the cache -/

/-- The pages of an array with the given numbers. -/
def viewOf (touched : List UInt32) (flat : UInt32 → PageData) : View :=
  fun pageNum => if pageNum ∈ touched then some (flat pageNum) else none

theorem viewOf_eq_some {flat : UInt32 → PageData} {data : PageData} :
    viewOf touched flat pageNum = some data ↔ pageNum ∈ touched ∧ flat pageNum = data := by
  rw [viewOf]
  split
  · rename_i member
    rw [Option.some.injEq]
    exact ⟨fun same => ⟨member, same⟩, And.right⟩
  · rename_i absent
    exact ⟨nofun, fun both => absurd both.1 absent⟩

theorem viewOf_update (flat : UInt32 → PageData) (member : pageNum ∈ touched) (data : PageData) :
    Function.update (viewOf touched flat) pageNum (some data) =
      viewOf touched (Function.update flat pageNum data) := by
  funext other
  by_cases here : other = pageNum
  · rw [here, update_self, viewOf, if_pos member, update_self]
  · rw [update_of_ne here, viewOf, viewOf, update_of_ne here]

/-- The view is some pages that fit into the cache together and can be read. -/
structure Within (base : Pager) (touched : List UInt32) (cache : PageCache) (view : View) :
    Prop where
  fits : touched ≠ [] → (touched.length : Int) ≤ cache.maxPages
  holds : ∀ pageNum ∈ touched, base.Holds pageNum
  ready : ∃ pager flat ids, Ready cache pager flat ids ∧ OnlyRead base pager ∧ ids ⊆ touched ∧
    view = viewOf touched flat

/-- A page of the view is resident. -/
def WithinHeld (base : Pager) (touched : List UInt32) (cache : PageCache) (view : View)
    (page : Addr) : Prop :=
  Within base touched cache view ∧ ∃ whole, cache.heap.load page = .ok whole

/-- A cache that is not asked for more pages than fit pins them all. -/
theorem within_serves (base : Pager) (touched : List UInt32) :
    Serves .must (Within base touched) (WithinHeld base touched) where
  pin := by
    rintro cache _ pageNum data ⟨fits, holds, pager, flat, ids, ready, same, inside, rfl⟩ found
    obtain ⟨member, rfl⟩ := viewOf_eq_some.mp found
    have room := ready.room inside member (fits (List.ne_nil_of_mem member))
    obtain ⟨page, read, next, after, run, core, number, maxPages, sameAfter, readyNext⟩ :=
      ready.get (same.same.holds (holds _ member)) room
    obtain ⟨whole, load, id, data⟩ := readyNext.load core
    rw [number] at id data
    refine ⟨_, run, page, whole, rfl, load, id, data, ⟨maxPages ▸ fits, holds, after, flat, _,
      readyNext, same.trans sameAfter, ?_, rfl⟩, whole, load⟩
    split
    · exact inside
    · exact List.cons_subset.mpr ⟨member, inside⟩
  unpin := by
    rintro cache _ page ⟨⟨fits, holds, pager, flat, ids, ready, same, inside, rfl⟩, whole, load⟩
    obtain ⟨next, run, readyNext, maxPages⟩ :=
      ready.unpin (coreOf_of_cell (Heap.load_eq_ok.mp load))
    exact ⟨next, run, maxPages ▸ fits, holds, pager, flat, ids, readyNext, same, inside, rfl⟩
  overwrite := by
    rintro cache _ page whole data ⟨⟨fits, holds, pager, flat, ids, ready, same, inside, rfl⟩, -⟩
      load
    have core := coreOf_of_cell (Heap.load_eq_ok.mp load)
    have member := inside ((ready.residents.members _).mpr ⟨page, whole.core, core, rfl⟩)
    obtain ⟨written, next, write, mark, readyNext, after, maxPages⟩ := ready.overwrite core data
    obtain ⟨again, loadAgain, -⟩ := readyNext.load after
    exact ⟨written, write, next, mark, ⟨maxPages ▸ fits, holds, pager, _, ids,
      readyNext, same, inside, viewOf_update _ member _⟩, again, loadAgain⟩

end TinyDb

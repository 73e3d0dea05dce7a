/-
This file proves that the page cache behaves like a plain array of pages as long
as it does not fault.

The array a cache stands for holds the data of the resident pages, and the page
of the file wherever no page is resident; a resident page that is not dirty
agrees with the file. Hits, loads, write backs and evictions keep the array. None
of this depends on the list of recently used pages: whichever live page an
eviction picks, it is written back before it goes.

Faults do depend on that list. Without evictions no page is ever freed, so its
links, right or wrong, lead to live pages and nothing faults.
-/

import TinyDb.LruList

namespace TinyDb

open Heaps Chains Option Function

variable {first second third : Pager} {data : PageData} {written : PageCache} {done : Bool}
  {links : Addr → Option Addr} {other target : Addr}

/-! ### The array a cache stands for -/

/-- The cache over this pager stands for the array. -/
structure Store (cache : PageCache) (pager : Pager) (flat : UInt32 → PageData) : Prop where
  hash : ∃ bucket, HashSound cache bucket
  attached : cache.pager = some pager
  resident : ∀ addr read, coreOf cache.heap addr = some read → read.data = flat read.id
  disk : ∀ pageId, (∀ addr read, coreOf cache.heap addr = some read → read.id = pageId →
    read.isDirty = false) → diskPage pager.fd.file pageId = flat pageId

/-- What reading and writing pages keep of a pager. -/
structure SamePages (pager next : Pager) : Prop where
  pageCount : next.pageCount = pager.pageCount
  firstFreePage : next.firstFreePage = pager.firstFreePage
  freePageCount : next.freePageCount = pager.freePageCount
  path : next.path = pager.path
  size : pager.fd.file.size ≤ next.fd.file.size

section Array

variable {pager next : Pager} {pageNum : UInt32}

theorem SamePages.refl (pager : Pager) : SamePages pager pager :=
  ⟨rfl, rfl, rfl, rfl, Nat.le_refl _⟩

theorem SamePages.trans (one : SamePages first second) (two : SamePages second third) :
    SamePages first third :=
  ⟨two.pageCount.trans one.pageCount, two.firstFreePage.trans one.firstFreePage,
    two.freePageCount.trans one.freePageCount, two.path.trans one.path,
    Nat.le_trans one.size two.size⟩

theorem SamePages.holds (same : SamePages pager next) (holds : pager.Holds pageNum) :
    next.Holds pageNum :=
  ⟨same.pageCount ▸ holds.1, Nat.le_trans holds.2 same.size⟩

/-- What reading pages keeps of a pager. -/
structure OnlyRead (pager next : Pager) : Prop where
  same : SamePages pager next
  file : next.fd.file = pager.fd.file

theorem OnlyRead.refl (pager : Pager) : OnlyRead pager pager :=
  ⟨.refl _, rfl⟩

theorem OnlyRead.trans (one : OnlyRead first second) (two : OnlyRead second third) :
    OnlyRead first third :=
  ⟨one.same.trans two.same, two.file.trans one.file⟩

theorem pagerReadPage_onlyRead (read : pagerReadPage pager pageNum = (some data, next)) :
    OnlyRead pager next := by
  obtain ⟨-, file, rest⟩ := pagerReadPage_ok read
  exact ⟨⟨by rw [rest], by rw [rest], by rw [rest], by rw [rest], by rw [file]⟩, file⟩

theorem pagerWritePage_same (write : pagerWritePage pager pageNum data = (true, next)) :
    SamePages pager next := by
  obtain ⟨pageCount, first, free, path, file⟩ := pagerWritePage_ok write
  refine ⟨pageCount, first, free, path, ?_⟩
  rw [file, Posix.File.write_size _ data.toBytes_ne_nil]
  exact Nat.le_max_left _ _

end Array

section Array

variable {cache next : PageCache} {pager after : Pager} {flat : UInt32 → PageData} {page : Addr}
  {pageId : UInt32} {read : Page}

/-! ### Steps that keep the array -/

section

variable (store : Store cache pager flat)
include store

/-- Changing one page changes the array at most at its number. What is not marked dirty must not
change the array. -/
theorem Store.modify {bucket : Nat → List Addr} {other : UInt32 → PageData} (change : Page → Page) (hash : HashSound next bucket)
    (samePager : next.pager = cache.pager)
    (core : coreOf next.heap = Function.update (coreOf cache.heap) page
      ((coreOf cache.heap page).map change))
    (found : coreOf cache.heap page = some read) (id : (change read).id = read.id)
    (data : (change read).data = other read.id)
    (elsewhere : ∀ pageId, pageId ≠ read.id → other pageId = flat pageId)
    (clean : (change read).isDirty = false → read.isDirty = false ∧ other read.id = flat read.id) :
    Store next pager other := by
  rw [found, map_some] at core
  obtain ⟨oldBucket, oldHash⟩ := store.hash
  have apart : ∀ {addr old}, coreOf cache.heap addr = some old → addr ≠ page → old.id ≠ read.id :=
    fun foundOld different same => different (oldHash.unique _ _ _ _ foundOld found same)
  refine ⟨⟨bucket, hash⟩, samePager.trans store.attached, fun addr new foundNew => ?_,
    fun pageId quiet => ?_⟩
  · rw [core] at foundNew
    obtain ⟨-, changed⟩ | ⟨other, old⟩ := update_eq_some foundNew
    · rw [← Option.some.inj changed, data, id]
    · rw [store.resident _ new old, elsewhere _ (apart old other)]
  · by_cases here : pageId = read.id
    · subst here
      have changed := clean (quiet _ _ (by rw [core, update_self]) id)
      rw [changed.2]
      refine store.disk _ fun addr old foundOld same => ?_
      have here := oldHash.unique _ _ old _ foundOld found same
      rw [here, found] at foundOld
      rw [← Option.some.inj foundOld]
      exact changed.1
    · rw [elsewhere _ here]
      refine store.disk _ fun addr old foundOld same => quiet addr old ?_ same
      rw [core, update_of_ne]
      · exact foundOld
      · rintro rfl
        rw [found] at foundOld
        rw [← Option.some.inj foundOld] at same
        exact here same.symm

theorem Store.hit (hit : PageHit cache next page)
    (found : coreOf cache.heap page = some read) : Store next pager flat := by
  obtain ⟨bucket, hash⟩ := store.hash
  exact store.modify _ (hit.hashSound hash) (by rw [hit.rest]) hit.core found rfl
    (store.resident _ read found) (fun _ _ => rfl) fun clean => ⟨clean, rfl⟩

/-- An assignment to the pin count keeps the array. -/
theorem Store.repin (refcount : Int32 → Int32)
    (run : cache.update page (fun read => { read with refcount := refcount read.refcount }) =
      .ok next) : Store next pager flat := by
  obtain ⟨bucket, hash⟩ := store.hash
  obtain ⟨live, rest, -⟩ := update_rest run
  obtain ⟨read, found⟩ := isSome_iff_exists.mp (live_iff_coreOf.mp live)
  exact store.modify _ (hash.update run fun _ => rfl) (by rw [rest])
    (update_coreOf run (fun read => { read with refcount := refcount read.refcount }) fun _ => rfl)
    found rfl (store.resident _ read found) (fun _ _ => rfl) fun clean => ⟨clean, rfl⟩

/-- Overwriting the data of a page and marking it dirty. -/
theorem Store.overwrite
    (found : coreOf cache.heap page = some read)
    (write : cache.update page ({ · with data }) = .ok written)
    (mark : pageMarkDirty written page = .ok next) :
    Store next pager (Function.update flat read.id data) := by
  obtain ⟨bucket, hash⟩ := store.hash
  obtain ⟨-, restWrite, -⟩ := update_rest write
  obtain ⟨-, restMark, -⟩ := update_rest mark
  have hashWritten := hash.update write fun _ => rfl
  have hashNext := hashWritten.update mark fun _ => rfl
  have coreWritten := update_coreOf write ({ · with data }) fun _ => rfl
  have coreNext := update_coreOf mark ({ · with isDirty := true }) fun _ => rfl
  refine store.modify ({ · with data, isDirty := true }) hashNext (by rw [restMark, restWrite]) ?_
    found rfl ?_ ?_ nofun
  · rw [coreNext, coreWritten, update_self, update_idem, Option.map_map]
    rfl
  · rw [update_self]
  · exact fun pageId different => update_of_ne different _ _

theorem Store.load
    (loaded : PageLoaded cache next pageId data after)
    (absent : ∀ addr read, coreOf cache.heap addr = some read → read.id ≠ pageId)
    (reading : pagerReadPage pager pageId = (some data, after)) : Store next after flat := by
  obtain ⟨bucket, hash⟩ := store.hash
  obtain ⟨dataEq, file, -⟩ := pagerReadPage_ok reading
  refine ⟨⟨_, loaded.hashSound _ hash absent⟩, by rw [loaded.rest], fun addr read found => ?_,
    fun other clean => ?_⟩
  · rw [loaded.core] at found
    obtain ⟨-, new⟩ | ⟨-, old⟩ := update_eq_some found
    · rw [← Option.some.inj new]
      simp only [dataEq]
      exact store.disk _ fun addr read found same => absurd same (absent _ _ found)
    · exact store.resident _ _ old
  · rw [file]
    refine store.disk _ fun addr read found same => ?_
    refine clean addr _ ?_ same
    rw [loaded.core, update_of_ne]
    · exact found
    · rintro rfl
      exact cache.heap.not_live_next (live_of_coreOf found)

/-- Writing a page back brings the file up to the array. -/
theorem Store.writeBack (quiet : pager.Quiet)
    (found : cache.heap.cell page = some read)
    (write : TinyDb.writeBack cache read = (done, written)) :
    done = true ∧ ∃ after, Store written after flat ∧ after.Quiet ∧ SamePages pager after ∧
      diskPage after.fd.file read.id = flat read.id := by
  obtain ⟨bucket, hash⟩ := store.hash
  obtain ⟨rest, -⟩ := writeBack_rest write
  have core := coreOf_of_cell found
  have data : read.data = flat read.id := store.resident _ read.core core
  have hashWritten := hash.sameShape (writeBack_sameShape write)
  cases dirty : read.isDirty with
  | false =>
    rw [TinyDb.writeBack, dirty] at write
    cases write
    refine ⟨rfl, pager, store, quiet, .refl _, store.disk _ fun addr other foundOther same => ?_⟩
    have here := hash.unique _ _ _ _ foundOther core same
    subst here
    rw [core] at foundOther
    rw [← Option.some.inj foundOther]
    exact dirty
  | true =>
    obtain ⟨after, writing, quietAfter⟩ := quiet.write read.id read.data
    obtain ⟨-, -, -, -, file⟩ := pagerWritePage_ok writing
    simp only [TinyDb.writeBack, dirty, store.attached, writing] at write
    cases write
    have diskSelf : diskPage after.fd.file read.id = flat read.id := by
      rw [file, diskPage_write_self, data]
    refine ⟨rfl, after, ⟨⟨bucket, hashWritten⟩, rfl, store.resident, fun other clean => ?_⟩,
      quietAfter, pagerWritePage_same writing, diskSelf⟩
    by_cases same : other = read.id
    · rw [same, diskSelf]
    · rw [file, diskPage_write_other _ read.data.toBytes_length same]
      exact store.disk _ clean

theorem Store.evict (quiet : pager.Quiet)
    (evicts : Evicts cache page done next) :
    done = true ∧ (∃ after, Store next after flat ∧ after.Quiet ∧ SamePages pager after) ∧
      coreOf next.heap = Function.update (coreOf cache.heap) page none := by
  obtain ⟨read, written, found, write, finish⟩ := evicts
  obtain ⟨rfl, after, kept, quietAfter, same, disk⟩ := store.writeBack quiet found write
  obtain ⟨rest, -⟩ := writeBack_rest write
  have heap : written.heap = cache.heap := by rw [rest]
  have dropped := dropPage_spec finish
  obtain ⟨bucket, hash⟩ := kept.hash
  have core := dropped.core
  rw [heap] at core
  refine ⟨rfl, ⟨after, ⟨⟨_, dropped.hashSound _ hash⟩, ?_, fun addr other foundOther => ?_,
    fun other clean => ?_⟩, quietAfter, same⟩, core⟩
  · rw [dropped.rest]
    exact kept.attached
  · rw [core] at foundOther
    obtain ⟨-, old⟩ := update_none_eq_some foundOther
    exact store.resident _ _ old
  · by_cases here : other = read.id
    · rw [here, disk]
    · refine kept.disk _ fun addr old foundOld sameId => clean addr old ?_ sameId
      rw [core, update_of_ne, ← heap]
      · exact foundOld
      · rintro rfl
        rw [heap, coreOf_of_cell found] at foundOld
        rw [← Option.some.inj foundOld] at sameId
        exact here sameId.symm

end

/-! ### Resident pages -/

/-- The numbers of the resident pages. -/
structure Residents (cache : PageCache) (ids : List UInt32) : Prop where
  nodup : ids.Nodup
  members : ∀ pageId, pageId ∈ ids ↔
    ∃ addr read, coreOf cache.heap addr = some read ∧ read.id = pageId
  counted : cache.count = ids.length

variable {ids : List UInt32}

section

variable (residents : Residents cache ids)
include residents

theorem Residents.frame (count : next.count = cache.count)
    (numbers : ∀ addr, (coreOf next.heap addr).map Page.id = (coreOf cache.heap addr).map Page.id) :
    Residents next ids := by
  refine ⟨residents.nodup, fun pageId => ?_, count.trans residents.counted⟩
  rw [residents.members]
  have same : ∀ addr, (∃ read, coreOf next.heap addr = some read ∧ read.id = pageId) ↔
      ∃ read, coreOf cache.heap addr = some read ∧ read.id = pageId := by
    intro addr
    rw [← map_eq_some_iff, ← map_eq_some_iff, numbers]
  exact exists_congr fun addr => (same _).symm

theorem Residents.sameShape (same : SameShape cache next) :
    Residents next ids :=
  residents.frame (by rw [same.rest]) same.ids

theorem Residents.load
    (loaded : PageLoaded cache next pageId data after) (absent : pageId ∉ ids) :
    Residents next (pageId :: ids) := by
  refine ⟨List.nodup_cons.mpr ⟨absent, residents.nodup⟩, fun other => ?_, ?_⟩
  · rw [List.mem_cons, residents.members, loaded.core]
    constructor
    · rintro (rfl | ⟨addr, read, found, same⟩)
      · exact ⟨cache.heap.next, _, update_self _ _ _, rfl⟩
      · refine ⟨addr, read, ?_, same⟩
        rw [update_of_ne]
        · exact found
        · rintro rfl
          exact cache.heap.not_live_next (live_of_coreOf found)
    · rintro ⟨addr, read, found, same⟩
      obtain ⟨-, new⟩ | ⟨-, old⟩ := update_eq_some found
      · rw [← Option.some.inj new] at same
        exact Or.inl same.symm
      · exact Or.inr ⟨addr, read, old, same⟩
  · rw [loaded.rest]
    simp [residents.counted]

theorem Residents.absent (outside : pageId ∉ ids) :
    ∀ addr read, coreOf cache.heap addr = some read → read.id ≠ pageId :=
  fun addr read found same => outside ((residents.members _).mpr ⟨addr, read, found, same⟩)

end

/-! ### Links without evictions -/

theorem unlink_value {back : Addr → Option Addr} {node : Addr}
    (value : unlink links back node other = some target) :
    links other = some target ∨ links node = some target := by
  obtain ⟨-, kept⟩ := update_none_eq_some value
  by_cases pointed : back node = some other
  · rw [pointed, setAt_some] at kept
    exact Or.inr kept
  · rw [setAt_of_ne _ _ pointed] at kept
    exact Or.inl kept

theorem setAt_value {pointer assigned : Option Addr}
    (value : setAt pointer assigned links other = some target) :
    links other = some target ∨ assigned = some target := by
  by_cases pointed : pointer = some other
  · rw [pointed, setAt_some] at value
    exact Or.inr value
  · rw [setAt_of_ne _ _ pointed] at value
    exact Or.inl value

theorem LinksLive.hit (links : LinksLive cache) (hit : PageHit cache next page)
    (live : cache.heap.Live page) : LinksLive next := by
  have kept : ∀ {addr}, cache.heap.Live addr → next.heap.Live addr := fun {addr} =>
    (hit.live_iff _).mpr
  refine ⟨fun node addr found => kept ?_, fun node addr found => kept ?_, fun addr found => kept ?_⟩
  · rw [hit.lruNext] at found
    obtain ⟨-, head⟩ | ⟨-, old⟩ := update_eq_some found
    · exact links.head _ head
    · rcases unlink_value old with old | old <;> exact links.next _ _ old
  · rw [hit.lruPrev] at found
    rcases setAt_value found with old | self
    · obtain ⟨-, old⟩ := update_none_eq_some old
      rcases unlink_value old with old | old <;> exact links.prev _ _ old
    · exact Option.some.inj self ▸ live
  · rw [hit.rest] at found
    exact Option.some.inj found ▸ live

theorem LinksLive.load (links : LinksLive cache) (loaded : PageLoaded cache next pageId data after) :
    LinksLive next := by
  refine ⟨fun node addr found => ?_, fun node addr found => ?_, fun addr found => ?_⟩
  · rw [loaded.lruNext] at found
    obtain ⟨-, head⟩ | ⟨-, old⟩ := update_eq_some found
    · exact loaded.live (links.head _ head)
    · exact loaded.live (links.next _ _ old)
  · rw [loaded.lruPrev] at found
    rcases setAt_value found with old | self
    · obtain ⟨-, old⟩ := update_none_eq_some old
      exact loaded.live (links.prev _ _ old)
    · exact Option.some.inj self ▸ loaded.live_new
  · rw [loaded.rest] at found
    exact Option.some.inj found ▸ loaded.live_new

theorem LinksLive.sameShape (links : LinksLive cache) (same : SameShape cache next) :
    LinksLive next := by
  refine ⟨fun node addr found => (same.live_iff _).mpr ?_,
    fun node addr found => (same.live_iff _).mpr ?_,
    fun addr found => (same.live_iff _).mpr ?_⟩
  · rw [same.lruNext] at found
    exact links.next _ _ found
  · rw [same.lruPrev] at found
    exact links.prev _ _ found
  · rw [same.rest] at found
    exact links.head _ found

end Array

end TinyDb

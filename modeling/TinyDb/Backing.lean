/-
This file adds flushing to what a tree needs of the cache. Every statement that
closes a tree flushes the cache, so an invariant that serves trees has to keep
the view over a flush as well. In the invariant here the pages of the view are
resident, and the cache has loaded no more than some number of pages; it holds
whatever the pager answers.
-/

import TinyDb.Storage
import TinyDb.TreeReopen

namespace TinyDb

open Heaps Posix

/-- The pages of the view can be used, and survive a flush. -/
structure Backs (demand : Demand) (Free : PageCache → View → Prop)
    (Held : PageCache → View → Addr → Prop) : Prop extends Serves demand Free Held where
  flush : ∀ {cache view}, Free cache view →
    Ensures demand (pageCacheFlush cache) fun out => Free out.2 view

section Backing

variable {demand : Demand} {Free : PageCache → View → Prop}
  {Held : PageCache → View → Addr → Prop} {cache : PageCache} {view : View}

theorem Backs.close (backs : Backs demand Free Held) (free : Free cache view) :
    Ensures demand (btreeClose cache) fun next => Free next view :=
  (backs.flush free).bind fun _ kept => Ensures.ok kept

/-- What must return may return. -/
theorem Backs.weaken (backs : Backs .must Free Held) : Backs demand Free Held where
  toServes := backs.toServes.weaken
  flush free := (backs.flush free).of_must

/-- A property of the cache that loading and assigning keep can be added to an invariant. -/
theorem Serves.keeping {Keeps : PageCache → Prop} (serves : Serves demand Free Held)
    (loads : ∀ {cache view pageNum data out}, Free cache view → view pageNum = some data →
      pageCacheGet cache pageNum = .ok out → Keeps cache → Keeps out.2)
    (assigns : ∀ {cache} heap, Keeps cache → Keeps { cache with heap }) :
    Serves demand (fun cache view => Free cache view ∧ Keeps cache)
      (fun cache view page => Held cache view page ∧ Keeps cache) where
  pin := by
    rintro cache view pageNum data ⟨free, keeps⟩ found
    refine ((serves.pin free found).and_run fun out get => loads free found get keeps).mono ?_
    rintro out ⟨⟨page, whole, pinned, load, number, same, held⟩, keepsOut⟩
    exact ⟨page, whole, pinned, load, number, same, held, keepsOut⟩
  unpin := by
    rintro cache view page ⟨held, keeps⟩
    refine (serves.unpin held).and_run fun next unpin => ?_
    rw [pageUnpin_rest unpin]
    exact assigns _ keeps
  overwrite := by
    rintro cache view page whole data ⟨held, keeps⟩ load
    have writes : ∀ written, cache.update page ({ · with data }) = .ok written → Keeps written :=
      fun written write => by
        rw [(update_rest write).2.1]
        exact assigns _ keeps
    refine ((serves.overwrite _ held load).and_run writes).mono fun written both => ?_
    refine both.1.and_run fun next mark => ?_
    rw [(update_rest mark).2.1]
    exact assigns _ both.2

end Backing

/-! ### Resident pages -/

/-- The cache of a storage handle has loaded at most so many pages. -/
def LoadedAtMost (limit : Nat) (cache : PageCache) : Prop :=
  cache.count ≤ limit ∧ cache.maxPages = 256

/-- The view is the resident pages, and there are not too many of them. -/
def Stocked (limit : Nat) (cache : PageCache) (view : View) : Prop :=
  Resident cache view ∧ LoadedAtMost limit cache

/-- A page of the view is pinned. -/
def StockedHeld (limit : Nat) (cache : PageCache) (view : View) (page : Addr) : Prop :=
  ResidentHeld cache view page ∧ LoadedAtMost limit cache

theorem Resident.get_loadedAtMost {cache : PageCache} {view : View} {pageNum : UInt32}
    {data : PageData} {limit : Nat} {out : Option Addr × PageCache} (resident : Resident cache view)
    (found : view pageNum = some data) (get : pageCacheGet cache pageNum = .ok out)
    (loaded : LoadedAtMost limit cache) : LoadedAtMost limit out.2 := by
  obtain ⟨bucket, hash⟩ := resident.usable.hash
  rw [← resident.same, residentPage_eq_some hash] at found
  obtain ⟨page, read, core, rfl, -⟩ := found
  obtain ⟨next, run, hit⟩ := pageCacheGet_hit hash resident.usable.links core
  cases (run.symm.trans get)
  rw [hit.rest]
  exact loaded

theorem stocked_backs (limit : Nat) : Backs .must (Stocked limit) (StockedHeld limit) where
  toServes := resident_serves.keeping (fun resident found get => resident.get_loadedAtMost found get)
    fun _ loaded => loaded
  flush := by
    rintro cache view ⟨resident, count, maxPages⟩
    obtain ⟨flushed, next, run, kept, sameCount, sameMax⟩ := resident.flush
    exact ⟨_, run, kept, by rw [sameCount]; exact count, by rw [sameMax]; exact maxPages⟩

end TinyDb

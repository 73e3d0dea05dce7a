/-
This file says what the cache's pointer assignments do, in every state in which
they do not fault.

A heap of pages is read as five functions of the address: the four links and the
core of a page, which is everything else. An assignment to a link changes one of
the functions at one address. So each list operation is described by equations
between functions, with no assumption on how the lists look before it.
-/

import TinyDb.Lib.Ensures
import TinyDb.Lib.Linked
import TinyDb.PageCache

namespace TinyDb

open Heaps Chains Option Function

variable {read page : Page} {next heap : Heap Page} {field : Page → Option Addr}
  {prev : Option Addr} {addr : Addr}

/-! ### Links and cores -/

/-- The link of the page at an address; a dead page has none. -/
def link (field : Page → Option Addr) (heap : Heap Page) (addr : Addr) : Option Addr :=
  (heap.cell addr).bind field

/-- A page without its links. -/
def Page.core (page : Page) : Page :=
  { page with lruNext := none, lruPrev := none, hashNext := none, hashPrev := none }

/-- The page at an address, without its links. -/
def coreOf (heap : Heap Page) (addr : Addr) : Option Page :=
  (heap.cell addr).bind fun page => some page.core

section Links

variable {heap : Heap Page} {addr : Addr}

theorem live_iff_coreOf : heap.Live addr ↔ (coreOf heap addr).isSome := by
  rw [Heap.Live, coreOf]
  cases heap.cell addr <;> rfl

theorem live_of_coreOf (found : coreOf heap addr = some read) : heap.Live addr :=
  live_iff_coreOf.mpr (isSome_of_eq_some found)

/-- The cores say which pages are live. -/
theorem live_congr (same : coreOf next = coreOf heap) (addr : Addr) :
    next.Live addr ↔ heap.Live addr := by
  rw [live_iff_coreOf, same, live_iff_coreOf]

theorem link_of_cell (found : heap.cell addr = some page) (field : Page → Option Addr) :
    link field heap addr = field page := by
  rw [link, found]
  rfl

/-- The front of a chain of live pages, and the chain behind it. -/
theorem chain_front {start : Option Addr} {rest : List Addr}
    (chain : Chain (link field heap) start (addr :: rest)) (live : heap.Live addr) :
    ∃ page, heap.cell addr = some page ∧ start = some addr ∧ addr ∉ rest ∧
      Chain (link field heap) (field page) rest := by
  obtain ⟨page, found⟩ := Heap.live_iff.mp live
  have tail := chain.tail
  rw [link_of_cell found] at tail
  exact ⟨page, found, chain.start_eq_head, (List.nodup_cons.mp chain.nodup).1, tail⟩

theorem coreOf_of_cell (found : heap.cell addr = some page) :
    coreOf heap addr = some page.core := by
  rw [coreOf, found]
  rfl

theorem cell_of_coreOf (found : coreOf heap addr = some read) :
    ∃ page, heap.cell addr = some page ∧ page.core = read := by
  obtain ⟨page, cell, same⟩ := bind_eq_some_iff.mp found
  exact ⟨page, cell, Option.some.inj same⟩

theorem link_of_dead (dead : ¬heap.Live addr) (field : Page → Option Addr) :
    link field heap addr = none := by
  rw [link, not_isSome_iff_eq_none.mp dead]
  rfl

end Links

/-! ### One assignment -/

section Assignment

variable {cache next : PageCache} {page : Addr} {pointer : Option Addr} {change : Page → Page}

theorem update_eq_ok :
    cache.update page change = .ok next ↔ ∃ read, cache.heap.cell page = some read ∧
      next = { cache with heap := cache.heap.set page (some (change read)) } := by
  simp only [PageCache.update, bind_eq_ok, Heap.modify_eq_ok]
  constructor
  · rintro ⟨heap, ⟨read, found, rfl⟩, same⟩
    exact ⟨read, found, (Except.ok.inj same).symm⟩
  · rintro ⟨read, found, rfl⟩
    exact ⟨_, ⟨read, found, rfl⟩, rfl⟩

theorem update_of_live (live : cache.heap.Live page) (change : Page → Page) :
    ∃ next, cache.update page change = .ok next := by
  obtain ⟨read, found⟩ := Heap.live_iff.mp live
  exact ⟨_, update_eq_ok.mpr ⟨read, found, rfl⟩⟩

section

variable (run : cache.update page change = .ok next)
include run

theorem update_rest :
    cache.heap.Live page ∧ next = { cache with heap := next.heap } ∧
      next.heap.next = cache.heap.next := by
  obtain ⟨read, found, rfl⟩ := update_eq_ok.mp run
  exact ⟨Heap.live_of_eq found, rfl, rfl⟩

/-- An assignment changes any function of the pages at one address. -/
theorem update_bind {Value : Type}
    (field : Page → Option Value) :
    (fun addr => (next.heap.cell addr).bind field) =
      Function.update (fun addr => (cache.heap.cell addr).bind field) page
        ((cache.heap.cell page).bind fun read => field (change read)) := by
  obtain ⟨read, found, rfl⟩ := update_eq_ok.mp run
  funext addr
  by_cases same : addr = page
  · subst same
    rw [update_self, Heap.set_cell_self (Heap.live_of_eq found), found]
    rfl
  · rw [update_of_ne same, Heap.set_cell_ne _ same]

/-- Assigning to one field leaves the others. -/
theorem update_link_same (field : Page → Option Addr)
    (same : ∀ read, field (change read) = field read) :
    link field next.heap = link field cache.heap := by
  have whole := update_bind run field
  simp only [same, update_eq_self] at whole
  exact whole

theorem update_link (field : Page → Option Addr)
    (value : Option Addr) (assigned : ∀ read, field (change read) = value) :
    link field next.heap = Function.update (link field cache.heap) page value := by
  obtain ⟨read, found, -⟩ := update_eq_ok.mp run
  have whole := update_bind run field
  rw [found, bind_some, assigned] at whole
  exact whole

theorem update_coreOf (coreChange : Page → Page)
    (changed : ∀ read, (change read).core = coreChange read.core) :
    coreOf next.heap =
      Function.update (coreOf cache.heap) page ((coreOf cache.heap page).map coreChange) := by
  obtain ⟨read, found, -⟩ := update_eq_ok.mp run
  have whole := update_bind run fun read => some read.core
  rw [found, bind_some, changed] at whole
  rw [coreOf_of_cell found]
  exact whole

theorem update_coreOf_same
    (same : ∀ read, (change read).core = read.core) : coreOf next.heap = coreOf cache.heap := by
  rw [update_coreOf run id same, map_id, id, update_eq_self]

end

theorem updateIf_of_live (live : ∀ addr, pointer = some addr → cache.heap.Live addr)
    (change : Page → Page) : ∃ next, cache.updateIf pointer change = .ok next := by
  cases pointer with
  | none => exact ⟨cache, rfl⟩
  | some addr => exact update_of_live (live _ rfl) _

section

variable (run : cache.updateIf pointer change = .ok next)
include run

theorem updateIf_rest :
    (∀ addr, pointer = some addr → cache.heap.Live addr) ∧
      next = { cache with heap := next.heap } ∧ next.heap.next = cache.heap.next := by
  cases pointer with
  | none =>
    cases run
    exact ⟨nofun, rfl, rfl⟩
  | some addr =>
    obtain ⟨live, rest⟩ := update_rest run
    exact ⟨fun _ same => Option.some.inj same ▸ live, rest⟩

theorem updateIf_link_same
    (field : Page → Option Addr) (same : ∀ read, field (change read) = field read) :
    link field next.heap = link field cache.heap := by
  cases pointer with
  | none => rw [← Except.ok.inj run]
  | some addr => exact update_link_same run _ same

theorem updateIf_link
    (field : Page → Option Addr) (value : Option Addr)
    (assigned : ∀ read, field (change read) = value) :
    link field next.heap = setAt pointer value (link field cache.heap) := by
  cases pointer with
  | none => rw [← Except.ok.inj run]; rfl
  | some addr => exact update_link run _ _ assigned

theorem updateIf_coreOf
    (same : ∀ read, (change read).core = read.core) : coreOf next.heap = coreOf cache.heap := by
  cases pointer with
  | none => rw [← Except.ok.inj run]
  | some addr => exact update_coreOf_same run same

end

end Assignment

/-! ### The list operations -/

/-- What `lru_remove` did. -/
structure LruRemoved (cache next : PageCache) (page : Addr) : Prop where
  core : coreOf next.heap = coreOf cache.heap
  size : next.heap.next = cache.heap.next
  hashNext : link Page.hashNext next.heap = link Page.hashNext cache.heap
  hashPrev : link Page.hashPrev next.heap = link Page.hashPrev cache.heap
  lruNext : link Page.lruNext next.heap =
    unlink (link Page.lruNext cache.heap) (link Page.lruPrev cache.heap) page
  lruPrev : link Page.lruPrev next.heap =
    unlink (link Page.lruPrev cache.heap) (link Page.lruNext cache.heap) page
  rest : next = { cache with heap := next.heap }

/-- What `lru_add_front` did. -/
structure LruAdded (cache next : PageCache) (page : Addr) : Prop where
  core : coreOf next.heap = coreOf cache.heap
  size : next.heap.next = cache.heap.next
  hashNext : link Page.hashNext next.heap = link Page.hashNext cache.heap
  hashPrev : link Page.hashPrev next.heap = link Page.hashPrev cache.heap
  lruNext : link Page.lruNext next.heap =
    Function.update (link Page.lruNext cache.heap) page cache.lruHead
  lruPrev : link Page.lruPrev next.heap =
    setAt cache.lruHead (some page) (Function.update (link Page.lruPrev cache.heap) page none)
  rest : next = { cache with
    heap := next.heap
    lruHead := some page
    lruTail := cache.lruTail.or (some page) }
  headLive : ∀ addr, cache.lruHead = some addr → cache.heap.Live addr

section ListOperations

variable {demand : Demand} {cache next : PageCache} {page : Addr} {read : Page}

/-- `lru_remove` returns if the page and its neighbours are live. -/
theorem lruRemove_ensures (live : demand = .must → cache.heap.Live page ∧
      (∀ addr, link Page.lruPrev cache.heap page = some addr → cache.heap.Live addr) ∧
      ∀ addr, link Page.lruNext cache.heap page = some addr → cache.heap.Live addr) :
    Ensures demand (lruRemove cache page) fun next => LruRemoved cache next page := by
  refine (Ensures.of_returns fun must => (live must).1.load).bind fun read load => ?_
  have found := Heap.load_eq_ok.mp load
  rw [← link_of_cell found Page.lruNext, ← link_of_cell found Page.lruPrev]
  refine (Ensures.of_returns fun must => updateIf_of_live (live must).2.1 _).bind
    fun first setNext => ?_
  have prevKept := updateIf_link_same setNext Page.lruPrev fun _ => rfl
  have nextSet := updateIf_link setNext Page.lruNext (link _ _ _)
    fun _ => rfl
  have coreFirst := updateIf_coreOf setNext fun _ => rfl
  refine (Ensures.of_returns fun must =>
    ((live_congr coreFirst _).mpr (live must).1).load).bind fun again loadAgain => ?_
  have foundAgain := Heap.load_eq_ok.mp loadAgain
  have nextRead : link Page.lruNext first.heap page = link Page.lruNext cache.heap page := by
    rw [nextSet, setAt_self]
  rw [← link_of_cell foundAgain Page.lruNext, ← link_of_cell foundAgain Page.lruPrev, prevKept,
    nextRead]
  refine (Ensures.of_returns fun must => updateIf_of_live
    (fun addr same => (live_congr coreFirst _).mpr ((live must).2.2 _ same)) _).bind
    fun second setPrev => ?_
  have coreSecond := (updateIf_coreOf setPrev fun _ => rfl).trans coreFirst
  refine (Ensures.of_returns fun must =>
    update_of_live ((live_congr coreSecond _).mpr (live must).1) _).mono fun next clear => ?_
  obtain ⟨-, restFirst, sizeFirst⟩ := updateIf_rest setNext
  obtain ⟨-, restSecond, sizeSecond⟩ := updateIf_rest setPrev
  obtain ⟨-, restClear, sizeClear⟩ := update_rest clear
  refine ⟨?_, ?_, ?_, ?_, ?_, ?_, ?_⟩
  · rw [update_coreOf_same clear fun _ => rfl, coreSecond]
  · rw [sizeClear, sizeSecond, sizeFirst]
  · rw [update_link_same clear _ fun _ => rfl, updateIf_link_same setPrev _ fun _ => rfl,
      updateIf_link_same setNext _ fun _ => rfl]
  · rw [update_link_same clear _ fun _ => rfl, updateIf_link_same setPrev _ fun _ => rfl,
      updateIf_link_same setNext _ fun _ => rfl]
  · rw [update_link clear _ _ fun _ => rfl, updateIf_link_same setPrev _ fun _ => rfl, nextSet,
      unlink]
  · rw [update_link clear _ _ fun _ => rfl,
      updateIf_link setPrev _ (link _ _ _) fun _ => rfl, prevKept, unlink]
  · rw [restClear, restSecond, restFirst]

theorem lruRemove_spec (run : lruRemove cache page = .ok next) : LruRemoved cache next page :=
  (lruRemove_ensures nofun : Ensures .may _ _).elim run

theorem lruRemove_live (run : lruRemove cache page = .ok next) : cache.heap.Live page := by
  simp only [lruRemove, bind_eq_ok] at run
  obtain ⟨read, found, -⟩ := run
  exact Heap.live_of_eq (Heap.load_eq_ok.mp found)

/-- `lru_add_front` returns if the page and the head are live. -/
theorem lruAddFront_ensures (live : demand = .must → cache.heap.Live page ∧
      ∀ addr, cache.lruHead = some addr → cache.heap.Live addr) :
    Ensures demand (lruAddFront cache page) fun next => LruAdded cache next page := by
  refine (Ensures.of_returns fun must => update_of_live (live must).1 _).bind
    fun first setPage => ?_
  obtain ⟨-, restFirst, sizeFirst⟩ := update_rest setPage
  have head : first.lruHead = cache.lruHead := by rw [restFirst]
  have kept := live_congr (update_coreOf_same setPage fun _ => rfl)
  rw [head]
  refine (Ensures.of_returns fun must => updateIf_of_live
    (fun addr same => (kept _).mpr ((live must).2 _ same)) _).bind
    fun second setHead => Ensures.ok ?_
  obtain ⟨headLive, restSecond, sizeSecond⟩ := updateIf_rest setHead
  refine ⟨?_, sizeSecond.trans sizeFirst, ?_, ?_, ?_, ?_, ?_,
    fun addr found => (kept _).mp (headLive _ found)⟩
  · exact (updateIf_coreOf setHead fun _ => rfl).trans (update_coreOf_same setPage fun _ => rfl)
  · exact (updateIf_link_same setHead _ fun _ => rfl).trans (update_link_same setPage _ fun _ => rfl)
  · exact (updateIf_link_same setHead _ fun _ => rfl).trans (update_link_same setPage _ fun _ => rfl)
  · exact (updateIf_link_same setHead _ fun _ => rfl).trans (update_link setPage _ _ fun _ => rfl)
  · have prevSet := update_link setPage Page.lruPrev _ fun _ => rfl
    have headSet := updateIf_link setHead Page.lruPrev _ fun _ => rfl
    rw [prevSet] at headSet
    exact headSet
  · rw [restSecond, restFirst]

theorem lruAddFront_spec (run : lruAddFront cache page = .ok next) : LruAdded cache next page :=
  (lruAddFront_ensures nofun : Ensures .may _ _).elim run

/-- What `hash_insert` did in the bucket of the page. -/
structure HashInserted (cache next : PageCache) (page : Addr) (idx : Nat) : Prop where
  core : coreOf next.heap = coreOf cache.heap
  size : next.heap.next = cache.heap.next
  lruNext : link Page.lruNext next.heap = link Page.lruNext cache.heap
  lruPrev : link Page.lruPrev next.heap = link Page.lruPrev cache.heap
  hashNext : link Page.hashNext next.heap =
    Function.update (link Page.hashNext cache.heap) page (cache.pages idx)
  hashPrev : link Page.hashPrev next.heap =
    setAt (cache.pages idx) (some page) (Function.update (link Page.hashPrev cache.heap) page none)
  rest : next = { cache with
    heap := next.heap
    pages := Function.update cache.pages idx (some page) }

/-- What `hash_remove` did in the bucket of the page. -/
structure HashRemoved (cache next : PageCache) (page : Addr) (idx : Nat) : Prop where
  core : coreOf next.heap = coreOf cache.heap
  size : next.heap.next = cache.heap.next
  lruNext : link Page.lruNext next.heap = link Page.lruNext cache.heap
  lruPrev : link Page.lruPrev next.heap = link Page.lruPrev cache.heap
  hashNext : link Page.hashNext next.heap =
    unlink (link Page.hashNext cache.heap) (link Page.hashPrev cache.heap) page
  hashPrev : link Page.hashPrev next.heap =
    unlink (link Page.hashPrev cache.heap) (link Page.hashNext cache.heap) page
  rest : next = { cache with
    heap := next.heap
    pages := if link Page.hashPrev cache.heap page = none then
        Function.update cache.pages idx (link Page.hashNext cache.heap page)
      else cache.pages }

/-- `hash_insert` returns if the page and the head of its bucket are live. -/
theorem hashInsert_ensures (found : coreOf cache.heap page = some read)
    (headLive : demand = .must → ∀ addr, cache.pages (hashPageId read.id cache.tableSize) =
      some addr → cache.heap.Live addr) :
    Ensures demand (hashInsert cache page) fun next =>
      HashInserted cache next page (hashPageId read.id cache.tableSize) := by
  have live := live_of_coreOf found
  refine (Ensures.of_returns fun _ => live.load).bind fun whole load => ?_
  rw [coreOf_of_cell (Heap.load_eq_ok.mp load)] at found
  cases found
  refine (Ensures.of_returns fun _ => update_of_live live _).bind fun first setPage => ?_
  obtain ⟨-, restFirst, sizeFirst⟩ := update_rest setPage
  have kept := live_congr (update_coreOf_same setPage fun _ => rfl)
  have pages : first.pages = cache.pages := by rw [restFirst]
  rw [pages]
  refine (Ensures.of_returns fun must => updateIf_of_live
    (fun addr same => (kept _).mpr (headLive must _ same)) _).bind
    fun second setHead => Ensures.ok ?_
  obtain ⟨-, restSecond, sizeSecond⟩ := updateIf_rest setHead
  refine ⟨?_, sizeSecond.trans sizeFirst, ?_, ?_, ?_, ?_, ?_⟩
  · exact (updateIf_coreOf setHead fun _ => rfl).trans (update_coreOf_same setPage fun _ => rfl)
  · exact (updateIf_link_same setHead _ fun _ => rfl).trans (update_link_same setPage _ fun _ => rfl)
  · exact (updateIf_link_same setHead _ fun _ => rfl).trans (update_link_same setPage _ fun _ => rfl)
  · exact (updateIf_link_same setHead _ fun _ => rfl).trans
      (update_link setPage _ _ fun _ => rfl)
  · have prevSet := update_link setPage Page.hashPrev _ fun _ => rfl
    have headSet := updateIf_link setHead Page.hashPrev _ fun _ => rfl
    rw [prevSet] at headSet
    exact headSet
  · rw [restSecond, restFirst]
    rfl

theorem hashBypass_spec {hashNext : Option Addr} {idx : Nat}
    (run : hashBypass cache prev idx hashNext = .ok next) :
    coreOf next.heap = coreOf cache.heap ∧ next.heap.next = cache.heap.next ∧
      link Page.lruNext next.heap = link Page.lruNext cache.heap ∧
      link Page.lruPrev next.heap = link Page.lruPrev cache.heap ∧
      link Page.hashPrev next.heap = link Page.hashPrev cache.heap ∧
      link Page.hashNext next.heap = setAt prev hashNext (link Page.hashNext cache.heap) ∧
      next = { cache with
        heap := next.heap
        pages := if prev = none then Function.update cache.pages idx hashNext
          else cache.pages } := by
  cases prev with
  | none =>
    cases run
    exact ⟨rfl, rfl, rfl, rfl, rfl, rfl, rfl⟩
  | some prev =>
    obtain ⟨-, rest, size⟩ := update_rest run
    exact ⟨update_coreOf_same run fun _ => rfl, size, update_link_same run _ fun _ => rfl,
      update_link_same run _ fun _ => rfl, update_link_same run _ fun _ => rfl,
      update_link run _ _ fun _ => rfl, rest⟩

theorem hashBypass_of_live (live : ∀ addr, prev = some addr → cache.heap.Live addr) (idx : Nat)
    (hashNext : Option Addr) :
    ∃ next, hashBypass cache prev idx hashNext = .ok next := by
  cases prev with
  | none => exact ⟨_, rfl⟩
  | some addr => exact update_of_live (live _ rfl) _

/-- `hash_remove` returns if the page and its neighbours are live. -/
theorem hashRemove_ensures (found : coreOf cache.heap page = some read)
    (live : demand = .must →
      (∀ addr, link Page.hashPrev cache.heap page = some addr → cache.heap.Live addr) ∧
      ∀ addr, link Page.hashNext cache.heap page = some addr → cache.heap.Live addr) :
    Ensures demand (hashRemove cache page) fun next =>
      HashRemoved cache next page (hashPageId read.id cache.tableSize) := by
  have pageLive := live_of_coreOf found
  refine (Ensures.of_returns fun _ => pageLive.load).bind fun whole load => ?_
  have cell := Heap.load_eq_ok.mp load
  rw [coreOf_of_cell cell] at found
  cases found
  rw [← link_of_cell cell Page.hashNext, ← link_of_cell cell Page.hashPrev]
  refine (Ensures.of_returns fun must => hashBypass_of_live (live must).1 _ _).bind
    fun first setNext => ?_
  obtain ⟨core, size, lruNext, lruPrev, prevKept, nextSet, rest⟩ := hashBypass_spec setNext
  refine (Ensures.of_returns fun _ => ((live_congr core _).mpr pageLive).load).bind
    fun again loadAgain => ?_
  have cellAgain := Heap.load_eq_ok.mp loadAgain
  have nextRead : link Page.hashNext first.heap page = link Page.hashNext cache.heap page := by
    rw [nextSet, setAt_self]
  rw [← link_of_cell cellAgain Page.hashNext, ← link_of_cell cellAgain Page.hashPrev, prevKept,
    nextRead]
  refine (Ensures.of_returns fun must => updateIf_of_live
    (fun addr same => (live_congr core _).mpr ((live must).2 _ same)) _).bind
    fun second setPrev => ?_
  have coreSecond := (updateIf_coreOf setPrev fun _ => rfl).trans core
  refine (Ensures.of_returns fun _ =>
    update_of_live ((live_congr coreSecond _).mpr pageLive) _).mono fun next clear => ?_
  obtain ⟨-, restSecond, sizeSecond⟩ := updateIf_rest setPrev
  obtain ⟨-, restClear, sizeClear⟩ := update_rest clear
  refine ⟨?_, ?_, ?_, ?_, ?_, ?_, ?_⟩
  · rw [update_coreOf_same clear fun _ => rfl, coreSecond]
  · rw [sizeClear, sizeSecond, size]
  · rw [update_link_same clear _ fun _ => rfl, updateIf_link_same setPrev _ fun _ => rfl, lruNext]
  · rw [update_link_same clear _ fun _ => rfl, updateIf_link_same setPrev _ fun _ => rfl, lruPrev]
  · rw [update_link clear _ _ fun _ => rfl, updateIf_link_same setPrev _ fun _ => rfl, nextSet,
      unlink]
  · rw [update_link clear _ _ fun _ => rfl,
      updateIf_link setPrev _ (link _ _ _) fun _ => rfl, prevKept, unlink]
  · rw [restClear, restSecond, rest]
    rfl

end ListOperations

/-! ### Allocation and deallocation -/

theorem coreOf_alloc (heap : Heap Page) (page : Page) :
    coreOf (heap.alloc page) = Function.update (coreOf heap) heap.next (some page.core) := by
  funext addr
  by_cases same : addr = heap.next
  · subst same
    rw [update_self, coreOf, Heap.alloc_cell_next]
    rfl
  · rw [update_of_ne same, coreOf, coreOf, Heap.alloc_cell_ne _ same]

theorem link_alloc (heap : Heap Page) (none : field page = none) :
    link field (heap.alloc page) = link field heap := by
  funext addr
  by_cases same : addr = heap.next
  · subst same
    rw [link_of_dead heap.not_live_next, link, Heap.alloc_cell_next]
    exact none
  · rw [link, link, Heap.alloc_cell_ne _ same]

theorem coreOf_free (run : heap.free addr = .ok next) :
    coreOf next = Function.update (coreOf heap) addr none := by
  obtain ⟨live, rfl⟩ := Heap.free_eq_ok.mp run
  funext other
  by_cases same : other = addr
  · subst same
    rw [update_self, coreOf, Heap.set_cell_self live]
    rfl
  · rw [update_of_ne same, coreOf, coreOf, Heap.set_cell_ne _ same]

theorem link_free (run : heap.free addr = .ok next) (unlinked : link field heap addr = none) :
    link field next = link field heap := by
  obtain ⟨live, rfl⟩ := Heap.free_eq_ok.mp run
  funext other
  by_cases same : other = addr
  · subst same
    rw [unlinked, link, Heap.set_cell_self live]
    rfl
  · rw [link, link, Heap.set_cell_ne _ same]

end TinyDb

/-
This file proves when `page_cache_get` returns.

A miss in a full cache searches the list of recently used pages from its tail for
a page that nobody has pinned. While the list is a list, the search ends: either
every page is pinned and the call returns `NULL`, or the last unpinned page is
evicted. The page read next then goes to the front, where the old head is linked
to it. So the call returns unless the page it evicts is that head. A hit on the
page at the head makes the page its own predecessor, and from then on the search
for a victim in a full cache runs in a circle.
-/

import TinyDb.LruList

namespace TinyDb

open Heaps Chains Runs Relation List Function

variable {heap : Heap Page} {page victim : Addr} {cache : PageCache} {result : Option Addr}

/-! ### The search for a victim -/

/-- A resident page that nobody has pinned. -/
def unpinned (heap : Heap Page) (page : Addr) : Bool :=
  (heap.cell page).any fun read => read.refcount = 0

theorem unpinned_live (free : unpinned heap page) :
    heap.Live page := by
  by_contra dead
  rw [unpinned, Option.not_isSome_iff_eq_none.mp dead] at free
  cases free

/-- However the links stand, the search ends at no page that is pinned. -/
theorem findVictim_unpinned (search : findVictim cache = .ok (some victim)) :
    unpinned cache.heap victim := by
  have walk : ∀ (fuel : Nat) (start : Option Addr),
      findVictimLoop cache.heap fuel start = .ok (some victim) → unpinned cache.heap victim := by
    intro fuel
    induction fuel with
    | zero =>
      intro start search
      cases start with
      | none => cases search
      | some page => cases search
    | succ fuel inductionHypothesis =>
      intro start search
      cases start with
      | none => cases search
      | some page =>
        simp only [findVictimLoop, bind_eq_ok, Heap.load_eq_ok] at search
        obtain ⟨read, found, search⟩ := search
        split at search
        · rename_i free
          cases (Except.ok.inj search)
          rw [unpinned, found]
          exact decide_eq_true free
        · exact inductionHypothesis _ search
  exact walk _ _ search

/-- The search along a chain of live pages ends at the first page that is not pinned. -/
theorem findVictimLoop_chain {fuel : Nat} {start : Option Addr} {visited : List Addr}
    (chain : Chain (link Page.lruPrev heap) start visited) (live : ∀ addr ∈ visited, heap.Live addr)
    (enough : visited.length ≤ fuel) :
    findVictimLoop heap fuel start = .ok (visited.find? (unpinned heap)) := by
  induction chain generalizing fuel with
  | stop => rw [findVictimLoop, find?_nil, pure_eq_ok]
  | visit addr rest tail inductionHypothesis =>
    obtain ⟨fuel, rfl⟩ : ∃ less, fuel = less + 1 :=
      Nat.exists_eq_add_one_of_ne_zero (by simp at enough; omega)
    obtain ⟨page, found⟩ := Heap.live_iff.mp (live _ mem_cons_self)
    have free : unpinned heap addr = decide (page.refcount = 0) := by
      rw [unpinned, found, Option.any_some]
    rw [link_of_cell found] at inductionHypothesis
    rw [findVictimLoop, Heap.load_eq_ok.mpr found, ok_bind, find?_cons, free]
    by_cases zero : page.refcount = 0
    · rw [if_pos zero, decide_eq_true zero, pure_eq_ok]
    · rw [if_neg zero, decide_eq_false zero]
      exact inductionHypothesis (fun other member => live _ (mem_cons_of_mem _ member))
        (Nat.le_of_succ_le_succ enough)

section Search

variable {cache : PageCache} {order : List Addr}

/-- The victim is the last page of the list that is not pinned. -/
theorem LruSound.findVictim (sound : LruSound cache order) :
    findVictim cache = .ok (order.reverse.find? (unpinned cache.heap)) := by
  have live : ∀ addr ∈ order.reverse, cache.heap.Live addr := fun addr member =>
    (sound.members _).mp (mem_reverse.mp member)
  exact findVictimLoop_chain sound.linked.reverse.chain live
    (Heap.length_le_next sound.linked.reverse.nodup live)

theorem LruSound.no_victim (sound : LruSound cache order)
    (search : TinyDb.findVictim cache = .ok none) (page : Addr) :
    unpinned cache.heap page = false := by
  rw [sound.findVictim, Except.ok.injEq, find?_eq_none] at search
  by_contra free
  rw [Bool.not_eq_false] at free
  exact search _ (mem_reverse.mpr ((sound.members _).mpr (unpinned_live free))) free

/-- The victim is at the head only if every other page is pinned. -/
theorem LruSound.victim_at_head (sound : LruSound cache order)
    (search : TinyDb.findVictim cache = .ok (some victim)) :
    cache.lruHead = some victim ↔
      ∃ head, cache.lruHead = some head ∧ ∀ page, unpinned cache.heap page ↔ page = head := by
  constructor
  · intro atHead
    refine ⟨victim, atHead, fun page => ⟨fun free => ?_, fun same => same ▸ findVictim_unpinned search⟩⟩
    have member := (sound.members _).mpr (unpinned_live free)
    rw [sound.findVictim, Except.ok.injEq] at search
    obtain ⟨-, before, after, split, pinned⟩ := find?_eq_some_iff_append.mp search
    have last : order = after.reverse ++ victim :: before.reverse := by
      rw [← reverse_reverse order, split]
      simp
    -- the head stands first, so nothing is left behind the victim on the way from the tail
    have first := sound.linked.first
    rw [atHead, last] at first
    have nodup := sound.linked.nodup
    rw [last] at nodup
    have alone : after.reverse = [] := by
      cases shape : after.reverse with
      | nil => rfl
      | cons start rest =>
        rw [shape, cons_append] at first
        cases first
        rw [shape] at nodup
        simp at nodup
    rw [last, alone, nil_append, mem_cons, mem_reverse] at member
    refine member.resolve_right fun behind => ?_
    have contradiction := pinned _ behind
    rw [free] at contradiction
    cases contradiction
  · rintro ⟨head, atHead, only⟩
    rw [atHead, (only victim).mp (findVictim_unpinned search)]

end Search

/-! ### Caches that are only read -/

/-- Nothing in the cache waits to be written, and what it holds was read through its pager. -/
structure Untouched (cache : PageCache) : Prop where
  clean : ∀ addr read, coreOf cache.heap addr = some read → read.isDirty = false
  backed : cache.pager = none → ∀ addr, coreOf cache.heap addr = none

section Untouched

variable {cache next : PageCache} {page : Addr} {pageId : UInt32} {done : Bool}

section

variable (untouched : Untouched cache)
include untouched

theorem Untouched.writeBack {read : Page}
    (found : cache.heap.cell page = some read) : writeBack cache read = (true, cache) := by
  have clean : read.isDirty = false := untouched.clean _ read.core (coreOf_of_cell found)
  rw [TinyDb.writeBack.eq_def, clean]

/-- A change to a page that does not mark it dirty. -/
theorem Untouched.changed {change : Page → Page}
    (core : coreOf next.heap =
      Function.update (coreOf cache.heap) page ((coreOf cache.heap page).map change))
    (kept : ∀ read, (change read).isDirty = read.isDirty) (pager : next.pager = cache.pager) :
    Untouched next := by
  refine ⟨fun addr read found => ?_, fun absent addr => ?_⟩
  · rw [core] at found
    obtain ⟨-, changed⟩ | ⟨-, old⟩ := update_eq_some found
    · obtain ⟨before, foundBefore, rfl⟩ := Option.map_eq_some_iff.mp changed
      rw [kept]
      exact untouched.clean _ _ foundBefore
    · exact untouched.clean _ _ old
  · have empty := untouched.backed (pager ▸ absent)
    rw [core, empty _, Option.map_none]
    by_cases same : addr = page
    · rw [same, update_self]
    · rw [update_of_ne same, empty _]

theorem Untouched.hit (hit : PageHit cache next page) :
    Untouched next :=
  untouched.changed hit.core (fun _ => rfl) (by rw [hit.rest])

theorem Untouched.unpin (run : pageUnpin cache page = .ok next) :
    Untouched next := by
  rw [pageUnpin_eq] at run
  obtain ⟨-, rest, -⟩ := update_rest run
  exact untouched.changed (update_coreOf run (fun read => { read with
    refcount := if read.refcount > 0 then read.refcount - 1 else read.refcount }) fun _ => rfl)
    (fun _ => rfl) (by rw [rest])

theorem Untouched.dropped (dropped : PageDropped cache next page) :
    Untouched next := by
  have pager : next.pager = cache.pager := by rw [dropped.rest]
  refine ⟨fun addr read found => ?_, fun absent addr => ?_⟩
  · rw [dropped.core] at found
    obtain ⟨-, old⟩ := update_none_eq_some found
    exact untouched.clean _ _ old
  · rw [dropped.core]
    by_cases same : addr = page
    · rw [same, update_self]
    · rw [update_of_ne same, untouched.backed (pager ▸ absent) _]

theorem Untouched.evict
    (run : evictLruPage cache = .ok (done, next)) : Untouched next := by
  rcases evictLruPage_cases run with ⟨-, -, rfl⟩ | ⟨victim, -, read, written, found, write, finish⟩
  · exact untouched
  · rw [untouched.writeBack found] at write
    cases write
    exact untouched.dropped (dropPage_spec finish)

theorem Untouched.load {pager : Pager}
    (run : loadPage cache pager pageId = .ok (result, next)) : Untouched next := by
  obtain ⟨after, -, -, failed⟩ | ⟨data, after, -, -, loaded⟩ := loadPage_cases run
  · refine ⟨fun addr read found => ?_, fun absent => ?_⟩
    · exact untouched.clean _ _ (failed.core ▸ found)
    · rw [failed.rest] at absent
      cases absent
  · refine ⟨fun addr read found => ?_, fun absent => ?_⟩
    · rw [loaded.core] at found
      obtain ⟨-, new⟩ | ⟨-, old⟩ := update_eq_some found
      · rw [← Option.some.inj new]
        rfl
      · exact untouched.clean _ _ old
    · rw [loaded.rest] at absent
      cases absent

theorem Untouched.get
    (run : pageCacheGet cache pageId = .ok (result, next)) : Untouched next := by
  have missed : Untouched { cache with missCount := cache.missCount + 1 } :=
    ⟨untouched.clean, untouched.backed⟩
  rcases pageCacheGet_cases run with ⟨page, -, -, hit⟩ | ⟨-, -, -, rfl⟩ |
    ⟨-, -, done, room, making, finish⟩
  · exact untouched.hit (hitPage_spec hit)
  · exact missed
  · have roomy := (makeRoom_invariant _
      (fun _ _ _ untouched evict => untouched.evict evict) making missed).1
    cases done with
    | false =>
      obtain ⟨-, rfl⟩ := finish
      exact roomy
    | true =>
      obtain ⟨pager, -, load⟩ := finish
      exact roomy.load load

end

end Untouched

/-! ### Returning -/

/-- What `page_cache_get` is to do: return, and on a miss in a full cache return `NULL` with every
page still resident, or evict one page that is not pinned and no other. -/
def GetAnswers (cache : PageCache) (pageId : UInt32) : Prop :=
  ∃ result next, pageCacheGet cache pageId = .ok (result, next) ∧
    (hashFind cache pageId = .ok none → cache.maxPages ≤ cache.count →
      ((∀ page, cache.heap.Live page → ¬unpinned cache.heap page) →
        result = none ∧ ∀ page, next.heap.Live page ↔ cache.heap.Live page) ∧
      ((∃ page, unpinned cache.heap page) →
        ∃ victim, unpinned cache.heap victim ∧ ¬next.heap.Live victim ∧
          ∀ page, cache.heap.Live page → page ≠ victim → next.heap.Live page))

/-- In a full cache the page at the head is the only one that is not pinned, and the page that is
missing can be read. -/
def HeadVictim (cache : PageCache) (pageId : UInt32) : Prop :=
  hashFind cache pageId = .ok none ∧ cache.maxPages ≤ cache.count ∧
    (∃ head, cache.lruHead = some head ∧ ∀ page, unpinned cache.heap page ↔ page = head) ∧
    ∃ pager, cache.pager = some pager ∧ (pagerReadPage pager pageId).1 ≠ none

section Returning

variable {cache next : PageCache} {bucket : Nat → List Addr} {order : List Addr} {pageId : UInt32}
  {pager : Pager}

/-- A full cache in which nothing is dirty evicts its victim, if there is one. -/
theorem CacheSound.makeRoom_full (sound : CacheSound cache bucket order)
    (untouched : Untouched cache) (full : cache.maxPages ≤ cache.count) :
    (findVictim cache = .ok none ∧
      makeRoom (cache.count - cache.maxPages + 1).toNat cache = .ok (false, cache)) ∨
    ∃ victim room, findVictim cache = .ok (some victim) ∧ PageDropped cache room victim ∧
      makeRoom (cache.count - cache.maxPages + 1).toNat cache = .ok (true, room) := by
  obtain ⟨fuel, enough⟩ : ∃ fuel, (cache.count - cache.maxPages + 1).toNat = fuel + 1 :=
    Nat.exists_eq_add_one_of_ne_zero (by omega)
  rw [enough, makeRoom, if_pos full]
  have search := sound.lru.findVictim
  cases found : order.reverse.find? (unpinned cache.heap) with
  | none =>
    rw [found] at search
    refine Or.inl ⟨search, ?_⟩
    simp only [evictLruPage, search, ok_bind, pure_eq_ok]
  | some victim =>
    rw [found] at search
    have live := unpinned_live (findVictim_unpinned search)
    obtain ⟨read, cell⟩ := Heap.live_iff.mp live
    obtain ⟨room, drop, dropped⟩ : Ensures .must _ _ :=
      dropPage_ensures live fun _ => ⟨⟨bucket, sound.hash⟩, sound.lru.linksLive⟩
    refine Or.inr ⟨victim, room, search, dropped, ?_⟩
    have evict : evictLruPage cache = .ok (true, room) := by
      simp only [evictLruPage, search, ok_bind, Heap.load_eq_ok.mpr cell, untouched.writeBack cell,
        drop, pure_eq_ok]
    have positive := sound.count_pos live
    have capacity := sound.capacity
    have roomy : room.count < room.maxPages := by
      rw [dropped.rest]
      simp only
      omega
    simp only [evict, ok_bind, makeRoom_of_room _ roomy]

theorem loadPage_of_failed {after : Pager} (reading : pagerReadPage pager pageId = (none, after)) :
    ∃ next, loadPage cache pager pageId = .ok (none, next) := by
  have live : (cache.heap.alloc (pageAlloc pageId)).Live cache.heap.next :=
    Heap.live_of_eq (Heap.alloc_cell_next _ _)
  simp only [loadPage, reading, Heap.free_eq_ok.mpr ⟨live, rfl⟩]
  exact ⟨_, rfl⟩

/-- A load returns unless the page was read and the head of the list is a freed page. -/
theorem loadPage_returns_iff (sound : HashSound cache bucket)
    (old : ∀ addr, cache.lruHead = some addr → addr < cache.heap.next) :
    (∃ result next, loadPage cache pager pageId = .ok (result, next)) ↔
      ((pagerReadPage pager pageId).1 ≠ none →
        ∀ addr, cache.lruHead = some addr → cache.heap.Live addr) := by
  cases reading : pagerReadPage pager pageId with
  | mk data after =>
    cases data with
    | none =>
      obtain ⟨next, run⟩ : ∃ next, loadPage cache pager pageId = .ok (none, next) :=
        loadPage_of_failed reading
      exact ⟨fun _ impossible => absurd rfl impossible, fun _ => ⟨none, next, run⟩⟩
    | some data =>
      constructor
      · rintro ⟨result, next, run⟩ - addr head
        obtain ⟨-, loaded⟩ := loadPage_ok reading run
        exact (loaded.headLive _ head).resolve_right (Nat.ne_of_lt (old _ head))
      · intro live
        obtain ⟨⟨result, next⟩, run, -⟩ : Ensures .must _ _ := loadPage_ensures reading fun _ =>
          ⟨⟨bucket, sound⟩, live (Option.some_ne_none _)⟩
        exact ⟨_, next, run⟩

/-- A load leaves the older pages resident or freed as they are. -/
theorem loadPage_live (run : loadPage cache pager pageId = .ok (result, next))
    (old : page < cache.heap.next) : next.heap.Live page ↔ cache.heap.Live page := by
  rw [live_iff_coreOf, live_iff_coreOf]
  obtain ⟨after, -, -, failed⟩ | ⟨data, after, -, -, loaded⟩ := loadPage_cases run
  · rw [failed.core]
  · rw [loaded.core, update_of_ne (Nat.ne_of_lt old)]

theorem PageDropped.live_iff (dropped : PageDropped cache next victim) (page : Addr) :
    next.heap.Live page ↔ cache.heap.Live page ∧ page ≠ victim := by
  rw [live_iff_coreOf, live_iff_coreOf, dropped.core]
  by_cases same : page = victim
  · rw [same]
    simp
  · rw [update_of_ne same]
    simp [same]

/-- With a victim in a full cache the call returns unless it evicts the head. -/
theorem CacheSound.getAnswers_victim {room : PageCache} (sound : CacheSound cache bucket order)
    (search : hashFind cache pageId = .ok none) (full : cache.maxPages ≤ cache.count)
    (attached : cache.pager = some pager) (found : findVictim cache = .ok (some victim))
    (dropped : PageDropped { cache with missCount := cache.missCount + 1 } room victim)
    (run : pageCacheGet cache pageId = loadPage room pager pageId) :
    GetAnswers cache pageId ↔ ¬HeadVictim cache pageId := by
  have free := findVictim_unpinned found
  have head : room.lruHead = cache.lruHead := by rw [dropped.rest]
  have size : room.heap.next = cache.heap.next := dropped.size
  have headLive := sound.lru.linksLive.head
  have hash := dropped.hashSound _ sound.missed.hash
  have returns : (∃ result next, loadPage room pager pageId = .ok (result, next)) ↔ _ :=
    loadPage_returns_iff hash fun addr first => size ▸ (headLive _ (head ▸ first)).lt_next
  have spared : (∀ addr, room.lruHead = some addr → room.heap.Live addr) ↔
      cache.lruHead ≠ some victim := by
    rw [head]
    refine ⟨fun live first => ((dropped.live_iff _).mp (live _ first)).2 rfl,
      fun other addr first => (dropped.live_iff _).mpr ⟨headLive _ first, ?_⟩⟩
    rintro rfl
    exact other first
  have risky : HeadVictim cache pageId ↔
      ¬((pagerReadPage pager pageId).1 ≠ none → cache.lruHead ≠ some victim) := by
    rw [HeadVictim, ← sound.lru.victim_at_head found, Classical.not_imp, not_not, and_comm]
    constructor
    · rintro ⟨⟨-, atHead, other, same, readable⟩, -⟩
      rw [attached] at same
      cases same
      exact ⟨readable, atHead⟩
    · rintro ⟨readable, atHead⟩
      exact ⟨⟨full, atHead, pager, attached, readable⟩, search⟩
  rw [risky, not_not, ← spared, ← returns, ← run]
  refine ⟨fun ⟨result, next, got, _⟩ => ⟨result, next, got⟩, fun ⟨result, next, got⟩ => ?_⟩
  refine ⟨result, next, got, fun _ _ => ⟨fun pinned => ?_, fun _ => ⟨victim, free, ?_, ?_⟩⟩⟩
  · exact absurd free (pinned _ (unpinned_live free))
  · rw [run] at got
    rw [loadPage_live got (size ▸ (unpinned_live free).lt_next), dropped.live_iff]
    exact fun kept => kept.2 rfl
  · intro page live other
    rw [run] at got
    exact (loadPage_live got (size ▸ live.lt_next)).mpr ((dropped.live_iff _).mpr ⟨live, other⟩)

/-- While the lists are lists the call returns unless it evicts the head. -/
theorem CacheSound.getAnswers_iff (sound : CacheSound cache bucket order)
    (untouched : Untouched cache) (pageId : UInt32) :
    GetAnswers cache pageId ↔ ¬HeadVictim cache pageId := by
  rcases sound.hash.find pageId with ⟨page, read, found, rfl, search⟩ | ⟨absent, search⟩
  · obtain ⟨next, got, -⟩ := pageCacheGet_hit sound.hash sound.lru.linksLive found
    refine iff_of_true ⟨some _, next, got, fun missing => ?_⟩ fun ⟨missing, _⟩ => ?_
    · rw [search] at missing
      cases missing
    · rw [search] at missing
      cases missing
  · cases attached : cache.pager with
    | none =>
      refine iff_of_true ⟨_, _, pageCacheGet_detached search attached, fun _ _ => ?_⟩ ?_
      · refine ⟨fun _ => ⟨rfl, fun _ => Iff.rfl⟩, fun ⟨page, free⟩ => ?_⟩
        have live := live_iff_coreOf.mp (unpinned_live free)
        rw [untouched.backed attached _] at live
        cases live
      · rintro ⟨-, -, -, pager, present, -⟩
        rw [attached] at present
        cases present
    | some pager =>
      have present : cache.pager ≠ none := attached ▸ Option.some_ne_none _
      by_cases full : cache.maxPages ≤ cache.count
      · have missed : Untouched { cache with missCount := cache.missCount + 1 } :=
          ⟨untouched.clean, untouched.backed⟩
        rcases sound.missed.makeRoom_full missed full with
          ⟨none, making⟩ | ⟨victim, room, found, dropped, making⟩
        · have pinned := sound.lru.no_victim none
          refine iff_of_true ⟨_, _, pageCacheGet_full search present making, fun _ _ => ?_⟩ ?_
          · refine ⟨fun _ => ⟨rfl, fun _ => Iff.rfl⟩, fun ⟨page, free⟩ => ?_⟩
            rw [pinned _] at free
            cases free
          · rintro ⟨-, -, ⟨head, -, only⟩, -⟩
            have free := (only head).mpr rfl
            rw [pinned _] at free
            cases free
        · have kept : room.pager = some pager := by
            rw [dropped.rest]
            exact attached
          exact sound.getAnswers_victim search full attached found dropped
            (pageCacheGet_room search present making kept)
      · have load := pageCacheGet_room search present
          (makeRoom_of_room _ (Int.not_le.mp full)) attached
        have headLive := sound.missed.lru.linksLive.head
        obtain ⟨result, next, got⟩ := (loadPage_returns_iff sound.missed.hash fun addr first =>
          (headLive _ first).lt_next).mpr fun _ => headLive
        exact iff_of_true ⟨result, next, load.trans got, fun _ filled => absurd filled full⟩
          fun risky => full risky.2.1

end Returning

/-! ### Runs -/

/-- The calls of a client that only reads. -/
def CacheOp.Reads : CacheOp → Prop
  | .get _ => True
  | .unpin _ => True
  | _ => False

theorem Untouched.step {next : PageCache} {op : CacheOp} (untouched : Untouched cache)
    (reads : op.Reads) (run : runOp cache op = .ok next) : Untouched next := by
  cases op with
  | get pageId =>
    simp only [runOp, bind_eq_ok] at run
    obtain ⟨⟨result, after⟩, run, same⟩ := run
    cases same
    exact untouched.get run
  | unpin page => exact untouched.unpin run
  | markDirty page => exact reads.elim
  | flush => exact reads.elim
  | evict pageId => exact reads.elim

/-- In every state that calls of `page_cache_get` and `page_unpin` reach without moving or evicting
an end of the list, the next call returns and evicts as it should unless it evicts the head. -/
theorem page_cache_get_answers_iff {defaultCacheSize maxPages : Int} {pager : Option Pager}
    {cache : PageCache}
    (run : ReflTransGen (CacheStep fun cache op => op.Reads ∧ StepSafe cache op)
      (pageCacheCreate defaultCacheSize maxPages pager) cache) (pageId : UInt32) :
    GetAnswers cache pageId ↔ ¬HeadVictim cache pageId := by
  obtain ⟨untouched, bucket, order, sound⟩ := run_invariant
    (fun cache => Untouched cache ∧ ∃ bucket order, CacheSound cache bucket order)
    (fun _ _ ⟨_, guard, step⟩ ⟨untouched, _, _, sound⟩ =>
      ⟨untouched.step guard.1 step, sound.step guard.2 step⟩) run
    ⟨⟨nofun, fun _ _ => rfl⟩, _, _, created_cacheSound _ _ _⟩
  exact sound.getAnswers_iff untouched _

/-- With its only page pinned a cache for one page answers a miss. -/
theorem page_cache_get_answers_iff_pinned : ∃ pager cache,
    pageCacheGet (pageCacheCreate 256 1 (some pager)) 1 = .ok (some 0, cache) ∧
      GetAnswers cache 2 := by
  obtain ⟨cache, get, head, pinned⟩ : ∃ cache,
      pageCacheGet (pageCacheCreate 256 1 (some onePage)) 1 = .ok (some 0, cache) ∧
        cache.lruHead = some 0 ∧ ¬unpinned cache.heap 0 := by
    decide +kernel
  refine ⟨onePage, cache, get, (page_cache_get_answers_iff
    (.single ⟨.get 1, ⟨trivial, created_stepSafe ..⟩, by rw [runOp, get]; rfl⟩) 2).mpr ?_⟩
  rintro ⟨-, -, ⟨first, same, only⟩, -⟩
  exact pinned ((only 0).mpr (Option.some.inj (head.symm.trans same)))

/-- Getting page 1 twice in a cache for one page makes the page its own predecessor; the search
for a victim then never ends. -/
theorem third_get_diverges : ∃ pager first second,
    pageCacheGet (pageCacheCreate 256 1 (some pager)) 1 = .ok (some 0, first) ∧
      pageCacheGet first 1 = .ok (some 0, second) ∧
      pageCacheGet second 2 = .error .diverges := by
  refine ⟨onePage, ?_⟩
  simp only [exists_and_left]
  decide +kernel

end TinyDb

/-
This file proves when the list of recently used pages stays a list.

Following the forward links from the head must visit every resident page once and
end at the tail, with the backward links leading the same way back. Taking a page
out of the list relinks its neighbours but never the two ends that the cache
holds. So an operation keeps the list exactly when the page it moves or removes
is at neither end. A hit on the page at the head makes that page its own
successor; a hit on the page at the tail leaves the tail behind at the front; and
after the eviction of a page at an end that end points to freed memory.
-/

import TinyDb.CacheOps
import TinyDb.Freelist
import TinyDb.Lib.Run

namespace TinyDb

open Heaps Chains Runs Relation List Function

variable {pageId : UInt32} {pager : Pager} {done : Bool} {result : Option Addr} {after : List Addr}

/-! ### The representation -/

/-- The list visits exactly the live pages, in this order. -/
structure LruSound (cache : PageCache) (order : List Addr) : Prop where
  linked : Linked (link Page.lruNext cache.heap) (link Page.lruPrev cache.heap)
    cache.lruHead cache.lruTail order
  members : ∀ addr, addr ∈ order ↔ cache.heap.Live addr

/-- Both lists and the page count agree on the resident pages. -/
structure CacheSound (cache : PageCache) (bucket : Nat → List Addr) (order : List Addr) : Prop where
  hash : HashSound cache bucket
  lru : LruSound cache order
  counted : cache.count = order.length
  capacity : cache.count ≤ max 0 cache.maxPages

/-- The page is at neither end of the list. -/
def Inner (cache : PageCache) (page : Addr) : Prop :=
  cache.lruHead ≠ some page ∧ cache.lruTail ≠ some page

section Steps

variable {cache next : PageCache} {bucket : Nat → List Addr} {order : List Addr} {page : Addr}

/-- What touches neither links nor page numbers keeps both lists. -/
theorem CacheSound.sameShape (sound : CacheSound cache bucket order) (same : SameShape cache next) :
    CacheSound next bucket order := by
  refine ⟨sound.hash.sameShape same, ⟨?_, fun addr => ?_⟩, ?_, ?_⟩
  · rw [same.lruNext, same.lruPrev, same.rest]
    exact sound.lru.linked
  · rw [same.live_iff, sound.lru.members]
  · rw [same.rest]
    exact sound.counted
  · rw [same.rest]
    exact sound.capacity

theorem inner_iff_links (sound : LruSound cache order) (live : cache.heap.Live page) :
    Inner cache page ↔
      link Page.lruPrev cache.heap page ≠ none ∧ link Page.lruNext cache.heap page ≠ none := by
  have member := (sound.members _).mpr live
  rw [Inner, ← sound.linked.prev_ne_none_iff member, ← sound.linked.next_ne_none_iff member]

/-- A page taken out from inside the list leaves a list with the same ends. -/
theorem LruSound.unlinked (sound : LruSound cache order) (live : cache.heap.Live page)
    (inner : Inner cache page) :
    Linked (unlink (link Page.lruNext cache.heap) (link Page.lruPrev cache.heap) page)
      (unlink (link Page.lruPrev cache.heap) (link Page.lruNext cache.heap) page)
      cache.lruHead cache.lruTail (order.erase page) := by
  obtain ⟨before, after⟩ := (inner_iff_links sound live).mp inner
  have unlinked := sound.linked.unlinked ((sound.members _).mpr live)
  rw [if_neg before, if_neg after] at unlinked
  exact unlinked

theorem LruSound.linksLive (sound : LruSound cache order) : LinksLive cache where
  next page addr found := by
    have live : cache.heap.Live page := by
      by_contra dead
      rw [link_of_dead dead] at found
      cases found
    exact (sound.members _).mp (sound.linked.next_mem ((sound.members _).mpr live) found)
  prev page _ found := by
    have live : cache.heap.Live page := by
      by_contra dead
      rw [link_of_dead dead] at found
      cases found
    exact (sound.members _).mp (sound.linked.prev_mem ((sound.members _).mpr live) found)
  head _ found := (sound.members _).mp (sound.linked.head_mem found)

/-- A hit inside the list moves the page to the front. -/
theorem PageHit.sound (hit : PageHit cache next page) (sound : CacheSound cache bucket order)
    (live : cache.heap.Live page) (inner : Inner cache page) :
    CacheSound next bucket (page :: order.erase page) := by
  have member := (sound.lru.members _).mpr live
  have nodup := sound.lru.linked.nodup
  have pushed := (sound.lru.unlinked live inner).pushed nodup.not_mem_erase
  refine ⟨hit.hashSound sound.hash, ⟨?_, fun addr => ?_⟩, ?_, ?_⟩
  · rw [hit.lruNext, hit.lruPrev, hit.rest]
    exact pushed
  · rw [hit.live_iff, ← sound.lru.members, (perm_cons_erase member).mem_iff]
  · rw [(perm_cons_erase member).symm.length_eq, ← sound.counted, hit.rest]
  · rw [hit.rest]
    exact sound.capacity

/-- Dropping a page from inside the list. -/
theorem PageDropped.sound (dropped : PageDropped cache next page)
    (sound : CacheSound cache bucket order) (live : cache.heap.Live page)
    (inner : Inner cache page) :
    CacheSound next (fun idx => (bucket idx).erase page) (order.erase page) := by
  have member := (sound.lru.members _).mpr live
  have nodup := sound.lru.linked.nodup
  have length : (order.length : Int) = (order.erase page).length + 1 := by
    rw [(perm_cons_erase member).length_eq]
    simp
  have count : next.count = cache.count - 1 := by rw [dropped.rest]
  have maxPages : next.maxPages = cache.maxPages := by rw [dropped.rest]
  refine ⟨dropped.hashSound _ sound.hash, ⟨?_, fun addr => ?_⟩, ?_, ?_⟩
  · rw [dropped.lruNext, dropped.lruPrev, dropped.rest]
    exact sound.lru.unlinked live inner
  · rw [nodup.mem_erase_iff, sound.lru.members, live_iff_coreOf, live_iff_coreOf, dropped.core]
    by_cases same : addr = page
    · subst same
      simp
    · rw [update_of_ne same]
      exact and_iff_right same
  · rw [count, sound.counted]
    omega
  · have capacity := sound.capacity
    omega

/-- Loading a page below capacity puts it at the front. -/
theorem PageLoaded.sound {data : PageData} (loaded : PageLoaded cache next pageId data pager)
    (sound : CacheSound cache bucket order)
    (fresh : ∀ addr read, coreOf cache.heap addr = some read → read.id ≠ pageId)
    (room : cache.count < cache.maxPages) :
    CacheSound next (Function.update bucket (hashPageId pageId cache.tableSize)
      (cache.heap.next :: bucket (hashPageId pageId cache.tableSize)))
      (cache.heap.next :: order) := by
  have notMember : cache.heap.next ∉ order := fun member =>
    cache.heap.not_live_next ((sound.lru.members _).mp member)
  have count : next.count = cache.count + 1 := by rw [loaded.rest]
  have maxPages : next.maxPages = cache.maxPages := by rw [loaded.rest]
  refine ⟨loaded.hashSound _ sound.hash fresh, ⟨?_, fun addr => ?_⟩, ?_, ?_⟩
  · rw [loaded.lruNext, loaded.lruPrev, loaded.rest]
    exact sound.lru.linked.pushed notMember
  · rw [mem_cons, sound.lru.members, live_iff_coreOf, live_iff_coreOf, loaded.core]
    by_cases same : addr = cache.heap.next
    · subst same
      simp
    · rw [update_of_ne same]
      exact or_iff_right same
  · rw [count, sound.counted]
    simp
  · rw [maxPages]
    omega

/-! ### Operations -/

/-- The operations of the cache. -/
inductive CacheOp
  | get (pageId : UInt32)
  | unpin (page : Addr)
  | markDirty (page : Addr)
  | flush
  | evict (pageId : UInt32)

variable {op : CacheOp}

/-- The cache after an operation. -/
def runOp (cache : PageCache) : CacheOp → Except Fault PageCache
  | .get pageId => do return (← pageCacheGet cache pageId).2
  | .unpin page => pageUnpin cache page
  | .markDirty page => pageMarkDirty cache page
  | .flush => do return (← pageCacheFlush cache).2
  | .evict pageId => do return (← pageCacheEvict cache pageId).2

/-- The page is inside the list, unless its write back fails and it stays. -/
def DropSafe (cache : PageCache) (page : Addr) : Prop :=
  ∀ read, cache.heap.cell page = some read → (writeBack cache read).1 = true → Inner cache page

/-- The page that the operation moves to the front, and the page it removes, are inside the
list. -/
def StepSafe (cache : PageCache) : CacheOp → Prop
  | .get pageId =>
    (∀ page, hashFind cache pageId = .ok (some page) → Inner cache page) ∧
      (hashFind cache pageId = .ok none → cache.pager ≠ none → cache.maxPages ≤ cache.count →
        ∀ victim, findVictim cache = .ok (some victim) → DropSafe cache victim)
  | .evict pageId => ∀ page read, hashFind cache pageId = .ok (some page) →
      cache.heap.cell page = some read → ¬read.refcount > 0 → DropSafe cache page
  | _ => True

theorem CacheSound.count_pos (sound : CacheSound cache bucket order) (live : cache.heap.Live page) :
    0 < cache.count := by
  rw [sound.counted]
  exact_mod_cast length_pos_of_mem ((sound.lru.members _).mpr live)

/-- An eviction inside the list keeps the lists. -/
theorem Evicts.sound (evicts : Evicts cache page done next) (sound : CacheSound cache bucket order)
    (safe : DropSafe cache page) :
    (∃ bucket order, CacheSound next bucket order) ∧
      (done = true → next.count < next.maxPages) := by
  obtain ⟨read, written, found, write, finish⟩ := evicts
  obtain ⟨rest, -⟩ := writeBack_rest write
  have kept := sound.sameShape (writeBack_sameShape write)
  have heap : written.heap = cache.heap := by rw [rest]
  cases done with
  | false =>
    obtain rfl := finish
    exact ⟨⟨bucket, order, kept⟩, nofun⟩
  | true =>
    have live := Heap.live_of_eq found
    have inner : Inner written page := by
      rw [rest]
      exact safe _ found (by rw [write])
    have dropped := dropPage_spec finish
    refine ⟨⟨_, _, dropped.sound kept (heap ▸ live) inner⟩, fun _ => ?_⟩
    have positive := sound.count_pos live
    have capacity := sound.capacity
    have count : next.count = cache.count - 1 := by rw [dropped.rest, rest]
    have maxPages : next.maxPages = cache.maxPages := by rw [dropped.rest, rest]
    omega

/-- Making room evicts at most one page. -/
theorem CacheSound.makeRoom_once (sound : CacheSound cache bucket order)
    (safe : ∀ victim, cache.maxPages ≤ cache.count → findVictim cache = .ok (some victim) →
      DropSafe cache victim)
    (run : makeRoom (cache.count - cache.maxPages + 1).toNat cache = .ok (done, next)) :
    (∃ bucket order, CacheSound next bucket order) ∧
      (done = true → next.count < next.maxPages) := by
  by_cases full : cache.maxPages ≤ cache.count
  · obtain ⟨fuel, enough⟩ : ∃ fuel, (cache.count - cache.maxPages + 1).toNat = fuel + 1 :=
      Nat.exists_eq_add_one_of_ne_zero (by omega)
    rw [enough, makeRoom, if_pos full] at run
    simp only [bind_eq_ok] at run
    obtain ⟨⟨evicted, after⟩, evict, run⟩ := run
    rcases evictLruPage_cases evict with ⟨-, rfl, rfl⟩ | ⟨victim, search, evicts⟩
    · obtain ⟨rfl, rfl⟩ := Prod.mk.inj (Except.ok.inj run)
      exact ⟨⟨bucket, order, sound⟩, fun impossible => absurd impossible Bool.false_ne_true⟩
    · obtain ⟨kept, roomy⟩ := evicts.sound sound (safe _ full search)
      cases evicted with
      | false =>
        cases run
        exact ⟨kept, fun impossible => absurd impossible Bool.false_ne_true⟩
      | true =>
        simp only [makeRoom_of_room _ (roomy rfl)] at run
        cases run
        exact ⟨kept, roomy⟩
  · have room := Int.not_le.mp full
    rw [makeRoom_of_room _ room] at run
    cases run
    exact ⟨⟨bucket, order, sound⟩, fun _ => room⟩

theorem CacheSound.missed (sound : CacheSound cache bucket order) :
    CacheSound { cache with missCount := cache.missCount + 1 } bucket order :=
  sound.sameShape (.missed _)

theorem dropSafe_missed_iff :
    DropSafe { cache with missCount := cache.missCount + 1 } page ↔ DropSafe cache page := by
  have same : ∀ read, (writeBack { cache with missCount := cache.missCount + 1 } read).1 =
      (writeBack cache read).1 := by
    intro read
    unfold writeBack
    cases read.isDirty <;> cases cache.pager <;> rfl
  constructor
  · exact fun safe read found written => safe _ found (by rw [same, written])
  · exact fun safe read found written => safe _ found (by rw [← same, written])

/-- `page_cache_get` keeps the lists. -/
theorem CacheSound.get (sound : CacheSound cache bucket order) (safe : StepSafe cache (.get pageId))
    (run : pageCacheGet cache pageId = .ok (result, next)) :
    ∃ bucket order, CacheSound next bucket order := by
  rcases pageCacheGet_cases run with ⟨page, search, rfl, hit⟩ | ⟨-, -, -, rfl⟩ |
    ⟨search, present, done, room, making, finish⟩
  · obtain ⟨read, found, -⟩ := sound.hash.find_some search
    have live : cache.heap.Live page := live_of_coreOf found
    exact ⟨_, _, (hitPage_spec hit).sound sound live (safe.1 _ search)⟩
  · exact ⟨_, _, sound.missed⟩
  · obtain ⟨⟨bucket, order, kept⟩, roomy⟩ := sound.missed.makeRoom_once
      (fun victim full found => dropSafe_missed_iff.mpr (safe.2 search present full _ found))
      making
    cases done with
    | false =>
      obtain ⟨-, rfl⟩ := finish
      exact ⟨bucket, order, kept⟩
    | true =>
      obtain ⟨pager, -, load⟩ := finish
      obtain ⟨after, -, -, failed⟩ | ⟨data, after, -, -, loaded⟩ := loadPage_cases load
      · exact ⟨bucket, order, kept.sameShape failed.sameShape⟩
      · refine ⟨_, _, loaded.sound kept (fun addr read found => ?_) (roomy rfl)⟩
        exact sound.hash.find_none search _ _ (makeRoom_cores making found)

/-- Every safe operation keeps the lists. -/
theorem CacheSound.step (sound : CacheSound cache bucket order) (safe : StepSafe cache op)
    (run : runOp cache op = .ok next) :
    ∃ bucket order, CacheSound next bucket order := by
  cases op with
  | get pageId =>
    simp only [runOp, bind_eq_ok] at run
    obtain ⟨⟨result, after⟩, run, same⟩ := run
    cases same
    exact sound.get safe run
  | unpin page =>
    refine ⟨bucket, order, sound.sameShape (.update run fun read => ?_)⟩
    split <;> rfl
  | markDirty page =>
    exact ⟨bucket, order, sound.sameShape (.update run fun _ => rfl)⟩
  | flush =>
    simp only [runOp, bind_eq_ok] at run
    obtain ⟨⟨total, after⟩, run, same⟩ := run
    cases same
    exact ⟨bucket, order, sound.hash.flush_keeps (CacheSound · bucket _)
      (fun _ _ _ _ sound run => sound.sameShape (flushPage_spec run).sameShape) sound run⟩
  | evict pageId =>
    simp only [runOp, bind_eq_ok] at run
    obtain ⟨⟨done, after⟩, run, same⟩ := run
    cases same
    rcases pageCacheEvict_cases run with ⟨-, -, rfl⟩ | ⟨page, read, search, found, rest⟩
    · exact ⟨bucket, order, sound⟩
    · rcases rest with ⟨-, -, rfl⟩ | ⟨unpinned, evicts⟩
      · exact ⟨bucket, order, sound⟩
      · exact (evicts.sound sound (safe _ _ search found unpinned)).1

/-! ### Operations at the ends -/

/-- An end of the list points to a freed page. -/
def Dangling (cache : PageCache) (page : Addr) : Prop :=
  ¬cache.heap.Live page ∧ (cache.lruHead = some page ∨ cache.lruTail = some page)

theorem Dangling.not_sound (dangling : Dangling cache page) : ¬LruSound cache order := by
  intro sound
  rcases dangling with ⟨dead, head | tail⟩
  · exact dead ((sound.members _).mp (sound.linked.head_mem head))
  · exact dead ((sound.members _).mp (sound.linked.last_mem tail))

theorem not_inner : ¬Inner cache page ↔ cache.lruHead = some page ∨ cache.lruTail = some page := by
  rw [Inner, not_and_or, not_not, not_not]

/-- A hit at an end breaks the list. -/
theorem PageHit.not_sound (hit : PageHit cache next page) (sound : LruSound cache order)
    (live : cache.heap.Live page) (ends : ¬Inner cache page) :
    ¬LruSound next after := by
  intro kept
  have head : next.lruHead = some page := by rw [hit.rest]
  by_cases first : cache.lruHead = some page
  · refine kept.linked.next_ne_self (kept.linked.head_mem head) ?_
    rw [hit.lruNext, update_self, first]
  · have last := (not_inner.mp ends).resolve_left first
    have tail : next.lruTail = some page := by rw [hit.rest, last]; rfl
    have linked := kept.linked
    rw [head, tail] at linked
    have member := (sound.members _).mpr live
    obtain ⟨start, rest, shape⟩ := exists_cons_of_ne_nil (ne_nil_of_mem member)
    have startHead : cache.lruHead = some start := by
      rw [sound.linked.first, shape]
      rfl
    have startMember : start ∈ order := by simp [shape]
    have startLive : next.heap.Live start := by
      have before := (sound.members _).mp startMember
      rw [live_iff_coreOf] at before ⊢
      rw [hit.core, update_of_ne]
      · exact before
      · rintro rfl
        exact first startHead
    have same := linked.eq_of_ends ((kept.members _).mpr startLive)
    exact first (same ▸ startHead)

theorem Evicts.dangling (evicts : Evicts cache page true next) (ends : ¬Inner cache page) :
    Dangling next page := by
  obtain ⟨read, written, found, write, finish⟩ := evicts
  obtain ⟨rest, -⟩ := writeBack_rest write
  have dropped := dropPage_spec finish
  refine ⟨?_, ?_⟩
  · rw [live_iff_coreOf, dropped.core, update_self]
    exact nofun
  · rw [dropped.rest, rest]
    exact not_inner.mp ends

/-- An end that dangles still dangles after a load. -/
theorem Dangling.load (dangling : Dangling cache page) (old : page < cache.heap.next)
    (run : loadPage cache pager pageId = .ok (result, next)) : Dangling next page := by
  obtain ⟨dead, ends⟩ := dangling
  obtain ⟨after, -, -, failed⟩ | ⟨data, after, -, -, loaded⟩ := loadPage_cases run
  · refine ⟨?_, ?_⟩
    · rw [live_iff_coreOf, failed.core, ← live_iff_coreOf]
      exact dead
    · rw [failed.rest]
      exact ends
  · have different : page ≠ cache.heap.next := Nat.ne_of_lt old
    refine ⟨?_, ?_⟩
    · rw [live_iff_coreOf, loaded.core, update_of_ne different, ← live_iff_coreOf]
      exact dead
    · rcases ends with head | tail
      · rcases loaded.headLive page head with live | same
        · exact absurd live dead
        · exact absurd same different
      · rw [loaded.rest, tail]
        exact Or.inr rfl

theorem dropSafe_iff {read : Page} (found : cache.heap.cell page = some read) :
    DropSafe cache page ↔ ((writeBack cache read).1 = true → Inner cache page) := by
  refine ⟨fun safe => safe _ found, fun safe other foundOther => ?_⟩
  rw [found] at foundOther
  cases foundOther
  exact safe

/-- An eviction that is not safe leaves an end dangling. -/
theorem Evicts.dangling_of_risky (evicts : Evicts cache page done next)
    (risky : ¬DropSafe cache page) : done = true ∧ Dangling next page := by
  have evicts' := evicts
  obtain ⟨read, written, found, write, -⟩ := evicts'
  rw [dropSafe_iff found, write, Classical.not_imp] at risky
  obtain ⟨rfl, ends⟩ := risky
  exact ⟨rfl, evicts.dangling ends⟩

/-- Making room with a victim at an end leaves that end dangling. -/
theorem CacheSound.makeRoom_dangling {victim : Addr} (sound : CacheSound cache bucket order)
    (full : cache.maxPages ≤ cache.count) (search : findVictim cache = .ok (some victim))
    (risky : ¬DropSafe cache victim)
    (run : makeRoom (cache.count - cache.maxPages + 1).toNat cache = .ok (done, next)) :
    done = true ∧ Dangling next victim ∧ victim < next.heap.next := by
  obtain ⟨fuel, enough⟩ : ∃ fuel, (cache.count - cache.maxPages + 1).toNat = fuel + 1 :=
    Nat.exists_eq_add_one_of_ne_zero (by omega)
  rw [enough, makeRoom, if_pos full] at run
  simp only [bind_eq_ok] at run
  obtain ⟨⟨evicted, after⟩, evict, run⟩ := run
  rcases evictLruPage_cases evict with ⟨none, -, -⟩ | ⟨found, again, evicts⟩
  · rw [search] at none
    cases none
  · rw [search] at again
    cases (Except.ok.inj again)
    obtain ⟨rfl, dangling⟩ := evicts.dangling_of_risky risky
    obtain ⟨read, written, foundRead, write, finish⟩ := evicts
    obtain ⟨rest, -⟩ := writeBack_rest write
    have dropped := dropPage_spec finish
    have live := Heap.live_of_eq foundRead
    have positive := sound.count_pos live
    have capacity := sound.capacity
    have room : after.count < after.maxPages := by
      rw [dropped.rest, rest]
      simp only
      omega
    simp only [makeRoom_of_room _ room] at run
    cases run
    refine ⟨rfl, dangling, ?_⟩
    rw [dropped.size, rest]
    exact live.lt_next

/-- Every operation that is not safe breaks the list. -/
theorem CacheSound.step_not_sound (sound : CacheSound cache bucket order)
    (risky : ¬StepSafe cache op) (run : runOp cache op = .ok next) :
    ¬LruSound next after := by
  cases op with
  | get pageId =>
    simp only [runOp, bind_eq_ok] at run
    obtain ⟨⟨result, last⟩, run, same⟩ := run
    cases same
    rcases pageCacheGet_cases run with ⟨page, search, rfl, hit⟩ | ⟨search, absent, -, -⟩ |
      ⟨search, present, done, room, making, finish⟩
    · obtain ⟨read, found, -⟩ := sound.hash.find_some search
      have live : cache.heap.Live page := live_of_coreOf found
      refine (hitPage_spec hit).not_sound sound.lru live fun inner => risky ⟨?_, ?_⟩
      · intro other again
        rw [search] at again
        cases (Except.ok.inj again)
        exact inner
      · intro missing
        rw [search] at missing
        cases missing
    · refine absurd ⟨?_, ?_⟩ risky
      · intro page found
        rw [search] at found
        cases found
      · exact fun _ present => absurd absent present
    · obtain ⟨full, victim, found, riskyDrop⟩ : cache.maxPages ≤ cache.count ∧
          ∃ victim, findVictim cache = .ok (some victim) ∧ ¬DropSafe cache victim := by
        by_contra none
        refine risky ⟨?_, fun _ _ full victim found => ?_⟩
        · intro page again
          rw [search] at again
          cases again
        · by_contra drop
          exact none ⟨full, victim, found, drop⟩
      obtain ⟨rfl, dangling, old⟩ := sound.missed.makeRoom_dangling full found
        (fun safe => riskyDrop (dropSafe_missed_iff.mp safe)) making
      obtain ⟨pager, -, load⟩ := finish
      exact (dangling.load old load).not_sound
  | evict pageId =>
    simp only [runOp, bind_eq_ok] at run
    obtain ⟨⟨done, last⟩, run, same⟩ := run
    cases same
    obtain ⟨page, read, search, found, unpinned, riskyDrop⟩ : ∃ page read,
        hashFind cache pageId = .ok (some page) ∧ cache.heap.cell page = some read ∧
          ¬read.refcount > 0 ∧ ¬DropSafe cache page := by
      by_contra none
      refine risky fun page read search found unpinned => ?_
      by_contra drop
      exact none ⟨page, read, search, found, unpinned, drop⟩
    rcases pageCacheEvict_cases run with ⟨missing, -, -⟩ | ⟨other, again, searchOther, foundOther, rest⟩
    · rw [search] at missing
      cases missing
    · rw [search] at searchOther
      cases (Except.ok.inj searchOther)
      rw [found] at foundOther
      cases foundOther
      rcases rest with ⟨pinned, -, -⟩ | ⟨-, evicts⟩
      · exact absurd pinned unpinned
      · exact (evicts.dangling_of_risky riskyDrop).2.not_sound
  | unpin page => exact absurd trivial risky
  | markDirty page => exact absurd trivial risky
  | flush => exact absurd trivial risky

end Steps

/-! ### Runs -/

/-- One operation of a run; the guard restricts the states and operations. -/
def CacheStep (guard : PageCache → CacheOp → Prop) (cache next : PageCache) : Prop :=
  ∃ op, guard cache op ∧ runOp cache op = .ok next

theorem created_cacheSound (defaultCacheSize maxPages : Int) (pager : Option Pager) :
    CacheSound (pageCacheCreate defaultCacheSize maxPages pager) (fun _ => []) [] := by
  have bounds := growTable_bounds (clampMaxPages defaultCacheSize maxPages) 31 16 (by decide)
    (by decide) (clampMaxPages_le _ _)
  have empty : ∀ addr, coreOf (pageCacheCreate defaultCacheSize maxPages pager).heap addr = none :=
    fun _ => rfl
  refine ⟨?_, ⟨.nil, fun addr => ?_⟩, rfl, Int.le_max_left _ _⟩
  · constructor
    case linked => exact fun _ => .nil
    case members =>
      simp [empty]
    case unique => simp [empty]
    case positive => exact bounds.1
    case bounded => exact Nat.lt_trans bounds.2 (by decide)
  · simp [live_iff_coreOf, empty]

/-- A run keeps the lists as long as every operation is safe, and the first operation that is not
safe breaks the list of recently used pages. -/
theorem lru_list_kept {defaultCacheSize maxPages : Int} {pager : Option Pager} {cache : PageCache}
    (run : ReflTransGen (CacheStep StepSafe) (pageCacheCreate defaultCacheSize maxPages pager)
      cache) :
    (∃ order, LruSound cache order ∧
      ∀ addr, addr ∈ order ↔ ∃ pageId, hashFind cache pageId = .ok (some addr)) ∧
    ∀ op next, runOp cache op = .ok next →
      ((∃ order, LruSound next order) ↔ StepSafe cache op) := by
  obtain ⟨bucket, order, sound⟩ := run_invariant
    (fun cache => ∃ bucket order, CacheSound cache bucket order)
    (fun _ _ ⟨_, safe, step⟩ ⟨_, _, sound⟩ => sound.step safe step) run
    ⟨_, _, created_cacheSound _ _ _⟩
  refine ⟨⟨order, sound.lru, fun addr => ?_⟩, fun op next step => ⟨fun ⟨after, kept⟩ => ?_, ?_⟩⟩
  · exact (sound.lru.members _).trans sound.hash.live_iff_find
  · by_contra risky
    exact sound.step_not_sound risky step kept
  · intro safe
    obtain ⟨_, after, kept⟩ := sound.step safe step
    exact ⟨after, kept.lru⟩

/-! ### The shortest run that breaks the list -/

/-- The first page that is got is at no end of the list. -/
theorem created_stepSafe (defaultCacheSize maxPages : Int) (pager : Option Pager)
    (pageId : UInt32) : StepSafe (pageCacheCreate defaultCacheSize maxPages pager) (.get pageId) := by
  refine ⟨fun page found => ?_, fun _ _ _ victim found => nomatch found⟩
  obtain ⟨read, live, -⟩ :=
    (created_cacheSound _ _ _).hash.find_some found
  cases live

theorem stepSafe_of_miss (search : hashFind cache pageId = .ok none)
    (room : cache.count < cache.maxPages) : StepSafe cache (.get pageId) :=
  ⟨fun _ found => (nomatch search.symm.trans found), fun _ _ full => absurd full (not_le.mpr room)⟩

theorem stepSafe_of_hit (search : hashFind cache pageId = .ok (some page))
    (inner : Inner cache page) : StepSafe cache (.get pageId) :=
  ⟨fun _ found => Option.some.inj (Except.ok.inj (search.symm.trans found)) ▸ inner,
    fun missing => (nomatch search.symm.trans missing)⟩

/-- The pages 1, 2 and 3 are got, and then page 2 again, which is inside the list. -/
theorem lru_list_kept_four_gets : ∃ pager first second third last,
    pageCacheGet (pageCacheCreate 256 4 (some pager)) 1 = .ok (some 0, first) ∧
      pageCacheGet first 2 = .ok (some 1, second) ∧ pageCacheGet second 3 = .ok (some 2, third) ∧
      pageCacheGet third 2 = .ok (some 1, last) ∧ ∃ order, LruSound last order := by
  generalize pages : (fun pager => (pagerAllocatePage pager).2)^[2] onePage = pager
  obtain ⟨first, one, miss, room, second, two, missTwo, roomTwo, third, three, hit, inner, last, again⟩ :
      ∃ first, pageCacheGet (pageCacheCreate 256 4 (some pager)) 1 = .ok (some 0, first) ∧
        hashFind first 2 = .ok none ∧ first.count < first.maxPages ∧
      ∃ second, pageCacheGet first 2 = .ok (some 1, second) ∧
        hashFind second 3 = .ok none ∧ second.count < second.maxPages ∧
      ∃ third, pageCacheGet second 3 = .ok (some 2, third) ∧
        hashFind third 2 = .ok (some 1) ∧ (third.lruHead ≠ some 1 ∧ third.lruTail ≠ some 1) ∧
      ∃ last, pageCacheGet third 2 = .ok (some 1, last) := by
    subst pages
    decide +kernel
  have step {cache next : PageCache} {pageId : UInt32} {result : Option Addr}
      (safe : StepSafe cache (.get pageId)) (get : pageCacheGet cache pageId = .ok (result, next)) :
      CacheStep StepSafe cache next := ⟨.get pageId, safe, by rw [runOp, get]; rfl⟩
  obtain ⟨⟨order, sound, -⟩, -⟩ := lru_list_kept ((((ReflTransGen.single
    (step (created_stepSafe ..) one)).tail (step (stepSafe_of_miss miss room) two)).tail
    (step (stepSafe_of_miss missTwo roomTwo) three)).tail (step (stepSafe_of_hit hit inner) again))
  exact ⟨_, first, second, third, last, one, two, three, again, order, sound⟩

/-- Getting page 1 twice makes it its own successor. -/
theorem second_get_breaks_list : ∃ pager first second,
    pageCacheGet (pageCacheCreate 256 4 (some pager)) 1 = .ok (some 0, first) ∧
      pageCacheGet first 1 = .ok (some 0, second) ∧
      link Page.lruNext second.heap 0 = some 0 ∧ ¬∃ order, LruSound second order := by
  obtain ⟨first, get, second, again, live, circle⟩ : ∃ first,
      pageCacheGet (pageCacheCreate 256 4 (some onePage)) 1 = .ok (some 0, first) ∧ ∃ second,
        pageCacheGet first 1 = .ok (some 0, second) ∧ second.heap.Live 0 ∧
          link Page.lruNext second.heap 0 = some 0 := by
    decide +kernel
  refine ⟨onePage, first, second, get, again, circle, fun ⟨order, sound⟩ => ?_⟩
  obtain ⟨before, after, rfl⟩ := append_of_mem ((sound.members 0).mpr live)
  have head := (sound.linked.forward _ 0 _ rfl).symm.trans circle
  have once := (nodup_append.mp sound.linked.nodup).2.1
  exact (nodup_cons.mp once).1 (mem_of_mem_head? head)

end TinyDb

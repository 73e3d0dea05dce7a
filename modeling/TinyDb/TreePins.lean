/-
This file proves that the trees give back every pin they take.

Each call of a tree visits pages one after the other: a page is pinned, read or
changed, and unpinned on every way out. A visit leaves the count of every page as
it was, and a page it loads has none; visits compose, so a whole call does the
same. What a visit relies on is that a count goes up and down again. The counter
is an `int` that is incremented without a check and never decremented below zero:
one pin too many makes it negative, and the unpinning leaves it there.
-/

import TinyDb.Pins

namespace TinyDb

open Heaps Chains Runs Relation Option Function

variable {isForward : Bool} {visit : PageData → Except Fault Descent} {result : Option BTreeCursor}
  {key : UInt64}

/-! ### Balanced calls -/

/-- One more pin can be counted for every page of the cache. -/
def Countable (cache : PageCache) : Prop :=
  ∀ page number count, pinsAt cache page = some (number, count) →
    0 ≤ count ∧ count ≠ Int32.maxValue

/-- The pages that were there have their pins, unless they had none and had to make room for the
pages visited; the pages that are new have none. -/
structure Balanced (visits : Nat) (cache next : PageCache) : Prop where
  kept : ∀ page number count, pinsAt cache page = some (number, count) →
    pinsAt next page = some (number, count) ∨
      (pinsAt next page = none ∧ count = 0 ∧ cache.maxPages < cache.count + visits)
  loaded : ∀ page number count, pinsAt cache page = none →
    pinsAt next page = some (number, count) → count = 0

/-- What some visits to pages did to the cache. -/
structure Visited (visits : Nat) (cache next : PageCache) : Prop extends
    Balanced visits cache next where
  hash : ∃ bucket, HashSound next bucket
  size : cache.heap.next ≤ next.heap.next
  maxPages : next.maxPages = cache.maxPages
  count : next.count ≤ cache.count + visits
  fresh : ∀ page pin, pinsAt cache page = none → pinsAt next page = some pin →
    cache.heap.next ≤ page

section Counts

variable {count : Int32}

/-- Pinning and unpinning cancel exactly when the count can take one more pin. -/
theorem unpinCount_add_one_iff :
    unpinCount (count + 1) = count ↔ 0 ≤ count ∧ count ≠ Int32.maxValue := by
  unfold unpinCount
  constructor
  · intro same
    split at same
    · rename_i positive
      have notMax : count ≠ Int32.maxValue := by
        rintro rfl
        exact absurd positive (by decide)
      refine ⟨Int32.not_lt.mp fun negative => ?_, notMax⟩
      have low := Int32.le_toInt count
      rw [Int32.lt_iff_toInt_lt, Int32.toInt_zero] at negative
      rw [gt_iff_lt, Int32.lt_iff_toInt_lt, Int32.toInt_zero, Int32.toInt_add, Int32.toInt_one,
        Int.bmod_eq_of_le (by omega) (by omega)] at positive
      omega
    · exact absurd (Int32.add_eq_left.mp same) (by decide)
  · rintro ⟨nonneg, notMax⟩
    have less := Int32.lt_of_le_of_lt nonneg (lt_add_one_of_ne_max notMax)
    rw [if_pos less, Int32.add_sub_cancel]

end Counts

section Visits

variable {cache middle next : PageCache} {bucket : Nat → List Addr} {first second visits : Nat}
  {pageNum : UInt32} {page : Addr}

theorem HashSound.visited (hash : HashSound cache bucket) : Visited visits cache cache where
  kept _ _ _ pins := Or.inl pins
  loaded _ _ _ dead pins := nomatch dead.symm.trans pins
  hash := ⟨bucket, hash⟩
  size := Nat.le_refl _
  maxPages := rfl
  count := Int.le_add_of_nonneg_right (Int.natCast_nonneg _)
  fresh _ _ dead pins := nomatch dead.symm.trans pins

theorem Visited.mono (visited : Visited first cache next) (more : first ≤ second) :
    Visited second cache next where
  kept page number count pins := by
    have wider : cache.count + first ≤ cache.count + second :=
      Int.add_le_add_left (Int.ofNat_le.mpr more) _
    exact (visited.kept _ _ _ pins).imp_right fun ⟨gone, zero, full⟩ =>
      ⟨gone, zero, Int.lt_of_lt_of_le full wider⟩
  loaded := visited.loaded
  hash := visited.hash
  size := visited.size
  maxPages := visited.maxPages
  count := visited.count.trans (Int.add_le_add_left (Int.ofNat_le.mpr more) _)
  fresh := visited.fresh

theorem Visited.countable (visited : Visited visits cache next) (countable : Countable cache) :
    Countable next := by
  intro page number count pins
  cases before : pinsAt cache page with
  | none =>
    rw [visited.loaded _ _ _ before pins]
    decide
  | some pin =>
    rcases visited.kept page pin.1 pin.2 before with same | ⟨gone, -⟩
    · rw [pins] at same
      rw [(Prod.mk.inj (Option.some.inj same)).2]
      exact countable _ _ _ before
    · rw [gone] at pins
      cases pins

/-- Visits follow each other. A page that is gone does not come back: its address is not handed out
again. -/
theorem Visited.trans (one : Visited first cache middle) (two : Visited second middle next) :
    Visited (first + second) cache next := by
  have wider : cache.count + first ≤ cache.count + (first + second : Nat) := by omega
  have counts : middle.count + second ≤ cache.count + (first + second : Nat) := by
    have := one.count
    omega
  refine ⟨⟨fun page number count pins => ?_, fun page number count dead pins => ?_⟩, two.hash,
    one.size.trans two.size, two.maxPages.trans one.maxPages, two.count.trans counts,
    fun page pin dead pins => ?_⟩
  · rcases one.kept page number count pins with same | ⟨gone, zero, full⟩
    · refine (two.kept _ _ _ same).imp_right fun ⟨gone, zero, full⟩ => ?_
      rw [one.maxPages] at full
      exact ⟨gone, zero, Int.lt_of_lt_of_le full counts⟩
    · refine Or.inr ⟨?_, zero, Int.lt_of_lt_of_le full wider⟩
      cases after : pinsAt next page with
      | none => rfl
      | some pin =>
        have old := Nat.lt_of_lt_of_le (lt_next_of_pinsAt pins) one.size
        exact absurd (two.fresh _ pin gone after) (Nat.not_le.mpr old)
  · cases between : pinsAt middle page with
    | none => exact two.loaded _ _ _ between pins
    | some pin =>
      have zero := one.loaded _ _ _ dead between
      rcases two.kept page pin.1 pin.2 between with same | ⟨gone, -⟩
      · rw [pins] at same
        rw [(Prod.mk.inj (Option.some.inj same)).2, zero]
      · rw [gone] at pins
        cases pins
  · cases between : pinsAt middle page with
    | none => exact one.size.trans (two.fresh _ pin between pins)
    | some pin => exact one.fresh _ pin dead between

/-- A page that could not be pinned. -/
theorem Got.visited (got : Got cache next pageNum none) : Visited 1 cache next where
  kept page number count pins := by
    have kept := got.kept _ _ _ pins
    exact kept.imp_right fun ⟨gone, zero, full⟩ => ⟨gone, zero, Int.lt_add_one_of_le full⟩
  loaded _ _ _ dead pins := absurd (got.loaded _ _ dead pins).1 nofun
  hash := got.hash
  size := got.size
  maxPages := got.maxPages
  count := got.count
  fresh _ pin dead pins := absurd (got.loaded _ pin dead pins).1 nofun

/-- A page is unpinned after nothing was done to any pins. -/
theorem Got.release {held : PageCache} (got : Got cache middle pageNum (some page))
    (countable : Countable cache) (hash : ∃ bucket, HashSound held bucket)
    (pins : pinsAt held = pinsAt middle) (rest : held = { middle with heap := held.heap })
    (size : held.heap.next = middle.heap.next) (run : pageUnpin held page = .ok next) :
    Visited 1 cache next := by
  obtain ⟨bucket, hash⟩ := hash
  have unpinned := pageUnpin_pins run
  rw [pageUnpin_eq] at run
  obtain ⟨-, restNext, sizeNext⟩ := update_rest run
  rw [pins] at unpinned
  have new : ∀ other pin, pinsAt cache other = none → pinsAt next other = some pin →
      pin.2 = 0 ∧ cache.heap.next ≤ other := by
    intro other pin dead after
    rw [unpinned] at after
    obtain ⟨rfl, moved⟩ | ⟨apart, stays⟩ := update_eq_some after
    · obtain ⟨once, alive, rfl⟩ := map_eq_some_iff.mp moved
      obtain ⟨-, one, above⟩ := got.loaded _ _ dead alive
      rw [one]
      exact ⟨rfl, above⟩
    · exact absurd (Option.some.inj (got.loaded _ pin dead stays).1).symm apart
  refine ⟨⟨fun other number count before => ?_, fun other number count dead after => ?_⟩,
    ⟨bucket, hash.update run fun _ => rfl⟩, ?_, ?_, ?_,
    fun other pin dead after => ?_⟩
  · rw [unpinned]
    have kept := got.kept _ _ _ before
    by_cases same : other = page
    · subst same
      rw [if_pos rfl] at kept
      rw [update_self]
      rcases kept with again | ⟨gone, zero, full⟩
      · rw [again, map_some,
          unpinCount_add_one_iff.mpr (countable _ _ _ before)]
        exact Or.inl rfl
      · obtain ⟨found, alive⟩ := got.number _ rfl
        rw [gone] at alive
        cases alive
    · rw [if_neg fun equal => same (Option.some.inj equal).symm] at kept
      rw [update_of_ne same]
      exact kept.imp_right fun ⟨gone, zero, full⟩ => ⟨gone, zero, Int.lt_add_one_of_le full⟩
  · exact (new _ _ dead after).1
  · rw [sizeNext, size]
    exact got.size
  · rw [restNext, rest]
    exact got.maxPages
  · rw [restNext, rest]
    exact got.count
  · exact (new _ pin dead after).2

/-! ### Pinned pages -/

section

variable (hash : HashSound cache bucket) (countable : Countable cache)
include hash countable

theorem HashSound.pinRead {Result : Type} {result : Option Result}
    {body : PageData → Except Fault Result} (run : TinyDb.pinRead cache pageNum body = .ok (result, next)) :
    Visited 1 cache next := by
  simp only [TinyDb.pinRead, bind_eq_ok] at run
  obtain ⟨⟨pinned, middle⟩, get, run⟩ := run
  have got := hash.got get
  cases pinned with
  | none =>
    cases run
    exact got.visited
  | some page =>
    simp only [bind_eq_ok] at run
    obtain ⟨read, -, result, -, released, unpin, same⟩ := run
    cases same
    exact got.release countable got.hash rfl rfl rfl unpin

theorem HashSound.pinWrite {result : Option Bool} {body : PageData → Except Fault (Option PageData)}
    (run : TinyDb.pinWrite cache pageNum body = .ok (result, next)) : Visited 1 cache next := by
  simp only [TinyDb.pinWrite, bind_eq_ok] at run
  obtain ⟨⟨pinned, middle⟩, get, run⟩ := run
  have got := hash.got get
  cases pinned with
  | none =>
    cases run
    exact got.visited
  | some page =>
    simp only [bind_eq_ok] at run
    obtain ⟨read, -, answer, -, run⟩ := run
    cases answer with
    | none =>
      simp only [bind_eq_ok] at run
      obtain ⟨released, unpin, same⟩ := run
      cases same
      exact got.release countable got.hash rfl rfl rfl unpin
    | some data =>
      simp only [bind_eq_ok] at run
      obtain ⟨written, write, marked, mark, released, unpin, same⟩ := run
      cases same
      obtain ⟨_, hashMiddle⟩ := got.hash
      have hashWritten := hashMiddle.update write fun _ => rfl
      have pinsWritten := update_pins write (fun _ => rfl) fun _ => rfl
      obtain ⟨-, restWritten, sizeWritten⟩ := update_rest write
      obtain ⟨-, restMarked, sizeMarked⟩ := update_rest mark
      refine got.release countable
        ⟨_, hashWritten.update mark fun _ => rfl⟩ ?_ ?_
        (sizeMarked.trans sizeWritten) unpin
      · rw [update_pins mark (fun _ => rfl) fun _ => rfl, pinsWritten]
      · rw [restMarked, restWritten]

/-- A descent visits at most one page on every level. -/
theorem HashSound.descend {tree : BTree} {depth : Nat} {stack : List (UInt32 × Nat)}
    {cursor : Option BTreeCursor}
    (run : TinyDb.descend tree isForward visit depth pageNum stack cache = .ok (cursor, next)) :
    Visited depth cache next := by
  induction depth generalizing cache bucket pageNum stack with
  | zero =>
    cases run
    exact hash.visited
  | succ depth inductionHypothesis =>
    simp only [TinyDb.descend, bind_eq_ok] at run
    obtain ⟨⟨result, middle⟩, read, run⟩ := run
    have visited := hash.pinRead countable read
    have enough : 1 ≤ depth + 1 := Nat.le_add_left 1 _
    cases result with
    | none =>
      cases run
      exact visited.mono enough
    | some descent =>
      cases descent with
      | leaf cell isEnd stackCell =>
        cases run
        exact visited.mono enough
      | unknown =>
        cases run
        exact visited.mono enough
      | child page stackCell =>
        obtain ⟨_, hashMiddle⟩ := visited.hash
        rw [Nat.add_comm]
        exact visited.trans (inductionHypothesis hashMiddle (visited.countable countable) run)

end

end Visits

/-! ### The calls of a tree -/

/-- The calls of a tree that pin pages. -/
inductive TreeCall
  | find (tree : BTree) (key : UInt64)
  | first (tree : BTree)
  | last (tree : BTree)
  | next (cursor : BTreeCursor)
  | get (cursor : BTreeCursor)
  | insert (tree : BTree) (key : UInt64) (value : List UInt8)
  | rangeNew (tree : BTree) (startKey endKey : UInt64)
  | create

namespace TreeCall

/-- The cache after a call. -/
def run (cache : PageCache) : TreeCall → Except Fault PageCache
  | .find tree key => do return (← btreeFind cache tree key).2
  | .first tree => do return (← btreeFirst cache tree).2
  | .last tree => do return (← btreeLast cache tree).2
  | .next cursor => do return (← btreeCursorNext cache cursor).2
  | .get cursor => do return (← btreeGet cache cursor).2
  | .insert tree key value => do return (← btreeInsert cache tree key value).2
  | .rangeNew tree startKey endKey => do return (← btreeRangeNew cache tree startKey endKey).2
  | .create => do return (← btreeCreate cache).2

/-- How many pages a call visits at most. -/
def visits : TreeCall → Nat
  | .find .. | .first .. | .last .. => btreeMaxDepth
  | .next .. | .get .. | .create => 1
  | .insert .. => btreeMaxDepth + 1
  | .rangeNew .. => btreeMaxDepth + btreeMaxDepth

end TreeCall

section Calls

variable {cache next : PageCache} {bucket : Nat → List Addr} {tree : BTree} {cursor : BTreeCursor}

section

variable (hash : HashSound cache bucket) (countable : Countable cache)
include hash countable

/-- The calls that descend from the root, if the tree is open. -/
theorem HashSound.fromRoot
    (run : (if tree.isOpen then
        TinyDb.descend tree isForward visit btreeMaxDepth tree.rootPage [] cache
      else pure (none, cache)) = .ok (result, next)) :
    Visited btreeMaxDepth cache next := by
  split at run
  · exact hash.descend countable run
  · obtain ⟨-, rfl⟩ := Prod.mk.inj (Except.ok.inj run)
    exact hash.visited

theorem HashSound.btreeFind
    (run : TinyDb.btreeFind cache tree key = .ok (result, next)) :
    Visited btreeMaxDepth cache next :=
  hash.fromRoot countable run

theorem HashSound.btreeInsert {value : List UInt8} {done : Bool} (run : TinyDb.btreeInsert cache tree key value = .ok (done, next)) :
    Visited (btreeMaxDepth + 1) cache next := by
  simp only [TinyDb.btreeInsert, bind_eq_ok] at run
  obtain ⟨⟨found, middle⟩, find, run⟩ := run
  have visited := hash.btreeFind countable find
  obtain ⟨_, hashMiddle⟩ := visited.hash
  have countableMiddle := visited.countable countable
  cases found with
  | none =>
    cases run
    exact visited.mono (Nat.le_succ _)
  | some cursor =>
    simp only at run
    split at run
    · simp only [bind_eq_ok] at run
      obtain ⟨⟨written, after⟩, write, same⟩ := run
      cases same
      exact visited.trans (hashMiddle.pinWrite countableMiddle write)
    · simp only [bind_eq_ok] at run
      obtain ⟨⟨seen, after⟩, read, same⟩ := run
      cases same
      exact visited.trans (hashMiddle.pinRead countableMiddle read)

theorem HashSound.btreeCreate {created : Option BTree} (run : TinyDb.btreeCreate cache = .ok (created, next)) :
    Visited 1 cache next := by
  have detach : ∀ {pager}, Visited 1 { cache with pager } next → Visited 1 cache next :=
    fun visited => ⟨⟨visited.kept, visited.loaded⟩, visited.hash, visited.size, visited.maxPages,
      visited.count, visited.fresh⟩
  unfold TinyDb.btreeCreate at run
  split at run
  · obtain ⟨-, rfl⟩ := Prod.mk.inj (Except.ok.inj run)
    exact hash.visited
  · split at run
    · obtain ⟨-, rfl⟩ := Prod.mk.inj (Except.ok.inj run)
      exact detach (hash.attach _).visited
    · simp only [bind_eq_ok] at run
      obtain ⟨⟨written, after⟩, write, same⟩ := run
      cases same
      have visited := (hash.attach _).pinWrite (by exact countable) write
      exact detach visited

/-- Every call gives back the pins it takes. -/
theorem HashSound.treeCall {call : TreeCall} (run : call.run cache = .ok next) :
    Visited call.visits cache next := by
  cases call <;> simp only [TreeCall.run, bind_eq_ok] at run <;>
    obtain ⟨⟨result, after⟩, run, same⟩ := run <;> obtain rfl := Except.ok.inj same
  case find tree key => exact hash.btreeFind countable run
  case first tree => exact hash.fromRoot countable run
  case last tree => exact hash.fromRoot countable run
  case next cursor =>
    unfold btreeCursorNext at run
    split at run
    · obtain ⟨-, rfl⟩ := Prod.mk.inj (Except.ok.inj run)
      exact hash.visited
    · simp only [bind_eq_ok] at run
      obtain ⟨⟨header, middle⟩, read, run⟩ := run
      have visited := hash.pinRead countable read
      cases header with
      | none =>
        cases run
        exact visited
      | some header =>
        simp only at run
        split at run
        · obtain ⟨-, rfl⟩ := Prod.mk.inj (Except.ok.inj run)
          exact visited
        · obtain ⟨-, rfl⟩ := Prod.mk.inj (Except.ok.inj run)
          exact visited
  case get cursor =>
    unfold btreeGet at run
    split at run
    · obtain ⟨-, rfl⟩ := Prod.mk.inj (Except.ok.inj run)
      exact hash.visited
    · simp only [bind_eq_ok] at run
      obtain ⟨⟨found, middle⟩, read, same⟩ := run
      cases same
      exact hash.pinRead countable read
  case insert tree key value => exact hash.btreeInsert countable run
  case rangeNew tree startKey endKey =>
    simp only [btreeRangeNew, bind_eq_ok] at run
    obtain ⟨⟨start, middle⟩, findStart, ⟨stop, last⟩, findStop, same⟩ := run
    cases same
    have visited := hash.btreeFind countable findStart
    obtain ⟨_, hashMiddle⟩ := visited.hash
    exact visited.trans (hashMiddle.btreeFind (visited.countable countable) findStop)
  case create => exact hash.btreeCreate countable run

end

end Calls

/-! ### Pins that cannot be counted -/

section Cursors

variable {cache : PageCache} {bucket : Nat → List Addr} {page : Addr} {pageId : UInt32}
  {count : Int32}

/-- A cursor in a leaf of one page. -/
def cursorAt (pageId : UInt32) : BTreeCursor where
  tree := btreeOpen pageId
  page := pageId
  cell := 0
  isEnd := false
  depth := 1
  stack := [(pageId, 0)]
  isForward := true

/-- `btree_cursor_next` on a resident page pins it once and unpins it. -/
theorem HashSound.cursorNext (hash : HashSound cache bucket) (links : LinksLive cache)
    (pins : pinsAt cache page = some (pageId, count)) :
    ∃ moved next, btreeCursorNext cache (cursorAt pageId) = .ok (moved, next) ∧
      pinsAt next page = some (pageId, unpinCount (count + 1)) := by
  rw [pinsAt_eq_core] at pins
  obtain ⟨read, found, same⟩ := map_eq_some_iff.mp pins
  cases same
  obtain ⟨pinned, get, hit⟩ := pageCacheGet_hit hash links found
  have moved : pinsAt pinned page = some (read.id, read.refcount + 1) := by
    rw [hit.pins, update_self, pinsAt_of_core found]
    rfl
  obtain ⟨whole, cell, -⟩ := map_eq_some_iff.mp moved
  obtain ⟨header, reading⟩ := getNodeHeader_returns whole.data
  obtain ⟨next, unpin⟩ : ∃ next, pageUnpin pinned page = .ok next := by
    exact update_of_live (Heap.live_of_eq cell) _
  have visit : TinyDb.pinRead cache read.id getNodeHeader = .ok (some header, next) := by
    simp only [TinyDb.pinRead, get, ok_bind, Heap.load_eq_ok.mpr cell, reading, unpin, pure_eq_ok]
  have after : pinsAt next page = some (read.id, unpinCount (read.refcount + 1)) := by
    rw [pageUnpin_pins unpin, update_self, moved]
    rfl
  have going : (cursorAt read.id).isEnd ≠ true := Bool.false_ne_true
  rw [btreeCursorNext]
  simp only [cursorAt, visit]
  by_cases last : 0 + 1 ≥ header.cellCount.toNat
  · exact ⟨_, next, if_pos last, after⟩
  · exact ⟨_, next, if_neg last, after⟩

/-- The calls of the trees are balanced in exactly the caches in which every page can take one more
pin. -/
theorem pins_balanced_iff (hash : HashSound cache bucket) (links : LinksLive cache) :
    (∀ (call : TreeCall) (next : PageCache), call.run cache = .ok next →
      Balanced call.visits cache next) ↔ Countable cache := by
  constructor
  · intro balanced page number count pins
    obtain ⟨moved, next, run, after⟩ := hash.cursorNext links pins
    have step : (TreeCall.next (cursorAt number)).run cache = .ok next := by
      simp only [TreeCall.run, run, ok_bind, pure_eq_ok]
    rcases (balanced _ next step).kept page number count pins with same | ⟨gone, -⟩
    · rw [after] at same
      exact unpinCount_add_one_iff.mp (Prod.mk.inj (Option.some.inj same)).2
    · rw [after] at gone
      cases gone
  · intro countable call next run
    exact (hash.treeCall countable run).toBalanced

/-- Getting a page again and again counts its pins. -/
theorem repeated_gets (usable : Usable cache) (pins : pinsAt cache page = some (pageId, count))
    (times : Nat) : ∃ next,
      ReflTransGen (fun before after => pageCacheGet before pageId = .ok (some page, after))
        cache next ∧
      Usable next ∧ pinsAt next page = some (pageId, count + Int32.ofNat times) := by
  induction times with
  | zero => exact ⟨cache, .refl, usable, by rw [pins]; simp⟩
  | succ times inductionHypothesis =>
    obtain ⟨before, run, usable, pins⟩ := inductionHypothesis
    obtain ⟨bucket, hash⟩ := usable.hash
    have counted := pins
    rw [pinsAt_eq_core] at counted
    obtain ⟨read, found, same⟩ := map_eq_some_iff.mp counted
    obtain ⟨rfl, -⟩ := Prod.mk.inj same
    obtain ⟨after, get, hit⟩ := pageCacheGet_hit hash usable.links found
    refine ⟨after, run.tail get, (usable.hit hit found).1, ?_⟩
    rw [hit.pins, update_self, pins, map_some, Int32.add_assoc,
      Int32.ofNat_add _ 1]
    rfl

end Cursors

theorem pins_balanced_iff_once : ∃ pager cache moved next,
    pageCacheGet (pageCacheCreate 256 4 (some pager)) 1 = .ok (some 0, cache) ∧
      btreeCursorNext cache (cursorAt 1) = .ok (moved, next) ∧ Balanced 1 cache next := by
  obtain ⟨cache, bucket, order, run, sound, -, size, pins⟩ := first_load_pinned
  obtain ⟨moved, next, step, -⟩ := sound.hash.cursorNext sound.lru.linksLive pins
  have countable : Countable cache := by
    intro page number count pinned
    obtain ⟨read, found, -⟩ := map_eq_some_iff.mp pinned
    obtain rfl : page = 0 := Nat.lt_one_iff.mp (size ▸ (Heap.live_of_eq found).lt_next)
    cases pins.symm.trans pinned
    decide
  have balanced := (pins_balanced_iff sound.hash sound.lru.linksLive).mpr countable
    (.next (cursorAt 1)) next (by simp only [TreeCall.run, step, ok_bind, pure_eq_ok])
  exact ⟨onePage, cache, moved, next, run, step, balanced⟩

/-- A page is pinned as often as can be counted, and visited once more by a tree. -/
theorem overflowing_pin_unbalanced : ∃ pager first full moved next,
    pageCacheGet (pageCacheCreate 256 4 (some pager)) 1 = .ok (some 0, first) ∧
      ReflTransGen (fun before after => pageCacheGet before 1 = .ok (some 0, after)) first full ∧
      pinsAt full 0 = some (1, Int32.maxValue) ∧
      btreeCursorNext full (cursorAt 1) = .ok (moved, next) ∧
      pinsAt next 0 = some (1, Int32.minValue) := by
  obtain ⟨first, bucket, order, run, sound, -, -, pins⟩ := first_load_pinned
  obtain ⟨full, gets, usable, many⟩ :=
    repeated_gets ⟨⟨bucket, sound.hash⟩, sound.lru.linksLive⟩ pins _
  have most : (1 : Int32) + Int32.ofNat 2147483646 = Int32.maxValue := by decide
  rw [most] at many
  obtain ⟨_, hash⟩ := usable.hash
  obtain ⟨moved, next, step, after⟩ := hash.cursorNext usable.links many
  have wrapped : unpinCount (Int32.maxValue + 1) = Int32.minValue := by decide
  exact ⟨onePage, first, full, moved, next, run, gets, many, step, after⟩

end TinyDb

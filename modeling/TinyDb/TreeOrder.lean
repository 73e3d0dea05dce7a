/-
This file compares the order of a scan with the order of the keys.

An insertion puts its pointer behind the other pointers, so that a scan visits the keys
in the order in which they were stored. The keys are in order exactly if they were stored
in order. A search for a key that is not there ends behind the last cell, wherever the key
would belong, so that a range that starts at such a key is empty. A step back from the
first cell stays there, so that a scan backwards never ends.
-/

import Mathlib.Data.List.TakeWhile
import TinyDb.TreeContents

namespace TinyDb

open Heaps BoundedMap List

variable {cursor : BTreeCursor} {entries : List (UInt64 × List UInt8)} {keys : List UInt64}

/-! ### Clients -/

/-- `btree_first` and then `btree_get`. -/
def btreeFirstEntry (cache : PageCache) (tree : BTree) :
    Except Fault (Option (UInt64 × List UInt8) × PageCache) := do
  match ← btreeFirst cache tree with
  | (none, cache) => return (none, cache)
  | (some cursor, cache) => btreeGet cache cursor

/-- `btree_last` and then `btree_get`. -/
def btreeLastEntry (cache : PageCache) (tree : BTree) :
    Except Fault (Option (UInt64 × List UInt8) × PageCache) := do
  match ← btreeLast cache tree with
  | (none, cache) => return (none, cache)
  | (some cursor, cache) => btreeGet cache cursor

/-- A loop of `btree_get` and `btree_cursor_prev` while the cursor is valid. -/
def scanBackLoop : Nat → BTreeCursor → PageCache →
    Except Fault (List (UInt64 × List UInt8) × PageCache)
  | 0, cursor, cache => if btreeCursorValid cursor then .error .diverges else return ([], cache)
  | fuel + 1, cursor, cache => do
    if btreeCursorValid cursor then
      let (entry, cache) ← btreeGet cache cursor
      let (rest, cache) ← scanBackLoop fuel (btreeCursorPrev cursor) cache
      return (entry.toList ++ rest, cache)
    else return ([], cache)

/-- The scan from `btree_last`, in at most so many steps. -/
def btreeScanBack (fuel : Nat) (cache : PageCache) (tree : BTree) :
    Except Fault (List (UInt64 × List UInt8) × PageCache) := do
  match ← btreeLast cache tree with
  | (none, cache) => return ([], cache)
  | (some cursor, cache) => scanBackLoop fuel cursor cache

/-- A loop of `btree_get` and `btree_cursor_next` while the cursor is valid and its key is at most
the end of the range. -/
def rangeLoop (endKey : UInt64) : Nat → BTreeCursor → PageCache →
    Except Fault (List UInt64 × PageCache)
  | 0, cursor, cache => if btreeCursorValid cursor then .error .diverges else return ([], cache)
  | fuel + 1, cursor, cache => do
    if btreeCursorValid cursor then
      match ← btreeGet cache cursor with
      | (some (key, _), cache) =>
        if key ≤ endKey then
          let (cursor, cache) ← btreeCursorNext cache cursor
          let (rest, cache) ← rangeLoop endKey fuel cursor cache
          return (key :: rest, cache)
        else return ([], cache)
      | (none, cache) => return ([], cache)
    else return ([], cache)

/-- The walk over a range from `btree_range_new`; a node has fewer than 2 ^ 16 cells. -/
def btreeRangeScan (cache : PageCache) (tree : BTree) (startKey endKey : UInt64) :
    Except Fault (List UInt64 × PageCache) := do
  let (range, cache) ← btreeRangeNew cache tree startKey endKey
  match range.start with
  | none => return ([], cache)
  | some cursor => rangeLoop endKey 65536 cursor cache

/-! ### Operations on a leaf -/

section Leaf

variable {demand : Demand} {Free : PageCache → View → Prop}
  {Held : PageCache → View → Addr → Prop} {cache : PageCache} {view : View} {tree : BTree}
  {data : PageData} {start : Nat} {cells : List Cell}

section

variable (serves : Serves demand Free Held)
  (free : Free cache view)
  (opened : tree.isOpen = true)
  (root : view tree.rootPage = some data)
  (layout : LeafLayout data start cells)
include serves free opened root layout

theorem Serves.firstEntry :
    Ensures demand (btreeFirstEntry cache tree) fun out =>
      out.1 = cells.head?.map Cell.entry ∧ Free out.2 view := by
  rw [btreeFirstEntry, btreeFirst, if_pos opened]
  refine (serves.descend_leaf free root layout.firstVisit _).bind ?_
  rintro ⟨_, middle⟩ ⟨rfl, free⟩
  refine (serves.get free root layout rfl).mono ?_
  rintro ⟨_, next⟩ ⟨rfl, free⟩
  refine ⟨?_, free⟩
  cases cells <;> rfl

theorem Serves.lastEntry :
    Ensures demand (btreeLastEntry cache tree) fun out =>
      out.1 = cells.getLast?.map Cell.entry ∧ Free out.2 view := by
  rw [btreeLastEntry, btreeLast, if_pos opened]
  refine (serves.descend_leaf free root layout.lastVisit _).bind ?_
  rintro ⟨_, middle⟩ ⟨rfl, free⟩
  refine (serves.get free root layout rfl).mono ?_
  rintro ⟨_, next⟩ ⟨rfl, free⟩
  refine ⟨?_, free⟩
  rw [getLast?_eq_getElem?]
  cases cells <;> rfl

end

/-- The walk visits the keys from its cursor on, up to the first that is past the end. -/
theorem Serves.rangeLoop_leaf (serves : Serves demand Free Held)
    (root : view tree.rootPage = some data) (layout : LeafLayout data start cells) (endKey : UInt64)
    {rest : List Cell} (stands : StandsBefore tree cells rest cursor) {fuel : Nat}
    (free : Free cache view) (bounded : rest.length ≤ fuel) :
    Ensures demand (rangeLoop endKey fuel cursor cache) fun out =>
      out.1 = (rest.map Cell.key).takeWhile (· ≤ endKey) ∧ Free out.2 view := by
  induction rest generalizing cache cursor fuel with
  | nil =>
    have invalid : btreeCursorValid cursor = false := by
      rw [btreeCursorValid, stands.ends]
      rfl
    cases fuel <;>
    · rw [rangeLoop, invalid]
      exact Ensures.ok ⟨rfl, free⟩
  | cons cell rest inductionHypothesis =>
    cases fuel with
    | zero => exact absurd bounded (Nat.not_succ_le_zero _)
    | succ fuel =>
      have valid : btreeCursorValid cursor = true := by
        rw [btreeCursorValid, stands.ends]
        rfl
      rw [rangeLoop, valid, map_cons, takeWhile_cons]
      refine (serves.get_at free root layout stands).bind ?_
      rintro ⟨_, middle⟩ ⟨rfl, free⟩
      simp only [head?_cons, Option.map_some, Cell.entry, decide_eq_true_eq]
      split
      · refine (serves.next_at free root layout stands).bind ?_
        rintro ⟨moved, middle⟩ ⟨stands, free⟩
        refine (inductionHypothesis stands free (Nat.le_of_succ_le_succ bounded)).bind ?_
        rintro ⟨_, last⟩ ⟨rfl, free⟩
        exact Ensures.ok ⟨rfl, free⟩
      · exact Ensures.ok ⟨rfl, free⟩

/-- Where `btree_find` puts the cursor: in front of the key, or behind all cells. -/
theorem findCursor_stands (tree : BTree) (cells : List Cell) (key : UInt64) :
    StandsBefore tree cells (cells.dropWhile (·.key != key)) (findCursor tree cells key) := by
  have behind : cells.dropWhile (·.key != key) = cells.drop (cells.findIdx (·.key == key)) := by
    rw [dropWhile_eq_drop_findIdx_not]
    simp only [bne, Bool.not_not]
  rw [findCursor, behind]
  cases search : cells.findIdx? (·.key == key) with
  | some found =>
    obtain ⟨inside, rfl⟩ := findIdx?_eq_some_iff_findIdx_eq.mp search
    have notEmpty : (cells.drop (cells.findIdx (·.key == key))).isEmpty = false := by
      rw [← Bool.not_eq_true, List.isEmpty_iff, drop_eq_nil_iff]
      exact Nat.not_le.mpr inside
    exact ⟨rfl, rfl, notEmpty.symm⟩
  | none =>
    have absent : cells.findIdx (·.key == key) = cells.length :=
      findIdx_eq_length.mpr (findIdx?_eq_none_iff.mp search)
    rw [absent, drop_length]
    exact ⟨rfl, drop_length, rfl⟩

section

variable (serves : Serves demand Free Held)
  (free : Free cache view)
  (opened : tree.isOpen = true)
  (root : view tree.rootPage = some data)
  (layout : LeafLayout data start cells)
  (startKey endKey : UInt64)
include serves free opened root layout startKey endKey

theorem Serves.rangeNew :
    Ensures demand (btreeRangeNew cache tree startKey endKey) fun out =>
      out.1.start = some (findCursor tree cells startKey) ∧ Free out.2 view := by
  refine (serves.find free opened root layout _).bind ?_
  rintro ⟨_, middle⟩ ⟨rfl, free⟩
  refine (serves.find free opened root layout _).bind ?_
  rintro ⟨_, next⟩ ⟨rfl, free⟩
  exact Ensures.ok ⟨rfl, free⟩

theorem Serves.rangeScan :
    Ensures demand (btreeRangeScan cache tree startKey endKey) fun out =>
      out.1 = ((cells.map Cell.key).dropWhile (· != startKey)).takeWhile (· ≤ endKey) ∧
        Free out.2 view := by
  have stands := findCursor_stands tree cells startKey
  have bounded : (cells.dropWhile (·.key != startKey)).length ≤ 65536 :=
    (dropWhile_sublist _).length_le.trans (layout.length_le.le.trans (by decide))
  rw [dropWhile_map]
  refine (serves.rangeNew free opened root layout _ _).bind ?_
  rintro ⟨⟨_, start, _, _, _⟩, middle⟩ ⟨isStart, free⟩
  obtain rfl : start = _ := isStart
  exact serves.rangeLoop_leaf root layout _ stands free bounded

end

/-- A scan backwards from a cell of the leaf comes to the first cell and stays there. -/
theorem Serves.scanBackLoop_leaf (serves : Serves .must Free Held) (free : Free cache view)
    (root : view tree.rootPage = some data) (layout : LeafLayout data start cells)
    (page : cursor.page = tree.rootPage) (valid : cursor.isEnd = false) (fuel : Nat) :
    scanBackLoop fuel cursor cache = .error .diverges := by
  induction fuel generalizing cache cursor with
  | zero =>
    rw [scanBackLoop, btreeCursorValid, valid]
    rfl
  | succ fuel inductionHypothesis =>
    have stays : (btreeCursorPrev cursor).page = tree.rootPage ∧
        (btreeCursorPrev cursor).isEnd = false := by
      rw [btreeCursorPrev, if_neg (by rw [valid]; exact Bool.false_ne_true)]
      exact ⟨page, valid⟩
    obtain ⟨⟨entry, next⟩, got, -, free⟩ := serves.get free root layout page
    rw [scanBackLoop, btreeCursorValid, valid, Bool.not_false, got, ok_bind]
    simp only [inductionHypothesis free stays.1 stays.2]
    rfl

theorem Serves.scanBack_nil (serves : Serves demand Free Held) (free : Free cache view)
    (opened : tree.isOpen = true) (root : view tree.rootPage = some data)
    (layout : LeafLayout data start []) (fuel : Nat) :
    Ensures demand (btreeScanBack fuel cache tree) fun out => out.1 = [] ∧ Free out.2 view := by
  rw [btreeScanBack, btreeLast, if_pos opened]
  refine (serves.descend_leaf free root layout.lastVisit _).bind ?_
  rintro ⟨_, middle⟩ ⟨rfl, free⟩
  cases fuel <;> exact Ensures.ok ⟨rfl, free⟩

theorem Serves.scanBack_cons {cell : Cell} (serves : Serves .must Free Held)
    (free : Free cache view) (opened : tree.isOpen = true) (root : view tree.rootPage = some data)
    (layout : LeafLayout data start (cell :: cells)) (fuel : Nat) :
    btreeScanBack fuel cache tree = .error .diverges := by
  obtain ⟨⟨_, middle⟩, returned, rfl, free⟩ :=
    serves.descend_leaf free root layout.lastVisit _
  rw [btreeScanBack, btreeLast, if_pos opened, returned]
  exact serves.scanBackLoop_leaf free root layout rfl rfl fuel

end Leaf

/-! ### Operations on what is stored -/

section Operations

variable {tree : BTree} {entries : List (UInt64 × List UInt8)} {cache : PageCache}

theorem TreeHolds.firstEntry (holds : TreeHolds cache tree entries) :
    ∃ next, btreeFirstEntry cache tree = .ok (entries.head?, next) ∧
      TreeHolds next tree entries := by
  refine holds.returns fun resident root layout same => ?_
  rw [← same, head?_map]
  exact resident_serves.firstEntry resident holds.opened root layout

theorem TreeHolds.lastEntry (holds : TreeHolds cache tree entries) :
    ∃ next, btreeLastEntry cache tree = .ok (entries.getLast?, next) ∧
      TreeHolds next tree entries := by
  refine holds.returns fun resident root layout same => ?_
  rw [← same, getLast?_map]
  exact resident_serves.lastEntry resident holds.opened root layout

theorem TreeHolds.rangeScan (holds : TreeHolds cache tree entries) (startKey endKey : UInt64) :
    ∃ next, btreeRangeScan cache tree startKey endKey =
        .ok (((entries.map Prod.fst).dropWhile (· != startKey)).takeWhile (· ≤ endKey), next) ∧
      TreeHolds next tree entries := by
  refine holds.returns fun resident root layout same => ?_
  rw [← same, keys_entries]
  exact resident_serves.rangeScan resident holds.opened root layout _ _

theorem TreeHolds.scanBack_nil (holds : TreeHolds cache tree []) (fuel : Nat) :
    ∃ next, btreeScanBack fuel cache tree = .ok ([], next) ∧ TreeHolds next tree [] := by
  refine holds.returns fun resident root layout same => ?_
  rw [map_eq_nil_iff.mp same] at layout
  exact resident_serves.scanBack_nil resident holds.opened root layout _

/-- A scan backwards ends in an empty tree only. -/
theorem TreeHolds.scanBack_diverges (holds : TreeHolds cache tree entries) (stored : entries ≠ [])
    (fuel : Nat) : btreeScanBack fuel cache tree = .error .diverges := by
  obtain ⟨opened, view, data, start, cells, resident, root, layout, rfl⟩ := holds
  cases cells with
  | nil => exact absurd rfl stored
  | cons cell cells => exact resident_serves.scanBack_cons resident opened root layout _

end Operations

/-! ### Ascending keys -/

/-- A scan from `btree_first` visits the keys in strictly ascending order, `btree_first` is at the
least key and `btree_last` at the greatest. -/
def KeysOrdered (cache : PageCache) (tree : BTree) : Prop :=
  ∃ entries next, btreeScan cache tree = .ok (entries, next) ∧
    (entries.map Prod.fst).Pairwise (· < ·) ∧
    (∃ first next, btreeFirstEntry cache tree = .ok (first, next) ∧ (first = none ↔ entries = []) ∧
      ∀ least ∈ first, least ∈ entries ∧ ∀ entry ∈ entries, least.1 ≤ entry.1) ∧
    ∃ last next, btreeLastEntry cache tree = .ok (last, next) ∧ (last = none ↔ entries = []) ∧
      ∀ greatest ∈ last, greatest ∈ entries ∧ ∀ entry ∈ entries, entry.1 ≤ greatest.1

theorem head_least (ascending : (entries.map Prod.fst).Pairwise (· < ·))
    {least : UInt64 × List UInt8} (isHead : least ∈ entries.head?) :
    least ∈ entries ∧ ∀ entry ∈ entries, least.1 ≤ entry.1 := by
  cases entries with
  | nil => cases isHead
  | cons first rest =>
    cases isHead
    refine ⟨mem_cons_self, fun entry member => ?_⟩
    rcases mem_cons.mp member with rfl | member
    · exact UInt64.le_refl _
    · exact UInt64.le_of_lt ((pairwise_cons.mp ascending).1 _ (mem_map_of_mem member))

theorem getLast_greatest (ascending : (entries.map Prod.fst).Pairwise (· < ·))
    {greatest : UInt64 × List UInt8} (isLast : greatest ∈ entries.getLast?) :
    greatest ∈ entries ∧ ∀ entry ∈ entries, entry.1 ≤ greatest.1 := by
  obtain ⟨front, rfl⟩ := getLast?_eq_some_iff.mp isLast
  rw [map_append, pairwise_append] at ascending
  refine ⟨mem_append_right _ mem_cons_self, fun entry member => ?_⟩
  rcases mem_append.mp member with member | member
  · exact UInt64.le_of_lt (ascending.2.2 _ (mem_map_of_mem member) _ mem_cons_self)
  · rw [mem_singleton.mp member]
    exact UInt64.le_refl _

/-- The keys are in order exactly if they were stored in order. -/
theorem keys_ordered_iff {tree : BTree} {inserts : List (UInt64 × List UInt8)} {cache : PageCache}
    (grown : Grown tree inserts cache) :
    KeysOrdered cache tree ↔ ((keptEntries inserts).map Prod.fst).Pairwise (· < ·) := by
  have holds := grown.holds
  obtain ⟨next, scanned, -⟩ := holds.scan
  constructor
  · rintro ⟨entries, other, again, ascending, -⟩
    rw [(Prod.mk.inj (Except.ok.inj (scanned.symm.trans again))).1]
    exact ascending
  · intro ascending
    obtain ⟨atFirst, first, -⟩ := holds.firstEntry
    obtain ⟨atLast, last, -⟩ := holds.lastEntry
    exact ⟨_, next, scanned, ascending,
      ⟨_, atFirst, first, head?_eq_none_iff, fun _ => head_least ascending⟩,
      ⟨_, atLast, last, getLast?_eq_none_iff, fun _ => getLast_greatest ascending⟩⟩

theorem keys_ordered_iff_three : ∃ tree cache, Grown tree [(1, [7]), (4, []), (9, [8])] cache ∧
    KeysOrdered cache tree := by
  obtain ⟨tree, cache, grown⟩ := grown_of_small [(1, [7]), (4, []), (9, [8])] (by decide)
  exact ⟨tree, cache, grown, (keys_ordered_iff grown).mpr (by decide)⟩

/-- The keys `2` and `1`, inserted in this order, are visited in this order. -/
theorem keys_visited_descending : ∃ tree cache next, Grown tree [(2, []), (1, [])] cache ∧
    btreeScan cache tree = .ok ([(2, []), (1, [])], next) := by
  obtain ⟨tree, cache, grown⟩ := grown_of_small [(2, []), (1, [])] (by decide)
  obtain ⟨next, scanned, -⟩ := grown.holds.scan
  exact ⟨tree, cache, next, grown, scanned⟩

/-! ### Scans backwards -/

/-- A scan backwards ends and mirrors the scan forwards exactly if the tree stores nothing. -/
theorem backward_scan_mirrors_iff {tree : BTree} {inserts : List (UInt64 × List UInt8)}
    {cache : PageCache} (grown : Grown tree inserts cache) :
    (∃ fuel entries next forward after, btreeScanBack fuel cache tree = .ok (entries, next) ∧
        btreeScan cache tree = .ok (forward, after) ∧ entries = forward.reverse) ↔
      keptEntries inserts = [] := by
  have holds := grown.holds
  constructor
  · rintro ⟨fuel, entries, next, forward, after, back, -⟩
    by_contra stored
    cases back.symm.trans (holds.scanBack_diverges stored fuel)
  · intro isEmpty
    rw [isEmpty] at holds
    obtain ⟨next, back, -⟩ := holds.scanBack_nil 0
    obtain ⟨after, forward, -⟩ := holds.scan
    exact ⟨0, [], next, [], after, back, forward, rfl⟩

theorem backward_scan_mirrors_iff_empty : ∃ tree cache, Grown tree [] cache ∧
    ∃ fuel entries next forward after, btreeScanBack fuel cache tree = .ok (entries, next) ∧
      btreeScan cache tree = .ok (forward, after) ∧ entries = forward.reverse := by
  obtain ⟨tree, cache, grown⟩ := grown_of_small [] (by decide)
  exact ⟨tree, cache, grown, (backward_scan_mirrors_iff grown).mpr rfl⟩

/-- In a tree with one entry the scan backwards never ends. -/
theorem backward_scan_diverges : ∃ tree cache, Grown tree [(1, [])] cache ∧
    ∀ fuel, btreeScanBack fuel cache tree = .error .diverges := by
  obtain ⟨tree, cache, grown⟩ := grown_of_small [(1, [])] (by decide)
  exact ⟨tree, cache, grown, grown.holds.scanBack_diverges (by decide)⟩

/-! ### Ranges -/

theorem takeWhile_eq_filter (ascending : keys.Pairwise (· < ·)) (endKey : UInt64) :
    keys.takeWhile (· ≤ endKey) = keys.filter (· ≤ endKey) := by
  induction keys with
  | nil => rfl
  | cons key keys inductionHypothesis =>
    obtain ⟨above, ascending⟩ := pairwise_cons.mp ascending
    rw [takeWhile_cons, filter_cons]
    split
    · rw [inductionHypothesis ascending]
    · next past =>
      refine (filter_eq_nil_iff.mpr fun other member within => past ?_).symm
      rw [decide_eq_true_eq] at within ⊢
      exact UInt64.le_trans (UInt64.le_of_lt (above _ member)) within

/-- From a key on and up to the end, ascending keys are those of the range. -/
theorem walk_eq_filter (ascending : keys.Pairwise (· < ·)) {startKey : UInt64}
    (present : startKey ∈ keys) (endKey : UInt64) :
    (keys.dropWhile (· != startKey)).takeWhile (· ≤ endKey) =
      keys.filter fun key => startKey ≤ key ∧ key ≤ endKey := by
  induction keys with
  | nil => cases present
  | cons key keys inductionHypothesis =>
    obtain ⟨above, ascendingRest⟩ := pairwise_cons.mp ascending
    by_cases isStart : key = startKey
    · subst isStart
      rw [dropWhile_cons_of_neg (by simp), takeWhile_eq_filter ascending]
      refine filter_congr fun other member => ?_
      have least : key ≤ other := by
        rcases mem_cons.mp member with rfl | member
        · exact UInt64.le_refl _
        · exact UInt64.le_of_lt (above _ member)
      simp [least]
    · have behind := (mem_cons.mp present).resolve_left (Ne.symm isStart)
      have before : ¬ startKey ≤ key := UInt64.not_le.mpr (above _ behind)
      rw [dropWhile_cons_of_pos (by simpa using isStart), inductionHypothesis ascendingRest behind,
        filter_cons_of_neg (by simp [before])]

/-- A walk over a range visits the stored keys of the range exactly if it starts at a stored key or
has no stored key. -/
theorem range_scan_exact_iff {tree : BTree} {inserts : List (UInt64 × List UInt8)}
    {cache : PageCache} (grown : Grown tree inserts cache)
    (ascending : (inserts.map Prod.fst).Pairwise (· < ·)) (startKey endKey : UInt64) :
    (∃ keys next, btreeRangeScan cache tree startKey endKey = .ok (keys, next) ∧
        keys = ((keptEntries inserts).map Prod.fst).filter
          fun key => startKey ≤ key ∧ key ≤ endKey) ↔
      startKey ∈ (keptEntries inserts).map Prod.fst ∨
        ∀ key ∈ (keptEntries inserts).map Prod.fst, ¬ (startKey ≤ key ∧ key ≤ endKey) := by
  have stored : ((keptEntries inserts).map Prod.fst).Pairwise (· < ·) :=
    ascending.sublist ((keepAll_sublist _).map _)
  obtain ⟨next, scanned, -⟩ := grown.holds.rangeScan startKey endKey
  generalize (keptEntries inserts).map Prod.fst = keys at stored scanned ⊢
  by_cases present : startKey ∈ keys
  · exact iff_of_true ⟨_, next, scanned, walk_eq_filter stored present endKey⟩ (.inl present)
  · have nothing : keys.dropWhile (· != startKey) = [] := by
      refine dropWhile_eq_nil_iff.mpr fun key member => ?_
      exact bne_iff_ne.mpr fun isStart => present (isStart ▸ member)
    rw [nothing, takeWhile_nil] at scanned
    rw [or_iff_right present]
    constructor
    · rintro ⟨visited, other, again, same⟩ key member within
      rw [← (Prod.mk.inj (Except.ok.inj (scanned.symm.trans again))).1, eq_comm,
        filter_eq_nil_iff] at same
      exact same key member (by simpa using within)
    · intro outside
      refine ⟨[], next, scanned, (filter_eq_nil_iff.mpr fun key member within => ?_).symm⟩
      exact outside key member (by simpa using within)

theorem range_scan_exact_iff_present : ∃ tree cache next,
    Grown tree [(1, []), (4, []), (9, [])] cache ∧
      btreeRangeScan cache tree 4 10 = .ok ([4, 9], next) := by
  obtain ⟨tree, cache, grown⟩ := grown_of_small [(1, []), (4, []), (9, [])] (by decide)
  obtain ⟨keys, next, scanned, rfl⟩ := (range_scan_exact_iff grown (by decide) 4 10).mpr
    (.inl (by decide))
  exact ⟨tree, cache, next, grown, scanned⟩

/-- The range from `2` to `5` has the stored key `4`, and the walk over it visits no key. -/
theorem range_scan_misses_key : ∃ tree cache next, Grown tree [(1, []), (4, []), (9, [])] cache ∧
    btreeRangeScan cache tree 2 5 = .ok ([], next) ∧
    4 ∈ (keptEntries [(1, []), (4, []), (9, [])]).map Prod.fst := by
  obtain ⟨tree, cache, grown⟩ := grown_of_small [(1, []), (4, []), (9, [])] (by decide)
  obtain ⟨next, scanned, -⟩ := grown.holds.rangeScan 2 5
  exact ⟨tree, cache, next, grown, scanned, by decide⟩

end TinyDb

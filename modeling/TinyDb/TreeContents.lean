/-
This file says what a tree stores after some insertions, and what the tree operations
make of it.

The root page has room for cells of 18 bytes and a value each, their pointers counted.
An insertion is stored if its key is new and its cell fits, and no later insertion
changes it. So a tree stores the map of bounded size that its insertions fill, in their
order, and a scan from `btree_first` yields this map. An insertion or an update of a key
that is there returns `0` and stores nothing.
-/

import TinyDb.LeafTree

namespace TinyDb

open Heaps BoundedMap List Function

variable {start : Nat} {cells : List Cell}

/-! ### What a tree stores -/

/-- What the insertions into a new tree store. -/
def keptEntries (inserts : List (UInt64 × List UInt8)) : List (UInt64 × List UInt8) :=
  keepAll entrySize leafCapacity inserts

/-- The tree is one leaf with these entries. -/
structure TreeHolds (cache : PageCache) (tree : BTree) (entries : List (UInt64 × List UInt8)) :
    Prop where
  opened : tree.isOpen = true
  leaf : ∃ view data start cells, Resident cache view ∧ view tree.rootPage = some data ∧
    LeafLayout data start cells ∧ cells.map Cell.entry = entries

/-- The tree comes from `btree_create`, in a cache that has never exceeded its capacity and has
room for the root page, and these insertions into the tree have returned. -/
def Grown (tree : BTree) (inserts : List (UInt64 × List UInt8)) (cache : PageCache) : Prop :=
  ∃ defaultCacheSize maxPages pager before created results,
    Relation.ReflTransGen BelowCapacity (pageCacheCreate defaultCacheSize maxPages pager) before ∧
    before.count < before.maxPages ∧ btreeCreate before = .ok (some tree, created) ∧
    insertAll tree created inserts = .ok (results, cache)

section Grown

variable {tree : BTree} {inserts : List (UInt64 × List UInt8)} {cache : PageCache}

theorem Grown.holds (grown : Grown tree inserts cache) :
    TreeHolds cache tree (keptEntries inserts) := by
  obtain ⟨_, _, _, before, created, results, run, room, create, inserted⟩ := grown
  obtain ⟨opened, view, data, resident, root, layout⟩ :=
    btreeCreate_resident (usable_of_run run) room create
  have serves : Serves .may Resident ResidentHeld := resident_serves.weaken
  obtain ⟨last, offset, cells, kept, layoutLast, -, entries⟩ :=
    (serves.insertAll resident opened root layout inserts nofun).elim inserted
  exact ⟨opened, _, last, offset, cells, kept, update_self .., layoutLast, entries rfl⟩

/-- Insertions of values that are not longer than a page return. -/
theorem grown_of_small (inserts : List (UInt64 × List UInt8))
    (small : ∀ insert ∈ inserts, insert.2.length ≤ pageSize) :
    ∃ tree cache, Grown tree inserts cache := by
  obtain ⟨tree, created, create, -⟩ := created_tree
  have room : (pageCacheCreate 256 4 (some newPager)).count <
    (pageCacheCreate 256 4 (some newPager)).maxPages := (by decide)
  obtain ⟨isOpen, view, data, resident, root, layout⟩ :=
    btreeCreate_resident (usable_of_run .refl) room create
  obtain ⟨⟨results, cache⟩, inserted, -⟩ :=
    resident_serves.insertAll resident isOpen root layout inserts fun _ => small
  exact ⟨tree, cache, 256, 4, some _, _, created, results, .refl, room, create, inserted⟩

end Grown

/-! ### Operations on what is stored -/

section Operations

variable {tree : BTree} {entries : List (UInt64 × List UInt8)} {cache : PageCache}

section

variable (holds : TreeHolds cache tree entries)
include holds

/-- An operation that leaves the root page as it is leaves the entries as they are. -/
theorem TreeHolds.returns {Result : Type} {run : Except Fault (Result × PageCache)}
    {result : Result}
    (ensures : ∀ {view data start cells}, Resident cache view →
      view tree.rootPage = some data → LeafLayout data start cells →
      cells.map Cell.entry = entries →
      Ensures .must run fun out => out.1 = result ∧ Resident out.2 view) :
    ∃ next, run = .ok (result, next) ∧ TreeHolds next tree entries := by
  obtain ⟨opened, view, data, start, cells, resident, root, layout, same⟩ := holds
  obtain ⟨⟨_, next⟩, returned, rfl, kept⟩ := ensures resident root layout same
  exact ⟨next, returned, opened, view, data, start, cells, kept, root, layout, same⟩

theorem TreeHolds.nodup : (entries.map Prod.fst).Nodup := by
  obtain ⟨-, view, data, start, cells, -, -, layout, rfl⟩ := holds
  rw [keys_entries]
  exact layout.distinct

/-- A stored value is shorter than a page. -/
theorem TreeHolds.length_le {entry : UInt64 × List UInt8}
    (member : entry ∈ entries) : entry.2.length ≤ pageSize := by
  obtain ⟨-, view, data, start, cells, -, -, layout, rfl⟩ := holds
  obtain ⟨cell, isCell, rfl⟩ := mem_map.mp member
  have inside := layout.inside isCell
  exact (Nat.le_add_left ..).trans ((Nat.le_add_left ..).trans inside)

theorem TreeHolds.lookup (key : UInt64) :
    ∃ next, btreeLookup cache tree key = .ok (BoundedMap.lookup entries key, next) ∧
      TreeHolds next tree entries := by
  refine holds.returns fun resident root layout same => ?_
  refine (resident_serves.lookup resident holds.opened root layout key).mono ?_
  rintro ⟨_, next⟩ ⟨rfl, kept⟩
  refine ⟨?_, kept⟩
  rw [← same, BoundedMap.lookup, find?_map]
  rfl

theorem TreeHolds.scan :
    ∃ next, btreeScan cache tree = .ok (entries, next) ∧ TreeHolds next tree entries := by
  refine holds.returns fun resident root layout same => ?_
  rw [← same]
  exact resident_serves.scan resident holds.opened root layout

/-- A key that is there keeps its value. -/
theorem TreeHolds.insert_present {key : UInt64}
    (present : key ∈ entries.map Prod.fst) {value : List UInt8} (small : value.length ≤ pageSize) :
    ∃ next, btreeInsert cache tree key value = .ok (true, next) ∧ TreeHolds next tree entries := by
  refine holds.returns fun resident root layout same => ?_
  rw [← same, keys_entries] at present
  refine (resident_serves.insert resident holds.opened root layout key fun _ => small).mono ?_
  rintro ⟨done, next⟩ (⟨kept, isDone, -⟩ | ⟨-, absent, -⟩)
  · exact ⟨isDone.mpr present, kept⟩
  · exact absurd present absent

end

end Operations

/-! ### Scans -/

/-- A scan from `btree_first` ends, with every pair that `btree_find` and `btree_get` find and no
other pair, and no key twice. -/
theorem forward_scan_complete {tree : BTree} {inserts : List (UInt64 × List UInt8)}
    {cache : PageCache} (grown : Grown tree inserts cache) :
    ∃ entries next, btreeScan cache tree = .ok (entries, next) ∧ entries = keptEntries inserts ∧
      (entries.map Prod.fst).Nodup ∧ ∀ entry, entry ∈ entries ↔
        ∃ after, btreeLookup cache tree entry.1 = .ok (some entry, after) := by
  have holds := grown.holds
  obtain ⟨next, scanned, -⟩ := holds.scan
  refine ⟨_, next, scanned, rfl, holds.nodup, fun entry => ?_⟩
  obtain ⟨after, found, -⟩ := holds.lookup _
  rw [← lookup_eq_some_iff holds.nodup, found]
  constructor
  · intro isEntry
    exact ⟨after, by rw [isEntry]⟩
  · rintro ⟨other, same⟩
    exact (Prod.mk.inj (Except.ok.inj same)).1

theorem forward_scan_complete_two : ∃ tree cache entries next,
    Grown tree [(7, [1, 2]), (3, []), (7, [9])] cache ∧
      btreeScan cache tree = .ok (entries, next) ∧ entries = [(7, [1, 2]), (3, [])] := by
  obtain ⟨tree, cache, grown⟩ := grown_of_small [(7, [1, 2]), (3, []), (7, [9])] (by decide)
  obtain ⟨entries, next, scanned, same, -⟩ := forward_scan_complete grown
  exact ⟨tree, cache, entries, next, grown, scanned, same⟩

/-! ### Updates -/

/-- If the operation returns `0` then the key has the new value, and the other keys have the values
that they had. -/
def UpdateKept (update : PageCache → BTree → UInt64 → List UInt8 → Except Fault (Bool × PageCache))
    (cache : PageCache) (tree : BTree) (key : UInt64) (value : List UInt8) : Prop :=
  ∀ next, update cache tree key value = .ok (true, next) →
    (∃ after, btreeLookup next tree key = .ok (some (key, value), after)) ∧
    ∀ other, other ≠ key → ∃ found before after,
      btreeLookup cache tree other = .ok (found, before) ∧
      btreeLookup next tree other = .ok (found, after)

/-- An update is kept exactly if it changes nothing. -/
theorem update_kept_iff {tree : BTree} {inserts : List (UInt64 × List UInt8)} {cache : PageCache}
    (grown : Grown tree inserts cache) {key : UInt64} {old : List UInt8}
    (present : (key, old) ∈ keptEntries inserts) {value : List UInt8}
    (short : value.length ≤ old.length) :
    ∀ update ∈ [btreeUpdate, btreeInsert],
      (∃ next, update cache tree key value = .ok (true, next)) ∧
      (UpdateKept update cache tree key value ↔ value = old) := by
  have holds := grown.holds
  have isOld : BoundedMap.lookup (keptEntries inserts) key = some (key, old) :=
    (lookup_eq_some_iff holds.nodup).mpr present
  obtain ⟨next, updated, kept⟩ := holds.insert_present (mem_map_of_mem present)
    (short.trans (holds.length_le present))
  have isInsert : ∀ update ∈ [btreeUpdate, btreeInsert], update = btreeInsert := by
    simp only [mem_cons, not_mem_nil, or_false, forall_eq_or_imp, forall_eq, and_true]
    rfl
  intro update member
  rw [isInsert _ member]
  refine ⟨⟨next, updated⟩, fun isKept => ?_, ?_⟩
  · obtain ⟨⟨after, found⟩, -⟩ := isKept next updated
    obtain ⟨last, lookedUp, -⟩ := kept.lookup key
    rw [lookedUp, isOld] at found
    exact (Prod.mk.inj (Option.some.inj (Prod.mk.inj (Except.ok.inj found)).1)).2.symm
  · rintro rfl other same
    obtain rfl : next = other := (Prod.mk.inj (Except.ok.inj (updated.symm.trans same))).2
    refine ⟨?_, fun other _ => ?_⟩
    · obtain ⟨after, lookedUp, -⟩ := kept.lookup key
      exact ⟨after, by rw [lookedUp, isOld]⟩
    · obtain ⟨before, lookedUp, -⟩ := holds.lookup _
      obtain ⟨after, again, -⟩ := kept.lookup _
      exact ⟨_, before, after, lookedUp, again⟩

theorem update_kept_iff_same : ∃ tree cache, Grown tree [(5, [1])] cache ∧
    UpdateKept btreeUpdate cache tree 5 [1] := by
  obtain ⟨tree, cache, grown⟩ := grown_of_small [(5, [1])] (by decide)
  have kept := update_kept_iff grown (by decide : (5, [1]) ∈ keptEntries [(5, [1])])
    (le_refl ([1]).length) _ mem_cons_self
  exact ⟨tree, cache, grown, kept.2.mpr rfl⟩

/-- The update of `5` from `1` to `2` returns `0`, and `5` still has the value `1`. -/
theorem update_lost : ∃ tree cache next after, Grown tree [(5, [1])] cache ∧
    btreeUpdate cache tree 5 [2] = .ok (true, next) ∧
    btreeLookup next tree 5 = .ok (some (5, [1]), after) := by
  obtain ⟨tree, cache, grown⟩ := grown_of_small [(5, [1])] (by decide)
  obtain ⟨next, updated, kept⟩ := grown.holds.insert_present
    (by decide : 5 ∈ (keptEntries [(5, [1])]).map Prod.fst) (by decide : ([2] : List UInt8).length ≤ pageSize)
  obtain ⟨after, lookedUp, -⟩ := kept.lookup 5
  exact ⟨tree, cache, next, after, grown, updated, lookedUp⟩

end TinyDb

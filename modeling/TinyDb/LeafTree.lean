/-
This file shows that a tree whose root is a leaf is a finite map.

No operation splits a node, so a tree from `btree_create` stays one leaf. Its
cells, in the order of their pointers, are the entries of the map in the order of
their insertion. Every operation is one or two visits to the root page, and an
invariant of the cache that serves the root page gives the result of each visit;
nothing here looks into the cache. The last section starts from a cache that has
never exceeded its capacity.
-/

import TinyDb.LeafPage
import TinyDb.Lib.BoundedMap
import TinyDb.PinnedPages

namespace TinyDb

open Heaps Bytes Posix BoundedMap List Option Function

variable {start : Nat} {cells : List Cell} {key : UInt64} {cache : PageCache} {view : View} {tree : BTree}

/-! ### Clients -/

/-- `btree_find` and then `btree_get`. -/
def btreeLookup (cache : PageCache) (tree : BTree) (key : UInt64) :
    Except Fault (Option (UInt64 × List UInt8) × PageCache) := do
  match ← btreeFind cache tree key with
  | (none, cache) => return (none, cache)
  | (some cursor, cache) => btreeGet cache cursor

/-- A loop of `btree_get` and `btree_cursor_next` while the cursor is valid. -/
def scanLoop : Nat → BTreeCursor → PageCache →
    Except Fault (List (UInt64 × List UInt8) × PageCache)
  | 0, cursor, cache => if btreeCursorValid cursor then .error .diverges else return ([], cache)
  | fuel + 1, cursor, cache => do
    if btreeCursorValid cursor then
      let (entry, cache) ← btreeGet cache cursor
      let (cursor, cache) ← btreeCursorNext cache cursor
      let (rest, cache) ← scanLoop fuel cursor cache
      return (entry.toList ++ rest, cache)
    else return ([], cache)

/-- The scan from `btree_first`; a node has fewer than 2 ^ 16 cells. -/
def btreeScan (cache : PageCache) (tree : BTree) :
    Except Fault (List (UInt64 × List UInt8) × PageCache) := do
  match ← btreeFirst cache tree with
  | (none, cache) => return ([], cache)
  | (some cursor, cache) => scanLoop 65536 cursor cache

/-- Some calls of `btree_insert` and what they return. -/
def insertAll (tree : BTree) :
    PageCache → List (UInt64 × List UInt8) → Except Fault (List Bool × PageCache)
  | cache, [] => return ([], cache)
  | cache, (key, value) :: rest => do
    let (done, cache) ← btreeInsert cache tree key value
    let (others, cache) ← insertAll tree cache rest
    return (done :: others, cache)

/-- The first insertion of a key that succeeded. -/
def firstInserted (key : UInt64) (inserts : List (UInt64 × List UInt8)) (results : List Bool) :
    Option (UInt64 × List UInt8) :=
  ((inserts.zip results).find? fun attempt => attempt.2 && attempt.1.1 == key).map Prod.fst

/-! ### Operations on a leaf -/

/-- A cursor on the root page. -/
def rootCursor (tree : BTree) (isForward : Bool) (cell : Nat) (isEnd : Bool) (stackCell : Nat) :
    BTreeCursor where
  tree
  page := tree.rootPage
  cell
  isEnd
  depth := 1
  stack := [(tree.rootPage, stackCell)]
  isForward

/-- What a leaf stores under a key. -/
def stored (cells : List Cell) (key : UInt64) : Option (UInt64 × List UInt8) :=
  (cells.find? (·.key == key)).map Cell.entry

theorem stored_eq (cells : List Cell) (key : UInt64) :
    stored cells key = match cells.findIdx? (·.key == key) with
      | some index => cells[index]?.map Cell.entry
      | none => none := by
  rw [stored, find?_eq_bind_findIdx?_getElem?]
  cases cells.findIdx? (·.key == key) <;> rfl

theorem findIdx?_key_eq_none :
    cells.findIdx? (·.key == key) = none ↔ key ∉ cells.map Cell.key := by
  rw [findIdx?_eq_none_iff, List.mem_map]
  constructor
  · rintro absent ⟨cell, member, rfl⟩
    simpa using absent _ member
  · intro absent cell member
    exact beq_eq_false_iff_ne.mpr fun same => absent ⟨cell, member, same⟩

/-- Where `btree_find` puts the cursor. -/
def findCursor (tree : BTree) (cells : List Cell) (key : UInt64) : BTreeCursor :=
  match cells.findIdx? (·.key == key) with
  | some found => rootCursor tree true found false 0
  | none => rootCursor tree true cells.length true 0

/-- A cursor in front of some cells, which are the last of the leaf. -/
structure StandsBefore (tree : BTree) (cells rest : List Cell) (cursor : BTreeCursor) : Prop where
  page : cursor.page = tree.rootPage
  drop : cells.drop cursor.cell = rest
  ends : cursor.isEnd = rest.isEmpty

section Operations

variable {demand : Demand} {Free : PageCache → View → Prop}
  {Held : PageCache → View → Addr → Prop} {cache : PageCache} {view : View} {tree : BTree}
  {data : PageData} {start : Nat} {cells : List Cell}

namespace Serves

variable {cursor : BTreeCursor} {rest : List Cell}

section

variable (serves : Serves demand Free Held) (free : Free cache view)
include serves free

theorem descend_leaf
    (root : view tree.rootPage = some data) {visit : PageData → Except Fault Descent}
    {cell stackCell : Nat} {isEnd : Bool} (leaf : visit data = .ok (.leaf cell isEnd stackCell))
    (isForward : Bool) :
    Ensures demand (descend tree isForward visit btreeMaxDepth tree.rootPage [] cache) fun out =>
      out.1 = some (rootCursor tree isForward cell isEnd stackCell) ∧ Free out.2 view := by
  have returns : Ensures demand (visit data) (· = .leaf cell isEnd stackCell) := by
    rw [leaf]
    exact Ensures.ok rfl
  refine (serves.read free root returns).bind ?_
  rintro ⟨_, next⟩ ⟨⟨_, rfl, rfl⟩, free⟩
  exact Ensures.ok ⟨rfl, free⟩

theorem find
    (opened : tree.isOpen = true) (root : view tree.rootPage = some data)
    (layout : LeafLayout data start cells) (key : UInt64) :
    Ensures demand (btreeFind cache tree key) fun out =>
      out.1 = some (findCursor tree cells key) ∧ Free out.2 view := by
  have visit := layout.findVisit key
  rw [btreeFind, if_pos opened, findCursor]
  cases search : cells.findIdx? (·.key == key) with
  | some found =>
    rw [search] at visit
    exact serves.descend_leaf free root visit _
  | none =>
    rw [search] at visit
    exact serves.descend_leaf free root visit _

theorem get
    (root : view tree.rootPage = some data) (layout : LeafLayout data start cells)
    (page : cursor.page = tree.rootPage) :
    Ensures demand (btreeGet cache cursor) fun out =>
      out.1 = (if cursor.isEnd then none else cells[cursor.cell]?.map Cell.entry) ∧
        Free out.2 view := by
  rw [btreeGet]
  cases cursor.isEnd with
  | true => exact Ensures.ok ⟨rfl, free⟩
  | false =>
    have returns : Ensures demand (readCell cursor.cell data)
        (· = cells[cursor.cell]?.map Cell.entry) := by
      rw [layout.readCell]
      exact Ensures.ok rfl
    rw [page]
    refine (serves.read free root returns).bind ?_
    rintro ⟨_, next⟩ ⟨⟨_, rfl, rfl⟩, free⟩
    exact Ensures.ok ⟨rfl, free⟩

theorem lookup
    (opened : tree.isOpen = true) (root : view tree.rootPage = some data)
    (layout : LeafLayout data start cells) (key : UInt64) :
    Ensures demand (btreeLookup cache tree key) fun out =>
      out.1 = stored cells key ∧ Free out.2 view := by
  refine (serves.find free opened root layout key).bind ?_
  rintro ⟨_, next⟩ ⟨rfl, free⟩
  rw [stored_eq, findCursor]
  cases cells.findIdx? (·.key == key) with
  | some found => exact serves.get free root layout rfl
  | none => exact serves.get free root layout rfl

section

variable (root : view tree.rootPage = some data) (layout : LeafLayout data start cells)
include root layout

/-- `btree_cursor_next` stops behind the last cell. -/
theorem next
    (page : cursor.page = tree.rootPage) (valid : cursor.isEnd = false) :
    Ensures demand (btreeCursorNext cache cursor) fun out =>
      out.1 = (if cells.length ≤ cursor.cell + 1 then
        { cursor with isEnd := true, cell := cells.length }
        else { cursor with cell := cursor.cell + 1 }) ∧ Free out.2 view := by
  obtain ⟨header, read, -, count, -⟩ := layout.getNodeHeader
  have returns : Ensures demand (getNodeHeader data) (· = header) := by
    rw [read]
    exact Ensures.ok rfl
  rw [btreeCursorNext, valid, page]
  refine (serves.read free root returns).bind ?_
  rintro ⟨_, next⟩ ⟨⟨_, rfl, rfl⟩, free⟩
  simp only [count]
  split <;> exact Ensures.ok ⟨rfl, free⟩

theorem get_at
    (stands : StandsBefore tree cells rest cursor) :
    Ensures demand (btreeGet cache cursor) fun out =>
      out.1 = rest.head?.map Cell.entry ∧ Free out.2 view := by
  refine (serves.get free root layout stands.page).mono ?_
  rintro ⟨_, next⟩ ⟨rfl, free⟩
  refine ⟨?_, free⟩
  rw [stands.ends, ← stands.drop, head?_drop]
  split
  · next isEmpty =>
    rw [List.isEmpty_iff, drop_eq_nil_iff] at isEmpty
    rw [getElem?_eq_none isEmpty]
    rfl
  · rfl

theorem next_at {cell : Cell}
    (stands : StandsBefore tree cells (cell :: rest) cursor) :
    Ensures demand (btreeCursorNext cache cursor) fun out =>
      StandsBefore tree cells rest out.1 ∧ Free out.2 view := by
  have behind : cells.drop (cursor.cell + 1) = rest := by
    rw [← tail_drop, stands.drop, tail_cons]
  refine (serves.next free root layout stands.page stands.ends).mono ?_
  rintro ⟨_, next⟩ ⟨rfl, free⟩
  refine ⟨?_, free⟩
  split
  · next last =>
    rw [drop_eq_nil_of_le last] at behind
    exact ⟨stands.page, drop_length.trans behind, by rw [← behind]; rfl⟩
  · next more =>
    have isMore : rest.isEmpty = false := by
      rw [← behind, ← Bool.not_eq_true, List.isEmpty_iff, drop_eq_nil_iff]
      exact more
    exact ⟨stands.page, behind, stands.ends.trans isMore.symm⟩

end

end

theorem scanLoop_leaf (serves : Serves demand Free Held) (root : view tree.rootPage = some data)
    (layout : LeafLayout data start cells) (stands : StandsBefore tree cells rest cursor)
    {fuel : Nat} (free : Free cache view) (bounded : rest.length ≤ fuel) :
    Ensures demand (scanLoop fuel cursor cache) fun out =>
      out.1 = rest.map Cell.entry ∧ Free out.2 view := by
  induction rest generalizing cache cursor fuel with
  | nil =>
    have invalid : btreeCursorValid cursor = false := by
      rw [btreeCursorValid, stands.ends]
      rfl
    cases fuel <;>
    · rw [scanLoop, invalid]
      exact Ensures.ok ⟨rfl, free⟩
  | cons cell rest inductionHypothesis =>
    cases fuel with
    | zero => exact absurd bounded (Nat.not_succ_le_zero _)
    | succ fuel =>
      have valid : btreeCursorValid cursor = true := by
        rw [btreeCursorValid, stands.ends]
        rfl
      rw [scanLoop, valid]
      refine (serves.get_at free root layout stands).bind ?_
      rintro ⟨entry, middle⟩ ⟨rfl, free⟩
      refine (serves.next_at free root layout stands).bind ?_
      rintro ⟨moved, middle⟩ ⟨stands, free⟩
      refine (inductionHypothesis stands free (Nat.le_of_succ_le_succ bounded)).bind ?_
      rintro ⟨_, last⟩ ⟨rfl, free⟩
      exact Ensures.ok ⟨rfl, free⟩

section

variable (serves : Serves demand Free Held)
  (free : Free cache view)
  (opened : tree.isOpen = true)
  (root : view tree.rootPage = some data)
  (layout : LeafLayout data start cells)
include serves free opened root layout

/-- The scan yields the entries in the order of their pointers. -/
theorem scan :
    Ensures demand (btreeScan cache tree) fun out =>
      out.1 = cells.map Cell.entry ∧ Free out.2 view := by
  rw [btreeScan, btreeFirst, if_pos opened]
  refine (serves.descend_leaf free root layout.firstVisit _).bind ?_
  rintro ⟨_, middle⟩ ⟨rfl, free⟩
  have stands : StandsBefore tree cells cells (rootCursor tree true 0 cells.isEmpty 0) :=
    ⟨rfl, rfl, rfl⟩
  exact serves.scanLoop_leaf root layout stands free
    (Nat.le_trans (Nat.le_of_lt layout.length_le) (by simp))

/-- What an insertion does to the root page: it adds a cell for a key that is not there and a value
that fits, or leaves the page as it is, and returns `0` then only if the key is there. A value
longer than a page may fault. -/
theorem insert (key : UInt64) {value : List UInt8}
    (small : demand = .must → value.length ≤ pageSize) :
    Ensures demand (btreeInsert cache tree key value) fun out =>
      (Free out.2 view ∧ (out.1 = true ↔ key ∈ cells.map Cell.key) ∧
        (key ∉ cells.map Cell.key → ¬LeafLayout.Fits start cells value)) ∨
        (out.1 = true ∧ key ∉ cells.map Cell.key ∧ LeafLayout.Fits start cells value ∧
          ∃ new offset, Free out.2 (Function.update view tree.rootPage (some new)) ∧
          offset + (16 + value.length) = start ∧
          LeafLayout new offset (cells ++ [⟨offset, key, value⟩])) := by
  refine (serves.find free opened root layout key).bind ?_
  rintro ⟨_, middle⟩ ⟨rfl, free⟩
  rw [findCursor]
  cases search : cells.findIdx? (·.key == key) with
  | some found =>
    have present : key ∈ cells.map Cell.key := by
      by_contra absent
      rw [findIdx?_key_eq_none.mpr absent] at search
      cases search
    refine (serves.read free root (Ensures.ok trivial : Ensures demand
      ((fun _ : PageData => (return ())) data) fun _ => True)).bind ?_
    rintro ⟨_, next⟩ ⟨-, free⟩
    exact Ensures.ok (Or.inl ⟨free, iff_of_true rfl present, fun absent => absurd present absent⟩)
  | none =>
    have absent := findIdx?_key_eq_none.mp search
    refine (serves.write free root (layout.leafInsert absent small)).bind ?_
    rintro ⟨_, next⟩ ⟨answer, rfl, ⟨rfl, full⟩ | ⟨new, offset, rfl, fits, below, after⟩, free⟩
    · exact Ensures.ok (Or.inl ⟨free, iff_of_false nofun absent, fun _ => full⟩)
    · exact Ensures.ok (Or.inr ⟨rfl, absent, fits, new, offset, free, below, after⟩)

end

end Serves

end Operations

/-! ### Sequences of insertions -/

theorem stored_append (cells : List Cell) (cell : Cell) (key : UInt64) :
    stored (cells ++ [cell]) key =
      (stored cells key).or (if cell.key == key then some cell.entry else none) := by
  rw [stored, stored, find?_append]
  cases cells.find? (·.key == key) with
  | some found => rfl
  | none =>
    rw [find?_singleton]
    split <;> rfl

theorem stored_ne_none (present : key ∈ cells.map Cell.key) :
    stored cells key ≠ none := by
  obtain ⟨cell, member, rfl⟩ := List.mem_map.mp present
  rw [stored, Ne, map_eq_none_iff, find?_eq_none]
  intro absent
  simpa using absent _ member

theorem firstInserted_cons (key : UInt64) (insert : UInt64 × List UInt8) (done : Bool)
    (inserts : List (UInt64 × List UInt8)) (results : List Bool) :
    firstInserted key (insert :: inserts) (done :: results) =
      if done && insert.1 == key then some insert else firstInserted key inserts results := by
  split <;> simp_all [firstInserted]

/-- The bytes of a page that a cell with its pointer takes. -/
def entrySize (value : List UInt8) : Nat := 18 + value.length

/-- The bytes of a leaf behind its header. -/
def leafCapacity : Nat := pageSize - btreeLeafHeaderSize

theorem keys_entries (cells : List Cell) :
    (cells.map Cell.entry).map Prod.fst = cells.map Cell.key := by
  rw [List.map_map]
  rfl

theorem used_entries (cells : List Cell) :
    used entrySize (cells.map Cell.entry) = (cells.map Cell.size).sum + 2 * cells.length := by
  induction cells with
  | nil => rfl
  | cons cell rest inductionHypothesis =>
    simp only [used, map_cons, sum_cons, length_cons] at inductionHypothesis ⊢
    simp only [entrySize, Cell.entry, Cell.size]
    omega

/-- The cells fill the page from its end. -/
def Packed (start : Nat) (cells : List Cell) : Prop := start + (cells.map Cell.size).sum = pageSize

theorem Packed.fits_iff (packed : Packed start cells) (value : List UInt8) :
    LeafLayout.Fits start cells value ↔
      used entrySize (cells.map Cell.entry) + entrySize value ≤ leafCapacity := by
  rw [Packed, pageSize] at packed
  rw [used_entries, LeafLayout.Fits, pointerOffset, entrySize, leafCapacity, pageSize,
    btreeCellPointerSize]
  omega

/-- After any insertions the root page is laid out. It stores under each key what it stored before
or else what the first successful insertion put there, and if it was filled from its end, it has the
entries that fit. -/
theorem Serves.insertAll {demand : Demand} {Free : PageCache → View → Prop}
    {Held : PageCache → View → Addr → Prop} {data : PageData}
    (serves : Serves demand Free Held) (free : Free cache view) (opened : tree.isOpen = true)
    (root : view tree.rootPage = some data) (layout : LeafLayout data start cells)
    (inserts : List (UInt64 × List UInt8))
    (small : demand = .must → ∀ insert ∈ inserts, insert.2.length ≤ pageSize) :
    Ensures demand (TinyDb.insertAll tree cache inserts) fun out => ∃ last offset after,
      Free out.2 (Function.update view tree.rootPage (some last)) ∧ LeafLayout last offset after ∧
      (∀ key, stored after key = (stored cells key).or (firstInserted key inserts out.1)) ∧
      (Packed start cells → after.map Cell.entry =
        inserts.foldl (keep entrySize leafCapacity) (cells.map Cell.entry)) := by
  induction inserts generalizing cache view data start cells with
  | nil =>
    refine Ensures.ok ⟨data, start, cells, ?_, layout, fun key => or_none.symm, fun _ => rfl⟩
    rw [← root, update_eq_self]
    exact free
  | cons insert rest inductionHypothesis =>
    obtain ⟨key, value⟩ := insert
    have smallRest := fun must insert member => small must insert (mem_cons_of_mem _ member)
    rw [foldl_cons, keep, keys_entries]
    refine (serves.insert free opened root layout key fun must =>
      small must _ mem_cons_self).bind ?_
    rintro ⟨done, middle⟩
      (⟨free, same, full⟩ | ⟨rfl, absent, fits, new, offset, free, below, layoutNew⟩)
    · refine (inductionHypothesis free root layout smallRest).bind ?_
      rintro ⟨results, next⟩ ⟨last, offset, after, free, layoutLast, entries, kept⟩
      refine Ensures.ok ⟨last, offset, after, free, layoutLast, fun other => ?_, fun packed => ?_⟩
      · rw [entries, firstInserted_cons]
        split
        · rename_i both
          obtain ⟨isDone, here⟩ := Bool.and_eq_true_iff.mp both
          -- the key was there before, so what the insertion tried to put there does not count
          obtain ⟨entry, found⟩ := ne_none_iff_exists'.mp (stored_ne_none (same.mp isDone))
          rw [← eq_of_beq here, found]
          rfl
        · rfl
      · rw [if_neg fun new => full new.1 ((packed.fits_iff _).mpr new.2)]
        exact kept packed
    · refine (inductionHypothesis free (update_self ..) layoutNew smallRest).bind ?_
      rintro ⟨results, next⟩ ⟨last, offset, after, free, layoutLast, entries, kept⟩
      rw [update_idem] at free
      refine Ensures.ok ⟨last, offset, after, free, layoutLast, fun other => ?_, fun packed => ?_⟩
      · rw [entries, stored_append, firstInserted_cons, Option.or_assoc, Bool.true_and]
        congr 1
        split <;> rfl
      · rw [if_pos ⟨absent, (packed.fits_iff _).mp fits⟩, kept, map_append]
        · rfl
        · rw [Packed] at packed ⊢
          rw [map_append, sum_append, ← packed, ← below]
          simp only [map_singleton, sum_singleton, Cell.size]
          omega

/-! ### Trees from `btree_create` -/

/-- The page `pager_allocate_page` is about to hand out. -/
def nextPage (cache : PageCache) : Option UInt32 :=
  cache.pager.bind fun pager => (pagerAllocatePage pager).1

/-- `btree_create` with room for one page: it fails and keeps the resident pages, or adds an empty
leaf to them. -/
theorem btreeCreate_cases {next : PageCache} {result : Option BTree}
    (resident : Resident cache view) (room : cache.count < cache.maxPages)
    (run : btreeCreate cache = .ok (result, next)) :
    next.maxPages = cache.maxPages ∧
      next.count ≤ cache.count + (nextPage cache).toList.length ∧
      ((result = none ∧ Resident next view) ∨ ∃ root empty, nextPage cache = some root ∧
        result = some (btreeOpen root) ∧ LeafLayout empty pageSize [] ∧
        Resident next (Function.update view root (some empty))) := by
  obtain ⟨empty, emptyRun, layout⟩ := emptyLeaf_ok
  obtain ⟨usable, rfl⟩ := resident
  unfold btreeCreate at run
  split at run
  · obtain ⟨rfl, rfl⟩ := Prod.mk.inj (Except.ok.inj run)
    exact ⟨rfl, by omega, Or.inl ⟨rfl, usable, rfl⟩⟩
  · rename_i pager attached
    split at run <;> rename_i after allocate
    · obtain ⟨rfl, rfl⟩ := Prod.mk.inj (Except.ok.inj run)
      exact ⟨rfl, Int.le_add_of_nonneg_right (Int.natCast_nonneg _),
        Or.inl ⟨rfl, usable.withPager _, rfl⟩⟩
    · rename_i rootPage
      have handed : nextPage cache = some rootPage := by
        rw [nextPage, attached, bind_some, allocate]
      simp only [bind_eq_ok] at run
      obtain ⟨⟨written, last⟩, write, finish⟩ := run
      cases finish
      obtain ⟨maxPages, count, ⟨rfl, kept⟩ | ⟨old, answer, returns, rfl, kept⟩⟩ :=
        (usable.withPager _).pinWrite (Or.inr room) write
      · rw [handed]
        exact ⟨maxPages, count, Or.inl ⟨rfl, kept⟩⟩
      · rw [emptyRun] at returns
        cases returns
        rw [handed]
        exact ⟨maxPages, count, Or.inr ⟨rootPage, empty, rfl, rfl, layout, kept⟩⟩

/-- The root of a new tree is the page that was handed out. -/
theorem btreeCreate_root {next : PageCache} (run : btreeCreate cache = .ok (some tree, next)) :
    nextPage cache = some tree.rootPage := by
  unfold btreeCreate at run
  split at run
  · cases run
  · rename_i pager attached
    split at run <;> rename_i after allocate
    · cases run
    · simp only [bind_eq_ok] at run
      obtain ⟨⟨written, last⟩, -, finish⟩ := run
      obtain ⟨same, -⟩ := Prod.mk.inj (Except.ok.inj finish)
      split at same
      · obtain rfl := Option.some.inj same
        rw [nextPage, attached, bind_some, allocate]
        rfl
      · cases same

theorem btreeCreate_resident {created : PageCache} (usable : Usable cache)
    (room : cache.count < cache.maxPages) (create : btreeCreate cache = .ok (some tree, created)) :
    tree.isOpen = true ∧ ∃ view data, Resident created view ∧ view tree.rootPage = some data ∧
      LeafLayout data pageSize [] := by
  obtain ⟨-, -, ⟨failed, -⟩ | ⟨root, empty, -, same, layout, resident⟩⟩ :=
    btreeCreate_cases ⟨usable, rfl⟩ room create
  · cases failed
  · obtain rfl := Option.some.inj same
    exact ⟨rfl, _, empty, resident, update_self .., layout⟩

/-- `btree_create` once its page is allocated. -/
theorem Within.create {pager after : Pager} {touched : List UInt32} {flat : UInt32 → PageData}
    {root : UInt32} (attached : cache.pager = some pager)
    (allocate : pagerAllocatePage pager = (some root, after))
    (within : Within after touched { cache with pager := some after } (viewOf touched flat))
    (member : root ∈ touched) :
    Ensures .must (btreeCreate cache) fun out => out.1 = some (btreeOpen root) ∧
      ∃ empty, LeafLayout empty pageSize [] ∧
        Within after touched out.2 (Function.update (viewOf touched flat) root (some empty)) := by
  obtain ⟨empty, emptyRun, layout⟩ := emptyLeaf_ok
  have found : viewOf touched flat root = some (flat root) := viewOf_eq_some.mpr ⟨member, rfl⟩
  have returns : Ensures .must (emptyLeaf >>= fun data => (return some data : Except Fault _))
      (· = some empty) := by
    rw [emptyRun]
    exact Ensures.ok rfl
  simp only [btreeCreate, attached, allocate]
  refine ((within_serves _ _).write within found returns).bind ?_
  rintro ⟨_, next⟩ ⟨_, rfl, rfl, free⟩
  exact Ensures.ok ⟨rfl, empty, layout, free⟩

/-- A tree can be created over a new database. -/
theorem created_tree : ∃ tree next,
    btreeCreate (pageCacheCreate 256 4 (some newPager)) = .ok (some tree, next) ∧
      tree.isOpen = true := by
  decide +kernel

/-- The insertions into a new tree build the map of the first successful insertions: no page access
faults, the root page stays laid out, and an insertion that fails leaves the page unchanged. -/
theorem leaf_tree_refines_map {defaultCacheSize maxPages : Int} {pager : Option Pager}
    {cache created : PageCache} {tree : BTree}
    (run : Relation.ReflTransGen BelowCapacity (pageCacheCreate defaultCacheSize maxPages pager)
      cache)
    (room : cache.count < cache.maxPages) (create : btreeCreate cache = .ok (some tree, created))
    (inserts : List (UInt64 × List UInt8))
    (small : ∀ insert ∈ inserts, insert.2.length ≤ pageSize) :
    ∃ results final, insertAll tree created inserts = .ok (results, final) ∧
      (∃ data start cells, residentPage final tree.rootPage = some data ∧
        LeafLayout data start cells) ∧
      (∀ key, ∃ next, btreeLookup final tree key =
        .ok (firstInserted key inserts results, next)) ∧
      ∀ key value, value.length ≤ pageSize → ∃ done next,
        btreeInsert final tree key value = .ok (done, next) ∧
        (done = false → residentPage next tree.rootPage = residentPage final tree.rootPage) := by
  obtain ⟨opened, view, data, resident, root, layout⟩ :=
    btreeCreate_resident (usable_of_run run) room create
  obtain ⟨⟨results, final⟩, inserted, last, offset, cells, kept, layoutLast, entries, -⟩ :=
    resident_serves.insertAll resident opened root layout _ fun _ => small
  have rootLast : residentPage final tree.rootPage = some last := by
    rw [kept.same, update_self]
  refine ⟨results, final, inserted, ⟨last, offset, cells, rootLast, layoutLast⟩, fun key => ?_,
    fun key value short => ?_⟩
  · obtain ⟨⟨_, next⟩, lookup, rfl, -⟩ := resident_serves.lookup kept opened
      (update_self ..) layoutLast key
    rw [entries] at lookup
    exact ⟨next, lookup⟩
  · obtain ⟨⟨done, next⟩, insertion, cases⟩ := resident_serves.insert kept opened
      (update_self ..) layoutLast key fun _ => short
    refine ⟨done, next, insertion, fun failed => ?_⟩
    rcases cases with ⟨same, -⟩ | ⟨succeeded, -⟩
    · rw [same.same, kept.same]
    · exact absurd (succeeded.symm.trans failed) nofun

theorem leaf_tree_refines_map_twice : ∃ pager tree created results final,
    btreeCreate (pageCacheCreate 256 4 (some pager)) = .ok (some tree, created) ∧
      insertAll tree created [(5, [1, 2, 3]), (5, [4])] = .ok (results, final) ∧
      ∀ key, ∃ next, btreeLookup final tree key =
        .ok (firstInserted key [(5, [1, 2, 3]), (5, [4])] results, next) := by
  obtain ⟨tree, created, create, -⟩ := created_tree
  obtain ⟨results, final, inserted, -, lookup, -⟩ := leaf_tree_refines_map
    .refl
    (by decide) create [(5, [1, 2, 3]), (5, [4])] (by decide)
  exact ⟨newPager, tree, created, results, final, create, inserted, lookup⟩

end TinyDb

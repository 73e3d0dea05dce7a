/-
This file proves that trees survive closing and opening the database.

The proof joins the layers. The header of the file counts every page of a tree, so
the reopened pager can read it. While the trees fit into the cache, the cache
stands for an array of pages, and closing leaves that array in the file. A cache
over the reopened file stands for the same array, so the same leaves are decoded,
and the scans of the trees yield what they yielded before.
-/

import TinyDb.CacheFlush
import TinyDb.LeafTree
import TinyDb.PagerReopen

namespace TinyDb

open Heaps Posix Relation List Function

variable {page : Addr} {trees : List BTree} {root : UInt32} {view : View} {cache : PageCache}
  {pager : Pager} {flat : UInt32 → PageData}

/-! ### Files that can be opened again -/

/-- The header can be read, and counts the pages of the handle. -/
structure Pager.Recorded (pager : Pager) : Prop where
  size : headerSize ≤ pager.fd.file.size
  magic : (headerOf pager.fd.file).magic = pagerMagic
  pageCount : (headerOf pager.fd.file).pageCount = pager.pageCount
  positive : pager.pageCount ≠ 0
  access : pager.path.access = .readWrite

section Recorded

variable {pager next : Pager} {path after : Path} {page : UInt32}

theorem created_recorded (created : pagerCreate path = (some pager, after)) : pager.Recorded := by
  obtain ⟨pages, -, -, -, access⟩ := pagerCreate_spec created
  have mirrored := created_mirrored created
  refine ⟨mirrored.size, mirrored.magic, mirrored.pageCount, ?_, access⟩
  rw [pages]
  decide

theorem opened_recorded (opened : pagerOpen path = (some pager, after)) (quiet : pager.Quiet)
    (positive : pager.pageCount ≠ 0) : pager.Recorded := by
  obtain ⟨-, pages, -, -, magic, size, access⟩ := pagerOpen_spec opened
  exact ⟨size, magic, pages.symm, positive, access quiet.writable⟩

theorem Pager.Recorded.of_same (recorded : pager.Recorded) (same : SamePages pager next)
    (header : headerOf next.fd.file = headerOf pager.fd.file) : next.Recorded where
  size := Nat.le_trans recorded.size same.size
  magic := by rw [header, recorded.magic]
  pageCount := by rw [header, recorded.pageCount, same.pageCount]
  positive := by rw [same.pageCount]; exact recorded.positive
  access := by rw [same.path, recorded.access]

theorem Pager.Recorded.onlyRead (recorded : pager.Recorded) (only : OnlyRead pager next) :
    next.Recorded :=
  recorded.of_same only.same (by rw [only.file])

theorem Pager.Recorded.allocate (recorded : pager.Recorded)
    (allocate : pagerAllocatePage pager = (some page, next))
    (room : pager.firstFreePage = 0 → pager.pageCount < next.pageCount) : next.Recorded := by
  by_cases empty : pager.firstFreePage = 0
  · obtain ⟨-, pages, -, -, path, -⟩ := pagerAllocatePage_fresh allocate empty
    have less := room empty
    have wraps : pager.pageCount ≠ 0xFFFFFFFF := by
      intro last
      rw [pages, last] at less
      exact absurd less (by decide)
    obtain ⟨size, header⟩ := headerOf_extended allocate empty wraps
    refine ⟨size, by rw [header]; exact recorded.magic, by rw [header, pages], fun zero => ?_,
      by rw [path, recorded.access]⟩
    rw [zero] at less
    exact absurd less (UInt32.not_lt.mpr UInt32.zero_le)
  · obtain ⟨-, file, pages, -, -, path, -⟩ := pagerAllocatePage_reuse allocate empty
    exact ⟨by rw [file]; exact recorded.size, by rw [file]; exact recorded.magic,
      by rw [file, pages]; exact recorded.pageCount, by rw [pages]; exact recorded.positive,
      by rw [path, recorded.access]⟩

/-- After closing, the handle can be opened again, over the same file. -/
theorem Pager.Recorded.reopen (recorded : pager.Recorded) (quiet : pager.Quiet) :
    ∃ reopened path, pagerOpen (pagerClose pager) = (some reopened, path) ∧ reopened.Quiet ∧
      reopened.fd.file = pager.fd.file ∧ reopened.pageCount = pager.pageCount := by
  obtain ⟨schedule, access⟩ := pagerClose_quiet quiet
  rw [recorded.access] at access
  obtain ⟨reopened, path, opened, quietReopened⟩ := pagerOpen_of_nil (pagerClose_file _)
    schedule (by rw [access]; decide) recorded.size recorded.magic
  obtain ⟨file, pages, -⟩ := ReopensAs.fields ⟨path, opened⟩
  exact ⟨reopened, path, opened, quietReopened access, file, pages.trans recorded.pageCount⟩

end Recorded

/-! ### Allocating the root of a tree -/

section Allocate

variable {cache next : PageCache} {pager after : Pager} {flat : UInt32 → PageData}
  {ids touched : List UInt32} {root : UInt32}

/-- Allocating a page keeps the array on the pages of the file. -/
theorem Store.allocate (store : Store cache pager flat)
    (allocate : pagerAllocatePage pager = (some root, after))
    (room : pager.firstFreePage = 0 → pager.pageCount < after.pageCount)
    (inside : ∀ addr read, coreOf cache.heap addr = some read →
      read.id ≠ 0 ∧ pager.Holds read.id) :
    ∃ other, Store { cache with pager := some after } after other ∧
      ∀ pageNum, pageNum ≠ 0 → pager.Holds pageNum → other pageNum = flat pageNum := by
  classical
  obtain ⟨bucket, hash⟩ := store.hash
  let other pageNum := if pageNum ≠ 0 ∧ pager.Holds pageNum then flat pageNum
    else diskPage after.fd.file pageNum
  refine ⟨other, ⟨⟨bucket, hash.attach _⟩, rfl,
    fun addr read found => ?_, fun pageNum clean => ?_⟩,
    fun pageNum nonzero holds => if_pos ⟨nonzero, holds⟩⟩
  · rw [store.resident _ _ found]
    exact (if_pos (inside _ _ found)).symm
  · by_cases kept : pageNum ≠ 0 ∧ pager.Holds pageNum
    · have same := (pagerAllocatePage_keeps allocate room kept.2 kept.1).2
      rw [same, store.disk _ clean]
      exact (if_pos kept).symm
    · exact (if_neg kept).symm

theorem Ready.allocate (ready : Ready cache pager flat ids) (recorded : pager.Recorded)
    (allocate : pagerAllocatePage pager = (some root, after))
    (room : pager.firstFreePage = 0 → pager.pageCount < after.pageCount)
    (inside : ∀ pageNum ∈ ids, pageNum ≠ 0 ∧ pager.Holds pageNum) :
    ∃ other, Ready { cache with pager := some after } after other ids ∧
      ∀ pageNum, pageNum ≠ 0 → pager.Holds pageNum → other pageNum = flat pageNum := by
  obtain ⟨other, store, same⟩ := ready.store.allocate allocate room fun addr read found =>
    inside _ ((ready.residents.members _).mpr ⟨addr, read, found, rfl⟩)
  exact ⟨other, ⟨store, ready.quiet.of_allocate recorded.size allocate,
    ready.links.sameShape (.attach _ _),
    ready.residents.sameShape (.attach _ _)⟩, same⟩

/-- A page that is loaded is a page of the file. -/
theorem HashSound.get_holds {bucket : Nat → List Addr} (hash : HashSound cache bucket)
    (attached : cache.pager = some pager)
    (absent : ∀ addr read, coreOf cache.heap addr = some read → read.id ≠ root)
    (free : cache.count < cache.maxPages) (run : pageCacheGet cache root = .ok (some page, next)) :
    pager.Holds root := by
  rcases pageCacheGet_cases run with ⟨found, search, -, -⟩ | ⟨-, -, failed, -⟩ |
    ⟨-, -, done, room, making, finish⟩
  · obtain ⟨read, core, number⟩ := hash.find_some search
    exact absurd number (absent _ _ core)
  · cases failed
  · obtain ⟨rfl, rfl⟩ := Prod.mk.inj (Except.ok.inj
      ((makeRoom_of_room _ (by exact free)).symm.trans making))
    obtain ⟨other, present, load⟩ := finish
    cases (attached.symm.trans present)
    obtain ⟨-, -, failed, -⟩ | ⟨data, last, reading, -, -⟩ := loadPage_cases load
    · cases failed
    · exact pagerReadPage_holds reading

/-- The root of a tree that was created is a page of the file, and the page count did not wrap. -/
theorem Ready.pinned_holds (ready : Ready cache pager flat ids) (recorded : pager.Recorded)
    (inside : ∀ pageNum ∈ ids, pageNum ≠ 0 ∧ pager.Holds pageNum)
    (allocate : pagerAllocatePage pager = (some root, after))
    (free : root ∈ ids ∨ (ids.length : Int) < cache.maxPages)
    (run : pageCacheGet { cache with pager := some after } root = .ok (some page, next)) :
    root ≠ 0 ∧ after.Holds root ∧ (pager.firstFreePage = 0 → pager.pageCount < after.pageCount) := by
  obtain ⟨bucket, hash⟩ := ready.store.hash
  have hashAfter := hash.attach (some after)
  have loaded : root ∉ ids → after.Holds root := fun outside => by
    have less := free.resolve_left outside
    rw [← ready.residents.counted] at less
    exact hashAfter.get_holds rfl (ready.residents.absent outside) less run
  by_cases empty : pager.firstFreePage = 0
  · obtain ⟨rfl, pages, -⟩ := pagerAllocatePage_fresh allocate empty
    -- the page behind the last one is not resident
    have holds := loaded fun member =>
      UInt32.lt_irrefl _ ((inside _ member).2.1.resolve_right recorded.positive)
    exact ⟨recorded.positive, holds, fun _ => holds.1.resolve_right recorded.positive⟩
  · obtain ⟨rfl, file, pages, -⟩ := pagerAllocatePage_reuse allocate empty
    refine ⟨empty, ?_, fun zero => absurd zero empty⟩
    by_cases member : pager.firstFreePage ∈ ids
    · have holds := (inside _ member).2
      rw [Pager.Holds, file, pages]
      exact holds
    · exact loaded member

end Allocate

/-! ### Trees over one cache -/

/-- A cache and the trees that were created over it. -/
structure Forest where
  cache : PageCache
  trees : List BTree

variable {forest : Forest}

/-- The root pages of some trees. -/
def rootsOf (trees : List BTree) : List UInt32 := (trees.map BTree.rootPage).dedup

section Trees

variable {tree : BTree} {next : PageCache}

theorem mem_rootsOf (member : tree ∈ trees) : tree.rootPage ∈ rootsOf trees :=
  mem_dedup.mpr (mem_map_of_mem member)

theorem exists_of_mem_rootsOf (member : root ∈ rootsOf trees) :
    ∃ tree ∈ trees, tree.rootPage = root :=
  mem_map.mp (mem_dedup.mp member)

/-- A tree is created, as long as the trees have no more pages than the cache; or something is
inserted into one of them. -/
inductive ForestStep : Forest → Forest → Prop
  | create {forest : Forest} {tree : BTree} {next : PageCache}
      (fits : ((rootsOf (forest.trees ++ [tree])).length : Int) ≤ forest.cache.maxPages)
      (run : btreeCreate forest.cache = .ok (some tree, next)) :
      ForestStep forest { cache := next, trees := forest.trees ++ [tree] }
  | insert {forest : Forest} {tree : BTree} {key : UInt64} {value : List UInt8} {done : Bool}
      {next : PageCache} (member : tree ∈ forest.trees)
      (run : btreeInsert forest.cache tree key value = .ok (done, next)) :
      ForestStep forest { forest with cache := next }

/-- The tree is open and its root is a leaf of the view. -/
structure Planted (view : View) (tree : BTree) : Prop where
  opened : tree.isOpen = true
  nonzero : tree.rootPage ≠ 0
  leaf : ∃ data start cells, view tree.rootPage = some data ∧ LeafLayout data start cells

/-- The trees fit into the cache, and the file counts their pages. -/
def Forest.Sound (forest : Forest) : Prop :=
  ∃ base view, base.Recorded ∧ Within base (rootsOf forest.trees) forest.cache view ∧
    ∀ tree ∈ forest.trees, Planted view tree

theorem Planted.update {data : PageData} {start : Nat} {cells : List Cell}
    (planted : Planted view tree) (layout : LeafLayout data start cells) :
    Planted (Function.update view root (some data)) tree := by
  refine ⟨planted.opened, planted.nonzero, ?_⟩
  by_cases here : tree.rootPage = root
  · exact ⟨data, start, cells, by rw [here, update_self], layout⟩
  · rw [update_of_ne here]
    exact planted.leaf

/-- A tree that was created has an allocated page, and the page was pinned. -/
theorem btreeCreate_allocated (attached : cache.pager = some pager)
    (run : btreeCreate cache = .ok (some tree, next)) :
    ∃ after page pinned, pagerAllocatePage pager = (some tree.rootPage, after) ∧
      pageCacheGet { cache with pager := some after } tree.rootPage = .ok (some page, pinned) := by
  cases allocate : pagerAllocatePage pager with
  | mk answer after =>
    cases answer with
    | none =>
      simp only [btreeCreate, attached, allocate] at run
      cases run
    | some root =>
      simp only [btreeCreate, attached, allocate, pinWrite, bind_eq_ok] at run
      obtain ⟨⟨written, last⟩, ⟨⟨result, pinned⟩, get, write⟩, finish⟩ := run
      cases result with
      | none =>
        cases write
        cases finish
      | some page =>
        obtain ⟨opened, -⟩ := Prod.mk.inj (Except.ok.inj finish)
        split at opened
        · obtain rfl := Option.some.inj opened
          exact ⟨after, page, pinned, rfl, get⟩
        · cases opened

theorem Forest.Sound.create (sound : forest.Sound)
    (fits : ((rootsOf (forest.trees ++ [tree])).length : Int) ≤ forest.cache.maxPages)
    (run : btreeCreate forest.cache = .ok (some tree, next)) :
    Forest.Sound { cache := next, trees := forest.trees ++ [tree] } := by
  obtain ⟨base, _, recorded, ⟨-, holds, pager, flat, ids, ready, only, subset, rfl⟩, planted⟩ := sound
  have recordedPager := recorded.onlyRead only
  have old : ∀ pageNum ∈ rootsOf forest.trees, pageNum ≠ 0 ∧ pager.Holds pageNum := by
    intro pageNum member
    obtain ⟨other, inTrees, rfl⟩ := exists_of_mem_rootsOf member
    exact ⟨(planted _ inTrees).nonzero, only.same.holds (holds _ member)⟩
  have grows : rootsOf forest.trees ⊆ rootsOf (forest.trees ++ [tree]) := by
    intro pageNum member
    obtain ⟨other, inTrees, rfl⟩ := exists_of_mem_rootsOf member
    exact mem_rootsOf (mem_append_left _ inTrees)
  have new : tree.rootPage ∈ rootsOf (forest.trees ++ [tree]) := mem_rootsOf (by simp)
  obtain ⟨after, page, pinned, allocate, get⟩ := btreeCreate_allocated ready.store.attached run
  obtain ⟨nonzero, holdsRoot, room⟩ := ready.pinned_holds recordedPager
    (fun pageNum member => old _ (subset member)) allocate
    (ready.room (List.Subset.trans subset grows) new fits) get
  obtain ⟨other, readyAfter, same⟩ := ready.allocate recordedPager allocate room
    fun pageNum member => old _ (subset member)
  have within : Within after (rootsOf (forest.trees ++ [tree]))
      { forest.cache with pager := some after }
      (viewOf (rootsOf (forest.trees ++ [tree])) other) := by
    refine ⟨fun _ => fits, fun pageNum member => ?_, after, other, ids, readyAfter, .refl _,
      List.Subset.trans subset grows, rfl⟩
    obtain ⟨owner, inTrees, rfl⟩ := exists_of_mem_rootsOf member
    rcases mem_append.mp inTrees with inOld | isNew
    · obtain ⟨nonzeroOld, holdsOld⟩ := old _ (mem_rootsOf inOld)
      exact (pagerAllocatePage_keeps allocate room holdsOld nonzeroOld).1
    · rw [mem_singleton.mp isNew]
      exact holdsRoot
  obtain ⟨opened, empty, layout, withinNext⟩ :=
    (Within.create ready.store.attached allocate within new).elim run
  refine ⟨after, _, recordedPager.allocate allocate room, withinNext, fun owner inTrees => ?_⟩
  rcases mem_append.mp inTrees with inOld | isNew
  · refine Planted.update ⟨(planted _ inOld).opened, (planted _ inOld).nonzero, ?_⟩ layout
    obtain ⟨data, start, cells, found, layoutOld⟩ := (planted _ inOld).leaf
    obtain ⟨member, rfl⟩ := viewOf_eq_some.mp found
    obtain ⟨nonzeroOld, holdsOld⟩ := old _ member
    exact ⟨flat _, start, cells,
      viewOf_eq_some.mpr ⟨grows member, same _ nonzeroOld holdsOld⟩, layoutOld⟩
  · obtain rfl := mem_singleton.mp isNew
    refine ⟨?_, nonzero, empty, pageSize, [], update_self .., layout⟩
    rw [Option.some.inj opened]
    rfl

theorem Forest.Sound.insert {key : UInt64} {value : List UInt8} {done : Bool} (sound : forest.Sound)
    (member : tree ∈ forest.trees)
    (run : btreeInsert forest.cache tree key value = .ok (done, next)) :
    Forest.Sound { forest with cache := next } := by
  obtain ⟨base, view, recorded, within, planted⟩ := sound
  obtain ⟨data, start, cells, found, layout⟩ := (planted _ member).leaf
  have serves : Serves .may _ _ := (within_serves base (rootsOf forest.trees)).weaken
  rcases (serves.insert within (planted tree member).opened found layout key nofun).elim run with
    ⟨same, -⟩ | ⟨-, -, -, new, offset, withinNext, -, layoutNew⟩
  · exact ⟨base, view, recorded, same, planted⟩
  · exact ⟨base, _, recorded, withinNext, fun owner inTrees => (planted _ inTrees).update layoutNew⟩

theorem ForestStep.sound {before after : Forest} (step : ForestStep before after)
    (sound : before.Sound) : after.Sound := by
  cases step with
  | create fits run => exact sound.create fits run
  | insert member run => exact sound.insert member run

theorem created_forest_sound (defaultCacheSize maxPages : Int) (quiet : pager.Quiet)
    (recorded : pager.Recorded) :
    Forest.Sound { cache := pageCacheCreate defaultCacheSize maxPages (some pager), trees := [] } :=
  ⟨pager, _, recorded, ⟨fun nonempty => absurd rfl nonempty, nofun, pager, diskPage _, [],
    created_ready _ _ quiet, .refl _, nil_subset _, rfl⟩, nofun⟩

end Trees

/-! ### Scans -/

/-- The scans of some trees, one after the other. -/
def scanTrees : PageCache → List BTree →
    Except Fault (List (List (UInt64 × List UInt8)) × PageCache)
  | cache, [] => return ([], cache)
  | cache, tree :: rest => do
    let (entries, cache) ← btreeScan cache tree
    let (others, cache) ← scanTrees cache rest
    return (entries :: others, cache)

theorem Serves.scanTrees {demand : Demand} {Free : PageCache → View → Prop}
    {Held : PageCache → View → Addr → Prop} (serves : Serves demand Free Held)
    (free : Free cache view) (contents : BTree → List Cell) (trees : List BTree)
    (leaves : ∀ tree ∈ trees, tree.isOpen = true ∧ ∃ data start,
      view tree.rootPage = some data ∧ LeafLayout data start (contents tree)) :
    Ensures demand (TinyDb.scanTrees cache trees) fun out =>
      out.1 = trees.map (fun tree => (contents tree).map Cell.entry) ∧ Free out.2 view := by
  induction trees generalizing cache with
  | nil => exact Ensures.ok ⟨rfl, free⟩
  | cons tree rest inductionHypothesis =>
    obtain ⟨opened, data, start, root, layout⟩ := leaves _ mem_cons_self
    refine (serves.scan free opened root layout).bind ?_
    rintro ⟨_, middle⟩ ⟨rfl, free⟩
    refine (inductionHypothesis free fun other member =>
      leaves _ (mem_cons_of_mem _ member)).bind ?_
    rintro ⟨_, next⟩ ⟨rfl, free⟩
    exact Ensures.ok ⟨rfl, free⟩

/-! ### Closing -/

/-- `btree_close` for every tree, and `page_cache_destroy`. -/
def closeForest (forest : Forest) : Except Fault (Option Pager) := do
  let cache ← forest.trees.foldlM (fun cache _ => btreeClose cache) forest.cache
  pageCacheDestroy cache

/-- Closing leaves the array in the file and the header untouched. -/
theorem Ready.close {ids : List UInt32} (ready : Ready cache pager flat ids) (outside : 0 ∉ ids)
    (trees : List BTree) :
    ∃ final, closeForest { cache, trees } = .ok (some final) ∧ final.Quiet ∧
      SamePages pager final ∧ diskPage final.fd.file = flat ∧
      headerOf final.fd.file = headerOf pager.fd.file := by
  have nonzero : ∀ {cache pager}, Ready cache pager flat ids →
      ∀ addr read, coreOf cache.heap addr = some read → read.id ≠ 0 := by
    intro cache pager ready addr read found zero
    exact outside ((ready.residents.members 0).mpr ⟨addr, read, found, zero⟩)
  induction trees generalizing cache pager with
  | nil =>
    obtain ⟨final, run, quiet, same, disk, header⟩ := ready.store.destroy ready.quiet
    exact ⟨final, run, quiet, same, disk, header (nonzero ready)⟩
  | cons tree rest inductionHypothesis =>
    obtain ⟨total, middle, between, pages, flush, readyMiddle, flushes⟩ := ready.flush
    obtain ⟨final, run, quiet, same, disk, header⟩ := inductionHypothesis readyMiddle
    refine ⟨final, ?_, quiet, flushes.same.trans same, disk,
      header.trans (flushes.header (nonzero ready))⟩
    rw [closeForest, foldlM_cons, btreeClose, flush]
    exact run

/-- A new cache over the reopened file serves the pages that fit into it. -/
theorem reopened_within {final reopened : Pager} {touched : List UInt32}
    (defaultCacheSize maxPages : Int) (quiet : reopened.Quiet)
    (file : reopened.fd.file = final.fd.file) (pages : reopened.pageCount = final.pageCount)
    (disk : diskPage final.fd.file = flat) (holds : ∀ pageNum ∈ touched, final.Holds pageNum)
    (fits : (touched.length : Int) ≤ clampMaxPages defaultCacheSize maxPages) :
    Within reopened touched (pageCacheCreate defaultCacheSize maxPages (some reopened))
      (viewOf touched flat) := by
  refine ⟨fun _ => fits, fun pageNum member => ?_, reopened, flat, [], ?_, .refl _,
    nil_subset _, rfl⟩
  · rw [Pager.Holds, file, pages]
    exact holds _ member
  · have ready := created_ready defaultCacheSize maxPages quiet
    rw [file, disk] at ready
    exact ready

/-- Trees created over one cache, with anything inserted into them, read back the same after the
database was closed and opened: the scans of any of the trees, as many as fit into the new cache,
yield what they yielded before. -/
theorem trees_survive_reopen {defaultCacheSize maxPages newMaxPages : Int} {pager : Pager}
    {path opened : Path} {forest : Forest}
    (source : pagerCreate path = (some pager, opened) ∨
      pagerOpen path = (some pager, opened) ∧ pager.pageCount ≠ 0)
    (quiet : pager.Quiet)
    (run : ReflTransGen ForestStep
      { cache := pageCacheCreate defaultCacheSize maxPages (some pager), trees := [] } forest)
    (trees : List BTree) (chosen : trees ⊆ forest.trees)
    (fits : ((rootsOf trees).length : Int) ≤ clampMaxPages defaultCacheSize newMaxPages) :
    ∃ contents scanned final reopened reopenedPath after,
      scanTrees forest.cache trees = .ok (contents, scanned) ∧
      closeForest { forest with cache := scanned } = .ok (some final) ∧
      pagerOpen (pagerClose final) = (some reopened, reopenedPath) ∧
      scanTrees (pageCacheCreate defaultCacheSize newMaxPages (some reopened))
        (trees.map fun tree => btreeOpen tree.rootPage) = .ok (contents, after) := by
  have recorded : pager.Recorded := by
    rcases source with created | ⟨opened, positive⟩
    · exact created_recorded created
    · exact opened_recorded opened quiet positive
  obtain ⟨base, view, recordedBase, within, planted⟩ := Runs.run_invariant _
    (fun _ _ step => step.sound) run (created_forest_sound _ _ quiet recorded)
  choose! data start _ root layout using fun tree member => (planted tree member).leaf
  obtain ⟨⟨_, scanned⟩, scan, rfl, withinScanned⟩ :=
    (within_serves _ _).scanTrees within _ _ fun tree member =>
      ⟨(planted _ (chosen member)).opened, data _, start _, root _ (chosen member),
        layout _ (chosen member)⟩
  obtain ⟨-, holds, last, flat, ids, ready, only, subset, rfl⟩ := withinScanned
  have outside : 0 ∉ ids := by
    intro member
    obtain ⟨tree, inTrees, zero⟩ := exists_of_mem_rootsOf (subset member)
    exact (planted _ inTrees).nonzero zero
  obtain ⟨final, close, quietFinal, same, disk, header⟩ := ready.close outside _
  have recordedFinal := (recordedBase.onlyRead only).of_same same header
  obtain ⟨reopened, reopenedPath, reopen, quietReopened, file, pages⟩ :=
    recordedFinal.reopen quietFinal
  have holdsFinal : ∀ pageNum ∈ rootsOf trees, final.Holds pageNum := by
    intro pageNum member
    obtain ⟨tree, inTrees, rfl⟩ := exists_of_mem_rootsOf member
    exact same.holds (only.same.holds (holds _ (mem_rootsOf (chosen inTrees))))
  have withinReopened := reopened_within _ _ quietReopened file pages disk
    holdsFinal fits
  have unchanged : (trees.map fun tree => btreeOpen tree.rootPage) = trees := by
    refine (map_congr_left fun tree member => ?_).trans (map_id' _)
    rw [btreeOpen, ← (planted _ (chosen member)).opened]
  obtain ⟨⟨_, after⟩, scanAgain, rfl, -⟩ :=
    (within_serves _ _).scanTrees withinReopened _ _
      fun tree member => ⟨(planted _ (chosen member)).opened, data _, start _,
        viewOf_eq_some.mpr ⟨mem_rootsOf member,
          (viewOf_eq_some.mp (root _ (chosen member))).2⟩, layout _ (chosen member)⟩
  refine ⟨_, scanned, final, reopened, reopenedPath, after, scan, close, reopen, ?_⟩
  rw [unchanged]
  exact scanAgain

theorem rootsOf_length_le (trees : List BTree) : (rootsOf trees).length ≤ trees.length := by
  have shorter := (dedup_sublist (trees.map BTree.rootPage)).length_le
  rwa [length_map] at shorter

instance scansDecidableEq : DecidableEq (List (List (UInt64 × List UInt8))) := inferInstance

/-- Two trees with two entries and one. -/
theorem trees_survive_reopen_two : ∃ (pager : Pager) (forest : Forest) (first second : BTree),
    ReflTransGen ForestStep { cache := pageCacheCreate 256 4 (some pager), trees := [] } forest ∧
    forest.trees = [first, second] ∧
    ∃ scanned final reopened reopenedPath after,
      scanTrees forest.cache [first, second] =
        .ok ([[(7, [1, 2]), (3, [])], [(5, [9])]], scanned) ∧
      closeForest { forest with cache := scanned } = .ok (some final) ∧
      pagerOpen (pagerClose final) = (some reopened, reopenedPath) ∧
      scanTrees (pageCacheCreate 256 2 (some reopened))
          [btreeOpen first.rootPage, btreeOpen second.rootPage] =
        .ok ([[(7, [1, 2]), (3, [])], [(5, [9])]], after) := by
  obtain ⟨first, one, createFirst, capacity, second, two, createSecond, three, insertOne, four, insertTwo,
      five, insertThree, entries, scan⟩ :
      ∃ first one,
        btreeCreate (pageCacheCreate 256 4 (some newPager)) = .ok (some first, one) ∧
          one.maxPages = 4 ∧
      ∃ second two, btreeCreate one = .ok (some second, two) ∧
      ∃ three, btreeInsert two first 7 [1, 2] = .ok (true, three) ∧
      ∃ four, btreeInsert three second 5 [9] = .ok (true, four) ∧
      ∃ five, btreeInsert four first 3 [] = .ok (true, five) ∧
      ∃ scanned, scanTrees five [first, second] =
        .ok ([[(7, [1, 2]), (3, [])], [(5, [9])]], scanned) := by
    decide +kernel
  have quiet : newPager.Quiet := by decide +kernel
  have roots : ((rootsOf [first, second]).length : Int) ≤ 2 :=
    Int.ofNat_le.mpr (rootsOf_length_le [first, second])
  have run : ReflTransGen ForestStep ⟨pageCacheCreate 256 4 (some newPager), []⟩
      ⟨five, [first, second]⟩ := by
    refine .tail (.tail (.tail (.tail (.single (.create ?_ createFirst)) (.create ?_ createSecond))
      (.insert ?_ insertOne)) (.insert ?_ insertTwo)) (.insert ?_ insertThree)
    · simp [rootsOf, pageCacheCreate, clampMaxPages, pagerMaxPages]
    · exact roots.trans (show 2 ≤ one.maxPages by omega)
    all_goals simp
  obtain ⟨contents, scanned, final, reopened, reopenedPath, after, before, close, reopen, again⟩ :=
    trees_survive_reopen (Or.inl newPager_created) quiet run [first, second] (List.Subset.refl _)
      (show _ ≤ clampMaxPages 256 2 from roots)
  obtain ⟨rfl, rfl⟩ := Prod.mk.inj (Except.ok.inj (before.symm.trans scan))
  exact ⟨newPager, _, first, second, run, rfl, scanned, final, reopened, reopenedPath, after, scan,
    close, reopen, again⟩

end TinyDb

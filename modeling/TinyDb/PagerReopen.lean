/-
This file proves when closing and opening the database keeps the allocator.

An open handle takes the page count and the freelist head from the header of the
file, so reopening keeps them exactly when the header mirrors the handle. The
allocation that extends the file writes the page count to the header, and freeing
a page writes the freelist fields. The allocation that takes a page off the
freelist writes nothing: from that moment until the next free the header still
lists the page, and a handle opened then hands it out a second time.
-/

import TinyDb.Freelist

namespace TinyDb

open Bytes Posix Chains Runs Relation

variable {next reopened pager : Pager} {page : UInt32} {allocated free : List UInt32}

/-! ### Sessions -/

/-- A handle with the pages handed out and not yet given back. It is stale when the last call
that touched the freelist took a page off it. -/
structure Session where
  pager : Pager
  allocated : List UInt32
  stale : Bool

variable {before after session : Session}

/-- One successful call. `mayFree` says which pages may be freed while some are allocated, and
the file is extended only below the largest page count. -/
inductive SessionStep (mayFree : List UInt32 → UInt32 → Prop) : Session → Session → Prop
  | extend {session : Session} {next : Pager} {page : UInt32}
      (empty : session.pager.firstFreePage = 0) (room : session.pager.pageCount ≠ 0xFFFFFFFF)
      (run : pagerAllocatePage session.pager = (some page, next)) :
      SessionStep mayFree session
        { session with pager := next, allocated := page :: session.allocated }
  | reuse {session : Session} {next : Pager} {page : UInt32}
      (nonempty : session.pager.firstFreePage ≠ 0)
      (run : pagerAllocatePage session.pager = (some page, next)) :
      SessionStep mayFree session
        { pager := next, allocated := page :: session.allocated, stale := true }
  | free {session : Session} {next : Pager} {page : UInt32}
      (allowed : mayFree session.allocated page)
      (run : pagerFreePage session.pager page = (true, next)) :
      SessionStep mayFree session
        { pager := next, allocated := session.allocated.erase page, stale := false }

/-- The sessions that start at `pager_create`. -/
def SessionRun (mayFree : List UInt32 → UInt32 → Prop) (session : Session) : Prop :=
  ∃ path opened created, pagerCreate path = (some created, opened) ∧
    ReflTransGen (SessionStep mayFree) { pager := created, allocated := [], stale := false } session

/-- The three fields that make up the allocator agree. -/
structure SameAllocator (pager other : Pager) : Prop where
  pageCount : other.pageCount = pager.pageCount
  firstFreePage : other.firstFreePage = pager.firstFreePage
  freePageCount : other.freePageCount = pager.freePageCount

/-- The handle that `pager_open` gives after `pager_close`. -/
def ReopensAs (pager reopened : Pager) : Prop :=
  ∃ path, pagerOpen (pagerClose pager) = (some reopened, path)

/-! ### The header mirrors the handle -/

/-- The header can be read, holds the page count of the handle and, unless the session is stale,
its freelist. -/
structure Mirrored (session : Session) : Prop where
  size : headerSize ≤ session.pager.fd.file.size
  magic : (headerOf session.pager.fd.file).magic = pagerMagic
  pageCount : (headerOf session.pager.fd.file).pageCount = session.pager.pageCount
  freelist : session.stale = false →
    (headerOf session.pager.fd.file).firstFreePage = session.pager.firstFreePage ∧
      (headerOf session.pager.fd.file).freePageCount = session.pager.freePageCount

section Header

variable {pager : Pager} {session : Session}

theorem created_mirrored {path opened : Path} (created : pagerCreate path = (some pager, opened)) :
    Mirrored { pager, allocated := [], stale := false } := by
  obtain ⟨pages, first, free, file, -⟩ := pagerCreate_spec created
  have header : headerOf pager.fd.file = initHeader := by
    rw [file, headerOf_write_encode]
  refine ⟨?_, ?_, ?_, fun _ => ⟨?_, ?_⟩⟩
  · rw [file, size_write_header]
    exact Nat.le_max_right _ _
  · rw [header]
    rfl
  · rw [header, pages]
    rfl
  · rw [header, first]
    rfl
  · rw [header, free]
    rfl

/-- The header after the file was extended, as long as the page count did not wrap. -/
theorem headerOf_extended (run : pagerAllocatePage pager = (some page, next))
    (empty : pager.firstFreePage = 0) (room : pager.pageCount ≠ 0xFFFFFFFF) :
    headerSize ≤ next.fd.file.size ∧
      headerOf next.fd.file =
        { headerOf pager.fd.file with pageCount := pager.pageCount + 1 } := by
  obtain ⟨-, -, -, -, -, -, file⟩ := pagerAllocatePage_fresh run empty
  have nonzero : pager.pageCount + 1 ≠ 0 := by
    intro zero
    refine room ?_
    rw [UInt32.eq_sub_iff_add_eq.mpr zero]
    decide
  have keeps := headerSize_le_getPageOffset nonzero
  rw [file]
  exact ⟨keeps, by rw [headerOf_truncate _ keeps, headerOf_write_encode]⟩

/-- The header after a page was freed. -/
theorem headerOf_freed (run : pagerFreePage pager page = (true, next)) :
    headerSize ≤ next.fd.file.size ∧
      headerOf next.fd.file = { headerOf pager.fd.file with
        firstFreePage := next.firstFreePage
        freePageCount := next.freePageCount } := by
  obtain ⟨nonzero, -, first, count, -, file⟩ := pagerFreePage_ok run
  rw [file, headerOf_write_encode,
    headerOf_write_page _ _ (headerSize_le_getPageOffset nonzero), first, count]
  exact ⟨Nat.le_max_right _ _, rfl⟩

/-- One call keeps the header in step. -/
theorem SessionStep.mirrored {mayFree : List UInt32 → UInt32 → Prop}
    (step : SessionStep mayFree before after) (mirrored : Mirrored before) : Mirrored after := by
  cases step with
  | extend empty room run =>
    obtain ⟨-, pages, first, count, -⟩ := pagerAllocatePage_fresh run empty
    obtain ⟨size, header⟩ := headerOf_extended run empty room
    refine ⟨size, ?_, ?_, fun fresh => ?_⟩
    · rw [header]
      exact mirrored.magic
    · rw [header, pages]
    · rw [header, first, count, ← empty]
      exact mirrored.freelist fresh
  | reuse nonempty run =>
    obtain ⟨-, file, pages, -⟩ := pagerAllocatePage_reuse run nonempty
    refine ⟨?_, ?_, ?_, nofun⟩
    · rw [file]
      exact mirrored.size
    · rw [file]
      exact mirrored.magic
    · rw [file, pages]
      exact mirrored.pageCount
  | free allowed run =>
    obtain ⟨-, pages, -⟩ := pagerFreePage_ok run
    obtain ⟨size, header⟩ := headerOf_freed run
    refine ⟨size, ?_, ?_, fun _ => ?_⟩
    · rw [header]
      exact mirrored.magic
    · rw [header, pages]
      exact mirrored.pageCount
    · rw [header]
      exact ⟨rfl, rfl⟩

theorem SessionRun.mirrored {mayFree : List UInt32 → UInt32 → Prop}
    (run : SessionRun mayFree session) : Mirrored session := by
  obtain ⟨path, opened, created, start, steps⟩ := run
  exact run_invariant _ (fun _ _ step => step.mirrored) steps (created_mirrored start)

/-- A reopened handle reads the file as the closed one left it. -/
theorem ReopensAs.fields (reopens : ReopensAs pager reopened) :
    reopened.fd.file = pager.fd.file ∧
      reopened.pageCount = (headerOf pager.fd.file).pageCount ∧
      reopened.firstFreePage = (headerOf pager.fd.file).firstFreePage ∧
      reopened.freePageCount = (headerOf pager.fd.file).freePageCount := by
  obtain ⟨path, opened⟩ := reopens
  obtain ⟨someFile, pages, first, count, -⟩ := pagerOpen_spec opened
  rw [pagerClose_file] at someFile
  obtain file := Option.some.inj someFile
  rw [file]
  exact ⟨rfl, pages, first, count⟩

theorem Mirrored.sameAllocator (mirrored : Mirrored session) (fresh : session.stale = false)
    (reopens : ReopensAs session.pager reopened) :
    SameAllocator session.pager reopened := by
  obtain ⟨-, pages, first, count⟩ := reopens.fields
  obtain ⟨firstHeader, countHeader⟩ := mirrored.freelist fresh
  exact ⟨pages.trans mirrored.pageCount, first.trans firstHeader, count.trans countHeader⟩

theorem Mirrored.reopens (mirrored : Mirrored session)
    (quiet : (pagerClose session.pager).schedule = [])
    (access : (pagerClose session.pager).access ≠ .none) :
    ∃ reopened, ReopensAs session.pager reopened := by
  obtain ⟨reopened, path, opened, -⟩ := pagerOpen_of_nil (pagerClose_file _) quiet
    access mirrored.size mirrored.magic
  exact ⟨reopened, path, opened⟩

end Header

/-! ### When only allocated pages are freed -/

/-- Frees of allocated pages only. -/
def Disciplined (mayFree : List UInt32 → UInt32 → Prop) : Prop :=
  ∀ allocated page, mayFree allocated page → page ∈ allocated

/-- The allocator's invariant, and a header that counts too many free pages once it is stale. -/
structure Tracked (session : Session) : Prop where
  sound : ∃ free, FreelistSound session.pager session.allocated free
  behind : session.stale = true →
    session.pager.freePageCount < (headerOf session.pager.fd.file).freePageCount

/-- A nonempty freelist is counted as such, so that taking a page lowers the count. -/
theorem FreelistSound.count_lt (sound : FreelistSound pager allocated free)
    (nonempty : pager.firstFreePage ≠ 0) (run : pagerAllocatePage pager = (some page, next)) :
    next.freePageCount < pager.freePageCount := by
  obtain ⟨rest, rfl, kept⟩ := sound.allocate_reuse run nonempty
  rw [UInt32.lt_iff_toNat_lt, ← kept.counted, ← sound.counted]
  exact Nat.lt_succ_self _

/-- One call keeps a disciplined session tracked. -/
theorem SessionStep.tracked {mayFree : List UInt32 → UInt32 → Prop}
    (disciplined : Disciplined mayFree) (step : SessionStep mayFree before after)
    (holds : Mirrored before ∧ Tracked before) :
    Mirrored after ∧ Tracked after := by
  refine ⟨step.mirrored holds.1, ?_⟩
  obtain ⟨mirrored, ⟨free, sound⟩, behind⟩ := holds
  cases step with
  | extend empty room run =>
    obtain ⟨-, -, -, count, -⟩ := pagerAllocatePage_fresh run empty
    refine ⟨⟨[], sound.allocate_fresh run empty room⟩, fun stale => ?_⟩
    rw [(headerOf_extended run empty room).2, count]
    exact behind stale
  | reuse nonempty run =>
    obtain ⟨-, file, -⟩ := pagerAllocatePage_reuse run nonempty
    have less := sound.count_lt nonempty run
    obtain ⟨rest, -, kept⟩ := sound.allocate_reuse run nonempty
    refine ⟨⟨rest, kept⟩, fun _ => ?_⟩
    rw [file]
    cases stale : before.stale with
    | false =>
      rw [(mirrored.freelist stale).2]
      exact less
    | true => exact UInt32.lt_trans less (behind stale)
  | free allowed run =>
    exact ⟨⟨_, sound.free (disciplined _ _ allowed) run⟩, nofun⟩

theorem SessionRun.tracked {mayFree : List UInt32 → UInt32 → Prop}
    (disciplined : Disciplined mayFree) (run : SessionRun mayFree session) :
    Tracked session := by
  obtain ⟨path, opened, created, start, steps⟩ := run
  refine (run_invariant (fun session => Mirrored _ ∧ Tracked session)
    (fun _ _ step => step.tracked disciplined) steps ?_).2
  exact ⟨created_mirrored start, ⟨[], created_sound start⟩, nofun⟩

theorem FreelistSound.of_same {other : Pager} (sound : FreelistSound pager allocated free)
    (file : other.fd.file = pager.fd.file) (same : SameAllocator pager other) :
    FreelistSound other allocated free where
  chain := by
    rw [file, same.firstFreePage]
    exact sound.chain
  counted := by
    rw [same.freePageCount]
    exact sound.counted
  range := by
    rw [same.pageCount]
    exact sound.range
  positive := by
    rw [same.pageCount]
    exact sound.positive

/-- A disciplined session reopens to the same allocator unless it is stale. -/
theorem Tracked.sameAllocator_iff (tracked : Tracked session) (mirrored : Mirrored session)
    (reopens : ReopensAs session.pager reopened) :
    SameAllocator session.pager reopened ↔ session.stale = false := by
  refine ⟨fun same => ?_, fun fresh => mirrored.sameAllocator fresh reopens⟩
  obtain ⟨-, -, -, count⟩ := reopens.fields
  cases stale : session.stale with
  | false => rfl
  | true =>
    have behind := tracked.behind stale
    rw [← count, same.freePageCount] at behind
    exact absurd behind (UInt32.lt_irrefl _)

/-- Reopening keeps the allocator unless a page has come off the freelist since the last free.
When only allocated pages are freed this is exact, and the reopened handle never hands out a page
that is still allocated. -/
theorem reopen_keeps_allocator {mayFree : List UInt32 → UInt32 → Prop} {session : Session}
    (run : SessionRun mayFree session) :
    (session.stale = false → ∀ reopened, ReopensAs session.pager reopened →
      SameAllocator session.pager reopened) ∧
    ((pagerClose session.pager).schedule = [] → (pagerClose session.pager).access ≠ .none →
      ∃ reopened, ReopensAs session.pager reopened) ∧
    (Disciplined mayFree → ∀ reopened, ReopensAs session.pager reopened →
      (SameAllocator session.pager reopened ↔ session.stale = false) ∧
      (session.stale = false → ∀ later allocated,
        ReflTransGen (AllocatorStep HasRoom) (reopened, session.allocated) (later, allocated) →
        ∀ page next, pagerAllocatePage later = (some page, next) → page ∉ allocated)) := by
  have mirrored := run.mirrored
  refine ⟨fun fresh reopened => mirrored.sameAllocator fresh, mirrored.reopens,
    fun disciplined reopened reopens => ?_⟩
  have tracked := run.tracked disciplined
  refine ⟨tracked.sameAllocator_iff mirrored reopens, fun fresh later allocated steps => ?_⟩
  obtain ⟨free, sound⟩ := tracked.sound
  have kept := sound.of_same reopens.fields.1 (mirrored.sameAllocator fresh reopens)
  obtain ⟨freeLater, soundLater⟩ := AllocatorStep.run_sound steps ⟨free, kept⟩
  intro page next allocate
  exact (soundLater.allocate_new allocate).2

/-! ### A page with two owners -/

theorem pagerClose_quiet (quiet : pager.Quiet) :
    (pagerClose pager).schedule = [] ∧ (pagerClose pager).access = pager.path.access := by
  unfold pagerClose
  simp only [Descriptor.fsync, call_of_nil quiet.schedule, ite_self]
  exact ⟨quiet.schedule, trivial⟩

theorem onePage_extended : ReflTransGen (SessionStep fun allocated page => page ∈ allocated)
    ⟨newPager, [], false⟩ ⟨onePage, [1], false⟩ :=
  .single (.extend (by decide +kernel) (by decide +kernel) onePage_allocated)

/-- Page 3 is allocated behind the others and page 2 is freed. -/
def ExtendsThenFrees (pager : Pager) : Prop :=
  ∃ three, pagerAllocatePage pager = (some 3, three) ∧
    ∃ last, pagerFreePage three 2 = (true, last) ∧
      (pagerClose last).schedule = [] ∧ (pagerClose last).access ≠ .none ∧
        last.pageCount = 4 ∧ last.firstFreePage = 2 ∧ last.freePageCount = 1

instance ExtendsThenFrees.instDecidable (pager : Pager) : Decidable (ExtendsThenFrees pager) := by
  unfold ExtendsThenFrees
  infer_instance

/-- Allocate pages 1 and 2, free page 1, allocate it again, allocate page 3 and free page 2: the
reopened handle has four pages, and page 2 is on its freelist. -/
theorem reopen_keeps_allocator_mixed : ∃ session reopened,
    SessionRun (fun allocated page => page ∈ allocated) session ∧ session.allocated = [3, 1] ∧
      ReopensAs session.pager reopened ∧ SameAllocator session.pager reopened ∧
      reopened.pageCount = 4 ∧ reopened.firstFreePage = 2 ∧ reopened.freePageCount = 1 := by
  obtain ⟨two, second, freed, free, nonempty, reused, reuse, ⟨empty, room⟩, three, third, last,
      freeLast, quiet, readable, pages⟩ :
      ∃ two, pagerAllocatePage onePage = (some 2, two) ∧
      ∃ freed, pagerFreePage two 1 = (true, freed) ∧ freed.firstFreePage ≠ 0 ∧
      ∃ reused, pagerAllocatePage freed = (some 1, reused) ∧
        (reused.firstFreePage = 0 ∧ reused.pageCount ≠ 0xFFFFFFFF) ∧ ExtendsThenFrees reused := by
    decide +kernel
  have steps := ((((onePage_extended.tail
    (.extend (by decide +kernel) (by decide +kernel) second)).tail (.free (by simp) free)).tail
      (.reuse nonempty reuse)).tail (.extend empty room third)).tail (.free (by simp) freeLast)
  have run : SessionRun (fun allocated page => page ∈ allocated) _ :=
    ⟨newPath, _, newPager, newPager_created, steps⟩
  obtain ⟨same, reopens, -⟩ := reopen_keeps_allocator run
  obtain ⟨reopened, opened⟩ := reopens quiet readable
  have kept := same rfl reopened opened
  exact ⟨_, reopened, run, rfl, opened, kept, kept.pageCount.trans pages.1,
    kept.firstFreePage.trans pages.2.1, kept.freePageCount.trans pages.2.2⟩

/-- Allocate page 1, free it, allocate it again, close and open: the header still lists page 1 as
free, and the next allocation hands it out although it is allocated. -/
theorem reopened_page_handed_out_twice : ∃ session reopened next,
    SessionRun (fun allocated page => page ∈ allocated) session ∧ session.allocated = [1] ∧
      ReopensAs session.pager reopened ∧ ¬SameAllocator session.pager reopened ∧
      pagerAllocatePage reopened = (some 1, next) := by
  -- page 1 goes onto the freelist and comes off it without a word in the header
  obtain ⟨freed, free, nonempty, reused, reuse, reopened, opened, stale, next, allocate⟩ :
      ∃ freed, pagerFreePage onePage 1 = (true, freed) ∧ freed.firstFreePage ≠ 0 ∧
      ∃ reused, pagerAllocatePage freed = (some 1, reused) ∧
      ∃ reopened ∈ (pagerOpen (pagerClose reused)).1,
        reopened.firstFreePage ≠ reused.firstFreePage ∧
        ∃ next, pagerAllocatePage reopened = (some 1, next) := by
    decide +kernel
  have steps := (onePage_extended.tail (.free List.mem_cons_self free)).tail (.reuse nonempty reuse)
  exact ⟨_, reopened, next, ⟨newPath, _, newPager, newPager_created, steps⟩, rfl,
    ⟨_, Prod.fst_eq_iff.mp opened⟩, fun same => stale same.firstFreePage, allocate⟩

end TinyDb

/-
This file proves that the page allocator keeps its freelist.

The list of free pages lives in the file: the handle holds its head, and the
first four bytes of every free page hold the next one. The invariant says that
this chain, together with the pages handed out and not yet given back, is exactly
the range of page numbers below the page count, every page once.

Pushing and popping keep the invariant because a write to one page touches
neither another page nor the header, and the header update touches no page. The
one step that can break it is the allocation that extends the file when the page
count is already the largest 32-bit number: the count wraps to zero and the file
is truncated to nothing.
-/

import Mathlib.Data.List.Perm.Subperm
import TinyDb.Lib.Chain
import TinyDb.Lib.Run
import TinyDb.Pager

namespace TinyDb

open Bytes Posix Chains Runs Relation List

variable {bound pageNum page : UInt32} {pages : List UInt32} {before after : Pager × List UInt32}
  {next : Pager}

/-! ### The chain through the file -/

/-- The pointer a page number stands for; page 0 ends the list. -/
def freeLink (pageNum : UInt32) : Option UInt32 := if pageNum = 0 then none else some pageNum

/-- The free page after a free page. -/
def freeStep (file : File) (pageNum : UInt32) : Option UInt32 := freeLink (nextFree file pageNum)

/-- The list holds every page number from 1 up to the bound, each once. -/
def PageRange (bound : UInt32) (pages : List UInt32) : Prop :=
  pages.Nodup ∧ ∀ page, page ∈ pages ↔ page ≠ 0 ∧ page < bound

/-- The allocator's invariant: the chain from the list head visits the free pages, there are as
many as the handle says, and with the allocated pages they make up the whole range. -/
structure FreelistSound (pager : Pager) (allocated free : List UInt32) : Prop where
  chain : Chain (freeStep pager.fd.file) (freeLink pager.firstFreePage) free
  counted : free.length = pager.freePageCount.toNat
  range : PageRange pager.pageCount (free ++ allocated)
  positive : pager.pageCount ≠ 0

theorem PageRange.perm {others : List UInt32} (range : PageRange bound pages)
    (same : pages.Perm others) : PageRange bound others :=
  ⟨same.nodup_iff.mp range.1, fun page => by rw [← same.mem_iff, range.2]⟩

/-- A range holds fewer pages than its bound. -/
theorem PageRange.length_lt (range : PageRange bound pages) (positive : bound ≠ 0) :
    pages.length < bound.toNat := by
  have nodup : (0 :: pages.map UInt32.toNat).Nodup := by
    refine nodup_cons.mpr ⟨fun member => ?_, ?_⟩
    · obtain ⟨page, inPages, zero⟩ := mem_map.mp member
      exact ((range.2 _).mp inPages).1 (UInt32.toNat_inj.mp zero)
    · exact range.1.map fun first second same => UInt32.toNat_inj.mp same
  have subset : (0 :: pages.map UInt32.toNat) ⊆ List.range bound.toNat := by
    intro number member
    rw [mem_range]
    rcases mem_cons.mp member with rfl | inPages
    · exact Nat.pos_of_ne_zero fun zero => positive (UInt32.toNat_inj.mp zero)
    · obtain ⟨page, inside, rfl⟩ := mem_map.mp inPages
      exact UInt32.lt_iff_toNat_lt.mp ((range.2 _).mp inside).2
  have bounded := (nodup.subperm subset).length_le
  simp only [length_cons, length_map, length_range] at bounded
  omega

theorem freeLink_eq_none : freeLink pageNum = none ↔ pageNum = 0 := by
  rw [freeLink]
  split <;> simp_all

theorem freeLink_of_ne (nonzero : pageNum ≠ 0) :
    freeLink pageNum = some pageNum :=
  if_neg nonzero

/-! ### Writes and the chain -/

/-- A write into one page leaves every other page alone. -/
theorem nextFree_write_other (file : File) {written : UInt32} {bytes : List UInt8}
    (length : bytes.length ≤ pageSize) (other : page ≠ written) :
    nextFree (file.write (getPageOffset written) bytes) page = nextFree file page := by
  rw [nextFree, File.write_byte, window_overlay_disjoint, nextFree]
  have apart := getPageOffset_disjoint other
  omega

/-- A header write leaves every other page alone. -/
theorem nextFree_write_header (file : File) (header : DatabaseHeader) (nonzero : page ≠ 0) :
    nextFree (file.write 0 header.encode) page = nextFree file page := by
  have past := headerSize_le_getPageOffset nonzero
  rw [nextFree, File.write_byte, window_overlay_disjoint, nextFree]
  rw [DatabaseHeader.encode_length]
  omega

/-- A freed page points at the page it was freed with. -/
theorem nextFree_write_self (file : File) (page next : UInt32) :
    nextFree (file.write (getPageOffset page) (freePageBytes next)) page = next := by
  have bytes := window_overlay file.byte (getPageOffset page) (freePageBytes next)
  rw [freePageBytes_length] at bytes
  rw [nextFree, File.write_byte, bytes, wordAt, drop_zero, freePageBytes,
    take_left' (wordBytes_length next), ofNat_littleEndianValue_wordBytes]

/-! ### Runs of the allocator -/

/-- Extending the file is possible: the page count has not reached the largest 32-bit number. -/
def HasRoom (pager : Pager) : Prop := pager.firstFreePage = 0 → pager.pageCount ≠ 0xFFFFFFFF

instance (pager : Pager) : Decidable (HasRoom pager) :=
  inferInstanceAs (Decidable (_ → _))

/-- The pages the chain from the list head visits. -/
def OnFreelist (pager : Pager) (page : UInt32) : Prop :=
  ∃ free, Chain (freeStep pager.fd.file) (freeLink pager.firstFreePage) free ∧ page ∈ free

/-- One successful call, together with the pages handed out and not yet given back. Only such
pages are freed, and only pages off the freelist are written; `guard` restricts the states in
which pages are allocated. -/
inductive AllocatorStep (guard : Pager → Prop) :
    Pager × List UInt32 → Pager × List UInt32 → Prop
  | allocate {pager next : Pager} {allocated : List UInt32} {page : UInt32} (allowed : guard pager)
      (run : pagerAllocatePage pager = (some page, next)) :
      AllocatorStep guard (pager, allocated) (next, page :: allocated)
  | free {pager next : Pager} {allocated : List UInt32} {page : UInt32}
      (member : page ∈ allocated) (run : pagerFreePage pager page = (true, next)) :
      AllocatorStep guard (pager, allocated) (next, allocated.erase page)
  | write {pager next : Pager} {allocated : List UInt32} {page : UInt32} {data : PageData}
      (outside : ¬OnFreelist pager page) (run : pagerWritePage pager page data = (true, next)) :
      AllocatorStep guard (pager, allocated) (next, allocated)

/-- The handle and the allocated pages after a run that starts at `pager_create`. -/
def AllocatorRun (guard : Pager → Prop) (pager : Pager) (allocated : List UInt32) : Prop :=
  ∃ path opened created, pagerCreate path = (some created, opened) ∧
    ReflTransGen (AllocatorStep guard) (created, []) (pager, allocated)

section Runs

variable {pager next : Pager} {allocated : List UInt32} {page : UInt32}

theorem created_sound {path opened : Path} (created : pagerCreate path = (some pager, opened)) :
    FreelistSound pager [] [] := by
  obtain ⟨count, first, free, -⟩ := pagerCreate_spec created
  refine ⟨?_, by rw [free]; rfl, ⟨nodup_nil, fun page => ?_⟩, by rw [count]; decide⟩
  · rw [freeLink_eq_none.mpr first]
    exact .stop
  · rw [count]
    simp only [append_nil, not_mem_nil, false_iff, not_and, UInt32.lt_iff_toNat_lt]
    intro nonzero less
    exact nonzero (UInt32.toNat_inj.mp (by simpa using less))

/-- Popping the freelist keeps the invariant. -/
theorem FreelistSound.allocate_reuse {free : List UInt32}
    (sound : FreelistSound pager allocated free) (run : pagerAllocatePage pager = (some page, next))
    (nonempty : pager.firstFreePage ≠ 0) :
    ∃ rest, free = page :: rest ∧ FreelistSound next (page :: allocated) rest := by
  obtain ⟨rfl, file, count, first, freeCount, -⟩ := pagerAllocatePage_reuse run nonempty
  have chain := sound.chain
  rw [freeLink_of_ne nonempty] at chain
  obtain ⟨rest, rfl, tail⟩ := chain.of_some
  have length := sound.counted
  refine ⟨rest, rfl, ?_, ?_, ?_, by rw [count]; exact sound.positive⟩
  · rw [file, first]
    exact tail
  · have one : (1 : UInt32) ≤ pager.freePageCount := by
      rw [UInt32.le_iff_toNat_le, ← length]
      simp
    rw [freeCount, UInt32.toNat_sub_of_le _ _ one, ← length]
    simp
  · rw [count]
    exact sound.range.perm perm_middle.symm

/-- Extending the file keeps the invariant as long as the page count does not wrap. -/
theorem FreelistSound.allocate_fresh {free : List UInt32}
    (sound : FreelistSound pager allocated free) (run : pagerAllocatePage pager = (some page, next))
    (empty : pager.firstFreePage = 0) (room : pager.pageCount ≠ 0xFFFFFFFF) :
    FreelistSound next (page :: allocated) [] := by
  obtain ⟨rfl, count, first, freeCount, -⟩ := pagerAllocatePage_fresh run empty
  have none : free = [] := sound.chain.none_iff.mp (freeLink_eq_none.mpr empty)
  subst none
  have grown : (pager.pageCount + 1).toNat = pager.pageCount.toNat + 1 := by
    have bound := pager.pageCount.toNat_lt
    have different : pager.pageCount.toNat ≠ 4294967295 := fun same =>
      room (UInt32.toNat_inj.mp same)
    rw [UInt32.toNat_add, UInt32.toNat_one]
    omega
  refine ⟨?_, by rw [freeCount]; exact sound.counted, ⟨?_, fun page => ?_⟩, ?_⟩
  · rw [freeLink_eq_none.mpr first]
    exact .stop
  · refine nodup_cons.mpr ⟨fun member => ?_, sound.range.1⟩
    exact UInt32.lt_irrefl _ ((sound.range.2 _).mp member).2
  · have old := sound.range.2 page
    rw [nil_append] at old ⊢
    rw [mem_cons, old, count, UInt32.lt_iff_toNat_lt, UInt32.lt_iff_toNat_lt]
    constructor
    · rintro (rfl | ⟨nonzero, less⟩)
      · exact ⟨sound.positive, by omega⟩
      · exact ⟨nonzero, by omega⟩
    · rintro ⟨nonzero, less⟩
      by_cases same : page = pager.pageCount
      · exact Or.inl same
      · refine Or.inr ⟨nonzero, ?_⟩
        have different : page.toNat ≠ pager.pageCount.toNat := fun equal =>
          same (UInt32.toNat_inj.mp equal)
        omega
  · intro zero
    rw [count] at zero
    have value := congrArg UInt32.toNat zero
    rw [grown] at value
    simp at value

/-- Pushing an allocated page onto the freelist keeps the invariant. -/
theorem FreelistSound.free {free : List UInt32} (sound : FreelistSound pager allocated free)
    (member : page ∈ allocated) (run : pagerFreePage pager page = (true, next)) :
    FreelistSound next (allocated.erase page) (page :: free) := by
  obtain ⟨nonzero, count, first, freeCount, -, file⟩ := pagerFreePage_ok run
  have separate : ∀ other ∈ free, other ≠ page := by
    rintro other inFree rfl
    exact (nodup_append.mp sound.range.1).2.2 _ inFree _ member rfl
  have free_ne_zero : ∀ other ∈ free, other ≠ 0 := fun other inFree =>
    ((sound.range.2 _).mp (mem_append_left _ inFree)).1
  have same : (free ++ allocated).Perm (page :: free ++ allocated.erase page) := by
    refine ((perm_cons_erase member).append_left _).trans ?_
    exact perm_middle
  refine ⟨?_, ?_, ?_, by rw [count]; exact sound.positive⟩
  · rw [first, freeLink_of_ne nonzero]
    refine sound.chain.push _ ?_ fun other inFree => ?_
    · rw [freeStep, file, nextFree_write_header _ _ nonzero, nextFree_write_self]
    · rw [freeStep, freeStep, file, nextFree_write_header _ _ (free_ne_zero _ inFree),
        nextFree_write_other _ (freePageBytes_length _).le (separate _ inFree)]
  · have bound := (sound.range.perm same).length_lt sound.positive
    have limit := pager.pageCount.toNat_lt
    simp only [length_cons, length_append] at bound
    rw [freeCount, UInt32.toNat_add, UInt32.toNat_one, ← sound.counted, length_cons]
    omega
  · rw [count]
    exact sound.range.perm same

/-- Writing a page off the freelist keeps the invariant. -/
theorem FreelistSound.write {free : List UInt32} {data : PageData}
    (sound : FreelistSound pager allocated free) (outside : ¬OnFreelist pager page)
    (run : pagerWritePage pager page data = (true, next)) : FreelistSound next allocated free := by
  obtain ⟨count, first, freeCount, -, file⟩ := pagerWritePage_ok run
  refine ⟨?_, by rw [freeCount]; exact sound.counted, by rw [count]; exact sound.range,
    by rw [count]; exact sound.positive⟩
  rw [first]
  refine sound.chain.congr fun other inFree => ?_
  have separate : other ≠ page := by
    rintro rfl
    exact outside ⟨free, sound.chain, inFree⟩
  rw [freeStep, freeStep, file, nextFree_write_other _ data.toBytes_length.le separate]

/-- An allocated page is not on the freelist. -/
theorem FreelistSound.off_freelist {free : List UInt32} (sound : FreelistSound pager allocated free)
    (member : page ∈ allocated) : ¬OnFreelist pager page := by
  rintro ⟨visited, chain, listed⟩
  obtain rfl := chain.unique sound.chain
  exact (nodup_append.mp sound.range.1).2.2 _ listed _ member rfl

theorem FreelistSound.allocate {free : List UInt32} (sound : FreelistSound pager allocated free)
    (room : HasRoom pager) (run : pagerAllocatePage pager = (some page, next)) :
    ∃ rest, FreelistSound next (page :: allocated) rest := by
  by_cases empty : pager.firstFreePage = 0
  · exact ⟨[], sound.allocate_fresh run empty (room empty)⟩
  · obtain ⟨rest, -, kept⟩ := sound.allocate_reuse run empty
    exact ⟨rest, kept⟩

/-- One step keeps the invariant. -/
theorem AllocatorStep.sound (step : AllocatorStep HasRoom before after)
    (sound : ∃ free, FreelistSound before.1 before.2 free) :
    ∃ free, FreelistSound after.1 after.2 free := by
  obtain ⟨free, sound⟩ := sound
  cases step with
  | allocate room run => exact sound.allocate room run
  | free member run => exact ⟨_, sound.free member run⟩
  | write outside run => exact ⟨free, sound.write outside run⟩

theorem AllocatorStep.run_sound (run : ReflTransGen (AllocatorStep HasRoom) before after)
    (sound : ∃ free, FreelistSound before.1 before.2 free) :
    ∃ free, FreelistSound after.1 after.2 free :=
  run_invariant (fun state => ∃ free, FreelistSound state.1 state.2 free)
    (fun _ _ step => step.sound) run sound

theorem AllocatorRun.sound (run : AllocatorRun HasRoom pager allocated) :
    ∃ free, FreelistSound pager allocated free := by
  obtain ⟨path, opened, created, start, steps⟩ := run
  exact AllocatorStep.run_sound steps ⟨[], created_sound start⟩

/-- What an allocation returns in a sound state: a page of its own, never page 0. -/
theorem FreelistSound.allocate_new {free : List UInt32} (sound : FreelistSound pager allocated free)
    (run : pagerAllocatePage pager = (some page, next)) : page ≠ 0 ∧ page ∉ allocated := by
  by_cases empty : pager.firstFreePage = 0
  · obtain ⟨rfl, -⟩ := pagerAllocatePage_fresh run empty
    refine ⟨sound.positive, fun member => ?_⟩
    exact UInt32.lt_irrefl _ ((sound.range.2 _).mp (mem_append_right _ member)).2
  · obtain ⟨rest, rfl, -⟩ := sound.allocate_reuse run empty
    refine ⟨((sound.range.2 _).mp mem_cons_self).1, fun member => ?_⟩
    exact (nodup_append.mp sound.range.1).2.2 _ mem_cons_self _ member rfl

/-- Without room the allocation hands out a page past the wrapped page count. -/
theorem not_sound_of_full {free : List UInt32} (full : ¬HasRoom pager)
    (run : pagerAllocatePage pager = (some page, next)) :
    ¬FreelistSound next (page :: allocated) free := by
  intro sound
  obtain ⟨empty, last⟩ := Classical.not_imp.mp full
  obtain ⟨-, count, -⟩ := pagerAllocatePage_fresh run empty
  refine sound.positive ?_
  rw [count, not_not.mp last]
  decide

/-- The allocator keeps its freelist and its page range in every run in which no allocation
extends the file at the largest page count, and that one allocation always breaks them. -/
theorem allocator_partitions {pager : Pager} {allocated : List UInt32}
    (run : AllocatorRun HasRoom pager allocated) :
    (∃ free, FreelistSound pager allocated free) ∧
      ∀ page next, pagerAllocatePage pager = (some page, next) →
        page ≠ 0 ∧ page ∉ allocated ∧
          ((∃ free, FreelistSound next (page :: allocated) free) ↔ HasRoom pager) := by
  obtain ⟨free, sound⟩ := run.sound
  refine ⟨⟨free, sound⟩, fun page next allocate => ?_⟩
  obtain ⟨nonzero, fresh⟩ := sound.allocate_new allocate
  refine ⟨nonzero, fresh, fun kept => ?_, fun room => sound.allocate room allocate⟩
  by_contra full
  exact not_sound_of_full full allocate kept.choose_spec

end Runs

/-! ### Running out of page numbers -/

section PageNumbers

variable {pager : Pager} {allocated : List UInt32}

theorem AllocatorRun.mono {guard other : Pager → Prop} (run : AllocatorRun guard pager allocated)
    (weaker : ∀ pager, guard pager → other pager) : AllocatorRun other pager allocated := by
  obtain ⟨path, opened, created, start, steps⟩ := run
  refine ⟨path, opened, created, start, steps.lift id fun before after step => ?_⟩
  cases step with
  | allocate allowed run => exact .allocate (weaker _ allowed) run
  | free member run => exact .free member run
  | write outside run => exact .write outside run

theorem AllocatorRun.step {guard : Pager → Prop} {after : List UInt32}
    (run : AllocatorRun guard pager allocated)
    (step : AllocatorStep guard (pager, allocated) (next, after)) :
    AllocatorRun guard next after := by
  obtain ⟨path, opened, created, start, steps⟩ := run
  exact ⟨path, opened, created, start, steps.tail step⟩

/-- A page that was freed can be read again when it is handed out. -/
theorem freed_inside (run : pagerFreePage pager page = (true, next)) :
    getPageOffset next.firstFreePage + pageSize ≤ next.fd.file.size := by
  obtain ⟨-, -, first, -, -, file⟩ := pagerFreePage_ok run
  rw [first, file, size_write_header, size_write_freePage]
  omega

/-- With an empty freelist every page is allocated. -/
theorem FreelistSound.mem_of_empty {free : List UInt32} (sound : FreelistSound pager allocated free)
    (empty : pager.firstFreePage = 0) (nonzero : page ≠ 0) (less : page < pager.pageCount) :
    page ∈ allocated := by
  obtain rfl : free = [] := sound.chain.none_iff.mp (freeLink_eq_none.mpr empty)
  exact (sound.range.2 _).mpr ⟨nonzero, less⟩

/-- A database can be filled with fresh pages up to the largest page count. Whatever holds of a new
handle and is kept by such an allocation holds at the end. -/
theorem fresh_induction (Reached : Pager → List UInt32 → Prop)
    (start : ∀ pager opened, pagerCreate newPath = (some pager, opened) → Reached pager [])
    (step : ∀ pager next allocated page, HasRoom pager →
      pagerAllocatePage pager = (some page, next) → Reached pager allocated →
      Reached next (page :: allocated))
    (count : Nat) (bounded : count < 4294967295) :
    ∃ pager allocated, Reached pager allocated ∧ allocated.length = count ∧
      pager.Quiet ∧ pager.firstFreePage = 0 ∧ pager.pageCount.toNat = count + 1 ∧
      headerSize ≤ pager.fd.file.size ∧
      (0 < count → pager.fd.file.size = getPageOffset pager.pageCount) := by
  induction count with
  | zero =>
    exact ⟨newPager, [], start _ _ newPager_created, rfl, by decide +kernel⟩
  | succ count inductionHypothesis =>
    obtain ⟨pager, allocated, reached, length, quiet, first, pages, size, -⟩ :=
      inductionHypothesis (by omega)
    obtain ⟨next, allocate, quietNext⟩ := quiet.allocate_fresh size first
    obtain ⟨-, pagesNext, firstNext, -, -, -, file⟩ := pagerAllocatePage_fresh allocate first
    have room : HasRoom pager := fun _ full => by
      rw [full] at pages
      simp only [UInt32.reduceToNat] at pages
      omega
    have grown : next.pageCount.toNat = count + 2 := by
      rw [pagesNext, UInt32.toNat_add, UInt32.toNat_one]
      omega
    refine ⟨next, _, step pager next allocated _ room allocate reached,
      by rw [length_cons, length], quietNext, firstNext, grown, ?_⟩
    rw [file, ← pagesNext]
    refine ⟨headerSize_le_getPageOffset fun zero => ?_, fun _ => rfl⟩
    rw [zero] at grown
    simp at grown

theorem fresh_run (count : Nat) (bounded : count < 4294967295) :
    ∃ pager allocated, AllocatorRun HasRoom pager allocated ∧ allocated.length = count ∧
      pager.Quiet ∧ pager.firstFreePage = 0 ∧ pager.pageCount.toNat = count + 1 ∧
      headerSize ≤ pager.fd.file.size ∧
      (0 < count → pager.fd.file.size = getPageOffset pager.pageCount) :=
  fresh_induction _
    (fun pager opened created => ⟨_, opened, pager, created, .refl⟩)
    (fun _ _ _ _ room allocate run => run.step (.allocate room allocate)) _ bounded

theorem allocator_partitions_three : ∃ pager allocated,
    AllocatorRun HasRoom pager allocated ∧ allocated.length = 3 ∧
      ∃ free, FreelistSound pager allocated free := by
  obtain ⟨pager, allocated, run, length, -⟩ := fresh_run 3 (by decide)
  exact ⟨pager, allocated, run, length, (allocator_partitions run).1⟩

/-- After the last page number the page count wraps, and page 0 is handed out: fill the database,
free the last page, take it again and allocate once more. -/
theorem allocator_hands_out_page_zero : ∃ pager allocated next,
    AllocatorRun (fun _ => True) pager allocated ∧ pagerAllocatePage pager = (some 0, next) ∧
      ¬∃ free, FreelistSound pager allocated free := by
  obtain ⟨full, allocated, run, -, quiet, first, pages, size, -⟩ := fresh_run 4294967294 (by decide)
  have last : full.pageCount = 0xFFFFFFFF := UInt32.toNat_inj.mp pages
  have run := run.mono fun _ _ => trivial
  -- the allocation that wraps
  obtain ⟨wrapped, allocate, quietWrapped⟩ := quiet.allocate_fresh size first
  obtain ⟨-, count, firstWrapped, -⟩ := pagerAllocatePage_fresh allocate first
  have run := run.step (.allocate trivial allocate)
  rw [last] at run count
  -- the last page goes onto the freelist and comes back
  obtain ⟨freed, free, quietFreed⟩ := quietWrapped.free
    (by decide : (0xFFFFFFFF : UInt32) ≠ 0)
  obtain ⟨-, countFreed, firstFreed, -, -, file⟩ := pagerFreePage_ok free
  have run := run.step (.free mem_cons_self free)
  have nonempty : freed.firstFreePage ≠ 0 := by
    rw [firstFreed]
    decide
  obtain ⟨reused, reuse, quietReused⟩ := quietFreed.allocate_reuse nonempty (freed_inside free)
  obtain ⟨-, fileReused, countReused, firstReused, -⟩ := pagerAllocatePage_reuse reuse nonempty
  have run := run.step (.allocate trivial reuse)
  have empty : reused.firstFreePage = 0 := by
    rw [firstReused, firstFreed, file, nextFree_write_header _ _ (by decide), nextFree_write_self,
      firstWrapped]
  have zero : reused.pageCount = 0 := by
    rw [countReused, countFreed, count]
    decide
  obtain ⟨next, again, -⟩ := quietReused.allocate_fresh
    (by rw [fileReused, file]; exact size_write_header _ _ ▸ Nat.le_max_right _ _) empty
  rw [zero] at again
  refine ⟨reused, _, next, run, again, fun sound => ?_⟩
  exact sound.choose_spec.positive zero

end PageNumbers

/-! ### Freeing pages that are not allocated -/

/-- A page of the database that is not on the freelist. -/
def InUse (pager : Pager) (page : UInt32) : Prop :=
  page ≠ 0 ∧ page < pager.pageCount ∧ ¬OnFreelist pager page

/-- `pager_free_page` returns `-1` and leaves the handle and the file as they are. -/
def RejectsFree (pager : Pager) (page : UInt32) : Prop :=
  ∃ next, pagerFreePage pager page = (false, next) ∧ next = { pager with fd := next.fd } ∧
    next.fd.file = pager.fd.file

section Freeing

variable {pager : Pager} {allocated free : List UInt32} {page : UInt32}

theorem FreelistSound.inUse_iff (sound : FreelistSound pager allocated free) :
    InUse pager page ↔ page ∈ allocated := by
  have range := sound.range.2 page
  rw [mem_append] at range
  constructor
  · rintro ⟨nonzero, less, outside⟩
    refine (range.mpr ⟨nonzero, less⟩).resolve_left fun listed => outside ?_
    exact ⟨free, sound.chain, listed⟩
  · intro member
    obtain ⟨nonzero, less⟩ := range.mp (Or.inr member)
    exact ⟨nonzero, less, sound.off_freelist member⟩

/-- Only page 0 is rejected. -/
theorem Pager.Quiet.rejectsFree_iff (quiet : pager.Quiet) (page : UInt32) :
    RejectsFree pager page ↔ page = 0 := by
  constructor
  · rintro ⟨next, failed, -⟩
    by_contra nonzero
    obtain ⟨other, succeeded, -⟩ := quiet.free nonzero
    cases succeeded.symm.trans failed
  · intro zero
    exact ⟨pager, by rw [pagerFreePage, if_pos zero], rfl, rfl⟩

/-- A page that is freed while it is on the freelist makes the freelist cyclic. -/
theorem FreelistSound.double_free (sound : FreelistSound pager allocated free)
    (listed : OnFreelist pager page) (run : pagerFreePage pager page = (true, next))
    (others : List UInt32) :
    ¬Chain (freeStep next.fd.file) (freeLink next.firstFreePage) others := by
  obtain ⟨visited, chain, member⟩ := listed
  obtain rfl := chain.unique sound.chain
  obtain ⟨nonzero, -, first, -, -, file⟩ := pagerFreePage_ok run
  rw [first, freeLink_of_ne nonzero]
  refine chain.not_push_of_mem member ?_ fun other inside different => ?_
  · rw [freeStep, file, nextFree_write_header _ _ nonzero, nextFree_write_self]
  · have nonzeroOther := ((sound.range.2 _).mp (mem_append_left _ inside)).1
    rw [freeStep, freeStep, file, nextFree_write_header _ _ nonzeroOther,
      nextFree_write_other _ (freePageBytes_length _).le different]

/-- In a sound state freeing a page keeps the allocator sound exactly if the page is in use. -/
theorem FreelistSound.free_iff (sound : FreelistSound pager allocated free)
    (run : pagerFreePage pager page = (true, next)) :
    (∃ allocated free, FreelistSound next allocated free) ↔ InUse pager page := by
  constructor
  · rintro ⟨others, visited, after⟩
    obtain ⟨nonzero, count, first, -⟩ := pagerFreePage_ok run
    refine ⟨nonzero, ?_, fun listed => sound.double_free listed run _ after.chain⟩
    have chain := after.chain
    rw [first, freeLink_of_ne nonzero] at chain
    obtain ⟨rest, rfl, -⟩ := chain.of_some
    rw [← count]
    exact ((after.range.2 _).mp mem_cons_self).2
  · intro inUse
    exact ⟨_, _, sound.free (sound.inUse_iff.mp inUse) run⟩

/-- Of the pages that are not in use only page 0 is rejected. If no other page that is not in use is
freed, no page is handed out twice and the freelist stays sound, and every other free of such a page
breaks it. -/
theorem invalid_free_rejected_iff {pager : Pager} (quiet : pager.Quiet) :
    (∀ page, ¬InUse pager page → (RejectsFree pager page ↔ page = 0)) ∧
      ∀ allocated, AllocatorRun HasRoom pager allocated →
        (∃ free, FreelistSound pager allocated free) ∧
        (∀ page next, pagerAllocatePage pager = (some page, next) → page ∉ allocated) ∧
        ∀ page next, pagerFreePage pager page = (true, next) →
          ((∃ allocated free, FreelistSound next allocated free) ↔ InUse pager page) := by
  refine ⟨fun page _ => quiet.rejectsFree_iff _, fun allocated run => ?_⟩
  obtain ⟨free, sound⟩ := run.sound
  exact ⟨⟨free, sound⟩, fun page next allocate => (sound.allocate_new allocate).2,
    fun page next freed => sound.free_iff freed⟩

theorem invalid_free_rejected_iff_three : ∃ pager allocated, AllocatorRun HasRoom pager allocated ∧
    pager.Quiet ∧ RejectsFree pager 0 ∧
    ∀ page next, pagerAllocatePage pager = (some page, next) → page ∉ allocated := by
  obtain ⟨pager, allocated, run, -, quiet, -⟩ := fresh_run 3 (by decide)
  obtain ⟨rejects, consequences⟩ := invalid_free_rejected_iff quiet
  exact ⟨pager, allocated, run, quiet, (rejects 0 fun inUse => inUse.1 rfl).mpr rfl,
    (consequences _ run).2.1⟩

/-- Freed twice, page 1 is handed out twice, and the freelist goes round in a circle. -/
theorem double_free_hands_out_twice : ∃ pager allocated once twice first second,
    AllocatorRun HasRoom pager allocated ∧ pagerFreePage pager 1 = (true, once) ∧
      OnFreelist once 1 ∧ pagerFreePage once 1 = (true, twice) ∧
      (¬∃ free, Chain (freeStep twice.fd.file) (freeLink twice.firstFreePage) free) ∧
      pagerAllocatePage twice = (some 1, first) ∧ pagerAllocatePage first = (some 1, second) := by
  have run : AllocatorRun HasRoom onePage [1] :=
    ⟨newPath, _, newPager, newPager_created, .single (.allocate (by decide +kernel) onePage_allocated)⟩
  obtain ⟨free, sound⟩ := run.sound
  obtain ⟨once, freeOnce, twice, freeTwice, first, allocate, second, again⟩ :
      ∃ once, pagerFreePage onePage 1 = (true, once) ∧
      ∃ twice, pagerFreePage once 1 = (true, twice) ∧
      ∃ first, pagerAllocatePage twice = (some 1, first) ∧
      ∃ second, pagerAllocatePage first = (some 1, second) := by
    decide +kernel
  have soundOnce := sound.free mem_cons_self freeOnce
  have listed : OnFreelist once 1 := ⟨_, soundOnce.chain, mem_cons_self⟩
  exact ⟨onePage, [1], once, twice, first, second, run, freeOnce, listed, freeTwice,
    fun ⟨others, chain⟩ => soundOnce.double_free listed freeTwice _ chain, allocate, again⟩

end Freeing

end TinyDb

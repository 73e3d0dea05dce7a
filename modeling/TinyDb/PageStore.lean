/-
This file asks whether the pager is an array of pages: whether a page that was
handed out and written reads back what was last written to it, and whether
reading, writing and the validity test agree on which pages there are.

A write touches one page of the file, an update of the header only the first 48
bytes, and the allocation that extends the file keeps every page below the page
count. So the data is there. But the read checks the page number against the page
count, and nothing else does: a page that was freed without having been allocated
is handed out whatever its number, and it can be written and not read.
-/

import TinyDb.Freelist
import TinyDb.Lib.Heap

namespace TinyDb

open Bytes Posix Runs Relation List Function

variable {data : PageData} {pager : Pager} {count : UInt32}

/-! ### Runs with data -/

/-- A handle with the pages handed out and not yet given back, and what was last written to each
page since it was handed out. -/
structure PageStore where
  pager : Pager
  allocated : List UInt32
  stored : UInt32 → Option PageData

/-- One successful call. Pages are written while they are allocated; `mayAllocate` and `mayFree` say
in which states pages are allocated and freed. -/
inductive StoreStep (mayAllocate : Pager → Prop) (mayFree : List UInt32 → UInt32 → Prop) :
    PageStore → PageStore → Prop
  | allocate {store : PageStore} {next : Pager} {page : UInt32} (allowed : mayAllocate store.pager)
      (run : pagerAllocatePage store.pager = (some page, next)) :
      StoreStep mayAllocate mayFree store
        { pager := next
          allocated := page :: store.allocated
          stored := Function.update store.stored page none }
  | free {store : PageStore} {next : Pager} {page : UInt32} (allowed : mayFree store.allocated page)
      (run : pagerFreePage store.pager page = (true, next)) :
      StoreStep mayAllocate mayFree store
        { pager := next
          allocated := store.allocated.erase page
          stored := Function.update store.stored page none }
  | write {store : PageStore} {next : Pager} {page : UInt32} {data : PageData}
      (member : page ∈ store.allocated)
      (run : pagerWritePage store.pager page data = (true, next)) :
      StoreStep mayAllocate mayFree store
        { store with pager := next, stored := Function.update store.stored page (some data) }
  | sync {store : PageStore} {next : Pager} (run : pagerSync store.pager = (true, next)) :
      StoreStep mayAllocate mayFree store { store with pager := next }

/-- What a run that starts at `pager_create` reaches. -/
def StoreRun (mayAllocate : Pager → Prop) (mayFree : List UInt32 → UInt32 → Prop)
    (store : PageStore) : Prop :=
  ∃ path opened created, pagerCreate path = (some created, opened) ∧
    ReflTransGen (StoreStep mayAllocate mayFree)
      { pager := created, allocated := [], stored := fun _ => none } store

/-- The allocation does not hand out page 0, which it does once the page count has wrapped. -/
def SparesHeader (pager : Pager) : Prop := pager.firstFreePage = 0 → pager.pageCount ≠ 0

instance (pager : Pager) : Decidable (SparesHeader pager) :=
  inferInstanceAs (Decidable (_ → _))

/-- Any page may be freed. -/
def anyPage (_ : List UInt32) (_ : UInt32) : Prop := True

/-- Pages that are handed out may be freed. -/
def allocatedPage (allocated : List UInt32) (page : UInt32) : Prop := page ∈ allocated

/-! ### The last write -/

/-- Page 0 is not handed out, and every stored page below the page count is in the file. -/
structure Retains (store : PageStore) : Prop where
  nonzero : 0 ∉ store.allocated
  member : ∀ page data, store.stored page = some data → page ∈ store.allocated
  disk : ∀ page data, store.stored page = some data → page < store.pager.pageCount →
    store.pager.Holds page ∧ diskPage store.pager.fd.file page = data

section LastWrite

variable {store : PageStore} {page : UInt32} {next : Pager} {mayFree : List UInt32 → UInt32 → Prop}

theorem Retains.ne_zero (retains : Retains store) (last : store.stored page = some data) :
    page ≠ 0 := by
  rintro rfl
  exact retains.nonzero (retains.member 0 _ last)

theorem pagerSync_ok (run : pagerSync pager = (true, next)) :
    next = { pager with fd := next.fd } ∧ next.fd.file = pager.fd.file := by
  obtain ⟨-, rfl⟩ := Prod.mk.inj run
  exact ⟨rfl, call_file _⟩

theorem lt_of_lt_add_one (less : page < count + 1) (different : page ≠ count) :
    page < count := by
  have apart : page.toNat ≠ count.toNat := fun same => different (UInt32.toNat_inj.mp same)
  rw [UInt32.lt_iff_toNat_lt] at less ⊢
  rw [UInt32.toNat_add, UInt32.toNat_one] at less
  omega

theorem lt_add_one_of_lt (less : page < count + 1) : count < count + 1 := by
  rw [UInt32.lt_iff_toNat_lt] at less ⊢
  rw [UInt32.toNat_add, UInt32.toNat_one] at less ⊢
  have bound := count.toNat_lt
  omega

theorem created_retains {path opened : Path} (_ : pagerCreate path = (some pager, opened)) :
    Retains { pager, allocated := [], stored := fun _ => none } :=
  ⟨not_mem_nil, nofun, nofun⟩

theorem Retains.allocate (retains : Retains store) (spares : SparesHeader store.pager)
    (run : pagerAllocatePage store.pager = (some page, next)) :
    Retains {
      pager := next
      allocated := page :: store.allocated
      stored := Function.update store.stored page none } := by
  have handed : page ≠ 0 ∧ ∀ other, other ≠ page → other < next.pageCount →
      other < store.pager.pageCount ∧
        (store.pager.firstFreePage = 0 → store.pager.pageCount < next.pageCount) := by
    by_cases empty : store.pager.firstFreePage = 0
    · obtain ⟨rfl, count, -⟩ := pagerAllocatePage_fresh run empty
      rw [count]
      exact ⟨spares empty, fun other different less =>
        ⟨lt_of_lt_add_one less different, fun _ => lt_add_one_of_lt less⟩⟩
    · obtain ⟨rfl, -, count, -⟩ := pagerAllocatePage_reuse run empty
      rw [count]
      exact ⟨empty, fun other _ less => ⟨less, fun impossible => absurd impossible empty⟩⟩
  refine ⟨?_, fun other data last => ?_, fun other data last less => ?_⟩
  · exact not_mem_cons_of_ne_of_not_mem handed.1.symm retains.nonzero
  · obtain ⟨-, last⟩ := Heaps.update_none_eq_some last
    exact mem_cons_of_mem _ (retains.member _ _ last)
  · obtain ⟨different, last⟩ := Heaps.update_none_eq_some last
    obtain ⟨before, room⟩ := handed.2 _ different less
    obtain ⟨holds, content⟩ := retains.disk _ _ last before
    obtain ⟨holdsNext, same⟩ := pagerAllocatePage_keeps run room holds (retains.ne_zero last)
    exact ⟨holdsNext, same.trans content⟩

theorem Retains.free (retains : Retains store)
    (run : pagerFreePage store.pager page = (true, next)) : Retains {
      pager := next
      allocated := store.allocated.erase page
      stored := Function.update store.stored page none } := by
  refine ⟨fun member => retains.nonzero (mem_of_mem_erase member), fun other data last => ?_,
    fun other data last less => ?_⟩
  · obtain ⟨different, last⟩ := Heaps.update_none_eq_some last
    exact (mem_erase_of_ne different).mpr (retains.member _ _ last)
  · obtain ⟨different, last⟩ := Heaps.update_none_eq_some last
    obtain ⟨sameCount, keeps⟩ := pagerFreePage_keeps run (retains.ne_zero last) different
    obtain ⟨holds, content⟩ := retains.disk _ _ last (sameCount ▸ less)
    exact ⟨(keeps holds).1, (keeps holds).2.trans content⟩

theorem Retains.write (retains : Retains store) (member : page ∈ store.allocated)
    (run : pagerWritePage store.pager page data = (true, next)) :
    Retains { store with
      pager := next
      stored := Function.update store.stored page (some data) } := by
  obtain ⟨count, -, -, -, file⟩ := pagerWritePage_ok run
  have size : next.fd.file.size =
      max store.pager.fd.file.size (getPageOffset page + pageSize) := by
    rw [file, File.write_size _ data.toBytes_ne_nil, PageData.toBytes_length]
  refine ⟨retains.nonzero, fun other content last => ?_, fun other content last less => ?_⟩
  · obtain ⟨rfl, -⟩ | ⟨-, last⟩ := Heaps.update_eq_some last
    · exact member
    · exact retains.member _ _ last
  · obtain ⟨rfl, same⟩ | ⟨different, last⟩ := Heaps.update_eq_some last
    · obtain rfl := Option.some.inj same
      refine ⟨⟨Or.inl less, ?_⟩, ?_⟩
      · rw [size]
        exact Nat.le_max_right _ _
      · rw [file, diskPage_write_self]
    · obtain ⟨holds, disk⟩ := retains.disk _ _ last (count ▸ less)
      refine ⟨⟨Or.inl less, ?_⟩, ?_⟩
      · rw [size]
        exact Nat.le_trans holds.2 (Nat.le_max_left _ _)
      · rw [file, diskPage_write_other _ data.toBytes_length different, disk]

theorem Retains.sync (retains : Retains store) (run : pagerSync store.pager = (true, next)) :
    Retains { store with pager := next } := by
  obtain ⟨rest, file⟩ := pagerSync_ok run
  refine ⟨retains.nonzero, retains.member, fun page data last less => ?_⟩
  have count : next.pageCount = store.pager.pageCount := by rw [rest]
  obtain ⟨holds, disk⟩ := retains.disk _ _ last (count ▸ less)
  rw [Pager.Holds, count, file]
  exact ⟨holds, disk⟩

/-- One call keeps what is stored below the page count. -/
theorem StoreStep.retains {before after : PageStore}
    (step : StoreStep SparesHeader mayFree before after) (retains : Retains before) :
    Retains after := by
  cases step with
  | allocate spares run => exact retains.allocate spares run
  | free _ run => exact retains.free run
  | write member run => exact retains.write member run
  | sync run => exact retains.sync run

theorem StoreRun.retains (run : StoreRun SparesHeader mayFree store) : Retains store := by
  obtain ⟨path, opened, created, start, steps⟩ := run
  exact run_invariant _ (fun _ _ step => step.retains) steps (created_retains start)

theorem StoreRun.step {mayAllocate : Pager → Prop} {next : PageStore}
    (run : StoreRun mayAllocate mayFree store) (step : StoreStep mayAllocate mayFree store next) :
    StoreRun mayAllocate mayFree next := by
  obtain ⟨path, opened, created, start, steps⟩ := run
  exact ⟨path, opened, created, start, steps.tail step⟩

end LastWrite

/-! ### Pages that are freed while they are allocated -/

/-- If only allocated pages are freed and the page count does not wrap, the allocator is sound. -/
theorem StoreRun.sound {store : PageStore} (run : StoreRun HasRoom allocatedPage store) :
    ∃ free, FreelistSound store.pager store.allocated free := by
  obtain ⟨path, opened, created, start, steps⟩ := run
  refine run_invariant (fun store => ∃ free, FreelistSound store.pager store.allocated free)
    (fun before after step sound => ?_) steps ⟨[], created_sound start⟩
  obtain ⟨free, sound⟩ := sound
  cases step with
  | allocate room run => exact sound.allocate room run
  | free member run => exact ⟨_, sound.free member run⟩
  | write member run => exact ⟨free, sound.write (sound.off_freelist member) run⟩
  | sync run =>
    obtain ⟨rest, file⟩ := pagerSync_ok run
    refine ⟨free, ?_, ?_, ?_, ?_⟩
    · rw [rest, file]
      exact sound.chain
    · rw [rest]
      exact sound.counted
    · rw [rest]
      exact sound.range
    · rw [rest]
      exact sound.positive

/-- A page that was written reads back exactly if it is a valid page, and it always is one if only
allocated pages are freed and the page count does not wrap. -/
theorem page_store_iff {store : PageStore} (run : StoreRun SparesHeader anyPage store)
    {page : UInt32} {data : PageData} (last : store.stored page = some data) :
    (∀ read, (pagerReadPage store.pager page).1 = some read → read = data) ∧
      (store.pager.Quiet → ((pagerReadPage store.pager page).1 = some data ↔
        pagerIsValidPage store.pager page = true)) ∧
      (StoreRun HasRoom allocatedPage store → pagerIsValidPage store.pager page = true) := by
  have retains := run.retains
  have nonzero := retains.ne_zero last
  have valid : pagerIsValidPage store.pager page = true ↔ page < store.pager.pageCount := by
    simp [pagerIsValidPage, nonzero]
  have reads : ∀ read, (pagerReadPage store.pager page).1 = some read →
      page < store.pager.pageCount ∧ read = data := by
    intro read reading
    have less := (pagerReadPage_holds (Prod.ext reading rfl)).1.resolve_right nonzero
    obtain ⟨same, -⟩ := pagerReadPage_ok (Prod.ext reading rfl)
    exact ⟨less, same.trans (retains.disk _ _ last less).2⟩
  refine ⟨fun read reading => (reads _ reading).2, fun quiet => ?_, fun sound => ?_⟩
  · rw [valid]
    refine ⟨fun reading => (reads _ reading).1, fun less => ?_⟩
    obtain ⟨holds, disk⟩ := retains.disk _ _ last less
    obtain ⟨next, reading, -⟩ := quiet.read holds
    rw [reading, disk]
  · obtain ⟨free, sound⟩ := sound.sound
    rw [valid]
    exact ((sound.range.2 _).mp (mem_append_right _ (retains.member _ _ last))).2

theorem page_store_iff_one : ∃ store page data, StoreRun SparesHeader anyPage store ∧
    store.stored page = some data ∧ (pagerReadPage store.pager page).1 = some data := by
  have start : StoreRun SparesHeader anyPage ⟨newPager, [], fun _ => none⟩ :=
    ⟨_, _, newPager, newPager_created, .refl⟩
  obtain ⟨last, write, quiet, valid⟩ : ∃ last,
      pagerWritePage onePage 1 (fun _ => 7) = (true, last) ∧ last.Quiet ∧
        pagerIsValidPage last 1 = true := by
    decide +kernel
  have run := (start.step (.allocate (by decide +kernel) onePage_allocated)).step
    (.write mem_cons_self write)
  exact ⟨_, _, _, run, update_self ..,
    ((page_store_iff run (update_self ..)).2.1 quiet).mpr valid⟩

theorem pagerReadPage_past {page : UInt32} (nonzero : page ≠ 0) (past : pager.pageCount ≤ page) :
    (pagerReadPage pager page).1 = none := by
  rw [pagerReadPage, if_pos ⟨past, nonzero⟩]

/-- Two ways to a page that is allocated and written and cannot be read. Page 5 of a new database is
freed, handed out and written. Or, with no page freed at all, page 1 is written and the database
then filled until the page count wraps. -/
theorem written_page_unreadable :
    (∃ store page data, StoreRun SparesHeader anyPage store ∧ store.pager.Quiet ∧
      store.stored page = some data ∧ (pagerReadPage store.pager page).1 = none) ∧
    ∃ store page data, StoreRun (fun _ => True) allocatedPage store ∧ store.pager.Quiet ∧
      store.stored page = some data ∧ (pagerReadPage store.pager page).1 = none := by
  constructor
  · have start : StoreRun SparesHeader anyPage ⟨newPager, [], fun _ => none⟩ :=
      ⟨_, _, newPager, newPager_created, .refl⟩
    obtain ⟨freed, free, room, next, allocate, last, write, quiet, unread⟩ :
        ∃ freed, pagerFreePage newPager 5 = (true, freed) ∧ SparesHeader freed ∧
        ∃ next, pagerAllocatePage freed = (some 5, next) ∧
        ∃ last, pagerWritePage next 5 (fun _ => 7) = (true, last) ∧ last.Quiet ∧
          (pagerReadPage last 5).1 = none := by
      decide +kernel
    exact ⟨_, _, _, ((start.step (.free trivial free)).step (.allocate room allocate)).step
      (.write mem_cons_self write), quiet, update_self .., unread⟩
  · obtain ⟨full, allocated, ⟨run, sound⟩, -, quiet, first, pages, size, -⟩ := fresh_induction
      (fun pager allocated => StoreRun (fun _ => True) allocatedPage
        { pager, allocated, stored := fun _ => none } ∧ ∃ free, FreelistSound _ allocated free)
      (fun pager opened created => ⟨⟨_, opened, pager, created, .refl⟩, [], created_sound created⟩)
      (fun pager next allocated page room allocate reached =>
        ⟨by simpa using reached.1.step (.allocate trivial allocate),
          reached.2.elim fun _ sound => sound.allocate room allocate⟩)
      4294967294 (by decide)
    have lastCount : full.pageCount = 0xFFFFFFFF := UInt32.toNat_inj.mp pages
    obtain ⟨free, sound⟩ := sound
    have member : (1 : UInt32) ∈ allocated :=
      sound.mem_of_empty first (by decide) (by rw [lastCount]; decide)
    obtain ⟨written, write, quiet⟩ := quiet.write 1 fun _ => 7
    obtain ⟨countWritten, firstWritten, -, -, file⟩ := pagerWritePage_ok write
    have run := run.step (.write member write)
    obtain ⟨wrapped, allocate, quiet⟩ := quiet.allocate_fresh
      (Nat.le_trans size (file ▸ File.size_le_write _ _ _)) (firstWritten.trans first)
    obtain ⟨-, count, -⟩ := pagerAllocatePage_fresh allocate (firstWritten.trans first)
    refine ⟨_, 1, fun _ => 7, run.step (.allocate trivial allocate), quiet, ?_,
      pagerReadPage_past (by decide) ?_⟩
    · have other : (1 : UInt32) ≠ written.pageCount := by
        rw [countWritten, lastCount]
        decide
      simp [update_of_ne other]
    · rw [count, countWritten, lastCount]
      decide

/-! ### Which pages there are -/

/-- A call, successful or not. -/
inductive PagerStep : Pager → Pager → Prop
  | allocate (pager : Pager) : PagerStep pager (pagerAllocatePage pager).2
  | free (pager : Pager) (page : UInt32) : PagerStep pager (pagerFreePage pager page).2
  | write (pager : Pager) (page : UInt32) (data : PageData) :
      PagerStep pager (pagerWritePage pager page data).2

/-- The handles reached from `pager_create` when no input or output fails. -/
def PagerRun (pager : Pager) : Prop :=
  ∃ path opened created, pagerCreate path = (some created, opened) ∧ created.Quiet ∧
    ReflTransGen PagerStep created pager

/-- Reading and writing a page succeed exactly if it is valid. -/
def PagesAgree (pager : Pager) (page : UInt32) : Prop :=
  ((pagerReadPage pager page).1.isSome ↔ pagerIsValidPage pager page = true) ∧
    ∀ data, (pagerWritePage pager page data).1 = true ↔ pagerIsValidPage pager page = true

theorem updateHeader_quiet {fd : Descriptor} (quiet : fd.schedule = [])
    (writable : fd.writable = true)
    (change : DatabaseHeader → DatabaseHeader) :
    (updateHeader fd change).2.schedule = [] ∧ (updateHeader fd change).2.writable = true := by
  have kept := readHeader_quiet quiet
  unfold updateHeader
  split <;> rename_i reading <;> rw [reading] at kept
  · exact ⟨kept.1, kept.2.trans writable⟩
  · rename_i header next
    rw [writeHeader, lseek_of_nil next kept.1]
    simp only
    rw [writeExact_of_nil { next with position := 0 } kept.1 (kept.2.trans writable)
      (change _).encode_ne_nil]
    exact ⟨kept.1, kept.2.trans writable⟩

/-- If no input or output fails, none will. -/
theorem PagerStep.quiet {next : Pager} (step : PagerStep pager next) (quiet : pager.Quiet) :
    next.Quiet := by
  cases step with
  | write page data =>
    obtain ⟨next, run, kept⟩ := quiet.write page data
    rw [run]
    exact kept
  | free page =>
    by_cases zero : page = 0
    · rw [pagerFreePage, if_pos zero]
      exact quiet
    · obtain ⟨next, run, kept⟩ := quiet.free zero
      rw [run]
      exact kept
  | allocate =>
    unfold pagerAllocatePage
    split
    · have kept := readExact_quiet
        { pager.fd with position := getPageOffset pager.firstFreePage } pageSize quiet.schedule
      simp only [lseek_of_nil _ quiet.schedule]
      split <;> rename_i reading <;> rw [reading] at kept <;>
        exact ⟨kept.1, kept.2.trans quiet.writable⟩
    · have kept := updateHeader_quiet quiet.schedule quiet.writable
        fun header => { header with pageCount := pager.pageCount + 1 }
      simp only
      split <;> rename_i update <;> rw [update] at kept
      · exact ⟨kept.1, kept.2⟩
      · rename_i updated
        rw [ftruncate_of_nil _ kept.1 kept.2]
        exact ⟨kept.1, kept.2⟩

theorem PagerRun.quiet (run : PagerRun pager) : pager.Quiet := by
  obtain ⟨path, opened, created, -, quiet, steps⟩ := run
  exact run_invariant _ (fun _ _ step => step.quiet) steps quiet

/-- A page is read exactly if the file holds it. -/
theorem Pager.Quiet.read_iff (quiet : pager.Quiet) (page : UInt32) :
    (pagerReadPage pager page).1.isSome ↔ pager.Holds page := by
  constructor
  · intro answered
    obtain ⟨data, reading⟩ := Option.isSome_iff_exists.mp answered
    exact pagerReadPage_holds (Prod.ext reading rfl)
  · intro holds
    obtain ⟨next, reading, -⟩ := quiet.read holds
    rw [reading]
    rfl

/-- Reading, writing and the validity test agree on a page exactly if it is valid and the file
reaches to its end: every page can be written. -/
theorem pages_agree_iff {pager : Pager} (run : PagerRun pager) (page : UInt32) :
    PagesAgree pager page ↔ pagerIsValidPage pager page = true ∧
      getPageOffset page + pageSize ≤ pager.fd.file.size := by
  have quiet := run.quiet
  have writes : ∀ data, (pagerWritePage pager page data).1 = true := by
    intro data
    obtain ⟨next, write, -⟩ := quiet.write page data
    rw [write]
  have valid : pagerIsValidPage pager page = true ↔ page < pager.pageCount ∨ page = 0 := by
    simp [pagerIsValidPage]
  rw [PagesAgree, quiet.read_iff, valid]
  constructor
  · rintro ⟨reads, agrees⟩
    have counted := (agrees fun _ => 0).mp (writes _)
    exact reads.mpr counted
  · rintro ⟨counted, inside⟩
    exact ⟨iff_of_true ⟨counted, inside⟩ counted, fun data => iff_of_true (writes _) counted⟩

theorem pages_agree_iff_page_one : ∃ pager, PagerRun pager ∧ PagesAgree pager 1 := by
  have run : PagerRun onePage :=
    ⟨newPath, _, newPager, newPager_created, by decide +kernel, .single (.allocate _)⟩
  exact ⟨onePage, run, (pages_agree_iff run 1).mpr (by decide +kernel)⟩

/-- In a new database page 0 is valid and cannot be read, and page 1 is not valid and can be
written. -/
theorem new_database_disagrees : ∃ pager, PagerRun pager ∧
    pagerIsValidPage pager 0 = true ∧ (pagerReadPage pager 0).1 = none ∧
    pagerIsValidPage pager 1 = false ∧ (pagerWritePage pager 1 fun _ => 0).1 = true := by
  refine ⟨newPager, ⟨newPath, _, newPager, newPager_created, by decide +kernel, .refl⟩, ?_⟩
  decide +kernel

end TinyDb

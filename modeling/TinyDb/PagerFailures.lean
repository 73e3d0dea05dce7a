/-
This file asks what a failed call leaves of the handle. The calls that change the
allocator are each a row of system calls with assignments to the handle between
them, and nothing is taken back: a call that fails keeps the handle exactly if it
fails before its first assignment, or if the assignments change nothing.
-/

import TinyDb.PagerReopen

namespace TinyDb

open Bytes Posix

variable {count : UInt32}

/-! ### The calls -/

/-- The calls that change the allocator. -/
inductive AllocatorCall
  | allocate
  | free (pageNum : UInt32)
  | updatePageCount (count : UInt32)
  | updateFreelist (firstFree count : UInt32)

/-- The call on a handle; the answer is false for `-1`. -/
def AllocatorCall.run : AllocatorCall → Pager → Bool × Pager
  | .allocate, pager =>
    let (page, pager) := pagerAllocatePage pager
    (page.isSome, pager)
  | .free pageNum, pager => pagerFreePage pager pageNum
  | .updatePageCount count, pager => pagerUpdatePageCount pager count
  | .updateFreelist firstFree count, pager => pagerUpdateFreelist pager firstFree count

/-- Nothing in the handle but the descriptor has changed. -/
def KeepsHandle (pager next : Pager) : Prop :=
  SameAllocator pager next ∧ next.fileSize = pager.fileSize

/-- Whether a seek to a position and a write of some bytes there both succeed. -/
def writesAt (fd : Descriptor) (offset : Nat) (bytes : List UInt8) : Bool :=
  (fd.lseek offset).1 && (writeExact (fd.lseek offset).2 bytes).1

/-- The system call that fails comes before the first assignment to the handle, or the values
assigned are those that are there. -/
def AllocatorCall.FailsEarly : AllocatorCall → Pager → Prop
  | .allocate, pager => pager.firstFreePage ≠ 0
  | .free pageNum, pager =>
    pageNum = 0 ∨
      writesAt pager.fd (getPageOffset pageNum) (freePageBytes pager.firstFreePage) = false
  | .updatePageCount count, pager =>
    (readHeader pager.fd).1 = none ∨ count = pager.pageCount
  | .updateFreelist firstFree count, pager =>
    (readHeader pager.fd).1 = none ∨
      firstFree = pager.firstFreePage ∧ count = pager.freePageCount

/-! ### Failed calls -/

section FailedCalls

variable {pager next : Pager}

theorem keepsHandle_descriptor (pager : Pager) (fd : Descriptor) :
    KeepsHandle pager { pager with fd } :=
  ⟨⟨rfl, rfl, rfl⟩, rfl⟩

theorem allocate_failed_iff (failed : pagerAllocatePage pager = (none, next)) :
    KeepsHandle pager next ↔ pager.firstFreePage ≠ 0 := by
  unfold pagerAllocatePage at failed
  split at failed
  · rename_i nonempty
    refine iff_of_true ?_ nonempty
    simp only at failed
    split at failed
    · obtain ⟨-, rfl⟩ := Prod.mk.inj failed
      exact keepsHandle_descriptor _ _
    · split at failed
      · obtain ⟨-, rfl⟩ := Prod.mk.inj failed
        exact keepsHandle_descriptor _ _
      · cases failed
  · rename_i empty
    -- the page count goes up before the header is read
    have counted : next.pageCount = pager.pageCount + 1 := by
      simp only at failed
      split at failed
      · obtain ⟨-, rfl⟩ := Prod.mk.inj failed
        rfl
      · split at failed
        · obtain ⟨-, rfl⟩ := Prod.mk.inj failed
          rfl
        · cases failed
    refine iff_of_false (fun kept => ?_) empty
    have same := kept.1.pageCount
    rw [counted] at same
    simp at same

theorem free_failed_iff {pageNum : UInt32} (failed : pagerFreePage pager pageNum = (false, next)) :
    KeepsHandle pager next ↔ pageNum = 0 ∨
      writesAt pager.fd (getPageOffset pageNum) (freePageBytes pager.firstFreePage) = false := by
  unfold pagerFreePage at failed
  split at failed
  · rename_i zero
    cases failed
    exact iff_of_true (keepsHandle_descriptor _ _) (Or.inl zero)
  · rename_i nonzero
    split at failed
    · rename_i seek
      cases failed
      refine iff_of_true (keepsHandle_descriptor _ _) (Or.inr ?_)
      rw [writesAt, seek, Bool.false_and]
    · rename_i seek
      split at failed
      · rename_i writing
        cases failed
        refine iff_of_true (keepsHandle_descriptor _ _) (Or.inr ?_)
        rw [writesAt, seek, writing, Bool.and_false]
      · rename_i writing
        -- the list head and the count change before the header is read
        have counted : next.freePageCount = pager.freePageCount + 1 := by
          simp only at failed
          split at failed
          · obtain ⟨-, rfl⟩ := Prod.mk.inj failed
            rfl
          · cases failed
        refine iff_of_false (fun kept => ?_) ?_
        · have same := kept.1.freePageCount
          rw [counted] at same
          simp at same
        · rw [writesAt, seek, writing]
          simp [nonzero]

theorem updatePageCount_failed_iff (failed : pagerUpdatePageCount pager count = (false, next)) :
    KeepsHandle pager next ↔ (readHeader pager.fd).1 = none ∨ count = pager.pageCount := by
  unfold pagerUpdatePageCount at failed
  split at failed
  · rename_i reading
    cases failed
    exact iff_of_true (keepsHandle_descriptor _ _) (Or.inl (by rw [reading]))
  · rename_i reading
    obtain ⟨-, rfl⟩ := Prod.mk.inj failed
    rw [reading]
    constructor
    · exact fun kept => Or.inr kept.1.pageCount
    · intro early
      exact ⟨⟨early.resolve_left nofun, rfl, rfl⟩, rfl⟩

theorem updateFreelist_failed_iff {firstFree : UInt32}
    (failed : pagerUpdateFreelist pager firstFree count = (false, next)) :
    KeepsHandle pager next ↔ (readHeader pager.fd).1 = none ∨
      firstFree = pager.firstFreePage ∧ count = pager.freePageCount := by
  unfold pagerUpdateFreelist at failed
  split at failed
  · rename_i reading
    cases failed
    exact iff_of_true (keepsHandle_descriptor _ _) (Or.inl (by rw [reading]))
  · rename_i reading
    obtain ⟨-, rfl⟩ := Prod.mk.inj failed
    rw [reading]
    constructor
    · exact fun kept => Or.inr ⟨kept.1.firstFreePage, kept.1.freePageCount⟩
    · intro early
      obtain ⟨first, free⟩ := early.resolve_left nofun
      exact ⟨⟨rfl, first, free⟩, rfl⟩

/-- A failed call keeps the handle exactly if it failed early. -/
theorem failed_call_keeps_iff {call : AllocatorCall} {pager next : Pager}
    (failed : call.run pager = (false, next)) :
    KeepsHandle pager next ↔ call.FailsEarly pager := by
  cases call with
  | allocate =>
    obtain ⟨nothing, rfl⟩ := Prod.mk.inj failed
    exact allocate_failed_iff (Prod.ext (Option.isSome_eq_false_iff.trans
      Option.isNone_iff_eq_none |>.mp nothing) rfl)
  | free pageNum => exact free_failed_iff failed
  | updatePageCount count => exact updatePageCount_failed_iff failed
  | updateFreelist firstFree count => exact updateFreelist_failed_iff failed

/-- A path where a database can be created, with a failing call right after that. -/
def failingPath : Path :=
  { newPath with schedule := [.transfer 0, .transfer 0, .transfer 47, .transfer 0, .failed] }

theorem failed_call_keeps_iff_free : ∃ pager opened next,
    pagerCreate failingPath = (some pager, opened) ∧
      (AllocatorCall.free 1).run pager = (false, next) ∧ KeepsHandle pager next := by
  obtain ⟨pager, opened, next, created, failed, early⟩ : ∃ pager opened next,
      pagerCreate failingPath = (some pager, opened) ∧
        (AllocatorCall.free 1).run pager = (false, next) ∧
        (AllocatorCall.free 1).FailsEarly pager := ⟨_, _, _, rfl, rfl, Or.inr rfl⟩
  exact ⟨pager, opened, next, created, failed, (failed_call_keeps_iff failed).mpr early⟩

/-- The first allocation of a new database cannot seek to the header and fails, with the page count
at 2. -/
theorem failed_allocation_counts_page : ∃ pager opened next,
    pagerCreate failingPath = (some pager, opened) ∧
      AllocatorCall.allocate.run pager = (false, next) ∧
      pager.pageCount = 1 ∧ next.pageCount = 2 :=
  ⟨_, _, _, rfl, rfl, rfl, rfl⟩

end FailedCalls

end TinyDb

/-
This file says when the check of the free space of a leaf is exact.

`btree_insert` adds up the size of the new cell in 32 bits, keeps it in 16, and
compares that with what is left between the pointers and the cells. For values
that are shorter than 65518 bytes nothing is lost. The size of a longer value
wraps, and when the rest is small enough the check passes: the value is then
copied from somewhere in the page to far past its end.
-/

import TinyDb.Descents
import TinyDb.LeafTree

namespace TinyDb

open Heaps Bytes

/-! ### One leaf -/

section Leaf

variable {data : PageData} {start : Nat} {cells : List Cell} {key : UInt64} {value : List UInt8}

/-- What is left between the pointers and the cells. -/
def spaceLeft (start : Nat) (cells : List Cell) : Nat := start - (10 + 2 * cells.length)

theorem spaceLeft_eq (start : Nat) (cells : List Cell) :
    spaceLeft start cells = start - pointerOffset cells.length := by
  rw [spaceLeft, pointerOffset, btreeLeafHeaderSize, btreeCellPointerSize, Nat.mul_comm]

theorem LeafLayout.fits_iff_space (layout : LeafLayout data start cells) :
    Fits start cells value ↔ 18 + value.length ≤ spaceLeft start cells := by
  have room := layout.room
  rw [Fits, spaceLeft]
  simp only [pointerOffset, btreeLeafHeaderSize, btreeCellPointerSize] at room ⊢
  omega

/-- The size does not wrap, or what is left of it is still refused. -/
def SizeCounted (start : Nat) (cells : List Cell) (value : List UInt8) : Prop :=
  18 + value.length < 65536 ∨ spaceLeft start cells < (18 + value.length) % 65536

instance (start : Nat) (cells : List Cell) (value : List UInt8) :
    Decidable (SizeCounted start cells value) :=
  inferInstanceAs (Decidable (_ ∨ _))

/-- Where the size is counted, an insertion returns and is successful exactly if the cell fits. -/
theorem LeafLayout.leafInsert_exact (layout : LeafLayout data start cells)
    (absent : key ∉ cells.map Cell.key) (counted : SizeCounted start cells value) :
    ∃ answer, TinyDb.leafInsert key value cells.length data = .ok answer ∧
      (answer.isSome = true ↔ 18 + value.length ≤ spaceLeft start cells) := by
  by_cases fits : Fits start cells value
  · obtain ⟨next, -, run, -⟩ := layout.leafInsert_fits absent fits
    exact ⟨some next, run, iff_of_true rfl (layout.fits_iff_space.mp fits)⟩
  · rw [layout.fits_iff_space] at fits
    refine ⟨none, layout.leafInsert_refused ?_ key, iff_of_false nofun fits⟩
    rw [← spaceLeft_eq]
    rcases counted with short | wrapped
    · rw [Nat.mod_eq_of_lt short]
      exact Nat.not_le.mp fits
    · exact wrapped

/-- Where it is not, the insertion leaves the page. -/
theorem LeafLayout.leafInsert_wraps (layout : LeafLayout data start cells) (key : UInt64)
    (wraps : ¬SizeCounted start cells value) :
    TinyDb.leafInsert key value cells.length data = .error .outOfBounds := by
  rw [SizeCounted, not_or, Nat.not_lt, Nat.not_lt, spaceLeft_eq] at wraps
  refine layout.leafInsert_overflows wraps.2 ?_ key
  rw [pageSize]
  omega

end Leaf

/-! ### Insertions into a tree -/

section Trees

variable {Free : PageCache → View → Prop} {Held : PageCache → View → Addr → Prop}
  {cache : PageCache} {view : View} {tree : BTree} {data : PageData} {start : Nat}
  {cells : List Cell} {key : UInt64} {value : List UInt8} {leaf : UInt32}

/-- An insertion of a key that is not there visits the leaf once more. -/
theorem Serves.insert_absent (serves : Serves .must Free Held) (free : Free cache view)
    (opened : tree.isOpen = true)
    (reached : walk (findVisit key) view btreeMaxDepth tree.rootPage = .ok (some leaf))
    (here : view leaf = some data) (layout : LeafLayout data start cells)
    (absent : key ∉ cells.map Cell.key) (value : List UInt8) :
    ∃ found, Free found view ∧ btreeInsert cache tree key value = (do
      let (written, next) ← pinWrite found leaf (leafInsert key value cells.length)
      return (written == some true, next)) := by
  obtain ⟨⟨_, found⟩, find, free, cursor, _, _, rfl, rfl, again, visiting⟩ :
      Ensures .must
        (TinyDb.descend tree true (findVisit key) btreeMaxDepth tree.rootPage [] cache) _ :=
    serves.follow free reached []
  rw [here] at again
  cases again
  rw [layout.findVisit, findIdx?_key_eq_none.mpr absent] at visiting
  injection visiting with leaf
  injection leaf with cell isEnd
  refine ⟨found, free, ?_⟩
  rw [btreeInsert, btreeFind, if_pos opened, find, ok_bind]
  simp only [← isEnd, ← cell, if_true]

/-- For every leaf that is laid out, every key that is not in it and every value, `btree_insert`
returns, stays inside the page and is successful exactly if there is space for the cell and its
pointer, if and only if the size of the cell is counted. -/
theorem space_check_exact_iff (serves : Serves .must Free Held) (free : Free cache view)
    (opened : tree.isOpen = true)
    (reached : walk (findVisit key) view btreeMaxDepth tree.rootPage = .ok (some leaf))
    (here : view leaf = some data) (layout : LeafLayout data start cells)
    (absent : key ∉ cells.map Cell.key) :
    (∃ done next, btreeInsert cache tree key value = .ok (done, next) ∧
      (done = true ↔ 18 + value.length ≤ spaceLeft start cells)) ↔
      SizeCounted start cells value := by
  obtain ⟨found, free, insertion⟩ :=
    serves.insert_absent free opened reached here layout absent _
  rw [insertion]
  constructor
  · rintro ⟨done, next, run, -⟩
    by_contra wraps
    rw [serves.write_fault free here (layout.leafInsert_wraps key wraps)] at run
    cases run
  · intro counted
    obtain ⟨answer, run, successful⟩ := layout.leafInsert_exact absent counted
    have returns : Ensures .must (leafInsert key value cells.length data) (· = answer) :=
      ⟨answer, run, rfl⟩
    obtain ⟨⟨_, next⟩, write, answer, rfl, rfl, -⟩ := serves.write free here returns
    refine ⟨_, next, by rw [write]; rfl, ?_⟩
    rw [beq_iff_eq, Option.some.injEq]
    exact successful

end Trees

theorem space_check_exact_iff_empty : ∃ pager tree cache next,
    btreeCreate (pageCacheCreate 256 4 (some pager)) = .ok (some tree, cache) ∧
      btreeInsert cache tree 5 [1, 2, 3] = .ok (true, next) := by
  obtain ⟨tree, cache, create, -⟩ := created_tree
  obtain ⟨opened, view, data, resident, root, layout⟩ := btreeCreate_resident
    (created_usable 256 4 _) (by decide) create
  obtain ⟨done, next, run, successful⟩ := (space_check_exact_iff resident_serves resident opened
    (walk_of_ends ⟨data, _, _, _, root, layout.findVisit 5⟩) root layout List.not_mem_nil).mpr
    (by decide : SizeCounted pageSize [] [1, 2, 3])
  rw [successful.mpr (by decide)] at run
  exact ⟨newPager, tree, cache, next, create, run⟩

/-- A value of 65518 bytes passes the check of an empty page. -/
theorem long_value_leaves_page : ∃ pager tree cache,
    btreeCreate (pageCacheCreate 256 4 (some pager)) = .ok (some tree, cache) ∧
      btreeInsert cache tree 5 (List.replicate 65518 0) = .error .outOfBounds := by
  refine ⟨newPager, ?_⟩
  decide +kernel

end TinyDb

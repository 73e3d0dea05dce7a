/-
This file models the objects that C code allocates, and what goes wrong with them.

A heap maps addresses to live objects. An address is never handed out twice, so
that a pointer kept after its object was freed is recognised whenever it is
followed. A computation that follows such a pointer, or a null pointer, has no
result but a fault; so has a loop that never ends.
-/

import Mathlib.Data.List.Perm.Subperm

namespace Heaps

/-- The undefined behaviours and the divergence a computation can run into. -/
inductive Fault
  | nullDereference
  | useAfterFree
  | doubleFree
  | outOfBounds
  | diverges
  deriving DecidableEq, Repr

/-- The address of an object. -/
abbrev Addr := Nat

/-- Live objects by address; no object lives past the next address to be handed out. -/
structure Heap (Object : Type) where
  cell : Addr → Option Object
  next : Addr
  fresh : ∀ addr, next ≤ addr → cell addr = none

variable {Object Result Other : Type}

/-! ### Computations that can fault -/

/-- A computation in two parts returns when both parts do. -/
theorem bind_eq_ok {first : Except Fault Result} {second : Result → Except Fault Other}
    {result : Other} :
    (first >>= second) = .ok result ↔
      ∃ middle, first = .ok middle ∧ second middle = .ok result := by
  cases first with
  | error fault => exact ⟨nofun, fun ⟨_, absurd, _⟩ => nomatch absurd⟩
  | ok middle =>
    refine ⟨fun run => ⟨middle, rfl, run⟩, ?_⟩
    rintro ⟨_, same, run⟩
    cases same
    exact run

@[simp] theorem ok_bind (middle : Result) (second : Result → Except Fault Other) :
    ((.ok middle : Except Fault Result) >>= second) = second middle :=
  rfl

@[simp] theorem pure_eq_ok (result : Result) : (pure result : Except Fault Result) = .ok result :=
  rfl

/-! ### Maps with one entry changed -/

/-- An entry of the changed map is the new one, or an old one somewhere else. -/
theorem update_eq_some {Key Value : Type} [DecidableEq Key] {map : Key → Option Value}
    {key other : Key} {assigned : Option Value} {value : Value}
    (found : Function.update map key assigned other = some value) :
    (other = key ∧ assigned = some value) ∨ (other ≠ key ∧ map other = some value) := by
  by_cases same : other = key
  · rw [same, Function.update_self] at found
    exact Or.inl ⟨same, found⟩
  · rw [Function.update_of_ne same] at found
    exact Or.inr ⟨same, found⟩

theorem update_none_eq_some {Key Value : Type} [DecidableEq Key] {map : Key → Option Value}
    {key other : Key} {value : Value} (found : Function.update map key none other = some value) :
    other ≠ key ∧ map other = some value := by
  obtain ⟨-, impossible⟩ | kept := update_eq_some found
  · cases impossible
  · exact kept

namespace Heap

variable {heap next : Heap Object} {addr other : Addr} {object : Object}

/-! ### Operations -/

/-- The heap without objects. -/
def empty : Heap Object where
  cell _ := none
  next := 0
  fresh _ _ := rfl

/-- Whether an object lives at the address. -/
def Live (heap : Heap Object) (addr : Addr) : Prop := (heap.cell addr).isSome

instance (heap : Heap Object) (addr : Addr) : Decidable (heap.Live addr) :=
  inferInstanceAs (Decidable (_ = true))

/-- The object a pointer leads to. -/
def load (heap : Heap Object) (addr : Addr) : Except Fault Object :=
  match heap.cell addr with
  | some object => .ok object
  | none => .error .useAfterFree

/-- Put a value at an address that has been handed out. -/
def set (heap : Heap Object) (addr : Addr) (value : Option Object) : Heap Object where
  cell other := if other = addr ∧ addr < heap.next then value else heap.cell other
  next := heap.next
  fresh other past := by
    have outside : ¬(other = addr ∧ addr < heap.next) := by
      rintro ⟨rfl, less⟩
      exact Nat.not_lt_of_le past less
    rw [if_neg outside]
    exact heap.fresh other past

/-- Change the object a pointer leads to. -/
def modify (heap : Heap Object) (addr : Addr) (change : Object → Object) :
    Except Fault (Heap Object) :=
  match heap.cell addr with
  | some object => .ok (heap.set addr (some (change object)))
  | none => .error .useAfterFree

/-- Give an object back. -/
def free (heap : Heap Object) (addr : Addr) : Except Fault (Heap Object) :=
  match heap.cell addr with
  | some _ => .ok (heap.set addr none)
  | none => .error .doubleFree

/-- Make a new object; its address is the next one. -/
def alloc (heap : Heap Object) (object : Object) : Heap Object where
  cell addr := if addr = heap.next then some object else heap.cell addr
  next := heap.next + 1
  fresh addr past := by
    rw [if_neg (Nat.ne_of_gt past)]
    exact heap.fresh addr (Nat.le_of_succ_le past)

/-! ### What the operations do -/

theorem live_iff : heap.Live addr ↔ ∃ object, heap.cell addr = some object :=
  Option.isSome_iff_exists

theorem live_of_eq (found : heap.cell addr = some object) : heap.Live addr :=
  live_iff.mpr ⟨object, found⟩

theorem Live.lt_next (live : heap.Live addr) : addr < heap.next := by
  by_contra past
  rw [Live, heap.fresh _ (Nat.le_of_not_lt past)] at live
  cases live

theorem not_live_next (heap : Heap Object) : ¬heap.Live heap.next :=
  fun live => Nat.lt_irrefl _ live.lt_next

@[simp] theorem set_next (heap : Heap Object) (addr : Addr) (value : Option Object) :
    (heap.set addr value).next = heap.next :=
  rfl

theorem set_cell_self (live : heap.Live addr) (value : Option Object) :
    (heap.set addr value).cell addr = value :=
  if_pos ⟨rfl, live.lt_next⟩

theorem set_cell_ne (value : Option Object) (different : other ≠ addr) :
    (heap.set addr value).cell other = heap.cell other :=
  if_neg fun same => different same.1

@[simp] theorem alloc_cell_next (heap : Heap Object) (object : Object) :
    (heap.alloc object).cell heap.next = some object :=
  if_pos rfl

theorem alloc_cell_ne (object : Object) (different : addr ≠ heap.next) :
    (heap.alloc object).cell addr = heap.cell addr :=
  if_neg different

theorem load_eq_ok : heap.load addr = .ok object ↔ heap.cell addr = some object := by
  unfold load
  cases heap.cell addr with
  | none => exact ⟨nofun, nofun⟩
  | some found => simp

theorem Live.load (live : heap.Live addr) : ∃ object, heap.load addr = .ok object := by
  simp only [load_eq_ok]
  exact live_iff.mp live

theorem modify_eq_ok {change : Object → Object} :
    heap.modify addr change = .ok next ↔
      ∃ object, heap.cell addr = some object ∧ next = heap.set addr (some (change object)) := by
  unfold modify
  cases heap.cell addr with
  | none => exact ⟨nofun, nofun⟩
  | some found => simp [eq_comm]

theorem free_eq_ok :
    heap.free addr = .ok next ↔ heap.Live addr ∧ next = heap.set addr none := by
  unfold free Live
  cases heap.cell addr with
  | none => exact ⟨nofun, nofun⟩
  | some found => simp [eq_comm]

/-- There are no more live objects than addresses handed out. -/
theorem length_le_next {addrs : List Addr} (nodup : addrs.Nodup)
    (live : ∀ addr ∈ addrs, heap.Live addr) : addrs.length ≤ heap.next := by
  have subset : addrs ⊆ List.range heap.next := fun addr member =>
    List.mem_range.mpr (live _ member).lt_next
  have bounded := (nodup.subperm subset).length_le
  rwa [List.length_range] at bounded

end Heap

end Heaps

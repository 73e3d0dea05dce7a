/-
This file is a small theory of doubly linked lists. A list is given by two link
functions on nodes and by pointers to its ends. The representation is stated
pointwise: wherever a node stands in the order, its forward link leads to the
node after it and its backward link to the node before it.

Pushing a node at the front and taking a node out are stated for any change of
the links that does what the usual pointer assignments do, so that one theory
serves every list whose links are stored in records on a heap.
-/

import Mathlib.Data.List.Nodup
import Mathlib.Logic.Function.Basic
import TinyDb.Lib.Chain

namespace Chains

open List Function

variable {Node : Type}

/-- The links run through the nodes in this order, between these ends. -/
structure Linked (next prev : Node → Option Node) (head last : Option Node)
    (order : List Node) : Prop where
  nodup : order.Nodup
  first : head = order.head?
  final : last = order.getLast?
  forward : ∀ before node after, order = before ++ node :: after → next node = after.head?
  backward : ∀ before node after, order = before ++ node :: after → prev node = before.getLast?

namespace Linked

variable {next prev next' prev' : Node → Option Node} {head last : Option Node}
  {order before after : List Node} {node : Node}

theorem nil : Linked next prev none none [] where
  nodup := nodup_nil
  first := rfl
  final := rfl
  forward _ _ _ split := by simp at split
  backward _ _ _ split := by simp at split

section

variable (linked : Linked next prev head last order)
include linked

theorem last_eq :
    Linked next prev head order.getLast? order :=
  linked.final ▸ linked

/-- Following the forward links visits the nodes in order. -/
theorem chain : Chain next head order := by
  have visits : ∀ before after, order = before ++ after → Chain next after.head? after := by
    intro before after split
    induction after generalizing before with
    | nil => exact .stop
    | cons node rest inductionHypothesis =>
      refine .visit _ _ ?_
      rw [linked.forward _ _ _ split]
      exact inductionHypothesis (before ++ [node]) (by simp [split])
  rw [linked.first]
  exact visits [] order rfl

/-- A list turned around. -/
theorem reverse :
    Linked prev next last head order.reverse where
  nodup := nodup_reverse.mpr linked.nodup
  first := by rw [linked.final, head?_reverse]
  final := by rw [linked.first, getLast?_reverse]
  forward before node after split := by
    have flipped : order = after.reverse ++ node :: before.reverse := by
      rw [← reverse_reverse order, split]
      simp
    rw [linked.backward _ _ _ flipped, getLast?_reverse]
  backward before node after split := by
    have flipped : order = after.reverse ++ node :: before.reverse := by
      rw [← reverse_reverse order, split]
      simp
    rw [linked.forward _ _ _ flipped, head?_reverse]

/-- Changing links off the list does not change the list. -/
theorem congr
    (forward : ∀ node ∈ order, next' node = next node)
    (backward : ∀ node ∈ order, prev' node = prev node) : Linked next' prev' head last order where
  nodup := linked.nodup
  first := linked.first
  final := linked.final
  forward _ _ _ split := by
    rw [forward _ (by simp [split]), linked.forward _ _ _ split]
  backward _ _ _ split := by
    rw [backward _ (by simp [split]), linked.backward _ _ _ split]

theorem head_mem (start : head = some node) :
    node ∈ order :=
  mem_of_head? (linked.first ▸ start)

theorem last_mem (finish : last = some node) :
    node ∈ order :=
  mem_of_getLast? (linked.final ▸ finish)

section

variable (member : node ∈ order)
include member

theorem next_mem
    {successor : Node} (link : next node = some successor) : successor ∈ order := by
  obtain ⟨before, after, split⟩ := append_of_mem member
  rw [linked.forward _ _ _ split] at link
  rw [split]
  exact mem_append_right _ (mem_cons_of_mem _ (mem_of_head? link))

theorem prev_mem
    {predecessor : Node} (link : prev node = some predecessor) : predecessor ∈ order := by
  have turned := linked.reverse.next_mem (mem_reverse.mpr member) link
  exact mem_reverse.mp turned

/-- Only the last node has no successor. -/
theorem next_ne_none_iff :
    next node ≠ none ↔ last ≠ some node := by
  obtain ⟨before, after, rfl⟩ := append_of_mem member
  rw [linked.forward _ _ _ rfl, linked.final]
  cases after with
  | nil => simp
  | cons first rest =>
    have nodup := (nodup_append.mp linked.nodup).2.1
    have fresh := (nodup_cons.mp nodup).1
    simp only [head?_cons, ne_eq, reduceCtorEq, not_false_eq_true, true_iff]
    intro same
    rw [getLast?_append_cons] at same
    exact fresh (mem_of_getLast? same)

/-- Only the first node has no predecessor. -/
theorem prev_ne_none_iff :
    prev node ≠ none ↔ head ≠ some node :=
  linked.reverse.next_ne_none_iff (mem_reverse.mpr member)

/-- No node is its own successor. -/
theorem next_ne_self :
    next node ≠ some node := by
  obtain ⟨before, after, rfl⟩ := append_of_mem member
  rw [linked.forward _ _ _ rfl]
  intro same
  have nodup := (nodup_append.mp linked.nodup).2.1
  exact (nodup_cons.mp nodup).1 (mem_of_head? same)

end

end

/-- A list that starts and ends at one node has no other. -/
theorem eq_of_ends (linked : Linked next prev (some node) (some node) order) {other : Node}
    (member : other ∈ order) : other = node := by
  have first := linked.first
  obtain ⟨rest, rfl⟩ := head?_eq_some_iff.mp first.symm
  cases rest with
  | nil => exact mem_singleton.mp member
  | cons second rest =>
    have final := linked.final
    rw [getLast?_cons_cons] at final
    exact absurd (mem_of_getLast? final.symm) (nodup_cons.mp linked.nodup).1

/-- Pushing a node at the front: it points at the old head, and the old head points back. -/
theorem push_front (linked : Linked next prev head last order) (fresh : node ∉ order)
    (nodeNext : next' node = head) (nodePrev : prev' node = none)
    (forward : ∀ other ∈ order, next' other = next other)
    (headPrev : ∀ other, head = some other → prev' other = some node)
    (backward : ∀ other ∈ order, head ≠ some other → prev' other = prev other) :
    Linked next' prev' (some node) (last.or (some node)) (node :: order) where
  nodup := nodup_cons.mpr ⟨fresh, linked.nodup⟩
  first := rfl
  final := by
    rw [linked.final, getLast?_cons]
    cases order.getLast? <;> rfl
  forward _ _ _ split := by
    rcases cons_eq_append_iff.mp split with ⟨rfl, same⟩ | ⟨rest, rfl, tail⟩
    · obtain ⟨rfl, rfl⟩ := List.cons.inj same
      rw [nodeNext, linked.first]
    · rw [forward _ (by simp [tail]), linked.forward _ _ _ tail]
  backward _ other _ split := by
    rcases cons_eq_append_iff.mp split with ⟨rfl, same⟩ | ⟨rest, rfl, tail⟩
    · obtain ⟨rfl, rfl⟩ := List.cons.inj same
      exact nodePrev
    · cases rest with
      | nil =>
        rw [headPrev _ (by rw [linked.first, tail]; rfl)]
        rfl
      | cons first rest =>
        have different : head ≠ some other := by
          intro same
          have nodup := linked.nodup
          rw [linked.first, tail] at same
          cases same
          rw [tail] at nodup
          simp at nodup
        rw [backward _ (by simp [tail]) different, linked.backward _ _ _ tail,
          getLast?_cons_cons]

theorem forward_remove (linked : Linked next prev head last (before ++ node :: after))
    (relink : ∀ other, prev node = some other → next' other = next node)
    (forward : ∀ other ∈ before ++ after, prev node ≠ some other → next' other = next other)
    (left : List Node) (other : Node) (right : List Node)
    (split : before ++ after = left ++ other :: right) : next' other = right.head? := by
  have member : other ∈ before ++ after := by simp [split]
  have nodePrev := linked.backward _ _ _ rfl
  have after_apart : other ∈ after → prev node ≠ some other := by
    intro inAfter same
    have nodup := linked.nodup
    rw [nodup_append] at nodup
    rw [nodePrev] at same
    exact nodup.2.2 _ (mem_of_getLast? same) _ (mem_cons_of_mem _ inAfter) rfl
  rcases append_eq_append_iff.mp split with ⟨middle, rfl, rfl⟩ | ⟨middle, rfl, tail⟩
  · rw [forward _ member (after_apart (by simp))]
    exact linked.forward (before ++ node :: middle) _ right (by simp)
  · cases middle with
    | nil =>
      subst tail
      rw [forward _ member (after_apart mem_cons_self)]
      exact linked.forward (left ++ [] ++ [node]) _ right (by simp)
    | cons first rest =>
      obtain ⟨rfl, rfl⟩ := List.cons.inj tail
      cases rest with
      | nil =>
        rw [relink _ (by rw [nodePrev]; simp)]
        exact linked.forward _ _ _ rfl
      | cons second rest =>
        have apart : prev node ≠ some other := by
          rw [nodePrev]
          intro same
          have nodup := linked.nodup
          rw [append_assoc, nodup_append] at nodup
          have fresh := (nodup_cons.mp nodup.2.1).1
          rw [getLast?_append_cons] at same
          exact fresh (mem_append_left _ (mem_of_getLast? same))
        have link := linked.forward left other (second :: rest ++ node :: after) (by simp)
        rw [forward _ member apart, link]
        rfl

/-- Taking a node out: its neighbours point at each other, and the ends move if it was an end. -/
theorem remove (linked : Linked next prev head last (before ++ node :: after))
    (relinkNext : ∀ other, prev node = some other → next' other = next node)
    (relinkPrev : ∀ other, next node = some other → prev' other = prev node)
    (forward : ∀ other ∈ before ++ after, prev node ≠ some other → next' other = next other)
    (backward : ∀ other ∈ before ++ after, next node ≠ some other → prev' other = prev other) :
    Linked next' prev' (if prev node = none then next node else head)
      (if next node = none then prev node else last) (before ++ after) where
  nodup := linked.nodup.sublist (by simp)
  first := by
    rw [linked.backward _ _ _ rfl, linked.forward _ _ _ rfl, linked.first]
    cases before <;> simp
  final := by
    rw [linked.backward _ _ _ rfl, linked.forward _ _ _ rfl, linked.final]
    cases after <;> simp
  forward := linked.forward_remove relinkNext forward
  backward left other right split := by
    have turned := linked.reverse
    rw [reverse_append, reverse_cons, append_assoc, singleton_append] at turned
    have result := turned.forward_remove relinkPrev
      (fun other member => backward _ (by simpa [or_comm] using member))
      right.reverse other left.reverse (by
        rw [← reverse_append, split]
        simp)
    rw [result, head?_reverse]

end Linked

/-! ### Pointer assignments -/

section Assignments

variable [DecidableEq Node] {next prev : Node → Option Node} {head last : Option Node}
  {order : List Node} {node : Node}

/-- `if (pointer) pointer->field = value`, as a change of the field's function. -/
def setAt (pointer value : Option Node) (links : Node → Option Node) : Node → Option Node :=
  match pointer with
  | none => links
  | some node => Function.update links node value

theorem setAt_some (value : Option Node) (links : Node → Option Node) :
    setAt (some node) value links node = value :=
  update_self _ _ _

theorem setAt_of_ne {pointer : Option Node} (value : Option Node) (links : Node → Option Node)
    (different : pointer ≠ some node) : setAt pointer value links node = links node := by
  cases pointer with
  | none => rfl
  | some other => exact update_of_ne (fun same => different (congrArg _ same.symm)) _ _

/-- Assigning through a pointer the value that is there at another node. -/
theorem setAt_self (pointer : Option Node) (links : Node → Option Node) :
    setAt pointer (links node) links node = links node := by
  by_cases same : pointer = some node
  · rw [same, setAt_some]
  · exact setAt_of_ne _ _ same

/-- The links in one direction after a node was taken out by the usual assignments; `back` are the
links in the other direction. -/
def unlink (links back : Node → Option Node) (node : Node) : Node → Option Node :=
  Function.update (setAt (back node) (links node) links) node none

theorem unlink_of_ne {links back : Node → Option Node} {other : Node} (different : other ≠ node)
    (apart : back node ≠ some other) : unlink links back node other = links other := by
  rw [unlink, update_of_ne different, setAt_of_ne _ _ apart]

/-- The assignments that push a node at the front. -/
theorem Linked.pushed (linked : Linked next prev head last order) (fresh : node ∉ order) :
    Linked (Function.update next node head) (setAt head (some node) (Function.update prev node none))
      (some node) (last.or (some node)) (node :: order) := by
  have apart : ∀ {other}, other ∈ order → other ≠ node := fun member same => fresh (same ▸ member)
  refine linked.push_front fresh (update_self _ _ _) ?_ ?_ ?_ ?_
  · rw [setAt_of_ne _ _ fun same => fresh (linked.head_mem same), update_self]
  · exact fun other member => update_of_ne (apart member) _ _
  · intro other start
    rw [start, setAt_some]
  · intro other member start
    rw [setAt_of_ne _ _ start, update_of_ne (apart member)]

/-- The assignments that take a node out. -/
theorem Linked.unlinked (linked : Linked next prev head last order) (member : node ∈ order) :
    Linked (unlink next prev node) (unlink prev next node)
      (if prev node = none then next node else head)
      (if next node = none then prev node else last) (order.erase node) := by
  obtain ⟨before, after, rfl⟩ := append_of_mem member
  have notBefore : node ∉ before := fun inside =>
    (nodup_append.mp linked.nodup).2.2 _ inside _ mem_cons_self rfl
  have notAfter : node ∉ after := (nodup_cons.mp (nodup_append.mp linked.nodup).2.1).1
  have apart : ∀ {other}, other ∈ before ++ after → other ≠ node := by
    rintro other inside rfl
    rcases mem_append.mp inside with inside | inside
    · exact notBefore inside
    · exact notAfter inside
  have prevApart : ∀ {other}, prev node = some other → other ≠ node := by
    intro other same
    rw [linked.backward _ _ _ rfl] at same
    exact apart (mem_append_left _ (mem_of_getLast? same))
  have nextApart : ∀ {other}, next node = some other → other ≠ node := by
    intro other same
    rw [linked.forward _ _ _ rfl] at same
    exact apart (mem_append_right _ (mem_of_head? same))
  rw [erase_append_right _ notBefore, erase_cons_head]
  refine linked.remove ?_ ?_ ?_ ?_
  · intro other same
    rw [unlink, update_of_ne (prevApart same), same, setAt_some]
  · intro other same
    rw [unlink, update_of_ne (nextApart same), same, setAt_some]
  · exact fun other inside different => unlink_of_ne (apart inside) different
  · exact fun other inside different => unlink_of_ne (apart inside) different

end Assignments

end Chains

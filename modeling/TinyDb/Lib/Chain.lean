/-
This file is a small theory of singly linked chains. A chain is given by a
successor function on nodes; following it from a start pointer visits a list of
nodes and stops at the null pointer. Nothing is assumed about where the
successors are stored, so one theory serves lists threaded through heap cells
and lists threaded through the blocks of a file.

The two facts everything else rests on are that the visited list is determined
by the start, and that a chain which stops never visits a node twice: a repeated
node would have two different suffixes.
-/

import Mathlib.Data.List.Nodup

namespace Chains

open List

variable {Node : Type}

/-- Following `step` from `start` visits the list in order and then stops. -/
inductive Chain (step : Node → Option Node) : Option Node → List Node → Prop
  | stop : Chain step none []
  | visit (node : Node) (rest : List Node) (tail : Chain step (step node) rest) :
      Chain step (some node) (node :: rest)

namespace Chain

variable {step other : Node → Option Node} {start : Option Node} {visited : List Node} {node : Node}
  {others : List Node}

theorem start_eq_head (chain : Chain step start visited) : start = visited.head? := by
  cases chain <;> rfl

theorem none_iff (chain : Chain step start visited) : start = none ↔ visited = [] := by
  cases chain <;> simp

theorem tail {rest : List Node} (chain : Chain step start (node :: rest)) :
    Chain step (step node) rest := by
  cases chain with
  | visit _ _ tail => exact tail

/-- A chain that starts at a node visits that node first. -/
theorem of_some (chain : Chain step (some node) visited) :
    ∃ rest, visited = node :: rest ∧ Chain step (step node) rest := by
  cases chain with
  | visit _ rest tail => exact ⟨rest, rfl, tail⟩

/-- The visited list is determined by the start. -/
theorem unique {first second : List Node} (one : Chain step start first)
    (two : Chain step start second) : first = second := by
  induction one generalizing second with
  | stop =>
    cases two
    rfl
  | visit node rest _ inductionHypothesis =>
    obtain ⟨others, rfl, tail⟩ := two.of_some
    rw [inductionHypothesis tail]

/-- Dropping a prefix of the visited list leaves a chain from the node after it. -/
theorem suffix {before after : List Node} (chain : Chain step start (before ++ after)) :
    Chain step after.head? after := by
  induction before generalizing start with
  | nil =>
    rw [nil_append] at chain
    rw [← chain.start_eq_head]
    exact chain
  | cons node rest inductionHypothesis => exact inductionHypothesis chain.tail

section

variable (chain : Chain step start visited)
include chain

/-- A chain that stops visits no node twice. -/
theorem nodup : visited.Nodup := by
  induction chain with
  | stop => exact nodup_nil
  | visit node rest tail inductionHypothesis =>
    refine nodup_cons.mpr ⟨fun member => ?_, inductionHypothesis⟩
    obtain ⟨before, after, split⟩ := append_of_mem member
    have again : Chain step (some node) (node :: after) := by
      have suffix := (split ▸ tail).suffix
      simpa using suffix
    have same := unique (Chain.visit _ _ tail) again
    have lengths := congrArg List.length same
    rw [split] at lengths
    simp at lengths
    omega

/-- Changing successors off the visited list does not change the chain. -/
theorem congr
    (agree : ∀ node ∈ visited, other node = step node) : Chain other start visited := by
  induction chain with
  | stop => exact .stop
  | visit node rest _ inductionHypothesis =>
    refine .visit _ _ ?_
    rw [agree _ mem_cons_self]
    exact inductionHypothesis fun next member => agree next (mem_cons_of_mem _ member)

/-- Prepending a node whose successor is the old start. -/
theorem push (node : Node) (link : other node = start)
    (agree : ∀ next ∈ visited, other next = step next) :
    Chain other (some node) (node :: visited) := by
  refine .visit _ _ ?_
  rw [link]
  exact chain.congr agree

/-- Following other successors that differ at one node only, a chain still meets that node. -/
theorem meets (member : node ∈ visited)
    (agree : ∀ next ∈ visited, next ≠ node → other next = step next)
    (follows : Chain other start others) : node ∈ others := by
  induction chain generalizing others with
  | stop => cases member
  | visit first rest _ inductionHypothesis =>
    obtain ⟨later, rfl, tail⟩ := follows.of_some
    by_cases here : first = node
    · exact here ▸ mem_cons_self
    · have inRest := (mem_cons.mp member).resolve_left (Ne.symm here)
      rw [agree _ mem_cons_self here] at tail
      exact mem_cons_of_mem _ (inductionHypothesis inRest
        (fun next inside => agree next (mem_cons_of_mem _ inside)) tail)

/-- Prepending a node that the chain visits already makes it cyclic. -/
theorem not_push_of_mem (member : node ∈ visited)
    (link : other node = start) (agree : ∀ next ∈ visited, next ≠ node → other next = step next) :
    ¬Chain other (some node) others := by
  intro pushed
  obtain ⟨rest, rfl, tail⟩ := pushed.of_some
  rw [link] at tail
  exact (nodup_cons.mp pushed.nodup).1 (chain.meets member agree tail)

end

end Chain

end Chains

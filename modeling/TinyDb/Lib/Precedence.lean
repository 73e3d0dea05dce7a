/-
This file groups operands that are joined by binary operators. Operands may carry
prefix operators, and every operator has a precedence.

Operators are attached one after the other, from the left. A new operator takes as its
left operand the largest tree at the right end of what has been built that is not held
by a looser operator. The tree that groups everything to the right is the same exactly
if the precedences rise and no prefix is followed by a tighter operator.
-/

import Mathlib

namespace Precedence

open List

/-- A tree of operands: `neg` is the prefix operator, `node` a binary one. -/
inductive Tree (Op α : Type*)
  | leaf (value : α)
  | neg (operand : Tree Op α)
  | node (left : Tree Op α) (op : Op) (right : Tree Op α)

/-- An operand with the number of its prefixes. -/
structure Operand (α : Type*) where
  prefixes : Nat
  value : α

/-- A symbol of a sequence of operands. -/
inductive Symbol (Op α : Type*)
  | value (value : α)
  | neg
  | op (op : Op)

variable {Op α : Type*}

namespace Tree

/-- A tree under prefixes. -/
def negs : Nat → Tree Op α → Tree Op α
  | 0, tree => tree
  | count + 1, tree => neg (negs count tree)

/-- The symbols of a tree, from left to right. -/
def symbols : Tree Op α → List (Symbol Op α)
  | leaf value => [.value value]
  | neg operand => .neg :: operand.symbols
  | node left op right => left.symbols ++ .op op :: right.symbols

theorem symbols_ne_nil (tree : Tree Op α) : tree.symbols ≠ [] := by
  cases tree <;> simp [symbols]

/-- Whether a tree has no binary operator at its right end. -/
def bare : Tree Op α → Bool
  | leaf _ => true
  | neg operand => operand.bare
  | node _ _ _ => false

/-- The tree with an operator at its last operand. -/
def extend : Tree Op α → Op → Tree Op α → Tree Op α
  | leaf value, op, operand => node (leaf value) op operand
  | neg inner, op, operand => node (neg inner) op operand
  | node left other right, op, operand => node left other (right.extend op operand)

/-- The tree without its last operator and its last operand. -/
def detach : Tree Op α → Tree Op α
  | leaf value => leaf value
  | neg operand => neg operand.detach
  | node left op right => if right.bare then left else node left op right.detach

end Tree

/-- The tree of an operand. -/
def Operand.tree (operand : Operand α) : Tree Op α := .negs operand.prefixes (.leaf operand.value)

/-- The tree that groups every operator to the right. -/
def rightTree (first : Operand α) : List (Op × Operand α) → Tree Op α
  | [] => first.tree
  | (op, next) :: rest => .node first.tree op (rightTree next rest)

section

variable {P : Type*} [LinearOrder P] (precedence : Op → P) (prefixPrecedence : P)

namespace Tree

/-- Whether an operator at the right end of the tree is looser than the given one. -/
def absorbs (op : Op) : Tree Op α → Bool
  | leaf _ => false
  | neg operand => decide (prefixPrecedence < precedence op) || operand.absorbs op
  | node _ other right => decide (precedence other < precedence op) || right.absorbs op

/-- Attaching an operator and its right operand. -/
def attach : Tree Op α → Op → Tree Op α → Tree Op α
  | leaf value, op, operand => node (leaf value) op operand
  | neg inner, op, operand =>
    if (neg inner).absorbs precedence prefixPrecedence op then neg (inner.attach op operand)
    else node (neg inner) op operand
  | node left other right, op, operand =>
    if (node left other right).absorbs precedence prefixPrecedence op then
      node left other (right.attach op operand)
    else node (node left other right) op operand

/-- Whether an operator is attached to the last operand. -/
def LastTakes (op : Op) : Tree Op α → Prop
  | leaf _ => True
  | neg operand => (neg operand).absorbs precedence prefixPrecedence op = false
  | node left other right =>
    (node left other right).absorbs precedence prefixPrecedence op = true ∧ right.LastTakes op

end Tree

/-- The tree that the precedences fix. -/
def precedenceTree (first : Operand α) (rest : List (Op × Operand α)) : Tree Op α :=
  rest.foldl (fun tree next => tree.attach precedence prefixPrecedence next.1 next.2.tree) first.tree

/-- The precedences rise from left to right, and no operand with a prefix is followed by an
operator that is tighter than the prefix. -/
def Rises (first : Operand α) : List (Op × Operand α) → Prop
  | [] => True
  | (op, next) :: rest =>
    (first.prefixes = 0 ∨ precedence op ≤ prefixPrecedence) ∧
      (∀ second ∈ rest.head?, precedence op < precedence second.1) ∧ Rises next rest

end

/-! ### Symbols -/

namespace Tree

@[simp]
theorem extend_symbols (op : Op) (operand tree : Tree Op α) :
    (tree.extend op operand).symbols = tree.symbols ++ .op op :: operand.symbols := by
  induction tree with
  | leaf value => rfl
  | neg inner _ => rfl
  | node left other right _ inductionHypothesis => simp [extend, symbols, inductionHypothesis]

end Tree

section

variable {P : Type*} [LinearOrder P] (precedence : Op → P) (prefixPrecedence : P)

namespace Tree

@[simp]
theorem attach_symbols (op : Op) (operand tree : Tree Op α) :
    (tree.attach precedence prefixPrecedence op operand).symbols =
      tree.symbols ++ .op op :: operand.symbols := by
  induction tree with
  | leaf value => rfl
  | neg inner inductionHypothesis =>
    rw [attach]
    split
    · simp [symbols, inductionHypothesis]
    · rfl
  | node left other right _ inductionHypothesis =>
    rw [attach]
    split
    · simp [symbols, inductionHypothesis]
    · rfl

/-! ### Attaching to the last operand -/

theorem extend_bare (op : Op) (operand tree : Tree Op α) :
    (tree.extend op operand).bare = false := by
  cases tree <;> rfl

theorem attach_bare (op : Op) (operand tree : Tree Op α) :
    (tree.attach precedence prefixPrecedence op operand).bare = false := by
  induction tree with
  | leaf value => rfl
  | neg inner inductionHypothesis =>
    rw [attach]
    split
    · exact inductionHypothesis
    · rfl
  | node left other right _ _ =>
    rw [attach]
    split <;> rfl

theorem extend_detach (op : Op) {operand : Tree Op α} (bare : operand.bare = true)
    (tree : Tree Op α) : (tree.extend op operand).detach = tree := by
  induction tree with
  | leaf value => simp [extend, detach, bare]
  | neg inner _ => simp [extend, detach, bare]
  | node left other right _ inductionHypothesis =>
    simp [extend, detach, extend_bare, inductionHypothesis]

theorem attach_detach (op : Op) {operand : Tree Op α} (bare : operand.bare = true)
    (tree : Tree Op α) : (tree.attach precedence prefixPrecedence op operand).detach = tree := by
  induction tree with
  | leaf value => simp [attach, detach, bare]
  | neg inner inductionHypothesis =>
    rw [attach]
    split
    · rw [detach, inductionHypothesis]
    · simp [detach, bare]
  | node left other right _ inductionHypothesis =>
    rw [attach]
    split
    · simp [detach, attach_bare, inductionHypothesis]
    · simp [detach, bare]

theorem attach_eq_extend_iff (op : Op) (operand tree : Tree Op α) :
    tree.attach precedence prefixPrecedence op operand = tree.extend op operand ↔
      tree.LastTakes precedence prefixPrecedence op := by
  induction tree with
  | leaf value => simp [attach, extend, LastTakes]
  | neg inner _ =>
    rw [attach, extend, LastTakes]
    split <;> simp [*]
  | node left other right _ inductionHypothesis =>
    rw [attach, extend, LastTakes]
    split
    · simp [*]
    · -- the whole tree would be its own left operand
      refine iff_of_false (fun same => ?_) fun takes => absurd takes.1 ‹_›
      have itself : node left other right = left := (node.inj same).1
      have smaller := congrArg sizeOf itself
      simp only [node.sizeOf_spec] at smaller
      omega

theorem bare_negs (count : Nat) (tree : Tree Op α) : (negs count tree).bare = tree.bare := by
  induction count with
  | zero => rfl
  | succ count inductionHypothesis => exact inductionHypothesis

end Tree

theorem Operand.tree_bare (operand : Operand α) : (operand.tree : Tree Op α).bare = true :=
  Tree.bare_negs _ _

theorem Operand.tree_absorbs (op : Op) (operand : Operand α) :
    (operand.tree : Tree Op α).absorbs precedence prefixPrecedence op = true ↔
      operand.prefixes ≠ 0 ∧ prefixPrecedence < precedence op := by
  obtain ⟨prefixes, value⟩ := operand
  simp only [Operand.tree]
  induction prefixes with
  | zero => simp [Tree.negs, Tree.absorbs]
  | succ count inductionHypothesis =>
    simp only [Tree.negs, Tree.absorbs, Bool.or_eq_true, decide_eq_true_eq, inductionHypothesis]
    exact ⟨fun either => ⟨Nat.succ_ne_zero _, either.elim id And.right⟩, fun both => .inl both.2⟩

theorem Operand.tree_lastTakes (op : Op) (operand : Operand α) :
    (operand.tree : Tree Op α).LastTakes precedence prefixPrecedence op ↔
      (operand.tree : Tree Op α).absorbs precedence prefixPrecedence op = false := by
  obtain ⟨_ | count, value⟩ := operand
  · exact iff_of_true trivial rfl
  · exact Iff.rfl

/-! ### The tree that groups to the right -/

section

variable (first : Operand α) (rest : List (Op × Operand α))
include first rest

theorem rightTree_concat (op : Op)
    (last : Operand α) :
    rightTree first (rest ++ [(op, last)]) = (rightTree first rest).extend op last.tree := by
  induction rest generalizing first with
  | nil => obtain ⟨_ | count, value⟩ := first <;> rfl
  | cons next rest inductionHypothesis =>
    rw [cons_append, rightTree, inductionHypothesis]
    rfl

theorem rises_concat (op : Op)
    (last : Operand α) :
    Rises precedence prefixPrecedence first (rest ++ [(op, last)]) ↔
      Rises precedence prefixPrecedence first rest ∧
        (rightTree first rest).LastTakes precedence prefixPrecedence op := by
  induction rest generalizing first with
  | nil =>
    rw [rightTree, Operand.tree_lastTakes, ← Bool.not_eq_true, Operand.tree_absorbs]
    simp only [nil_append, Rises]
    simp [or_iff_not_imp_left]
  | cons next rest inductionHypothesis =>
    rw [cons_append, Rises, Rises, inductionHypothesis, rightTree, Tree.LastTakes,
      Tree.absorbs, Bool.or_eq_true, decide_eq_true_eq]
    cases rest with
    | nil =>
      rw [rightTree, Operand.tree_lastTakes]
      simp only [nil_append, head?_cons, head?_nil, Option.mem_def, Option.some.injEq,
        forall_eq', reduceCtorEq, false_implies, implies_true, true_and]
      constructor
      · rintro ⟨loose, rising, holds, takes⟩
        exact ⟨⟨loose, holds⟩, .inl rising, takes⟩
      · rintro ⟨⟨loose, holds⟩, absorbed, takes⟩
        exact ⟨loose, absorbed.resolve_right (by simp [takes]), holds, takes⟩
    | cons second rest =>
      constructor
      · rintro ⟨loose, rising, holds, takes⟩
        exact ⟨⟨loose, rising, holds⟩, .inr takes.1, takes⟩
      · rintro ⟨⟨loose, rising, holds⟩, -, takes⟩
        exact ⟨loose, rising, holds, takes⟩

theorem precedenceTree_concat (op : Op)
    (last : Operand α) :
    precedenceTree precedence prefixPrecedence first (rest ++ [(op, last)]) =
      (precedenceTree precedence prefixPrecedence first rest).attach precedence prefixPrecedence
        op last.tree := by
  rw [precedenceTree, foldl_append]
  rfl

/-- Both trees have the symbols of the sequence. -/
theorem precedenceTree_symbols :
    (precedenceTree precedence prefixPrecedence first rest).symbols = (rightTree first rest).symbols := by
  induction rest using List.reverseRecOn with
  | nil => rfl
  | append_singleton rest last inductionHypothesis =>
    rw [rightTree_concat, precedenceTree_concat, Tree.attach_symbols, Tree.extend_symbols,
      inductionHypothesis]

/-- Grouping everything to the right gives the tree of the precedences exactly if they rise. -/
theorem precedenceTree_eq_rightTree_iff :
    precedenceTree precedence prefixPrecedence first rest = rightTree first rest ↔
      Rises precedence prefixPrecedence first rest := by
  induction rest using List.reverseRecOn with
  | nil => exact iff_of_true rfl trivial
  | append_singleton rest last inductionHypothesis =>
    obtain ⟨op, operand⟩ := last
    rw [rises_concat, ← inductionHypothesis, ← Tree.attach_eq_extend_iff _ _ _ _,
      rightTree_concat, precedenceTree_concat]
    constructor
    · intro same
      have before := congrArg Tree.detach same
      rw [Tree.attach_detach _ _ _ operand.tree_bare, Tree.extend_detach _ operand.tree_bare] at before
      rw [before] at same
      exact ⟨before, same⟩
    · rintro ⟨before, same⟩
      rw [before, same]

end

end

end Precedence

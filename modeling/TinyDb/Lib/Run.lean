/-
This file holds the induction over runs. A run is a chain of steps of a relation;
what every step keeps, every run keeps. In a tree, a run from the root is
determined by where it ends. A single call that returns a value and the next
state can be evaluated.
-/

import Mathlib.Logic.Relation

namespace Runs

open Relation

variable {State : Type*} {Step : State → State → Prop}

/-- What every step keeps holds at the end of every run that starts with it. -/
theorem run_invariant (Invariant : State → Prop)
    (keeps : ∀ before after, Step before after → Invariant before → Invariant after)
    {start finish : State} (run : ReflTransGen Step start finish) (holds : Invariant start) :
    Invariant finish := by
  induction run with
  | refl => exact holds
  | tail _ step inductionHypothesis => exact keeps _ _ step inductionHypothesis

/-! ### Evaluating a call -/

section Evaluating

variable {Value : Type*} [DecidableEq Value] {run : Value × State} {value : Value}
  {post : State → Prop}

/-- What the call returns and how it leaves the state is decided by evaluating it. -/
instance decidableReturnsWith [DecidablePred post] :
    Decidable (∃ next, run = (value, next) ∧ post next) :=
  decidable_of_iff (run.1 = value ∧ post run.2)
    ⟨fun ⟨same, holds⟩ => ⟨run.2, Prod.ext same rfl, holds⟩,
      fun ⟨_, same, holds⟩ => same ▸ ⟨rfl, holds⟩⟩

instance decidableReturns : Decidable (∃ next, run = (value, next)) :=
  decidable_of_iff (run.1 = value)
    ⟨fun same => ⟨run.2, Prod.ext same rfl⟩, fun ⟨_, same⟩ => congrArg Prod.fst same⟩

end Evaluating

/-! ### Paths in a tree -/

section Paths

variable {First Second : State → State → Prop} {root finish before after : State}

/-- Where a state has one predecessor at most and the root none, two paths from the root to the same
state take the same steps. -/
theorem paths_agree (one : ReflTransGen First root finish) (two : ReflTransGen Second root finish)
    (step : First before after) (rest : ReflTransGen First after finish)
    (parents : ∀ {parent other child}, First parent child ∨ Second parent child →
      First other child ∨ Second other child → parent = other)
    (rootless : ∀ parent, ¬(First parent root ∨ Second parent root)) : Second before after := by
  induction one generalizing after with
  | refl =>
    rcases ReflTransGen.cases_tail rest with rfl | ⟨last, -, into⟩
    · exact absurd (Or.inl step) (rootless _)
    · exact absurd (Or.inl into) (rootless _)
  | tail path into inductionHypothesis =>
    rcases ReflTransGen.cases_tail two with rfl | ⟨last, twoPath, twoInto⟩
    · exact absurd (Or.inl into) (rootless _)
    · obtain rfl := parents (Or.inl into) (Or.inr twoInto)
      rcases ReflTransGen.cases_tail rest with rfl | ⟨previous, restPath, restInto⟩
      · obtain rfl := parents (Or.inl step) (Or.inl into)
        exact twoInto
      · obtain rfl := parents (Or.inl restInto) (Or.inl into)
        exact inductionHypothesis twoPath step restPath

end Paths

end Runs

/-
This file is a small program logic for computations that can fault. A demand says
whether a computation must return, or whether only its result counts if it does
return. The rules are the same for both, so that what is proved from them holds
as total and as partial correctness.
-/

import TinyDb.Lib.Heap

namespace Heaps

/-- Whether a computation must return. -/
inductive Demand
  | must
  | may

/-- The computation meets the demand, and what it returns satisfies the postcondition. -/
def Ensures {Result : Type} (demand : Demand) (run : Except Fault Result)
    (post : Result → Prop) : Prop :=
  match demand with
  | .must => ∃ result, run = .ok result ∧ post result
  | .may => ∀ result, run = .ok result → post result

namespace Ensures

variable {Result Other : Type} {demand : Demand} {run : Except Fault Result}
  {post after : Result → Prop}

theorem ok {result : Result} (holds : post result) : Ensures demand (.ok result) post := by
  cases demand with
  | must => exact ⟨result, rfl, holds⟩
  | may =>
    intro other same
    exact Except.ok.inj same ▸ holds

theorem mono (ensures : Ensures demand run post) (weaker : ∀ result, post result → after result) :
    Ensures demand run after := by
  cases demand with
  | must =>
    obtain ⟨result, returns, holds⟩ := ensures
    exact ⟨result, returns, weaker _ holds⟩
  | may => exact fun result returns => weaker _ (ensures _ returns)

/-- Two computations in sequence. -/
theorem bind {next : Result → Except Fault Other} {last : Other → Prop}
    (ensures : Ensures demand run post)
    (continues : ∀ result, post result → Ensures demand (next result) last) :
    Ensures demand (run >>= next) last := by
  cases demand with
  | must =>
    obtain ⟨result, rfl, holds⟩ := ensures
    exact continues _ holds
  | may =>
    intro other returns
    obtain ⟨middle, first, second⟩ := bind_eq_ok.mp returns
    exact continues _ (ensures _ first) _ second

/-- A computation that returns meets every demand. -/
theorem of_must (ensures : Ensures .must run post) : Ensures demand run post := by
  obtain ⟨result, rfl, holds⟩ := ensures
  exact ok holds

/-- A computation that returns where it must. -/
theorem of_returns (returns : demand = .must → ∃ result, run = .ok result) :
    Ensures demand run (run = .ok ·) := by
  cases demand with
  | must =>
    obtain ⟨result, same⟩ := returns rfl
    exact ⟨result, same, same⟩
  | may => exact fun _ same => same

/-- A computation that is known to have returned. -/
theorem elim {result : Result} (ensures : Ensures demand run post) (returns : run = .ok result) :
    post result := by
  cases demand with
  | must =>
    obtain ⟨other, same, holds⟩ := ensures
    exact Except.ok.inj (same.symm.trans returns) ▸ holds
  | may => exact ensures _ returns

/-- What is known of every run of the computation may be added to its postcondition. -/
theorem and_run (ensures : Ensures demand run post)
    (known : ∀ result, run = .ok result → after result) :
    Ensures demand run fun result => post result ∧ after result := by
  cases demand with
  | must =>
    obtain ⟨result, returns, holds⟩ := ensures
    exact ⟨result, returns, holds, known _ returns⟩
  | may => exact fun result returns => ⟨ensures _ returns, known _ returns⟩

/-! ### Evaluating a computation -/

/-- Evaluating a computation shows whether it returns as it must. -/
instance [DecidablePred post] : Decidable (Ensures .must run post) :=
  match run with
  | .ok result => decidable_of_iff (post result)
      ⟨fun holds => ⟨result, rfl, holds⟩, fun ⟨_, same, holds⟩ => Except.ok.inj same ▸ holds⟩
  | .error _ => isFalse fun ⟨_, impossible, _⟩ => nomatch impossible

instance [DecidablePred post] : Decidable (∃ result, run = .ok result ∧ post result) :=
  inferInstanceAs (Decidable (Ensures .must run post))

instance (fault : Fault) : Decidable (run = .error fault) :=
  match run with
  | .ok _ => isFalse nofun
  | .error other => decidable_of_iff (other = fault) ⟨congrArg _, Except.error.inj⟩

/-- What a computation returns that was seen to return. -/
def outcome (run : Except Fault Result) (returns : run.toOption.isSome) : Result :=
  run.toOption.get returns

theorem outcome_eq {returns : run.toOption.isSome} : run = .ok (outcome run returns) := by
  cases run with
  | ok result => rfl
  | error fault => cases returns

section State

variable {Value State : Type} [DecidableEq Value] {call : Except Fault (Value × State)}
  {value : Value} {holds : State → Prop}

instance [DecidablePred holds] : Decidable (∃ state, call = .ok (value, state) ∧ holds state) :=
  decidable_of_iff (Ensures .must call fun result => result.1 = value ∧ holds result.2)
    ⟨fun ⟨(_, state), returns, same, kept⟩ => ⟨state, same ▸ returns, kept⟩,
      fun ⟨state, returns, kept⟩ => ⟨(value, state), returns, rfl, kept⟩⟩

instance : Decidable (∃ state, call = .ok (value, state)) :=
  decidable_of_iff (Ensures .must call fun result => result.1 = value)
    ⟨fun ⟨(_, state), returns, same⟩ => ⟨state, same ▸ returns⟩,
      fun ⟨state, returns⟩ => ⟨(value, state), returns, rfl⟩⟩

end State

instance {Value : Type} {call : Except Fault (Option Value)} {holds : Value → Prop}
    [DecidablePred holds] : Decidable (∃ value, call = .ok (some value) ∧ holds value) :=
  decidable_of_iff (Ensures .must call fun result => ∃ value ∈ result, holds value)
    ⟨fun ⟨_, returns, value, same, kept⟩ => ⟨value, Option.mem_def.mp same ▸ returns, kept⟩,
      fun ⟨value, returns, kept⟩ => ⟨some value, returns, value, rfl, kept⟩⟩

instance {Value State : Type} {call : Except Fault (Option Value × State)}
    {holds : Value → State → Prop} [∀ value state, Decidable (holds value state)] :
    Decidable (∃ value state, call = .ok (some value, state) ∧ holds value state) :=
  decidable_of_iff (Ensures .must call fun result => ∃ value ∈ result.1, holds value result.2)
    ⟨fun ⟨(_, state), returns, value, same, kept⟩ =>
        ⟨value, state, Option.mem_def.mp same ▸ returns, kept⟩,
      fun ⟨value, state, returns, kept⟩ => ⟨(some value, state), returns, value, rfl, kept⟩⟩

end Ensures

end Heaps

/-
This file gives a meaning to functions that call themselves without a bound on
how often, such as loops that may hang.

The body of such a function is a computation that may ask for the results of
further calls. Running it with some fuel answers those calls with one unit less.
What a call returns is what it returns with any fuel that is enough, and nothing
if no fuel is. This meaning satisfies the equation that the source writes down,
and whatever holds of every result that a body makes from such results holds of
what the function returns.
-/

import Mathlib

namespace Recursion

open Option

variable {Arg : Type} {Res : Arg → Type} {α β : Type}

/-! ### Computations with calls -/

/-- A computation that has a value, never ends, or needs the result of a call to go on. -/
inductive Calls (Arg : Type) (Res : Arg → Type) (α : Type) where
  | done (value : α)
  | never
  | call (arg : Arg) (next : Res arg → Calls Arg Res α)

namespace Calls

/-- The second computation behind the first. -/
protected def bind : Calls Arg Res α → (α → Calls Arg Res β) → Calls Arg Res β
  | .done value, rest => rest value
  | .never, _ => .never
  | .call arg next, rest => .call arg fun result => (next result).bind rest

instance : Monad (Calls Arg Res) where
  pure := .done
  bind := Calls.bind

/-- A call. -/
def ask (arg : Arg) : Calls Arg Res (Res arg) := .call arg .done

/-- The result of another function, which may not have returned. -/
def ofOption : Option α → Calls Arg Res α
  | none => .never
  | some value => .done value

/-- The value of a computation when the calls are answered. -/
def answer (self : ∀ arg, Option (Res arg)) : Calls Arg Res α → Option α
  | .done value => some value
  | .never => none
  | .call arg next => (self arg).bind fun result => (next result).answer self

variable (self : ∀ arg, Option (Res arg))

@[simp] theorem answer_pure (value : α) :
    (pure value : Calls Arg Res α).answer self = pure value := rfl

@[simp] theorem answer_bind (first : Calls Arg Res α) (rest : α → Calls Arg Res β) :
    (first >>= rest).answer self = first.answer self >>= fun value => (rest value).answer self := by
  change (first.bind rest).answer self = (first.answer self).bind _
  induction first with
  | done value => rfl
  | never => rfl
  | call arg next inductionHypothesis =>
    rw [Calls.bind, answer, answer, bind_assoc]
    exact congrArg _ (funext inductionHypothesis)

@[simp] theorem answer_ask (arg : Arg) : (ask arg).answer self = self arg :=
  bind_fun_some _

@[simp] theorem answer_ofOption (result : Option α) :
    (ofOption result : Calls Arg Res α).answer self = result := by
  cases result <;> rfl

end Calls

/-! ### Fuel -/

/-- The result of a call with some fuel. -/
def run (body : ∀ arg, Calls Arg Res (Res arg)) : Nat → ∀ arg, Option (Res arg)
  | 0, _ => none
  | fuel + 1, arg => (body arg).answer (run body fuel)

/-- What the first function returns, the second returns. -/
def Below (first second : ∀ arg, Option (Res arg)) : Prop :=
  ∀ arg result, first arg = some result → second arg = some result

theorem answer_mono {first second : ∀ arg, Option (Res arg)} (below : Below first second)
    {computation : Calls Arg Res α} {value : α} (answered : computation.answer first = some value) :
    computation.answer second = some value := by
  induction computation with
  | done value => exact answered
  | never => exact answered
  | call arg next inductionHypothesis =>
    obtain ⟨result, returned, rest⟩ := bind_eq_some_iff.mp answered
    exact bind_eq_some_iff.mpr ⟨result, below arg _ returned, inductionHypothesis _ rest⟩

variable {body : ∀ arg, Calls Arg Res (Res arg)}

theorem run_below_succ (fuel : Nat) : Below (run body fuel) (run body (fuel + 1)) := by
  induction fuel with
  | zero =>
    intro arg result returned
    cases returned
  | succ fuel inductionHypothesis =>
    intro arg result returned
    exact answer_mono inductionHypothesis returned

theorem run_below {fuel more : Nat} (enough : fuel ≤ more) :
    Below (run body fuel) (run body more) := by
  induction enough with
  | refl => exact fun _ _ returned => returned
  | step _ inductionHypothesis =>
    exact fun arg result returned => run_below_succ _ arg _ (inductionHypothesis arg _ returned)

/-! ### The function -/

open Classical in
/-- What a call returns. -/
noncomputable def fix (body : ∀ arg, Calls Arg Res (Res arg)) (arg : Arg) : Option (Res arg) :=
  if returns : ∃ fuel, (run body fuel arg).isSome then run body returns.choose arg else none

theorem fix_eq_some_iff {arg : Arg} {result : Res arg} :
    fix body arg = some result ↔ ∃ fuel, run body fuel arg = some result := by
  unfold fix
  constructor
  · intro returned
    split at returned
    · exact ⟨_, returned⟩
    · cases returned
  · rintro ⟨fuel, returned⟩
    have returns : ∃ fuel, (run body fuel arg).isSome := ⟨fuel, by rw [returned]; rfl⟩
    rw [dif_pos returns]
    obtain ⟨other, chosen⟩ := isSome_iff_exists.mp returns.choose_spec
    have first := run_below (le_max_left _ returns.choose) arg _ returned
    have second := run_below (le_max_right fuel _) arg _ chosen
    rw [chosen, ← Option.some.inj (first.symm.trans second)]

theorem run_below_fix (fuel : Nat) : Below (run body fuel) (fix body) :=
  fun _ _ returned => fix_eq_some_iff.mpr ⟨fuel, returned⟩

/-- A computation asks finitely often, so some fuel answers all it asks. -/
theorem answer_fix {computation : Calls Arg Res α} {value : α}
    (answered : computation.answer (fix body) = some value) :
    ∃ fuel, computation.answer (run body fuel) = some value := by
  induction computation with
  | done value => exact ⟨0, answered⟩
  | never => cases answered
  | call arg next inductionHypothesis =>
    obtain ⟨result, returned, rest⟩ := bind_eq_some_iff.mp answered
    obtain ⟨first, enough⟩ := fix_eq_some_iff.mp returned
    obtain ⟨second, enoughRest⟩ := inductionHypothesis _ rest
    refine ⟨max first second, bind_eq_some_iff.mpr ⟨result, ?_, ?_⟩⟩
    · exact run_below (le_max_left _ _) arg _ enough
    · exact answer_mono (run_below (le_max_right _ _)) enoughRest

/-- The equation of a function: a call returns what its body makes of the further calls. -/
theorem fix_eq (body : ∀ arg, Calls Arg Res (Res arg)) (arg : Arg) :
    fix body arg = (body arg).answer (fix body) := by
  refine Option.ext fun result => ?_
  constructor
  · intro returned
    obtain ⟨fuel, ran⟩ := fix_eq_some_iff.mp returned
    cases fuel with
    | zero => cases ran
    | succ fuel => exact answer_mono (run_below_fix _) ran
  · intro answered
    obtain ⟨fuel, ran⟩ := answer_fix answered
    exact fix_eq_some_iff.mpr ⟨fuel + 1, ran⟩

/-- What every body makes of good results, every call makes. -/
theorem fix_induction (motive : ∀ arg, Res arg → Prop)
    (makes : ∀ self : ∀ arg, Option (Res arg),
      (∀ arg result, self arg = some result → motive arg result) →
      ∀ arg result, (body arg).answer self = some result → motive arg result)
    {arg : Arg} {result : Res arg} (returned : fix body arg = some result) : motive arg result := by
  obtain ⟨fuel, ran⟩ := fix_eq_some_iff.mp returned
  induction fuel generalizing arg with
  | zero => cases ran
  | succ fuel inductionHypothesis =>
    refine makes _ (fun other value found => ?_) arg _ ran
    exact inductionHypothesis (run_below_fix _ _ _ found) found

end Recursion

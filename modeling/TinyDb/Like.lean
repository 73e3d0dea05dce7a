/-
This file compares the matching of `LIKE` patterns with the words that a pattern stands
for: `%` for any bytes, `_` for one byte, and every other byte for itself.

The loop of `simple_like_match` looks at a `%` for ever. As long as it does not reach
one, it compares the pattern with the string byte by byte, and that is right: it gives up
only where no string that goes on as this one matches.
-/

import TinyDb.Evaluator
import TinyDb.Lib.Wildcard

namespace TinyDb

open Recursion Wildcard List

variable {byte : UInt8}

/-! ### What a pattern stands for -/

/-- What a byte of a pattern stands for. -/
def likeSymbol (byte : UInt8) : Wildcard UInt8 :=
  if byte = char '%' then .any else if byte = char '_' then .one else .exactly byte

/-- The strings that a pattern stands for. -/
def likeLanguage (pattern : List UInt8) : Language UInt8 := language (pattern.map likeSymbol)

theorem likeSymbol_single (notPercent : byte ≠ char '%') :
    likeSymbol byte ≠ .any := by
  rw [likeSymbol, if_neg notPercent]
  split <;> exact fun impossible => by cases impossible

theorem likeSymbol_accepts {other : UInt8} (notPercent : byte ≠ char '%') :
    (likeSymbol byte).Accepts other ↔ byte = char '_' ∨ byte = other := by
  rw [likeSymbol, if_neg notPercent]
  split
  · next isUnderscore => exact iff_of_true trivial (.inl isUnderscore)
  · next notUnderscore => exact (or_iff_right notUnderscore).symm

/-! ### The loop -/

/-- The loop on what is left of the string and of the pattern, before it reaches a `%`. -/
def likeRun : List UInt8 → List UInt8 → Option Bool
  | [], str => some str.isEmpty
  | byte :: _, [] => if byte = char '%' then none else some false
  | byte :: pattern, other :: str =>
    if byte = char '%' then none
    else if byte = char '_' ∨ byte = other then likeRun pattern str
    else some false

section Loop

variable {str pattern : List UInt8}

theorem likeRun_percent (str pattern : List UInt8) : likeRun (char '%' :: pattern) str = none := by
  cases str with
  | nil => exact if_pos rfl
  | cons other str => rw [likeRun, if_pos rfl]

theorem percentRun_percent (pattern : List UInt8) :
    (char '%' :: pattern).getD (percentRun pattern) 0 = char '%' ∧
      percentRun pattern < (char '%' :: pattern).length := by
  induction pattern with
  | nil => exact ⟨rfl, Nat.one_pos⟩
  | cons byte pattern inductionHypothesis =>
    rw [percentRun, takeWhile_cons]
    split
    · next isPercent =>
      obtain rfl : byte = char '%' := of_decide_eq_true isPercent
      exact ⟨inductionHypothesis.1, Nat.succ_lt_succ inductionHypothesis.2⟩
    · exact ⟨rfl, Nat.succ_pos _⟩

/-- At a `%` the loop never ends. -/
theorem likeLoop_percent {s p : Nat} {lastStar : Option (Nat × Nat)} (inside : p < pattern.length)
    (isPercent : pattern.getD p 0 = char '%') : likeLoop str pattern s p lastStar = none := by
  refine Option.eq_none_iff_forall_ne_some.mpr fun result returned => ?_
  refine fix_induction
    (fun call _ => ¬ (call.2.1 < pattern.length ∧ pattern.getD call.2.1 0 = char '%'))
    ?_ returned ⟨inside, isPercent⟩
  rintro self never ⟨s, p, lastStar⟩ result returned ⟨inside, isPercent⟩
  rw [likeBody.eq_def] at returned
  simp only [if_pos inside, if_pos isPercent, Calls.answer_ask] at returned
  refine never _ _ returned ?_
  -- the loop goes on at the last `%` of the run
  have here : pattern.drop p = char '%' :: pattern.drop (p + 1) := by
    rw [drop_eq_getElem_cons inside, ← isPercent, getD_eq_getElem _ _ _]
  obtain ⟨again, before⟩ := percentRun_percent _
  rw [← here, length_drop] at before
  rw [← here, getD_eq_getElem?_getD, getElem?_drop] at again
  exact ⟨by simp only; omega, again⟩

theorem likeLoop_eq {done seen : List UInt8} :
    likeLoop (done ++ str) (seen ++ pattern) done.length seen.length none = likeRun pattern str := by
  induction pattern generalizing str done seen with
  | nil =>
    rw [likeLoop, fix_eq, likeBody]
    cases str <;> simp [likeRun]
  | cons byte pattern inductionHypothesis =>
    have inside : seen.length < (seen ++ byte :: pattern).length := by simp
    have here : (seen ++ byte :: pattern).getD seen.length 0 = byte := by simp
    by_cases isPercent : byte = char '%'
    · rw [isPercent, likeRun_percent]
      exact likeLoop_percent (by simp) (by simp)
    · rw [likeLoop, fix_eq, likeBody, if_pos inside, here]
      cases str with
      | nil => simp [likeRun, percentRun, isPercent]
      | cons other str =>
        have more : ¬ done.length ≥ (done ++ other :: str).length := by simp
        have there : (done ++ other :: str).getD done.length 0 = other := by simp
        rw [if_neg more, there, likeRun, if_neg isPercent]
        split
        · rw [Calls.answer_ask]
          have step := @inductionHypothesis str (done ++ [other]) (seen ++ [byte])
          simpa [likeLoop] using step
        · rfl

/-- A run that ends says whether the string matches. -/
theorem likeRun_right {matched : Bool} (ran : likeRun pattern str = some matched) :
    matched = true ↔ str ∈ likeLanguage pattern := by
  induction pattern generalizing str with
  | nil =>
    cases ran
    exact List.isEmpty_iff.trans mem_language_nil.symm
  | cons byte pattern inductionHypothesis =>
    by_cases isPercent : byte = char '%'
    · rw [isPercent, likeRun_percent] at ran
      cases ran
    · have single := likeSymbol_single isPercent
      cases str with
      | nil =>
        rw [likeRun, if_neg isPercent] at ran
        cases ran
        exact iff_of_false Bool.false_ne_true (nil_not_mem_language single _)
      | cons other str =>
        rw [likeLanguage, map_cons, cons_mem_language single, likeSymbol_accepts isPercent]
        rw [likeRun, if_neg isPercent] at ran
        split at ran
        · next accepted => rw [inductionHypothesis ran, and_iff_right accepted, likeLanguage]
        · next refused =>
          cases ran
          exact iff_of_false Bool.false_ne_true fun both => refused both.1

/-- A run is stuck where what stands in front of a `%` matches. -/
theorem likeRun_stuck :
    likeRun pattern str = none ↔ ∃ front rest, pattern = front ++ char '%' :: rest ∧
      Begins (front.map likeSymbol) str := by
  induction pattern generalizing str with
  | nil => exact iff_of_false (by simp [likeRun]) (by simp)
  | cons byte pattern inductionHypothesis =>
    by_cases isPercent : byte = char '%'
    · rw [isPercent]
      exact iff_of_true (likeRun_percent _ _) ⟨[], pattern, rfl, begins_nil _⟩
    · have single := likeSymbol_single isPercent
      -- the byte stands in front of every `%`
      have behind : (∃ front rest, byte :: pattern = front ++ char '%' :: rest ∧
          Begins (front.map likeSymbol) str) ↔ ∃ front rest, pattern = front ++ char '%' :: rest ∧
            Begins (likeSymbol byte :: front.map likeSymbol) str := by
        constructor
        · rintro ⟨front, rest, split, begins⟩
          cases front with
          | nil => exact absurd (List.cons.inj split).1 isPercent
          | cons first front =>
            obtain ⟨rfl, rfl⟩ := List.cons.inj split
            exact ⟨front, rest, rfl, begins⟩
        · rintro ⟨front, rest, rfl, begins⟩
          exact ⟨byte :: front, rest, rfl, begins⟩
      rw [behind]
      cases str with
      | nil =>
        rw [likeRun, if_neg isPercent]
        refine iff_of_false (fun impossible => by cases impossible) ?_
        rintro ⟨front, rest, _, begins⟩
        exact not_begins_nil single _ begins
      | cons other str =>
        rw [likeRun, if_neg isPercent]
        simp only [begins_cons single, likeSymbol_accepts isPercent]
        split
        · next accepted => simp only [inductionHypothesis, accepted, true_and]
        · next refused => simp [refused]

end Loop

/-! ### The matching -/

theorem simpleLikeMatch_eq (str pattern : List UInt8) :
    simpleLikeMatch str pattern = likeRun pattern str := by
  rw [simpleLikeMatch]
  split
  · next isEmpty =>
    rw [List.isEmpty_iff.mp isEmpty]
    rfl
  · exact @likeLoop_eq str _ [] []

/-- The matching returns, and returns whether the string matches, exactly if no part of the pattern
that stands in front of a `%` matches a beginning of the string. -/
theorem simple_like_match_right_iff (str pattern : List UInt8) :
    (∃ matched, simpleLikeMatch str pattern = some matched ∧
        (matched = true ↔ str ∈ likeLanguage pattern)) ↔
      ¬ ∃ front rest, pattern = front ++ char '%' :: rest ∧
        ∃ start ∈ likeLanguage front, start <+: str := by
  rw [simpleLikeMatch_eq]
  constructor
  · rintro ⟨matched, returned, _⟩ stuck
    cases returned.symm.trans (likeRun_stuck.mpr stuck)
  · intro goesOn
    cases ran : likeRun pattern str with
    | none => exact absurd (likeRun_stuck.mp ran) goesOn
    | some matched => exact ⟨matched, rfl, likeRun_right ran⟩

/-- The string `abc` is matched with `a%` for ever. -/
theorem prefix_pattern_not_matched :
    simpleLikeMatch (ascii "abc") (ascii "a%") = none ∧ ascii "abc" ∈ likeLanguage (ascii "a%") := by
  refine ⟨(simpleLikeMatch_eq _ _).trans rfl, ?_⟩
  refine mem_language_cons.mpr ⟨ascii "a", ⟨char 'a', rfl, rfl⟩, ascii "bc", ?_, rfl⟩
  exact mem_language_cons.mpr ⟨ascii "bc", trivial, [], mem_language_nil.mpr rfl, rfl⟩

end TinyDb

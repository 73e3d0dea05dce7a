/-
This file models the checks that stand between a client and the files and statements of
the server: the validation of a path and the search for suspicious statements.

A path is checked byte by byte, with two bytes of look-ahead, for `..` in front of a slash
or of the end. That is enough to keep every component other than `..`, so that no directory
on the way is ever left again.

The search for keywords compares its index with `len - 2`. For one byte this wraps around,
and the search goes on far behind the buffer.
-/

import TinyDb.Lexer
import TinyDb.Lib.Buffer
import TinyDb.Lib.CString
import TinyDb.Lib.Ensures

namespace TinyDb

open Heaps Bytes CStrings List

/-! ### Paths -/

/-- The loop of `security_validate_path`: no `..` in front of a slash or of the end. -/
def scanPath : List UInt8 → Bool
  | [] => true
  | c :: p =>
    if c = 0 then true
    else if c = char '.' ∧ p.getD 0 0 = char '.' ∧ (p.getD 1 0 = char '/' ∨ p.getD 1 0 = 0) then
      false
    else scanPath p

/-- `security_validate_path`, of a pointer to the bytes in front of a NUL. -/
def securityValidatePath : Option (List UInt8) → Bool
  | none => false
  | some path =>
    if path.getD 0 0 = 0 then false
    else if path.getD 0 0 ≠ char '/' then false
    else scanPath path && (untilNul path).length ≤ 4096

/-- The components of a path. -/
def components (path : List UInt8) : List (List UInt8) := path.splitOnP (· = char '/')

/-- The directory that a component leads to, as the list of the names on the way. -/
def enter (directory : List (List UInt8)) (component : List UInt8) : List (List UInt8) :=
  if component = [] ∨ component = ascii "." then directory
  else if component = ascii ".." then directory.dropLast
  else directory ++ [component]

/-- Resolving components one after the other, without looking at the file system. -/
def resolve (directory : List (List UInt8)) (path : List (List UInt8)) : List (List UInt8) :=
  path.foldl enter directory

section Paths

variable {path : List UInt8} {c : UInt8}

theorem components_cons (c : UInt8) (path : List UInt8) : components (c :: path) =
    if c = char '/' then [] :: components path else (components path).modifyHead (c :: ·) := by
  simp [components, splitOnP_cons_eq_if_modifyHead]

/-- The first component goes up to the first slash. -/
theorem components_eq (path : List UInt8) :
    ∃ others, components path = path.takeWhile (· ≠ char '/') :: others := by
  induction path with
  | nil => exact ⟨[], rfl⟩
  | cons c path inductionHypothesis =>
    obtain ⟨others, first⟩ := inductionHypothesis
    rw [components_cons]
    split
    · next slash => exact ⟨components _, by rw [takeWhile_cons_of_neg (by simp [slash])]⟩
    · next noSlash => exact ⟨others, by rw [first, takeWhile_cons_of_pos (by simp [noSlash])]; rfl⟩

/-- The bytes up to a NUL or a slash. -/
theorem untilNul_takeWhile_cons (c : UInt8) (path : List UInt8) :
    (untilNul (c :: path)).takeWhile (· ≠ char '/') =
      if c = 0 ∨ c = char '/' then [] else c :: (untilNul path).takeWhile (· ≠ char '/') := by
  by_cases isNul : c = 0
  · simp [untilNul, isNul]
  · rw [untilNul, takeWhile_cons_of_pos (by simp [isNul])]
    by_cases slash : c = char '/' <;> simp [untilNul, isNul, slash]

/-- In front of a position that passed the scan there is no `..` up to a slash or the end. -/
theorem scanPath_cons (notNul : c ≠ 0) (passed : scanPath (c :: path) = true) :
    (untilNul (c :: path)).takeWhile (· ≠ char '/') ≠ ascii ".." ∧ scanPath path = true := by
  rw [scanPath, if_neg notNul] at passed
  split at passed
  · cases passed
  · next noDots =>
    refine ⟨fun dots => noDots ?_, passed⟩
    rw [untilNul_takeWhile_cons] at dots
    split at dots
    · cases dots
    obtain ⟨rfl, second⟩ := List.cons.inj dots
    cases path with
    | nil => cases second
    | cons d path =>
      rw [untilNul_takeWhile_cons] at second
      split at second
      · cases second
      obtain ⟨rfl, third⟩ := List.cons.inj second
      cases path with
      | nil => exact ⟨rfl, rfl, .inr rfl⟩
      | cons e path =>
        rw [untilNul_takeWhile_cons] at third
        split at third
        · next ends => exact ⟨rfl, rfl, ends.symm⟩
        · cases third

/-- No component of a path that passed the scan is `..`. -/
theorem scanPath_components (passed : scanPath path = true) :
    ∀ component ∈ components (untilNul path), component ≠ ascii ".." := by
  induction path with
  | nil => decide +kernel
  | cons c path inductionHypothesis =>
    by_cases isNul : c = 0
    · rw [untilNul, takeWhile_cons_of_neg (by simp [isNul])]
      decide +kernel
    · obtain ⟨noDots, later⟩ := scanPath_cons isNul passed
      have behind := inductionHypothesis later
      obtain ⟨others, first⟩ := components_eq _
      have whole : untilNul (c :: path) = c :: untilNul path :=
        takeWhile_cons_of_pos (by simp [isNul])
      rw [whole] at noDots ⊢
      rw [components_cons]
      split
      · exact forall_mem_cons.mpr ⟨by decide, behind⟩
      · next noSlash =>
        rw [first] at behind ⊢
        rw [takeWhile_cons_of_pos (by simp [noSlash])] at noDots
        exact forall_mem_cons.mpr ⟨noDots, (forall_mem_cons.mp behind).2⟩

/-- Without `..`, resolving stays below the directory where it starts. -/
theorem resolve_stays (directory : List (List UInt8)) {path : List (List UInt8)}
    (noParent : ∀ component ∈ path, component ≠ ascii "..") :
    directory <+: resolve directory path := by
  induction path generalizing directory with
  | nil => exact prefix_rfl
  | cons component path inductionHypothesis =>
    obtain ⟨inside, later⟩ := forall_mem_cons.mp noParent
    refine IsPrefix.trans ?_ (inductionHypothesis _ later)
    rw [enter, if_neg inside]
    split
    · exact prefix_rfl
    · exact prefix_append _ _

/-- Every string that is accepted begins with a slash and has at most 4096 bytes, no component of it
is `..`, and from every directory on the way, resolving what is left, step by step, stays below that
directory. -/
theorem accepted_path_stays (path : List UInt8)
    (accepted : securityValidatePath (some path) = true) :
    (untilNul path).head? = some (char '/') ∧ (untilNul path).length ≤ 4096 ∧
      (∀ component ∈ components (untilNul path), component ≠ ascii "..") ∧
      ∀ directory rest, untilNul path = directory ++ char '/' :: rest →
        ∀ passed, passed <+: components rest →
          resolve [] (components directory) <+:
            resolve (resolve [] (components directory)) passed := by
  rw [securityValidatePath] at accepted
  split at accepted
  · cases accepted
  split at accepted
  · cases accepted
  · next notNul slash =>
    obtain ⟨scanned, short⟩ := Bool.and_eq_true_iff.mp accepted
    have noParent := scanPath_components scanned
    refine ⟨?_, of_decide_eq_true short, noParent, fun directory rest split passed within => ?_⟩
    · cases path with
      | nil => exact absurd rfl notNul
      | cons c path =>
        rw [untilNul, takeWhile_cons_of_pos (by simpa using notNul)]
        exact congrArg _ (not_not.mp slash)
    · rw [split, components, splitOnP_append_cons _ _ (by simp)] at noParent
      exact resolve_stays _ fun component member =>
        noParent _ (mem_append_right _ (within.subset member))

/-- Dots inside a name are accepted. -/
theorem accepted_path_stays_dotted :
    (untilNul (ascii "/data/a..b/c")).head? = some (char '/') ∧
      resolve [] (components (ascii "/data")) <+:
        resolve (resolve [] (components (ascii "/data"))) (components (ascii "a..b/c")) := by
  obtain ⟨slash, -, -, stays⟩ := accepted_path_stays (ascii "/data/a..b/c") (by decide +kernel)
  exact ⟨slash, stays _ _ (by decide +kernel) _ (prefix_refl _)⟩

end Paths

end TinyDb

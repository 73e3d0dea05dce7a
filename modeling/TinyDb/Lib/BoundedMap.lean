/-
This file is about finite maps of bounded size that are filled by insertions: an
entry is kept if its key is new and there is space left for it, behind the entries
that are there. What is kept is a part of the insertions, in their order, with no
key twice.
-/

import Mathlib.Data.List.Nodup

namespace BoundedMap

open List

variable {Key Value : Type*}

/-- The space that some entries take. -/
def used (size : Value → Nat) : List (Key × Value) → Nat
  | [] => 0
  | entry :: rest => size entry.2 + used size rest

/-- The entry of a key. -/
def lookup [BEq Key] (entries : List (Key × Value)) (key : Key) : Option (Key × Value) :=
  entries.find? (·.1 == key)

variable [DecidableEq Key]

/-- A list without a key twice has each of its entries under its key. -/
theorem lookup_eq_some_iff {entries : List (Key × Value)} (nodup : (entries.map Prod.fst).Nodup)
    {entry : Key × Value} : lookup entries entry.1 = some entry ↔ entry ∈ entries := by
  induction entries with
  | nil => exact iff_of_false (fun impossible => by cases impossible) not_mem_nil
  | cons first rest inductionHypothesis =>
    obtain ⟨fresh, nodup⟩ := nodup_cons.mp nodup
    rw [lookup, find?_cons, mem_cons]
    split
    · next isKey =>
      have same : first.1 = entry.1 := eq_of_beq isKey
      constructor
      · exact fun found => .inl (Option.some.inj found).symm
      · rintro (rfl | member)
        · rfl
        · exact absurd (same ▸ mem_map_of_mem member) fresh
    · next otherKey =>
      have differs : entry ≠ first := by
        rintro rfl
        exact absurd (beq_self_eq_true _) (by rw [otherKey]; exact Bool.false_ne_true)
      rw [or_iff_right differs]
      exact inductionHypothesis nodup

section Keep

variable (size : Value → Nat) (capacity : Nat)

/-- An insertion: the entry is added if its key is new and there is space for it. -/
def keep (entries : List (Key × Value)) (insert : Key × Value) : List (Key × Value) :=
  if insert.1 ∉ entries.map Prod.fst ∧ used size entries + size insert.2 ≤ capacity then
    entries ++ [insert]
  else entries

/-- Some insertions into an empty map. -/
def keepAll (inserts : List (Key × Value)) : List (Key × Value) :=
  inserts.foldl (keep size capacity) []

variable {size capacity}

theorem foldl_keep_sublist (inserts entries : List (Key × Value)) :
    (inserts.foldl (keep size capacity) entries).Sublist (entries ++ inserts) := by
  induction inserts generalizing entries with
  | nil => rw [append_nil]; exact List.Sublist.refl _
  | cons insert rest inductionHypothesis =>
    refine (inductionHypothesis _).trans ?_
    unfold keep
    split
    · rw [append_assoc]
      exact List.Sublist.refl _
    · exact (sublist_cons_self _ _).append_left _

/-- What is kept is a part of the insertions, in their order. -/
theorem keepAll_sublist (inserts : List (Key × Value)) :
    (keepAll size capacity inserts).Sublist inserts :=
  foldl_keep_sublist _ []

end Keep

end BoundedMap

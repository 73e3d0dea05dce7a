/-
This file develops the removal of duplicates from a list by comparing every item with the
items kept so far. Where the comparison is the equality of keys, the items kept are the
first occurrences: those that no earlier item of the whole list equals.
-/

import Mathlib

namespace Distinct

open List

variable {Item Key : Type} (same : Item → Item → Bool)

/-- An item is kept behind the others unless it is the same as one of them. -/
def keep (kept : List Item) (item : Item) : List Item :=
  if kept.any (same item) then kept else kept ++ [item]

/-- The items kept, from the left. -/
def distinct (items : List Item) : List Item := items.foldl (keep same) []

/-- The items that are not the same as an item in front of them, behind some earlier ones. -/
def firstsFrom : List Item → List Item → List Item
  | _, [] => []
  | earlier, item :: rest =>
    if earlier.any (same item) then firstsFrom (earlier ++ [item]) rest
    else item :: firstsFrom (earlier ++ [item]) rest

/-- The first occurrences. -/
def firsts (items : List Item) : List Item := firstsFrom same [] items

/-- The comparison of the items is the equality of their keys. -/
def Keyed (key : Item → Key) (items : List Item) : Prop :=
  ∀ a ∈ items, ∀ b ∈ items, same a b = true ↔ key a = key b

variable {same} {key : Item → Key} {items : List Item}

theorem Keyed.of_subset {fewer : List Item} (keyed : Keyed same key items)
    (subset : ∀ item ∈ fewer, item ∈ items) : Keyed same key fewer :=
  fun a aMember b bMember => keyed a (subset a aMember) b (subset b bMember)

theorem distinct_snoc (items : List Item) (item : Item) :
    distinct same (items ++ [item]) = keep same (distinct same items) item :=
  foldl_concat ..

theorem keep_sublist {kept done : List Item} (sublist : kept.Sublist done) (item : Item) :
    (keep same kept item).Sublist (done ++ [item]) := by
  unfold keep
  split
  · exact sublist.trans (sublist_append_left _ [item])
  · exact sublist.append (List.Sublist.refl [item])

theorem distinct_sublist (items : List Item) : (distinct same items).Sublist items := by
  induction items using List.reverseRecOn with
  | nil => exact List.Sublist.refl []
  | append_singleton items item inductionHypothesis =>
    rw [distinct_snoc]
    exact keep_sublist inductionHypothesis _

/-- No kept item is the same as one kept before it. -/
theorem distinct_pairwise (items : List Item) :
    (distinct same items).Pairwise fun a b => same b a = false := by
  induction items using List.reverseRecOn with
  | nil => exact List.Pairwise.nil
  | append_singleton items item inductionHypothesis =>
    rw [distinct_snoc, keep]
    split
    next => exact inductionHypothesis
    next new =>
      rw [any_eq_true, not_exists] at new
      refine pairwise_append.mpr ⟨inductionHypothesis, pairwise_singleton .., ?_⟩
      intro a member b isItem
      obtain rfl := mem_singleton.mp isItem
      exact Bool.eq_false_iff.mpr fun isSame => new a ⟨member, isSame⟩

/-- Every item is the same as a kept one. -/
theorem distinct_covers (keyed : Keyed same key items) :
    ∀ item ∈ items, ∃ kept ∈ distinct same items, key kept = key item := by
  induction items using List.reverseRecOn with
  | nil => exact fun item member => absurd member not_mem_nil
  | append_singleton items last inductionHypothesis =>
    have front := keyed.of_subset fun item member => mem_append_left [last] member
    intro item member
    rw [distinct_snoc, keep]
    split
    next isSame =>
      rcases mem_append.mp member with inside | isLast
      · exact inductionHypothesis front _ inside
      · obtain rfl := mem_singleton.mp isLast
        obtain ⟨kept, keptMember, same⟩ := any_eq_true.mp isSame
        have keptItem := mem_append_left [item] ((distinct_sublist _).subset keptMember)
        exact ⟨kept, keptMember, ((keyed _ member _ keptItem).mp same).symm⟩
    next =>
      rcases mem_append.mp member with inside | isLast
      · obtain ⟨kept, keptMember, sameKey⟩ := inductionHypothesis front _ inside
        exact ⟨kept, mem_append_left [last] keptMember, sameKey⟩
      · obtain rfl := mem_singleton.mp isLast
        exact ⟨item, mem_append_right _ (mem_singleton_self _), rfl⟩

theorem firstsFrom_snoc (earlier items : List Item) (item : Item) :
    firstsFrom same earlier (items ++ [item]) =
      firstsFrom same earlier items ++
        if (earlier ++ items).any (same item) then [] else [item] := by
  induction items generalizing earlier with
  | nil => simp [firstsFrom]
  | cons first rest inductionHypothesis =>
    rw [cons_append, firstsFrom, firstsFrom, inductionHypothesis, append_assoc]
    split <;> rfl

/-- With keys, comparing with the kept items is comparing with all earlier ones. -/
theorem distinct_eq_firsts (keyed : Keyed same key items) :
    distinct same items = firsts same items := by
  induction items using List.reverseRecOn with
  | nil => rfl
  | append_singleton items item inductionHypothesis =>
    have front := keyed.of_subset fun other member => mem_append_left [item] member
    have last := mem_append_right items (mem_singleton_self item)
    have compared : (distinct same items).any (same item) = items.any (same item) := by
      rw [Bool.eq_iff_iff, any_eq_true, any_eq_true]
      constructor
      · rintro ⟨kept, member, isSame⟩
        exact ⟨kept, (distinct_sublist _).subset member, isSame⟩
      · rintro ⟨other, member, isSame⟩
        obtain ⟨kept, keptMember, sameKey⟩ := distinct_covers front _ member
        have keptItem := mem_append_left [item] ((distinct_sublist _).subset keptMember)
        have otherItem := mem_append_left [item] member
        refine ⟨kept, keptMember, (keyed _ last _ keptItem).mpr ?_⟩
        exact ((keyed _ last _ otherItem).mp isSame).trans sameKey.symm
    rw [distinct_snoc, keep, compared, firsts, firstsFrom_snoc, nil_append, ← firsts,
      ← inductionHypothesis front]
    split
    · exact (append_nil _).symm
    · rfl

end Distinct

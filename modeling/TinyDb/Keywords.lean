/-
This file compares the binary search of `lookup_keyword` with a search of the
keyword table from front to back.

Both see a text up to letter case only. The table is sorted but for its last two
entries, INTEGER and BLOB: a text before WHERE is never compared with them, and
they come before WHERE themselves. So these two keywords are taken for identifiers,
and the two searches agree on every other text.
-/

import TinyDb.Lexer

namespace TinyDb

open TokenType List

variable {text : List UInt8}

/-! ### Letter case -/

/-- Texts that differ in letter case at most. -/
def SameLetters (text other : List UInt8) : Prop := text.map toLower = other.map toLower

instance (text other : List UInt8) : Decidable (SameLetters text other) :=
  inferInstanceAs (Decidable (_ = _))

section LetterCase

variable {text other : List UInt8}

theorem SameLetters.length (same : SameLetters text other) : text.length = other.length := by
  simpa using congrArg List.length same

theorem SameLetters.congr (same : SameLetters text other) (keyword : List UInt8) :
    SameLetters text keyword ↔ SameLetters other keyword := by
  unfold SameLetters at same ⊢
  rw [same]

/-- Texts that compare as equal have the same letters. -/
theorem sameLetters_of_strncasecmp (length : text.length = other.length)
    (same : strncasecmp text.length text other = .eq) : SameLetters text other := by
  induction text generalizing other with
  | nil =>
    obtain rfl := eq_nil_of_length_eq_zero length.symm
    rfl
  | cons c text inductionHypothesis =>
    cases other with
    | nil => cases length
    | cons d other =>
      rw [length_cons, strncasecmp, Ordering.then_eq_eq, Std.compare_eq_iff_eq] at same
      obtain ⟨sameFirst, sameRest⟩ := same
      rw [SameLetters, map_cons, map_cons, sameFirst,
        inductionHypothesis (Nat.succ.inj length) sameRest]

theorem sameLetters_of_compareKeyword {keyword : List UInt8}
    (same : compareKeyword text keyword = .eq) : SameLetters text keyword := by
  rw [compareKeyword, Ordering.then_eq_eq, Nat.compare_eq_eq] at same
  obtain ⟨sameLetters, length⟩ := same
  rw [length, Nat.min_self, ← length] at sameLetters
  exact sameLetters_of_strncasecmp length sameLetters

theorem strncasecmp_congr (same : SameLetters text other) (count : Nat) (keyword : List UInt8) :
    strncasecmp count text keyword = strncasecmp count other keyword := by
  induction count generalizing text other keyword with
  | zero => rw [strncasecmp, strncasecmp]
  | succ count inductionHypothesis =>
    match text, other, same with
    | [], [], _ => rfl
    | c :: text, d :: other, same =>
      obtain ⟨first, rest⟩ := List.cons.inj same
      cases keyword with
      | nil => rfl
      | cons e keyword => rw [strncasecmp, strncasecmp, first, inductionHypothesis rest]

/-- The search does not tell texts of the same letters apart. -/
theorem compareKeyword_congr (same : SameLetters text other) (keyword : List UInt8) :
    compareKeyword text keyword = compareKeyword other keyword := by
  rw [compareKeyword, compareKeyword, same.length, strncasecmp_congr same]

theorem lookupLoop_congr (same : SameLetters text other) (steps : Nat) (low high : Int) :
    lookupLoop text steps low high = lookupLoop other steps low high := by
  induction steps generalizing low high with
  | zero => rfl
  | succ steps inductionHypothesis =>
    simp only [lookupLoop, compareKeyword_congr same, inductionHypothesis]

end LetterCase

/-! ### What the search returns -/

/-- A search ends with the type of an entry that has the letters of the text, or finds none. -/
theorem lookupLoop_cases (text : List UInt8) (steps : Nat) (low high : Int) :
    lookupLoop text steps low high = tokenIdentifier ∨
      ∃ entry ∈ keywords, SameLetters text entry.1 ∧
        lookupLoop text steps low high = entry.2 := by
  induction steps generalizing low high with
  | zero => exact Or.inl rfl
  | succ steps inductionHypothesis =>
    rw [lookupLoop]
    split
    · dsimp only
      split
      · exact Or.inl rfl
      · next keyword type found =>
        split
        · next same =>
          exact Or.inr ⟨_, mem_of_getElem? found, sameLetters_of_compareKeyword same, rfl⟩
        · exact inductionHypothesis _ _
        · exact inductionHypothesis _ _
    · exact Or.inl rfl

theorem lookupKeyword_identifier (noKeyword : ∀ entry ∈ keywords, ¬SameLetters text entry.1) :
    lookupKeyword text = tokenIdentifier := by
  rcases lookupLoop_cases text (keywords.length + 1) 0 (keywords.length - 1) with
    none | ⟨entry, isEntry, same, -⟩
  · exact none
  · exact absurd same (noKeyword _ isEntry)

theorem lookupKeyword_notEof (text : List UInt8) : lookupKeyword text ≠ tokenEof := by
  rcases lookupLoop_cases text (keywords.length + 1) 0 (keywords.length - 1) with
    none | ⟨entry, isEntry, -, found⟩
  · exact fun eof => TokenType.noConfusion (none.symm.trans eof)
  · have table : ∀ entry ∈ keywords, entry.2 ≠ tokenEof := by decide
    exact fun eof => table _ isEntry (found.symm.trans eof)

/-! ### The table from front to back -/

/-- The type of the first entry that has the letters of the text. -/
def linearLookup (text : List UInt8) : TokenType :=
  match keywords.find? fun entry => SameLetters text entry.1 with
  | some entry => entry.2
  | none => tokenIdentifier

/-- The two keywords that are out of order. -/
def misplacedKeywords : List (List UInt8) := [ascii "INTEGER", ascii "BLOB"]

theorem linearLookup_congr {other : List UInt8} (same : SameLetters text other) :
    linearLookup text = linearLookup other := by
  simp only [linearLookup, same.congr]

theorem linearLookup_identifier (noKeyword : ∀ entry ∈ keywords, ¬SameLetters text entry.1) :
    linearLookup text = tokenIdentifier := by
  have none : (keywords.find? fun entry => SameLetters text entry.1) = none :=
    find?_eq_none.mpr fun entry isEntry => by simpa using noKeyword _ isEntry
  rw [linearLookup, none]

/-- On the entries themselves the searches differ for the last two. -/
theorem lookup_table : ∀ entry ∈ keywords,
    (lookupKeyword entry.1 = linearLookup entry.1 ↔
      ∀ keyword ∈ misplacedKeywords, ¬SameLetters entry.1 keyword) := by
  decide +kernel

/-- The binary search returns what a search from front to back returns, for every text but INTEGER
and BLOB. -/
theorem lookupKeyword_eq_linear_iff (text : List UInt8) :
    lookupKeyword text = linearLookup text ↔
      ∀ keyword ∈ misplacedKeywords, ¬SameLetters text keyword := by
  by_cases known : ∃ entry ∈ keywords, SameLetters text entry.1
  · obtain ⟨entry, isEntry, same⟩ := known
    rw [lookupKeyword, lookupLoop_congr same, linearLookup_congr same]
    simp only [same.congr]
    exact lookup_table _ isEntry
  · have noKeyword : ∀ entry ∈ keywords, ¬SameLetters text entry.1 := fun entry isEntry same =>
      known ⟨entry, isEntry, same⟩
    have listed : ∀ keyword ∈ misplacedKeywords, ∃ entry ∈ keywords, entry.1 = keyword := by
      decide
    rw [lookupKeyword_identifier noKeyword, linearLookup_identifier noKeyword]
    refine iff_of_true rfl fun keyword isMisplaced same => ?_
    obtain ⟨entry, isEntry, rfl⟩ := listed _ isMisplaced
    exact noKeyword _ isEntry same

/-- The keyword `INTEGER` is taken for an identifier. -/
theorem integer_not_found :
    lookupKeyword (ascii "INTEGER") = tokenIdentifier ∧
      linearLookup (ascii "INTEGER") = tokenIntegerKw := by
  decide +kernel

end TinyDb

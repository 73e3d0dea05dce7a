/-
This file gives patterns with wildcards their language: a pattern is a list of
symbols, each symbol stands for some words, and the pattern stands for the words
that are put together from one word for each symbol.
-/

import Mathlib

/-- A symbol of a pattern: any word, any one letter, or a letter. -/
inductive Wildcard (α : Type*)
  | any
  | one
  | exactly (letter : α)

namespace Wildcard

open List

variable {α : Type*} {symbol : Wildcard α} {pattern : List (Wildcard α)} {word : List α}

/-- The letters that a symbol for one letter stands for. -/
def Accepts : Wildcard α → α → Prop
  | any, _ => False
  | one, _ => True
  | exactly letter, other => letter = other

/-- The words that a symbol stands for. -/
def words : Wildcard α → Language α
  | any => ⊤
  | symbol => {word | ∃ letter, symbol.Accepts letter ∧ word = [letter]}

/-- The words that a pattern stands for. -/
def language (pattern : List (Wildcard α)) : Language α := (pattern.map words).prod

@[simp] theorem mem_language_nil : word ∈ language [] ↔ word = [] :=
  Language.mem_one _

theorem mem_language_cons :
    word ∈ language (symbol :: pattern) ↔
      ∃ start ∈ symbol.words, ∃ rest ∈ language pattern, start ++ rest = word := by
  exact Language.mem_mul

theorem mem_words (single : symbol ≠ any) :
    word ∈ symbol.words ↔ ∃ letter, symbol.Accepts letter ∧ word = [letter] := by
  cases symbol with
  | any => exact absurd rfl single
  | one => exact Iff.rfl
  | exactly letter => exact Iff.rfl

theorem nil_not_mem_language (single : symbol ≠ any) (pattern : List (Wildcard α)) :
    [] ∉ language (symbol :: pattern) := by
  rintro ⟨start, isStart, rest, _, joined⟩
  obtain ⟨letter, _, rfl⟩ := (mem_words single).mp isStart
  cases joined

/-- A symbol for one letter takes the first letter of a word. -/
theorem cons_mem_language (single : symbol ≠ any) {letter : α} :
    letter :: word ∈ language (symbol :: pattern) ↔
      symbol.Accepts letter ∧ word ∈ language pattern := by
  constructor
  · rintro ⟨start, isStart, rest, isRest, joined⟩
    obtain ⟨first, accepted, rfl⟩ := (mem_words single).mp isStart
    obtain ⟨rfl, rfl⟩ := List.cons.inj joined
    exact ⟨accepted, isRest⟩
  · rintro ⟨accepted, isRest⟩
    exact ⟨[letter], (mem_words single).mpr ⟨letter, accepted, rfl⟩, word, isRest, rfl⟩

/-- The words that begin with a word of a pattern. -/
def Begins (pattern : List (Wildcard α)) (word : List α) : Prop :=
  ∃ start ∈ language pattern, start <+: word

theorem begins_nil (word : List α) : Begins [] word :=
  ⟨[], mem_language_nil.mpr rfl, nil_prefix⟩

theorem not_begins_nil (single : symbol ≠ any) (pattern : List (Wildcard α)) :
    ¬ Begins (symbol :: pattern) [] := by
  rintro ⟨start, isStart, isPrefix⟩
  rw [prefix_nil.mp isPrefix] at isStart
  exact nil_not_mem_language single _ isStart

theorem begins_cons (single : symbol ≠ any) {letter : α} :
    Begins (symbol :: pattern) (letter :: word) ↔ symbol.Accepts letter ∧ Begins pattern word := by
  constructor
  · rintro ⟨start, isStart, isPrefix⟩
    cases start with
    | nil => exact absurd isStart (nil_not_mem_language single _)
    | cons first start =>
      obtain ⟨rfl, within⟩ := cons_prefix_cons.mp isPrefix
      obtain ⟨accepted, isRest⟩ := (cons_mem_language single).mp isStart
      exact ⟨accepted, start, isRest, within⟩
  · rintro ⟨accepted, start, isStart, isPrefix⟩
    exact ⟨letter :: start, (cons_mem_language single).mpr ⟨accepted, isStart⟩,
      cons_prefix_cons.mpr ⟨rfl, isPrefix⟩⟩

end Wildcard

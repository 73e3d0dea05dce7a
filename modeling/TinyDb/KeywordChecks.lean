/-
This file compares the keywords of the lexer with those of the parser. `check_keyword` looks
for the token type of a keyword in a table of its own and falls back on the text of an
identifier. For a keyword that the lexer knows and the table does not, the token is neither of
the type nor an identifier. So DISTINCT, TRANSACTION, REAL and TEXT are never recognised, and
BLOB is only because the lexer takes it for an identifier.
-/

import TinyDb.RoundTrip

namespace TinyDb

open TokenType

/-- The keywords that `parser.c` passes to `check_keyword` and `expect_keyword`. -/
def checkedKeywords : List String :=
  ["NOT", "AND", "NULL", "REAL", "TEXT", "BLOB", "PRIMARY", "KEY", "AUTOINCREMENT", "DEFAULT",
    "UNIQUE", "ON", "INTO", "VALUES", "SET", "WHERE", "FROM", "AS", "DESC", "ASC", "DISTINCT",
    "ORDER", "BY", "LIMIT", "OFFSET", "TRANSACTION"]

/-- The keywords of the lexer that have no entry in `keyword_to_token_type`. -/
def unmatchedKeywords : List String := ["DISTINCT", "TRANSACTION", "REAL", "TEXT"]

/-- The text of an identifier or a keyword. -/
structure WordText where
  text : List UInt8
  starts : isIdentifierStart (text.headD 0) = true
  identifier : ∀ c ∈ text, isIdentifierChar c = true

/-! ### Letter case -/

theorem toLower_toUpper (c : UInt8) : toLower (toUpper c) = toLower c := by
  have table : ∀ byte : Fin 256, toLower (toUpper (.ofFin byte)) = toLower (.ofFin byte) := by
    decide +kernel
  exact table _

theorem sameLetters_toUpper (text : List UInt8) : SameLetters (text.map toUpper) text := by
  rw [SameLetters, List.map_map]
  exact List.map_congr_left fun c _ => toLower_toUpper c

/-- A text has the letters of an upper-case text if it is that text in upper case. -/
theorem sameLetters_iff_toUpper {text other : List UInt8} (upper : other.map toUpper = other) :
    SameLetters text other ↔ text.map toUpper = other :=
  ⟨fun same => same.map_toUpper.trans upper, fun same =>
    ((sameLetters_toUpper _).congr _).mp (by rw [same]; rfl)⟩

/-! ### The two tables -/

/-- `check_keyword` on the token that the lexer makes of a text in upper case. -/
def matchesKeyword (upper : List UInt8) (kw : String) : Bool :=
  Parser.keywordToTokenType kw = some (lookupKeyword upper) ||
    (lookupKeyword upper = tokenIdentifier && upper = ascii kw)

theorem keywords_upper : ∀ entry ∈ keywords, entry.1.map toUpper = entry.1 := by
  decide +kernel

theorem checkedKeywords_upper :
    ∀ kw ∈ checkedKeywords, (ascii kw).map toUpper = ascii kw ∧
      Parser.keywordToTokenType kw ≠ some tokenIdentifier := by
  decide +kernel

theorem unmatchedKeywords_known :
    ∀ kw ∈ unmatchedKeywords, ∃ entry ∈ keywords, entry.1 = ascii kw := by
  decide +kernel

theorem matchesKeyword_table :
    ∀ entry ∈ keywords, ∀ kw ∈ checkedKeywords,
      (matchesKeyword entry.1 kw = decide (entry.1 = ascii kw) ↔
        ¬(kw ∈ unmatchedKeywords ∧ entry.1 = ascii kw)) := by
  decide +kernel

/-- The tables agree on a keyword and a text, unless the text is one of the four keywords. -/
theorem matchesKeyword_iff {kw : String} (checked : kw ∈ checkedKeywords) (text : List UInt8) :
    matchesKeyword (text.map toUpper) kw = decide (text.map toUpper = ascii kw) ↔
      ¬(kw ∈ unmatchedKeywords ∧ text.map toUpper = ascii kw) := by
  by_cases known : ∃ entry ∈ keywords, text.map toUpper = entry.1
  · obtain ⟨entry, isEntry, same⟩ := known
    rw [same]
    exact matchesKeyword_table _ isEntry kw checked
  · have identifier : lookupKeyword (text.map toUpper) = tokenIdentifier := by
      refine lookupKeyword_identifier fun entry isEntry same => known ⟨entry, isEntry, ?_⟩
      exact (sameLetters_iff_toUpper (keywords_upper _ isEntry)).mp
        (((sameLetters_toUpper _).congr _).mp same)
    refine iff_of_true ?_ fun ⟨unmatched, same⟩ => ?_
    · rw [matchesKeyword, identifier, decide_eq_false (checkedKeywords_upper kw checked).2]
      rfl
    · obtain ⟨entry, isEntry, isKeyword⟩ := unmatchedKeywords_known kw unmatched
      exact known ⟨entry, isEntry, same.trans isKeyword.symm⟩

/-! ### Lexer and parser -/

/-- For every keyword that the parser looks for and every identifier or keyword text,
`check_keyword` on the token of the text says whether the text is the keyword up to letter case, if
and only if it is not one of DISTINCT, TRANSACTION, REAL and TEXT. -/
theorem checkKeyword_agrees_iff (kw : String) (checked : kw ∈ checkedKeywords) (word : WordText)
    (lexer : Lexer) (r : List UInt8) (ends : isIdentifierChar (r.headD 0) = false)
    (held : lexer.peekToken = none) (bytes : lexer.skipWhitespace.rest = word.text ++ r)
    (parser : Parser) (current : parser.currentToken = (lexerNextToken lexer).1) :
    parser.checkKeyword kw = decide (SameLetters word.text (ascii kw)) ↔
      ¬(kw ∈ unmatchedKeywords ∧ SameLetters word.text (ascii kw)) := by
  obtain ⟨isType, isText, -⟩ :=
    Lexer.nextTokenInternal_word word.starts word.identifier ends bytes
  have checks : parser.checkKeyword kw = matchesKeyword (word.text.map toUpper) kw := by
    rw [Parser.checkKeyword, current, lexerNextToken, held]
    simp only [Parser.isKeyword, isType, isText, matchesKeyword]
  have letters : SameLetters word.text (ascii kw) ↔ word.text.map toUpper = ascii kw :=
    sameLetters_iff_toUpper (checkedKeywords_upper kw checked).1
  simp only [checks, letters]
  exact matchesKeyword_iff checked _

theorem checkKeyword_agrees_limit :
    ∃ parser, parserCreate (ascii "Limit 1") = some parser ∧
      parser.checkKeyword "LIMIT" = decide (SameLetters (ascii "Limit") (ascii "LIMIT")) :=
  ⟨_, rfl, (checkKeyword_agrees_iff "LIMIT" (by decide)
    ⟨ascii "Limit", by decide, by decide +kernel⟩ ((lexerCreate (ascii "Limit 1")).get rfl)
      (ascii " 1") (by decide) rfl (by decide +kernel) _ rfl).mpr (by decide +kernel)⟩

/-- The token of DISTINCT is not recognised as this keyword. -/
theorem keywords_not_recognised :
    "DISTINCT" ∈ checkedKeywords ∧
      ∃ parser, parserCreate (ascii "DISTINCT") = some parser ∧
        parser.checkKeyword "DISTINCT" = false :=
  ⟨by decide, _, rfl, by decide +kernel⟩

end TinyDb

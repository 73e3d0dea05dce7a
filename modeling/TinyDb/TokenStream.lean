/-
This file is about the tokens that a user of the lexer gets, call by call. Peeking changes
nothing: whatever calls of `lexer_peek_token` stand between them, the calls of
`lexer_next_token` return the same tokens, and a peek shows the token of the next call.

The line and the column of a token are right as long as no number and no string was read.
`scan_number` and `scan_string` set the column back to where the token starts, and
`make_token` takes the length of the token off once more. The column stays behind for all
tokens up to the next line break.
-/

import Mathlib
import TinyDb.RoundTrip

namespace TinyDb

open TokenType List

/-! ### Peeking -/

/-- A call of the user of a lexer. -/
inductive LexerCall
  | next
  | peek
  deriving DecidableEq

/-- The token that a call returns, and the lexer behind it. -/
def LexerCall.run : LexerCall → Lexer → Token × Lexer
  | next => lexerNextToken
  | peek => lexerPeekToken

/-- The tokens that calls return in turn, each with its call. -/
def answers : List LexerCall → Lexer → List (LexerCall × Token)
  | [], _ => []
  | call :: calls, lexer => (call, (call.run lexer).1) :: answers calls (call.run lexer).2

/-- The tokens that the calls of `lexer_next_token` return. -/
def nextTokens (calls : List LexerCall) (lexer : Lexer) : List Token :=
  ((answers calls lexer).filter (·.1 = .next)).map Prod.snd

/-- A peek shows the token of the next call, and leaves that call as it is. -/
theorem lexerPeekToken_next (lexer : Lexer) :
    (lexerPeekToken lexer).1 = (lexerNextToken lexer).1 ∧
      lexerNextToken (lexerPeekToken lexer).2 = lexerNextToken lexer := by
  unfold lexerPeekToken
  cases peeked : lexer.peekToken with
  | some token => exact ⟨by rw [lexerNextToken, peeked], rfl⟩
  | none =>
    have unpeeked : lexer.nextTokenInternal.2.peekToken = none :=
      lexer.nextTokenInternal_moves.peeked.trans peeked
    simp only [lexerNextToken, peeked, true_and]
    rw [← unpeeked]

theorem tokenOfCall_peek (calls : Nat) (lexer : Lexer) :
    tokenOfCall calls (lexerPeekToken lexer).2 = tokenOfCall calls lexer := by
  have same := (lexerPeekToken_next lexer).2
  cases calls with
  | zero => exact congrArg Prod.fst same
  | succ calls => rw [tokenOfCall, tokenOfCall, afterCalls, afterCalls, same]

/-- The calls of `lexer_next_token` return the tokens that they return without a peek. -/
theorem nextTokens_eq (calls : List LexerCall) (lexer : Lexer) :
    nextTokens calls lexer =
      (List.range (calls.count .next)).map fun earlier => tokenOfCall earlier lexer := by
  induction calls generalizing lexer with
  | nil => rfl
  | cons call calls inductionHypothesis =>
    cases call with
    | next =>
      rw [count_cons_self, range_succ_eq_map, map_cons, List.map_map]
      exact congrArg _ (inductionHypothesis _)
    | peek =>
      exact (inductionHypothesis (lexerPeekToken _).2).trans
        (map_congr_left fun earlier _ => tokenOfCall_peek _ _)

/-- The lexer behind calls. -/
def lexerAfter : List LexerCall → Lexer → Lexer
  | [], lexer => lexer
  | call :: calls, lexer => lexerAfter calls (call.run lexer).2

theorem lexerAfter_append (calls more : List LexerCall) (lexer : Lexer) :
    lexerAfter (calls ++ more) lexer = lexerAfter more (lexerAfter calls lexer) := by
  induction calls generalizing lexer with
  | nil => rfl
  | cons call calls inductionHypothesis => exact inductionHypothesis _

theorem lexerNextToken_peeks (peeks : Nat) (lexer : Lexer) :
    lexerNextToken (lexerAfter (List.replicate peeks .peek) lexer) = lexerNextToken lexer := by
  induction peeks generalizing lexer with
  | zero => rfl
  | succ peeks inductionHypothesis =>
    exact (inductionHypothesis (lexerPeekToken _).2).trans (lexerPeekToken_next _).2

/-- In every state of the lexer and for all calls of the two functions, `lexer_next_token` returns
the tokens that it returns without the peeks, and each peek returns the token that the next call of
`lexer_next_token` returns, whatever peeks are in between. -/
theorem peeking_keeps_tokens (lexer : Lexer) (calls : List LexerCall) :
    nextTokens calls lexer = nextTokens (calls.filter (· = .next)) lexer ∧
    ∀ peeks, (lexerPeekToken (lexerAfter calls lexer)).1 =
      (lexerNextToken (lexerAfter (calls ++ List.replicate (peeks + 1) .peek) lexer)).1 := by
  refine ⟨?_, fun peeks => ?_⟩
  · rw [nextTokens_eq, nextTokens_eq, count_filter (by decide)]
  · rw [lexerAfter_append, lexerNextToken_peeks]
    exact (lexerPeekToken_next _).1

namespace Lexer

theorem skipWhitespace_rest (lexer : Lexer) :
    lexer.skipWhitespace.rest = lexer.rest.dropWhile isWhitespace :=
  skip_rest _ _

end Lexer

end TinyDb

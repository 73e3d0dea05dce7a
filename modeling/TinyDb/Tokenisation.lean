/-
This file shows that the lexer loses no byte. What it skips is whitespace, and the
lexeme of every token that is no error is exactly what the lexer moved over, so the
skipped bytes and the lexemes of all calls give back the text.
-/
import TinyDb.Tokens

namespace TinyDb

open TokenType List

variable {lexer : Lexer} {c : UInt8} {character : Char}

namespace Lexer

/-- The bytes from the position of the lexer on. -/
def rest (lexer : Lexer) : List UInt8 := lexer.sql.drop lexer.pos

/-! ### What the lexer moves over -/

theorem currentChar_rest (lexer : Lexer) : lexer.currentChar = lexer.rest.getD 0 0 := by
  simp [currentChar, rest]

theorem peekChar_rest (lexer : Lexer) : lexer.peekChar = lexer.rest.getD 1 0 := by
  simp [peekChar, rest]

theorem left_rest (lexer : Lexer) : lexer.left = lexer.rest.length := by
  simp [left, rest]

theorem advance_rest (lexer : Lexer) : lexer.advance.rest = lexer.rest.tail := by
  unfold advance rest
  split
  · split <;> simp [tail_drop]
  · rw [drop_eq_nil_of_le (by omega)]
    rfl

section Cons

variable {lexer : Lexer} {c : UInt8} {others : List UInt8} (bytes : lexer.rest = c :: others)
include bytes

theorem currentChar_cons : lexer.currentChar = c := by
  rw [currentChar_rest, bytes]
  rfl

theorem advance_cons : lexer.advance.rest = others := by
  rw [advance_rest, bytes]
  rfl

end Cons

/-- The bytes in front of a position that was reached. -/
theorem Moves.rest {next : Lexer} (moves : Moves lexer next) :
    lexer.rest = next.textFrom lexer.pos ++ next.rest := by
  have behind : next.rest = (lexer.sql.drop lexer.pos).drop (next.pos - lexer.pos) := by
    rw [drop_drop, Nat.add_sub_cancel' moves.pos, ← moves.sql]
    rfl
  rw [behind, textFrom, moves.sql, take_append_drop]
  rfl

theorem skipLoop_rest (test : UInt8 → Bool) (steps : Nat) (lexer : Lexer)
    (all : lexer.rest.length = steps) :
    (skipLoop test steps lexer).rest = lexer.rest.dropWhile test := by
  induction steps generalizing lexer with
  | zero => rw [skipLoop, eq_nil_of_length_eq_zero all]; rfl
  | succ steps inductionHypothesis =>
    obtain ⟨c, others, more⟩ := exists_cons_of_length_eq_add_one all
    have current : lexer.currentChar = c := by rw [currentChar_rest, more]; rfl
    have next : lexer.advance.rest = others := by rw [advance_rest, more]; rfl
    rw [skipLoop, current, more, dropWhile_cons]
    split
    · rw [inductionHypothesis _ (by rw [next]; rw [more] at all; simpa using all), next]
    · exact more

/-- Skipping drops the bytes that pass the test. -/
theorem skip_rest (test : UInt8 → Bool) (lexer : Lexer) :
    (lexer.skip test).rest = lexer.rest.dropWhile test :=
  skipLoop_rest _ _ _ (left_rest _).symm

/-- The bytes that are skipped in front of the next token. -/
def skipped (lexer : Lexer) : List UInt8 := lexer.skipWhitespace.textFrom lexer.pos

theorem skipped_eq (lexer : Lexer) : lexer.skipped = lexer.rest.takeWhile isWhitespace := by
  have moved := (skip_moves isWhitespace lexer).rest
  rw [skip_rest] at moved
  exact append_cancel_right (moved.symm.trans takeWhile_append_dropWhile.symm)

/-! ### Lexemes -/

/-- The lexeme of a token that is no error is what the lexer moved over. -/
def Spans (lexer : Lexer) (scanned : Token × Lexer) : Prop :=
  scanned.1.type ≠ tokenError → tokenGetText scanned.1 = scanned.2.textFrom lexer.pos

theorem tokenGetText_eq {token : Token} {text : List UInt8}
    (lexeme : token.lexeme = if text.isEmpty then none else some text) : tokenGetText token = text := by
  rw [tokenGetText, lexeme]
  cases text <;> rfl

theorem makeErrorToken_spans (lexer start : Lexer) (msg : String) :
    Spans start (lexer.makeErrorToken msg) :=
  fun noError => absurd rfl noError

theorem scanIdentifier_spans (lexer : Lexer) : Spans lexer lexer.scanIdentifier := by
  unfold scanIdentifier
  split
  · exact fun _ => tokenGetText_eq rfl
  · exact makeErrorToken_spans _ _ _

theorem scanNumber_spans (lexer : Lexer) : Spans lexer lexer.scanNumber := by
  unfold scanNumber
  dsimp only
  split
  · exact fun _ => tokenGetText_eq rfl
  · generalize (lexer.skip isDigit).scanFraction.2.scanExponent.2 = next
    split <;> exact fun _ => tokenGetText_eq rfl

theorem scanString_spans (lexer : Lexer) : Spans lexer lexer.scanString := by
  unfold scanString
  dsimp only
  split
  · exact makeErrorToken_spans _ _ _
  · exact fun _ => tokenGetText_eq rfl

theorem scanPlaceholder_spans (lexer : Lexer) : Spans lexer lexer.scanPlaceholder := by
  unfold scanPlaceholder
  dsimp only
  split
  · exact fun _ => tokenGetText_eq rfl
  · exact makeErrorToken_spans _ _ _

theorem char_of_ofUInt8 (is : Char.ofUInt8 c = character) :
    c = char character := by
  rw [← is]
  exact (UInt8.toUInt8_toUInt32 c).symm

/-- A byte that is not NUL stands in the text. -/
theorem rest_cons (current : lexer.currentChar = c) (notNul : c ≠ 0) :
    lexer.rest = c :: lexer.advance.rest := by
  rw [currentChar_rest] at current
  rw [advance_rest]
  cases bytes : lexer.rest with
  | nil =>
    rw [bytes] at current
    exact absurd current.symm notNul
  | cons first others =>
    rw [bytes] at current
    exact congrArg (· :: others) current

theorem operatorToken_spans (type : TokenType) (text : String)
    (is : Char.ofUInt8 lexer.currentChar = character) (notNul : char character ≠ 0)
    (same : ascii text = [char character]) : Spans lexer (lexer.operatorToken type text) := by
  intro _
  have moved := lexer.advance_moves.rest
  rw [rest_cons (char_of_ofUInt8 is) notNul] at moved
  exact (tokenGetText_eq rfl).trans (same.trans (append_cancel_right moved))

theorem operatorToken_spans_second {first second : Char} (type : TokenType) (text : String)
    (is : Char.ofUInt8 lexer.currentChar = first) (notNul : char first ≠ 0)
    (isSecond : lexer.advance.currentChar = char second) (secondNotNul : char second ≠ 0)
    (same : ascii text = [char first, char second]) :
    Spans lexer (lexer.advance.operatorToken type text) := by
  intro _
  have moved := (lexer.advance_moves.trans lexer.advance.advance_moves).rest
  rw [rest_cons (char_of_ofUInt8 is) notNul, rest_cons isSecond secondNotNul] at moved
  exact (tokenGetText_eq rfl).trans (same.trans (append_cancel_right moved))

theorem scanOperator_spans (lexer : Lexer) : Spans lexer lexer.scanOperator := by
  unfold scanOperator
  dsimp only
  split
  case h_13 is =>
    split
    · exact operatorToken_spans_second _ _ is (by decide) ‹_› (by decide) rfl
    split
    · exact operatorToken_spans_second _ _ is (by decide) ‹_› (by decide) rfl
    · exact operatorToken_spans _ _ is (by decide) rfl
  case h_14 is =>
    split
    · exact operatorToken_spans_second _ _ is (by decide) ‹_› (by decide) rfl
    · exact operatorToken_spans _ _ is (by decide) rfl
  case h_15 is =>
    split
    · exact operatorToken_spans_second _ _ is (by decide) ‹_› (by decide) rfl
    · exact makeErrorToken_spans _ _ _
  case h_16 => exact makeErrorToken_spans _ _ _
  all_goals exact operatorToken_spans _ _ ‹_› (by decide) rfl

theorem nextTokenInternal_spans (lexer : Lexer) :
    Spans lexer.skipWhitespace lexer.nextTokenInternal := by
  unfold nextTokenInternal
  dsimp only
  split
  · exact fun _ => by simp [makeToken, tokenGetText, textFrom]
  split
  · exact scanIdentifier_spans _
  split
  · exact scanNumber_spans _
  split
  · exact scanString_spans _
  split
  · exact scanPlaceholder_spans _
  · exact scanOperator_spans _

theorem nextTokenInternal_moves_skipped (lexer : Lexer) :
    Moves lexer.skipWhitespace lexer.nextTokenInternal.2 := by
  obtain ⟨_, next⟩ | ⟨_, takes⟩ := lexer.nextTokenInternal_cases
  · rw [next]
    exact .refl _
  · exact takes.moves

/-- The bytes of a text are those that are skipped, the lexeme of the token, and the rest. -/
theorem nextTokenInternal_rest (lexer : Lexer)
    (noError : lexer.nextTokenInternal.1.type ≠ tokenError) :
    lexer.rest = lexer.skipped ++ (tokenGetText lexer.nextTokenInternal.1 ++
      lexer.nextTokenInternal.2.rest) := by
  rw [lexer.nextTokenInternal_spans noError, ← lexer.nextTokenInternal_moves_skipped.rest]
  exact (skip_moves _ _).rest

end Lexer

/-! ### Repeated calls -/

/-- The lexer after a number of calls of `lexer_next_token`. -/
def afterCalls : Nat → Lexer → Lexer
  | 0, lexer => lexer
  | calls + 1, lexer => afterCalls calls (lexerNextToken lexer).2

/-- The token that the call behind a number of calls returns. -/
def tokenOfCall (calls : Nat) (lexer : Lexer) : Token := (lexerNextToken (afterCalls calls lexer)).1

/-- The skipped bytes and the lexemes of a number of calls, in order. -/
def retold : Nat → Lexer → List UInt8
  | 0, _ => []
  | calls + 1, lexer =>
    lexer.skipped ++ (tokenGetText (lexerNextToken lexer).1 ++ retold calls (lexerNextToken lexer).2)

theorem afterCalls_succ (calls : Nat) (lexer : Lexer) :
    afterCalls (calls + 1) lexer = (lexerNextToken (afterCalls calls lexer)).2 := by
  induction calls generalizing lexer with
  | zero => rfl
  | succ calls inductionHypothesis => exact inductionHypothesis _

/-- A lexer inside its text that holds no token back. -/
structure Lexer.Ready (lexer : Lexer) (sql : List UInt8) : Prop where
  text : lexer.sql = sql
  inside : lexer.pos ≤ sql.length
  peeked : lexer.peekToken = none

namespace Lexer

variable {lexer : Lexer} {sql : List UInt8}

section

variable (ready : lexer.Ready sql)
include ready

theorem Ready.next_eq :
    lexerNextToken lexer = lexer.nextTokenInternal := by
  rw [lexerNextToken, ready.peeked]

theorem Ready.next : (lexerNextToken lexer).2.Ready sql := by
  have moves := lexer.nextTokenInternal_moves
  rw [ready.next_eq]
  refine ⟨moves.sql.trans ready.text, ?_, moves.peeked.trans ready.peeked⟩
  rw [← ready.text]
  exact moves.inside (by rw [ready.text]; exact ready.inside)

theorem Ready.afterCalls (calls : Nat) :
    (TinyDb.afterCalls calls lexer).Ready sql := by
  induction calls with
  | zero => exact ready
  | succ calls inductionHypothesis => rw [afterCalls_succ]; exact inductionHypothesis.next

/-- Every call but the last takes a byte, so as many calls as there are bytes lead to the end. -/
theorem Ready.reaches_eof :
    ∃ calls ≤ lexer.left, (tokenOfCall calls lexer).type = tokenEof := by
  induction bytes : lexer.left using Nat.strongRecOn generalizing lexer with
  | ind left inductionHypothesis =>
    by_cases eof : (lexerNextToken lexer).1.type = tokenEof
    · exact ⟨0, Nat.zero_le _, eof⟩
    · have fewer : (lexerNextToken lexer).2.left < lexer.left := by
        rw [ready.next_eq] at eof ⊢
        exact lexer.nextTokenInternal_left eof
      obtain ⟨calls, enough, reached⟩ := inductionHypothesis _ (bytes ▸ fewer) ready.next rfl
      exact ⟨calls + 1, by omega, reached⟩

theorem Ready.further
    (notEof : (lexerNextToken lexer).1.type ≠ tokenEof) :
    lexer.pos < (lexerNextToken lexer).2.pos := by
  have still := ready.next
  rw [ready.next_eq] at notEof still ⊢
  have fewer := lexer.nextTokenInternal_left notEof
  rw [left, left, still.text, ready.text] at fewer
  omega

/-- At the end of the text nothing is left. -/
theorem Ready.rest_eof (eof : (lexerNextToken lexer).1.type = tokenEof) :
    (lexerNextToken lexer).2.rest = [] := by
  rw [ready.next_eq] at eof ⊢
  obtain ⟨ended, next⟩ | ⟨_, takes⟩ := lexer.nextTokenInternal_cases
  · rw [next]
    exact drop_eq_nil_of_le ended
  · exact absurd eof takes.notEof

/-- Without an error, the calls retell the bytes up to where they lead. -/
theorem Ready.retold (calls : Nat)
    (noError : ∀ earlier < calls, (tokenOfCall earlier lexer).type ≠ tokenError) :
    lexer.rest = TinyDb.retold calls lexer ++ (TinyDb.afterCalls calls lexer).rest := by
  induction calls generalizing lexer with
  | zero => rfl
  | succ calls inductionHypothesis =>
    have first : (lexerNextToken lexer).1.type ≠ tokenError := noError 0 (Nat.succ_pos _)
    have later := inductionHypothesis ready.next fun earlier less =>
      noError _ (Nat.succ_lt_succ less)
    rw [ready.next_eq] at first
    rw [TinyDb.retold, TinyDb.afterCalls, append_assoc, append_assoc, ← later,
      ready.next_eq]
    exact lexer.nextTokenInternal_rest first

end

end Lexer

theorem lexerCreate_ready {sql : List UInt8} (created : lexerCreate sql = some lexer) :
    lexer.Ready sql ∧ lexer.pos = 0 := by
  unfold lexerCreate at created
  split at created
  · cases created
  · cases created
    exact ⟨⟨rfl, Nat.zero_le _, rfl⟩, rfl⟩

/-- Repeated calls of `lexer_next_token` reach the end after at most one call more than there are
bytes; every other call moves on and none leaves the text; only whitespace is skipped; and if no
call in front of the end returned an error, the skipped bytes and the lexemes are the text. -/
theorem tokenisation_is_lossless (sql : List UInt8) (lexer : Lexer)
    (created : lexerCreate sql = some lexer) :
    (∃ calls, calls + 1 ≤ sql.length + 1 ∧ (tokenOfCall calls lexer).type = tokenEof) ∧
    (∀ calls, (afterCalls calls lexer).pos ≤ sql.length ∧
      ((tokenOfCall calls lexer).type ≠ tokenEof →
        (afterCalls calls lexer).pos < (afterCalls (calls + 1) lexer).pos)) ∧
    (∀ calls, ∀ c ∈ (afterCalls calls lexer).skipped, isWhitespace c = true) ∧
    (∀ calls, (tokenOfCall calls lexer).type = tokenEof →
      (∀ earlier < calls, (tokenOfCall earlier lexer).type ≠ tokenError) →
      retold (calls + 1) lexer = sql) := by
  obtain ⟨ready, start⟩ := lexerCreate_ready created
  refine ⟨?_, fun calls => ⟨(ready.afterCalls _).inside, fun notEof => ?_⟩, fun calls c isSkipped => ?_,
    fun calls eof noError => ?_⟩
  · obtain ⟨calls, enough, eof⟩ := ready.reaches_eof
    rw [Lexer.left, ready.text] at enough
    exact ⟨calls, by omega, eof⟩
  · rw [afterCalls_succ]
    exact (ready.afterCalls _).further notEof
  · rw [Lexer.skipped_eq] at isSkipped
    exact all_eq_true.mp all_takeWhile c isSkipped
  · have bytes := ready.retold _ fun earlier less => by
      rcases Nat.lt_succ_iff_lt_or_eq.mp less with before | rfl
      · exact noError _ before
      · rw [eof]
        decide
    rw [afterCalls_succ, (ready.afterCalls _).rest_eof eof, append_nil, Lexer.rest, start,
      ready.text] at bytes
    exact bytes.symm

theorem tokenisation_of_comparison :
    ∃ lexer, lexerCreate (ascii "a <= 0x1F ") = some lexer ∧ retold 4 lexer = ascii "a <= 0x1F " :=
  ⟨_, rfl, (tokenisation_is_lossless _ _ rfl).2.2.2 3 (by decide +kernel) (by decide +kernel)⟩

end TinyDb

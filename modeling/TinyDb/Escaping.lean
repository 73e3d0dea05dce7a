/-
This file shows that the lexer inverts the escaping of strings. Between quotes, the
escaped text of a string is one token whose value is the string, and behind the
closing quote the lexer finds the tokens of what follows.

What the lexer finds depends on the bytes that are left only. The line and the column
of a token are the exception; they tell where in the whole text it stands.
-/
import TinyDb.Tokenisation

namespace TinyDb

open TokenType List

variable {s : List UInt8} {quote : UInt8}

/-! ### Escaping -/

/-- `strlen`. -/
def strlen (input : List UInt8) : Nat := (input.takeWhile (· ≠ 0)).length

/-- The loop of `security_escape_string`. -/
def escapeLoop : List UInt8 → List UInt8
  | [] => []
  | c :: rest =>
    if c = char '\'' then char '\'' :: char '\'' :: escapeLoop rest else c :: escapeLoop rest

/-- `security_escape_string`, without the terminating NUL of the output. -/
def securityEscapeString (input : Option (List UInt8)) (inputLen : Nat) : Option (List UInt8) :=
  match input with
  | none => none
  | some input =>
    let inputLen := if inputLen = 0 then strlen input else inputLen
    some (escapeLoop (input.take inputLen))

theorem securityEscapeString_eq (noNul : ∀ c ∈ s, c ≠ 0) {inputLen : Nat}
    (whole : inputLen = 0 ∨ inputLen = s.length) :
    securityEscapeString (some (s ++ [0])) inputLen = some (escapeLoop s) := by
  have length : strlen (s ++ [0]) = s.length := by
    rw [strlen, takeWhile_append_of_pos (by simpa using noNul)]
    simp
  have taken : (if inputLen = 0 then strlen (s ++ [0]) else inputLen) = s.length := by
    split
    · exact length
    · next notZero => exact whole.resolve_left notZero
  rw [securityEscapeString]
  simp only [taken, take_left]

/-! ### Tokens of the same bytes -/

/-- A token without its place in the text. -/
def Token.content (token : Token) : Token := { token with line := 0, column := 0 }

namespace Lexer

/-- The same token, and the same bytes behind it. -/
def ScanAlike (scanned other : Token × Lexer) : Prop :=
  scanned.1.content = other.1.content ∧ scanned.2.rest = other.2.rest

variable {lexer other : Lexer}

theorem currentChar_alike (alike : lexer.rest = other.rest) :
    lexer.currentChar = other.currentChar := by
  rw [currentChar_rest, currentChar_rest, alike]

theorem peekChar_alike (alike : lexer.rest = other.rest) : lexer.peekChar = other.peekChar := by
  rw [peekChar_rest, peekChar_rest, alike]

theorem advance_alike (alike : lexer.rest = other.rest) :
    lexer.advance.rest = other.advance.rest := by
  rw [advance_rest, advance_rest, alike]

theorem skip_alike (test : UInt8 → Bool) (alike : lexer.rest = other.rest) :
    (lexer.skip test).rest = (other.skip test).rest := by
  rw [skip_rest, skip_rest, alike]

/-- The bytes between two positions are told by what is behind each of them. -/
theorem textFrom_alike {next otherNext : Lexer} (moves : Moves lexer next)
    (otherMoves : Moves other otherNext) (alike : lexer.rest = other.rest)
    (nextAlike : next.rest = otherNext.rest) :
    next.textFrom lexer.pos = otherNext.textFrom other.pos := by
  have bytes := moves.rest.symm.trans (alike.trans otherMoves.rest)
  rw [nextAlike] at bytes
  exact append_cancel_right bytes

section

variable (alike : lexer.rest = other.rest)
include alike

theorem ended_alike :
    lexer.pos ≥ lexer.sql.length ↔ other.pos ≥ other.sql.length := by
  have ended (lexer : Lexer) : lexer.pos ≥ lexer.sql.length ↔ lexer.rest = [] :=
    drop_eq_nil_iff.symm
  rw [ended, ended, alike]

theorem scanIdentifier_alike :
    ScanAlike lexer.scanIdentifier other.scanIdentifier := by
  have behind := skip_alike isIdentifierChar (advance_alike alike)
  have text := textFrom_alike (lexer.advance_moves.trans (skip_moves _ _))
    (other.advance_moves.trans (skip_moves _ _)) alike behind
  unfold scanIdentifier
  simp only [← currentChar_alike alike, ← text]
  split
  · exact ⟨rfl, behind⟩
  · exact ⟨rfl, alike⟩

theorem scanFraction_alike :
    lexer.scanFraction.1 = other.scanFraction.1 ∧ lexer.scanFraction.2.rest = other.scanFraction.2.rest := by
  unfold scanFraction
  rw [← currentChar_alike alike, ← peekChar_alike alike]
  split
  · exact ⟨rfl, skip_alike _ (advance_alike alike)⟩
  · exact ⟨rfl, alike⟩

theorem scanExponent_alike :
    lexer.scanExponent.1 = other.scanExponent.1 ∧ lexer.scanExponent.2.rest = other.scanExponent.2.rest := by
  have behind := advance_alike alike
  unfold scanExponent
  simp only [← currentChar_alike alike, ← currentChar_alike behind]
  split
  · split
    · exact ⟨rfl, skip_alike _ (advance_alike behind)⟩
    · exact ⟨rfl, skip_alike _ behind⟩
  · exact ⟨rfl, alike⟩

theorem scanNumber_alike :
    ScanAlike lexer.scanNumber other.scanNumber := by
  unfold scanNumber
  simp only [← currentChar_alike alike, ← peekChar_alike alike]
  split
  · have behind := skip_alike isXDigit (advance_alike (advance_alike alike))
    have moves (lexer : Lexer) : Moves lexer (lexer.advance.advance.skip isXDigit) :=
      lexer.advance_moves.trans ((advance_moves _).trans (skip_moves _ _))
    rw [← textFrom_alike (moves lexer) (moves other) alike behind]
    exact ⟨rfl, behind⟩
  · have digits := skip_alike isDigit alike
    obtain ⟨sameDot, fraction⟩ := scanFraction_alike digits
    obtain ⟨sameE, behind⟩ := scanExponent_alike fraction
    have moves (lexer : Lexer) : Moves lexer (lexer.skip isDigit).scanFraction.2.scanExponent.2 :=
      (skip_moves _ _).trans ((scanFraction_moves _).trans (scanExponent_moves _))
    have text := textFrom_alike (moves _) (moves _) alike behind
    simp only [← text, ← sameDot, ← sameE]
    generalize (skip isDigit other).scanFraction.2.scanExponent.2 = otherNext at behind ⊢
    split <;> exact ⟨rfl, behind⟩

end

theorem stringLoop_alike (quote : UInt8) (steps : Nat) (content : List UInt8)
    (alike : lexer.rest = other.rest) :
    (stringLoop quote steps content lexer).1 = (stringLoop quote steps content other).1 ∧
      (stringLoop quote steps content lexer).2.rest = (stringLoop quote steps content other).2.rest := by
  induction steps generalizing content lexer other with
  | zero => exact ⟨rfl, alike⟩
  | succ steps inductionHypothesis =>
    rw [stringLoop, stringLoop, ← currentChar_alike alike, ← peekChar_alike alike]
    split
    · exact ⟨rfl, alike⟩
    split
    · split
      · exact inductionHypothesis _ (advance_alike (advance_alike alike))
      · exact ⟨rfl, advance_alike alike⟩
    · exact inductionHypothesis _ (advance_alike alike)

/-- The token of a string, without its place in the text. -/
def stringContent (content text : List UInt8) : Token where
  type := tokenString
  lexeme := if text.isEmpty then none else some text
  lexemeLen := text.length
  line := 0
  column := 0
  integerValue := 0
  floatValue := 0
  stringValue := content

theorem scanString_alike (alike : lexer.rest = other.rest) :
    ScanAlike lexer.scanString other.scanString := by
  have opened := advance_alike alike
  have moves lexer : Moves lexer
      (stringLoop lexer.currentChar (lexer.advance.left + 1) [] lexer.advance).2 :=
    lexer.advance_moves.trans (stringLoop_moves _ _ _ _)
  have sameLeft : lexer.advance.left = other.advance.left := by rw [left_rest, left_rest, opened]
  have same := stringLoop_alike lexer.currentChar (lexer.advance.left + 1) [] opened
  have movesOther := moves other
  have movesLexer := moves lexer
  unfold scanString
  simp only [← currentChar_alike alike, ← sameLeft] at movesOther ⊢
  generalize stringLoop lexer.currentChar (lexer.advance.left + 1) [] lexer.advance = found at *
  generalize stringLoop lexer.currentChar (lexer.advance.left + 1) [] other.advance = foundOther at *
  obtain ⟨content, next⟩ := found
  obtain ⟨contentOther, nextOther⟩ := foundOther
  obtain ⟨rfl, behind⟩ := same
  cases content with
  | none => exact ⟨rfl, behind⟩
  | some content =>
    have text := textFrom_alike movesLexer movesOther alike behind
    exact ⟨congrArg (stringContent _) text, behind⟩

theorem scanPlaceholder_alike (alike : lexer.rest = other.rest) :
    ScanAlike lexer.scanPlaceholder other.scanPlaceholder := by
  have opened := advance_alike alike
  have behind := skip_alike isDigit opened
  unfold scanPlaceholder
  simp only [← currentChar_alike opened, ← textFrom_alike
    (lexer.advance_moves.trans (skip_moves _ _))
    (other.advance_moves.trans (skip_moves _ _)) alike behind]
  split
  · exact ⟨rfl, behind⟩
  · exact ⟨rfl, opened⟩

theorem operatorToken_alike (type : TokenType) (text : String) (alike : lexer.rest = other.rest) :
    ScanAlike (lexer.operatorToken type text) (other.operatorToken type text) :=
  ⟨rfl, advance_alike alike⟩

theorem scanOperator_alike (alike : lexer.rest = other.rest) :
    ScanAlike lexer.scanOperator other.scanOperator := by
  have second := advance_alike alike
  unfold scanOperator
  simp only [← currentChar_alike alike, ← currentChar_alike second]
  split
  case h_13 =>
    split
    · exact operatorToken_alike _ _ second
    split
    · exact operatorToken_alike _ _ second
    · exact operatorToken_alike _ _ alike
  case h_14 =>
    split
    · exact operatorToken_alike _ _ second
    · exact operatorToken_alike _ _ alike
  case h_15 =>
    split
    · exact operatorToken_alike _ _ second
    · exact ⟨rfl, second⟩
  case h_16 => exact ⟨rfl, second⟩
  all_goals exact operatorToken_alike _ _ alike

/-- The next token depends on the bytes that are left. -/
theorem nextTokenInternal_alike (alike : lexer.rest = other.rest) :
    ScanAlike lexer.nextTokenInternal other.nextTokenInternal := by
  have skipped : lexer.skipWhitespace.rest = other.skipWhitespace.rest := skip_alike _ alike
  unfold nextTokenInternal
  simp only [← currentChar_alike skipped, ← ended_alike skipped]
  split
  · exact ⟨rfl, skipped⟩
  split
  · exact scanIdentifier_alike skipped
  split
  · exact scanNumber_alike skipped
  split
  · exact scanString_alike skipped
  split
  · exact scanPlaceholder_alike skipped
  · exact scanOperator_alike skipped

/-- All tokens depend on the bytes that are left. -/
theorem tokens_alike (alike : lexer.rest = other.rest) :
    lexer.tokens.map Token.content = other.tokens.map Token.content := by
  unfold tokens
  rw [left_rest, left_rest, ← alike]
  generalize lexer.rest.length + 1 = steps
  induction steps generalizing lexer other with
  | zero => rfl
  | succ steps inductionHypothesis =>
    obtain ⟨same, behind⟩ := nextTokenInternal_alike alike
    have sameType : lexer.nextTokenInternal.1.content.type = other.nextTokenInternal.1.content.type :=
      congrArg _ same
    simp only [Token.content] at sameType
    simp only [tokensLoop, ← sameType]
    split
    · rfl
    · rw [map_cons, map_cons, same, inductionHypothesis behind]

end Lexer

/-! ### Strings -/

/-- A string with each quote doubled. -/
def doubled (quote : UInt8) (s : List UInt8) : List UInt8 :=
  s.flatMap fun c => if c = quote then [quote, quote] else [c]

/-- What `scan_string` makes of a string with doubled quotes: a single quote for each of them. -/
def scannedContent (quote : UInt8) (s : List UInt8) : List UInt8 :=
  s.map fun c => if c = quote then char '\'' else c

section Strings

variable {r : List UInt8} {lexer : Lexer} {c : UInt8}

/-- The loop over a string with doubled quotes ends behind its closing quote. -/
theorem Lexer.stringLoop_doubled (quoteNotNul : quote ≠ 0) (noQuote : r.head? ≠ some quote)
    (s : List UInt8) (noNul : ∀ c ∈ s, c ≠ 0) (steps : Nat) (content : List UInt8) (lexer : Lexer)
    (bytes : lexer.rest = doubled quote s ++ quote :: r) (enough : (doubled quote s).length < steps) :
    ∃ next, stringLoop quote steps content lexer = (some (content ++ scannedContent quote s), next) ∧
      next.rest = r := by
  induction s generalizing steps content lexer with
  | nil =>
    obtain ⟨steps, rfl⟩ := Nat.exists_eq_succ_of_ne_zero (Nat.ne_zero_of_lt enough)
    have current : lexer.currentChar = quote := currentChar_cons bytes
    have peek : lexer.peekChar ≠ quote := by
      rw [peekChar_rest, bytes]
      cases r with
      | nil => exact quoteNotNul.symm
      | cons c r => exact fun same => noQuote (congrArg _ same)
    refine ⟨lexer.advance, ?_, advance_cons bytes⟩
    rw [stringLoop, current, if_neg quoteNotNul, if_pos rfl, if_neg peek, scannedContent,
      map_nil, append_nil]
  | cons c s inductionHypothesis =>
    obtain ⟨steps, rfl⟩ := Nat.exists_eq_succ_of_ne_zero (Nat.ne_zero_of_lt enough)
    obtain ⟨notNul, restNoNul⟩ := forall_mem_cons.mp noNul
    rw [doubled, flatMap_cons] at bytes enough
    rw [scannedContent, map_cons]
    by_cases isQuote : c = quote
    · subst isQuote
      rw [if_pos rfl] at bytes enough ⊢
      have current : lexer.currentChar = c := currentChar_cons bytes
      have peek : lexer.peekChar = c := by rw [peekChar_rest, bytes]; rfl
      obtain ⟨next, found, behind⟩ := inductionHypothesis restNoNul steps (content ++ [char '\''])
        _ (advance_cons (advance_cons bytes))
        (by simp only [length_append, length_cons] at enough; rw [doubled]; omega)
      refine ⟨next, ?_, behind⟩
      rw [stringLoop, current, if_neg quoteNotNul, if_pos rfl, if_pos peek, found, append_assoc]
      rfl
    · rw [if_neg isQuote] at bytes enough ⊢
      have current : lexer.currentChar = c := currentChar_cons bytes
      obtain ⟨next, found, behind⟩ := inductionHypothesis restNoNul steps (content ++ [c])
        _ (advance_cons bytes)
        (by simp only [length_append, length_cons] at enough; rw [doubled]; omega)
      refine ⟨next, ?_, behind⟩
      rw [stringLoop, current, if_neg notNul, if_neg isQuote, found, append_assoc]
      rfl

/-- What the lexer scans depends on the first byte behind the white space. -/
theorem Lexer.nextTokenInternal_eq (bytes : lexer.skipWhitespace.rest = c :: r) :
    lexer.nextTokenInternal =
      if isIdentifierStart c then lexer.skipWhitespace.scanIdentifier
      else if isDigit c then lexer.skipWhitespace.scanNumber
      else if c = char '\'' ∨ c = char '"' then lexer.skipWhitespace.scanString
      else if c = char '$' then lexer.skipWhitespace.scanPlaceholder
      else lexer.skipWhitespace.scanOperator := by
  have current : lexer.skipWhitespace.currentChar = c := currentChar_cons bytes
  have inside : ¬lexer.skipWhitespace.pos ≥ lexer.skipWhitespace.sql.length := by
    rw [ge_iff_le, ← drop_eq_nil_iff]
    exact fun ended => cons_ne_nil _ _ (bytes.symm.trans ended)
  rw [nextTokenInternal, if_neg inside, current]

/-- What a quote is not. -/
theorem quote_excludes (isQuote : c = char '\'' ∨ c = char '"') :
    c ≠ 0 ∧ isIdentifierStart c = false ∧ isDigit c = false := by
  obtain rfl | rfl := isQuote <;> decide

theorem Lexer.nextTokenInternal_quote (bytes : lexer.skipWhitespace.rest = c :: r)
    (isQuote : c = char '\'' ∨ c = char '"') :
    lexer.nextTokenInternal = lexer.skipWhitespace.scanString := by
  obtain ⟨-, noWord, noNumber⟩ := quote_excludes isQuote
  rw [nextTokenInternal_eq bytes, if_neg (by simp [noWord]), if_neg (by simp [noNumber]),
    if_pos isQuote]

/-- A string between quotes of either kind is one token. -/
theorem Lexer.nextTokenInternal_string (isQuote : quote = char '\'' ∨ quote = char '"')
    (noQuote : r.head? ≠ some quote) (noNul : ∀ c ∈ s, c ≠ 0)
    (bytes : lexer.skipWhitespace.rest = quote :: (doubled quote s ++ quote :: r)) :
    lexer.nextTokenInternal.1.type = tokenString ∧
      lexer.nextTokenInternal.1.stringValue = scannedContent quote s ∧
      lexer.nextTokenInternal.2.rest = r := by
  rw [nextTokenInternal_quote bytes isQuote]
  generalize lexer.skipWhitespace = start at bytes ⊢
  have current : start.currentChar = quote := currentChar_cons bytes
  have opened : start.advance.rest = doubled quote s ++ quote :: r := advance_cons bytes
  have enough : (doubled quote s).length < start.advance.left + 1 := by
    rw [left_rest, opened, length_append]
    omega
  obtain ⟨next, found, behind⟩ :=
    stringLoop_doubled (quote_excludes isQuote).1 noQuote s noNul _ [] start.advance opened enough
  rw [scanString, current]
  rw [found]
  exact ⟨rfl, rfl, behind⟩

theorem escapeLoop_eq (s : List UInt8) : escapeLoop s = doubled (char '\'') s := by
  induction s with
  | nil => rfl
  | cons c s inductionHypothesis =>
    rw [escapeLoop, inductionHypothesis, doubled, doubled, flatMap_cons]
    split <;> rfl

/-- A string is kept if the quote that is put back is the one that was doubled. -/
theorem scannedContent_eq_self_iff (quote : UInt8) (s : List UInt8) :
    scannedContent quote s = s ↔ quote = char '\'' ∨ quote ∉ s := by
  have bytewise : scannedContent quote s = s ↔
      ∀ c ∈ s, (if c = quote then char '\'' else c) = id c := by
    rw [← map_inj_left, map_id, scannedContent]
  rw [bytewise]
  constructor
  · intro kept
    by_cases isByte : quote ∈ s
    · exact .inl (by simpa [eq_comm] using kept _ isByte)
    · exact .inr isByte
  · intro single c isByte
    split
    · next isQuote =>
      subst isQuote
      exact (single.resolve_right (not_not_intro isByte)).symm
    · rfl

/-- A quoted string is one token. -/
theorem Lexer.nextTokenInternal_quoted (noQuote : r.head? ≠ some (char '\''))
    (noNul : ∀ c ∈ s, c ≠ 0)
    (bytes : lexer.skipWhitespace.rest = char '\'' :: (escapeLoop s ++ char '\'' :: r)) :
    lexer.nextTokenInternal.1.type = tokenString ∧ lexer.nextTokenInternal.1.stringValue = s ∧
      lexer.nextTokenInternal.2.rest = r := by
  rw [escapeLoop_eq] at bytes
  obtain ⟨isString, value, behind⟩ := nextTokenInternal_string (.inl rfl) noQuote noNul bytes
  exact ⟨isString, value.trans ((scannedContent_eq_self_iff _ s).mpr (.inl rfl)), behind⟩

/-- The tokens of a text, whether there is a lexer for it or not. -/
theorem tokensOf_eq (sql : List UInt8) (lexer : Lexer) (start : lexer.rest = sql) :
    (tokensOf sql).map Token.content = lexer.tokens.map Token.content := by
  unfold tokensOf
  cases created : lexerCreate sql with
  | none =>
    have empty : sql = [] := by
      unfold lexerCreate at created
      split at created
      · next empty => exact List.isEmpty_iff.mp empty
      · cases created
    have nothing : lexer.left = 0 := by rw [Lexer.left_rest, start, empty]; rfl
    have eof : lexer.nextTokenInternal.1.type = tokenEof := Decidable.byContradiction fun notEof => by
      have fewer := lexer.nextTokenInternal_left notEof
      omega
    rw [lexer.tokens_eof eof]
  | some first =>
    obtain ⟨ready, atStart⟩ := lexerCreate_ready created
    refine Lexer.tokens_alike ?_
    rw [start, Lexer.rest, atStart, ready.text, drop_zero]

/-- For every string without NUL and every text that does not begin with a quote, the escaped string
between quotes and in front of the text is lexed to one string token with the value of the string, and
then to the tokens of the text. -/
theorem escaped_string_is_one_token (s r : List UInt8) (inputLen : Nat) (noNul : ∀ c ∈ s, c ≠ 0)
    (whole : inputLen = 0 ∨ inputLen = s.length) (noQuote : r.head? ≠ some (char '\'')) :
    ∃ escaped token others, securityEscapeString (some (s ++ [0])) inputLen = some escaped ∧
      tokensOf (char '\'' :: (escaped ++ char '\'' :: r)) = token :: others ∧
      token.type = tokenString ∧ token.stringValue = s ∧
      others.map Token.content = (tokensOf r).map Token.content := by
  obtain ⟨lexer, created⟩ : ∃ lexer,
      lexerCreate (char '\'' :: (escapeLoop s ++ char '\'' :: r)) = some lexer := ⟨_, rfl⟩
  obtain ⟨ready, atStart⟩ := lexerCreate_ready created
  have bytes : lexer.skipWhitespace.rest = char '\'' :: (escapeLoop s ++ char '\'' :: r) := by
    rw [Lexer.skipWhitespace, Lexer.skip_rest, Lexer.rest, atStart, ready.text]
    rfl
  obtain ⟨isString, value, behind⟩ := Lexer.nextTokenInternal_quoted noQuote noNul bytes
  refine ⟨escapeLoop s, lexer.nextTokenInternal.1, lexer.nextTokenInternal.2.tokens,
    securityEscapeString_eq noNul whole, ?_, isString, value, ?_⟩
  · rw [tokensOf, created]
    exact lexer.tokens_cons (by rw [isString]; decide)
  · exact (tokensOf_eq r _ behind).symm

theorem escaped_quote_is_one_token :
    ∃ escaped token others, securityEscapeString (some (ascii "it's'" ++ [0])) 0 = some escaped ∧
      tokensOf (char '\'' :: (escaped ++ char '\'' :: ascii ";")) = token :: others ∧
      token.type = tokenString ∧ token.stringValue = ascii "it's'" ∧
      others.map Token.content = (tokensOf (ascii ";")).map Token.content :=
  escaped_string_is_one_token _ _ 0 (by decide +kernel) (.inl rfl) (by decide)

end Strings

end TinyDb

/-
This file says which literals the lexer reads as they are written. An integer has the value
of its digits if and only if it is below 2^63: `atoll` stops at the largest integer, and the
loop over hexadecimal digits shifts the first of them out. No integer is an error. A string
in double quotes is kept if and only if it has no double quote in it, since `scan_string`
puts a single quote in the place of every doubled quote of either kind.
-/

import TinyDb.TokenStream

namespace TinyDb

open TokenType List

variable {digits : List UInt8}

/-! ### Integers -/

/-- An integer as it is written. -/
inductive IntegerLiteral
  | decimal (digits : List UInt8) (nonempty : digits ≠ [])
      (areDigits : ∀ c ∈ digits, isDigit c = true)
  | hexadecimal (x : UInt8) (isX : x = char 'x' ∨ x = char 'X') (digits : List UInt8)
      (nonempty : digits ≠ []) (areDigits : ∀ c ∈ digits, isXDigit c = true)

/-- The number that digits of a base make, the first digit being the highest. -/
def digitsValue (base : Nat) (digits : List UInt8) : Nat :=
  Nat.ofDigits base (digits.map Lexer.hexDigit).reverse

namespace IntegerLiteral

/-- The text of an integer. -/
def text : IntegerLiteral → List UInt8
  | decimal digits _ _ => digits
  | hexadecimal x _ digits _ _ => char '0' :: x :: digits

/-- The mathematical value of an integer. -/
def value : IntegerLiteral → Nat
  | decimal digits _ _ => digitsValue 10 digits
  | hexadecimal _ _ digits _ _ => digitsValue 16 digits

/-- What stands behind an integer does not continue it. -/
def EndsBefore : IntegerLiteral → List UInt8 → Prop
  | decimal digits _ _, r => EndsDecimal digits r
  | hexadecimal .., r => isXDigit (r.headD 0) = false

end IntegerLiteral

theorem foldl_digitsValue (base : Nat) (digits : List UInt8) :
    digits.foldl (fun value digit => value * base + Lexer.hexDigit digit) 0 =
      digitsValue base digits := by
  rw [digitsValue, Nat.ofDigits_eq_foldr, foldr_reverse, foldl_map]
  simp only [Nat.cast_id, Nat.add_comm, Nat.mul_comm]

theorem decimalValue_eq (areDigits : ∀ c ∈ digits, isDigit c = true) :
    Lexer.decimalValue digits = digitsValue 10 digits := by
  rw [← foldl_digitsValue]
  refine foldl_ext _ _ _ fun value c isByte => ?_
  rw [Lexer.hexDigit, if_pos (areDigits c isByte)]

/-- `atoll` returns the value of the digits, or the largest integer. -/
theorem atoll_toInt (areDigits : ∀ c ∈ digits, isDigit c = true) :
    (Lexer.atoll digits).toInt = min (digitsValue 10 digits : Int) (2 ^ 63 - 1) := by
  rw [Lexer.atoll, takeWhile_eq_self_iff.mpr areDigits, decimalValue_eq areDigits]
  have notNegative : (0 : Int) ≤ digitsValue 10 digits := Int.natCast_nonneg _
  exact Int64.toInt_ofInt_of_le (by omega) (by omega)

/-- The loop over hexadecimal digits keeps the lowest 64 bits. -/
theorem hexValue_toInt (digits : List UInt8) :
    (Lexer.hexValue digits).toInt = (digitsValue 16 digits : Int).bmod (2 ^ 64) := by
  rw [Lexer.hexValue, foldl_digitsValue]
  exact Int64.toInt_ofNat

namespace Lexer

variable {lexer : Lexer} {r : List UInt8}

/-- A hexadecimal number is one token. -/
theorem nextTokenInternal_hexadecimal {x : UInt8} (isX : x = char 'x' ∨ x = char 'X')
    (areDigits : ∀ c ∈ digits, isXDigit c = true) (ends : isXDigit (r.headD 0) = false)
    (bytes : lexer.skipWhitespace.rest = char '0' :: x :: digits ++ r) :
    lexer.nextTokenInternal.1.type = tokenInteger ∧
      lexer.nextTokenInternal.1.integerValue = hexValue digits ∧
      lexer.nextTokenInternal.2.rest = r := by
  rw [nextTokenInternal_eq bytes, if_neg (by decide)]
  generalize lexer.skipWhitespace = start at bytes ⊢
  have isHex : start.currentChar = char '0' ∧
      (start.peekChar = char 'x' ∨ start.peekChar = char 'X') := by
    rw [currentChar_rest, peekChar_rest, bytes]
    exact ⟨rfl, isX⟩
  have behind : (start.advance.advance.skip isXDigit).rest = r := by
    refine skip_over ?_ areDigits ends
    rw [advance_rest, advance_rest, bytes]
    rfl
  have word := (start.advance_moves.trans (start.advance.advance_moves.trans
    (skip_moves _ _))).textFrom_eq bytes behind
  rw [scanNumber, if_pos isHex]
  simp only [word]
  exact ⟨rfl, rfl, behind⟩

end Lexer

namespace IntegerLiteral

/-- The value that is stored. -/
def stored : IntegerLiteral → Int64
  | decimal digits _ _ => Lexer.atoll digits
  | hexadecimal _ _ digits _ _ => Lexer.hexValue digits

theorem stored_eq_iff (literal : IntegerLiteral) :
    literal.stored.toInt = literal.value ↔ literal.value < 2 ^ 63 := by
  cases literal with
  | decimal digits nonempty areDigits =>
    rw [stored, value, atoll_toInt areDigits]
    omega
  | hexadecimal x isX digits =>
    rw [stored, value, hexValue_toInt, Int.bmod_def]
    omega

/-- An integer is one token, of the value that is stored. -/
theorem lexes (literal : IntegerLiteral) {lexer : Lexer} {r : List UInt8}
    (ends : literal.EndsBefore r) (bytes : lexer.skipWhitespace.rest = literal.text ++ r) :
    lexer.nextTokenInternal.1.type = tokenInteger ∧
      lexer.nextTokenInternal.1.integerValue = literal.stored ∧
      lexer.nextTokenInternal.2.rest = r := by
  cases literal with
  | decimal digits nonempty areDigits =>
    exact Lexer.nextTokenInternal_digits nonempty areDigits ends bytes
  | hexadecimal x isX digits nonempty areDigits =>
    exact Lexer.nextTokenInternal_hexadecimal isX areDigits ends bytes

end IntegerLiteral

/-- For every decimal or hexadecimal integer in front of the lexer, whatever stands behind it, the
token is an integer of the value of the digits or an error if and only if the value is below
2^63. -/
theorem integer_literal_iff (literal : IntegerLiteral) (lexer : Lexer) (r : List UInt8)
    (ends : literal.EndsBefore r) (held : lexer.peekToken = none)
    (bytes : lexer.skipWhitespace.rest = literal.text ++ r) :
    ((lexerNextToken lexer).1.type = tokenInteger ∧
        (lexerNextToken lexer).1.integerValue.toInt = literal.value ∨
      (lexerNextToken lexer).1.type = tokenError) ↔ literal.value < 2 ^ 63 := by
  obtain ⟨isInteger, same, -⟩ := literal.lexes ends bytes
  rw [lexerNextToken, held]
  simp only [isInteger, same, literal.stored_eq_iff, true_and, reduceCtorEq, or_false]

theorem integer_literal_hexadecimal :
    ∃ lexer, lexerCreate (ascii "0x2A;") = some lexer ∧
      ((lexerNextToken lexer).1.type = tokenInteger ∧
          (lexerNextToken lexer).1.integerValue.toInt = (42 : Nat) ∨
        (lexerNextToken lexer).1.type = tokenError) :=
  ⟨_, rfl, (integer_literal_iff (.hexadecimal _ (.inl rfl) (ascii "2A") (by decide)
    (by decide +kernel)) _ (ascii ";") rfl rfl (by decide +kernel)).mpr (by decide +kernel)⟩

/-- `9223372036854775808` is read as a number that is smaller by one, and `0xFFFFFFFFFFFFFFFF` as
`-1`. -/
theorem integer_literals_read_wrong :
    ∃ decimal hexadecimal,
      lexerCreate (ascii "9223372036854775808") = some decimal ∧
      lexerCreate (ascii "0xFFFFFFFFFFFFFFFF") = some hexadecimal ∧
      (lexerNextToken decimal).1.type = tokenInteger ∧
      (lexerNextToken decimal).1.integerValue = 9223372036854775807 ∧
      digitsValue 10 (ascii "9223372036854775808") = 9223372036854775808 ∧
      (lexerNextToken hexadecimal).1.type = tokenInteger ∧
      (lexerNextToken hexadecimal).1.integerValue = -1 ∧
      digitsValue 16 (ascii "FFFFFFFFFFFFFFFF") = 18446744073709551615 :=
  ⟨_, _, rfl, rfl, by decide +kernel⟩

/-! ### Strings in double quotes -/

/-- For every string without NUL, between double quotes and with its double quotes doubled, and
whatever stands behind it, the token is a string of that value if and only if there is no double
quote in it. -/
theorem double_quoted_string_iff (s r : List UInt8) (lexer : Lexer) (noNul : ∀ c ∈ s, c ≠ 0)
    (noQuote : r.head? ≠ some (char '"')) (held : lexer.peekToken = none)
    (bytes : lexer.skipWhitespace.rest = char '"' :: (doubled (char '"') s ++ char '"' :: r)) :
    (lexerNextToken lexer).1.type = tokenString ∧ (lexerNextToken lexer).1.stringValue = s ↔
      char '"' ∉ s := by
  obtain ⟨isString, value, -⟩ := Lexer.nextTokenInternal_string (.inr rfl) noQuote noNul bytes
  rw [lexerNextToken, held]
  simp only [isString, value, true_and, scannedContent_eq_self_iff]
  exact or_iff_right (by decide)

theorem double_quoted_string_plain :
    ∃ lexer, lexerCreate (ascii "\"it's\";") = some lexer ∧
      (lexerNextToken lexer).1.type = tokenString ∧
      (lexerNextToken lexer).1.stringValue = ascii "it's" :=
  ⟨_, rfl, (double_quoted_string_iff _ (ascii ";") _ (by decide +kernel)
    (by decide +kernel) rfl (by decide +kernel)).mpr (by decide +kernel)⟩

/-- `"a""b"` is read as `a'b`. -/
theorem doubled_quote_becomes_single :
    ∃ lexer, lexerCreate (ascii "\"a\"\"b\"") = some lexer ∧
      (lexerNextToken lexer).1.type = tokenString ∧
      (lexerNextToken lexer).1.stringValue = ascii "a'b" ∧
      char '"' :: (doubled (char '"') (ascii "a\"b") ++ [char '"']) = ascii "\"a\"\"b\"" :=
  ⟨_, rfl, by decide +kernel⟩

end TinyDb

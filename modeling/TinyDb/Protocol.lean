/-
This file is about the text protocol: the escaping of strings. Escaping may stop where the
output is full, but never inside an escape, so that unescaping gives back a prefix of the
string.
-/

import TinyDb.Lexer
import TinyDb.Lib.Fields

namespace TinyDb

open Bytes CStrings Heaps List

variable {c : UInt8} {s rest : List UInt8}

/-! ### Escaping -/

/-- The bytes written for a byte of the string. -/
def escapeByte (c : UInt8) : List UInt8 :=
  if c = char '\t' then [char '\\', char 't']
  else if c = char '\n' then [char '\\', char 'n']
  else if c = char '\\' then [char '\\', char '\\']
  else if c = 0 then [char '\\', char '0']
  else [c]

/-- The byte written for the byte behind a backslash. -/
def unescapeByte (c : UInt8) : UInt8 :=
  if c = char 't' then char '\t'
  else if c = char 'n' then char '\n'
  else if c = char '\\' then char '\\'
  else if c = char '0' then 0
  else c

/-- `dst[j++] = c` for some bytes, where `j` counts the bytes written so far. -/
def putBytes (dstSize : Nat) (dst bytes : List UInt8) : Except Fault (List UInt8) :=
  if dst.length + bytes.length ≤ dstSize then return dst ++ bytes else .error .outOfBounds

/-- The loop of `protocol_escape_string`. -/
def escapeInto (dstSize : Nat) : List UInt8 → List UInt8 → Except Fault (List UInt8)
  | [], dst => return dst
  | c :: src, dst =>
    if dst.length + 2 < dstSize then do
      let dst ← putBytes dstSize dst (escapeByte c)
      escapeInto dstSize src dst
    else return dst

/-- `protocol_escape_string` of a string without its terminator: the bytes it writes, and its
result. -/
def protocolEscapeString (src : List UInt8) (dstSize : Nat) : Except Fault (List UInt8 × Nat) :=
  if dstSize = 0 then return ([], 0)
  else do
    let dst ← escapeInto dstSize src []
    return (← putBytes dstSize dst [0], dst.length)

/-- The loop of `protocol_unescape_string`; a backslash at the end stands for itself. -/
def unescapeInto (dstSize : Nat) : List UInt8 → List UInt8 → Except Fault (List UInt8)
  | [], dst => return dst
  | [c], dst => if dst.length < dstSize - 1 then putBytes dstSize dst [c] else return dst
  | c :: next :: src, dst =>
    if dst.length < dstSize - 1 then
      if c = char '\\' then do
        let dst ← putBytes dstSize dst [unescapeByte next]
        unescapeInto dstSize src dst
      else do
        let dst ← putBytes dstSize dst [c]
        unescapeInto dstSize (next :: src) dst
    else return dst

/-- `protocol_unescape_string`. -/
def protocolUnescapeString (src : List UInt8) (dstSize : Nat) : Except Fault (List UInt8 × Nat) :=
  if dstSize = 0 then return ([], 0)
  else do
    let dst ← unescapeInto dstSize src []
    return (← putBytes dstSize dst [0], dst.length)

section Escaping

variable {dstSize : Nat} {dst bytes : List UInt8}

theorem putBytes_of_fits (fits : dst.length + bytes.length ≤ dstSize) :
    putBytes dstSize dst bytes = .ok (dst ++ bytes) :=
  if_pos fits

/-- A byte is escaped with a backslash, or it is written as it is. -/
theorem escapeByte_cases (notNul : c ≠ 0) :
    (∃ next, escapeByte c = [char '\\', next] ∧ unescapeByte next = c ∧
      next ∈ ascii "tn\\") ∨
      (escapeByte c = [c] ∧ c ≠ char '\\' ∧ c ≠ char '\t' ∧ c ≠ char '\n') := by
  unfold escapeByte
  split
  next isTab => exact .inl ⟨char 't', rfl, isTab.symm, by decide⟩
  next notTab =>
    split
    next isNewline => exact .inl ⟨char 'n', rfl, isNewline.symm, by decide⟩
    next notNewline =>
      split
      next isBackslash => exact .inl ⟨char '\\', rfl, isBackslash.symm, by decide⟩
      next notBackslash => exact .inr ⟨rfl, notBackslash, notTab, notNewline⟩

theorem escapeByte_length (notNul : c ≠ 0) :
    1 ≤ (escapeByte c).length ∧ (escapeByte c).length ≤ 2 := by
  rcases escapeByte_cases notNul with ⟨next, same, -⟩ | ⟨same, -⟩ <;> rw [same] <;> simp

/-- Nothing that is written ends a string, a column or a line. -/
theorem escapeByte_plain {other : UInt8} (notNul : c ≠ 0) (member : other ∈ escapeByte c) :
    other ≠ 0 ∧ other ≠ char '\t' ∧ other ≠ char '\n' := by
  rcases escapeByte_cases notNul with ⟨next, same, -, letter⟩ | ⟨same, -, notTab, notNewline⟩
  · rw [same, mem_cons, mem_singleton] at member
    have plain : ∀ byte ∈ char '\\' :: ascii "tn\\",
        byte ≠ 0 ∧ byte ≠ char '\t' ∧ byte ≠ char '\n' := by decide +kernel
    exact plain _ (member.elim (· ▸ mem_cons_self) (· ▸ mem_cons_of_mem _ letter))
  · rw [same, mem_singleton] at member
    exact member ▸ ⟨notNul, notTab, notNewline⟩

/-- The loop escapes a prefix of the string, and all of it if there is room for two bytes each. -/
theorem escapeInto_eq (dstSize : Nat) (noNul : ∀ c ∈ s, c ≠ 0) (dst : List UInt8) :
    ∃ front, front <+: s ∧ escapeInto dstSize s dst = .ok (dst ++ front.flatMap escapeByte) ∧
      (dst.length < dstSize → (dst ++ front.flatMap escapeByte).length < dstSize) ∧
      (dst.length + 2 * s.length < dstSize → front = s) := by
  induction s generalizing dst with
  | nil => exact ⟨[], prefix_rfl, by simp [escapeInto], by simp, fun _ => rfl⟩
  | cons c s inductionHypothesis =>
    have two := (escapeByte_length (noNul c mem_cons_self)).2
    by_cases room : dst.length + 2 < dstSize
    · obtain ⟨front, isPrefix, run, short, whole⟩ := inductionHypothesis
        (fun other member => noNul _ (mem_cons_of_mem _ member)) _
      rw [length_append] at short whole
      refine ⟨c :: front, (cons_prefix_cons).mpr ⟨rfl, isPrefix⟩, ?_, fun _ => ?_, fun all => ?_⟩
      · rw [escapeInto, if_pos room, putBytes_of_fits (by omega), ok_bind, run, flatMap_cons,
          append_assoc]
      · rw [flatMap_cons, ← append_assoc]
        exact short (by omega)
      · rw [length_cons] at all
        rw [whole (by omega)]
    · refine ⟨[], nil_prefix, ?_, fun less => ?_, fun all => ?_⟩
      · rw [escapeInto, if_neg room, flatMap_nil, append_nil]
        rfl
      · rwa [flatMap_nil, append_nil]
      · rw [length_cons] at all
        omega

/-- The loop undoes the escaping of a string if there is room for it. -/
theorem unescapeInto_eq (noNul : ∀ c ∈ s, c ≠ 0) (dst : List UInt8)
    (room : dst.length + (s.flatMap escapeByte).length < dstSize) :
    unescapeInto dstSize (s.flatMap escapeByte) dst = .ok (dst ++ s) ∧
      dst.length + s.length < dstSize := by
  induction s generalizing dst with
  | nil => exact ⟨by simp [unescapeInto], room⟩
  | cons c s inductionHypothesis =>
    have rest : ∀ other ∈ s, other ≠ 0 := fun other member =>
      noNul _ (mem_cons_of_mem _ member)
    rw [flatMap_cons] at room ⊢
    have one := (escapeByte_length (noNul c mem_cons_self)).1
    rw [length_append] at room
    have put : putBytes dstSize dst [c] = .ok (dst ++ [c]) :=
      putBytes_of_fits (by rw [length_singleton]; omega)
    obtain ⟨behind, short⟩ := inductionHypothesis rest (dst ++ [c])
      (by rw [length_append, length_singleton]; omega)
    rw [append_assoc, singleton_append] at behind
    rw [length_append, length_singleton, Nat.add_assoc, Nat.add_comm 1] at short
    refine ⟨?_, short⟩
    rcases escapeByte_cases (noNul c mem_cons_self) with
      ⟨next, same, back, -⟩ | ⟨same, notBackslash, -⟩
    · rw [same, cons_append, singleton_append, unescapeInto, if_pos (by omega), if_pos rfl,
        back, put, ok_bind, behind]
    · rw [same, singleton_append]
      cases escaped : s.flatMap escapeByte with
      | nil =>
        rw [escaped] at behind
        rw [unescapeInto, if_pos (by omega), put]
        exact behind
      | cons next src =>
        rw [unescapeInto, if_pos (by omega), if_neg notBackslash, put, ok_bind, ← escaped, behind]

end Escaping

/-- An escaped string ends inside its buffer and has no tab and no line end. Unescaping it gives
back a prefix of the string, and the whole string if the buffer has more than two bytes for each of
its bytes. -/
theorem protocol_escape_round_trip (s : List UInt8) (noNul : ∀ c ∈ s, c ≠ 0) (dstSize : Nat)
    (positive : 1 ≤ dstSize) :
    ∃ out, protocolEscapeString s dstSize = .ok (out ++ [0], out.length) ∧ out.length < dstSize ∧
      (∀ c ∈ out, c ≠ 0 ∧ c ≠ char '\t' ∧ c ≠ char '\n') ∧
      ∀ size, dstSize ≤ size → ∃ back,
        protocolUnescapeString out size = .ok (back ++ [0], back.length) ∧ back <+: s ∧
          (2 * s.length < dstSize → back = s) := by
  obtain ⟨front, isPrefix, run, short, whole⟩ := escapeInto_eq _ noNul []
  have frontNoNul : ∀ c ∈ front, c ≠ 0 := fun c member => noNul c (isPrefix.subset member)
  have short : (front.flatMap escapeByte).length < dstSize := short positive
  refine ⟨front.flatMap _, ?_, short, fun c member => ?_, fun size larger => ?_⟩
  · rw [protocolEscapeString, if_neg (by omega), run, ok_bind, putBytes_of_fits short]
    rfl
  · obtain ⟨source, inFront, written⟩ := mem_flatMap.mp member
    exact escapeByte_plain (frontNoNul _ inFront) written
  · obtain ⟨back, fits⟩ := unescapeInto_eq frontNoNul []
      (by rw [length_nil]; omega : _ < size)
    refine ⟨front, ?_, isPrefix, fun room => whole (by rw [length_nil]; omega)⟩
    rw [protocolUnescapeString, if_neg (by omega), back, ok_bind, nil_append,
      putBytes_of_fits (by rw [length_singleton]; omega)]
    rfl

/-- A string with every kind of escape, in buffers with and without room for all of it. -/
theorem protocol_escape_round_trip_mixed :
    (∃ out, protocolEscapeString (ascii "a\t\\\n") 9 = .ok (out ++ [0], out.length) ∧
      ∃ back, protocolUnescapeString out 9 = .ok (back ++ [0], back.length) ∧
        back = ascii "a\t\\\n") ∧
      protocolEscapeString (ascii "a\t\\\n") 5 = .ok (ascii "a\\t" ++ [0], 3) := by
  obtain ⟨out, run, -, -, unescapes⟩ :=
    protocol_escape_round_trip (ascii "a\t\\\n") (by decide +kernel) 9 (by decide)
  obtain ⟨back, runBack, -, whole⟩ := unescapes 9 (by decide)
  exact ⟨⟨out, run, back, runBack, whole (by decide)⟩, by decide⟩

/-! ### Strings in buffers -/

/-- The string that stands at the start of a buffer. -/
theorem untilNul_of_stands {size : Nat} {buffer : Buffer size} {text : List UInt8}
    (noNul : ∀ byte ∈ text, byte ≠ 0) (stands : Stands buffer 0 (text ++ [0])) :
    untilNul (window (memory buffer) 0 size) = text := by
  obtain ⟨inside, same⟩ := stands
  have split : size = (text ++ [0]).length + (size - (text ++ [0]).length) := by omega
  rw [congrArg (window _ 0) split, window_append, same, append_assoc]
  exact untilNul_append noNul _

end TinyDb

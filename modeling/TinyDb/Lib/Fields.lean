/-
This file is about fields that stand one after the other in a buffer. Storing them
one by one is storing them at once. A string is read byte by byte up to its
terminator, or until the array it is copied to is full; a read past the end of the
buffer is a fault.
-/

import TinyDb.Lib.Buffer
import TinyDb.Lib.CString

namespace Bytes

open Heaps CStrings List

variable {size : Nat} {buffer next : Buffer size} {offset room : Nat}

/-! ### Stores -/

/-- Stores fields one after the other, and returns the offset behind the last one. -/
def storeFields (buffer : Buffer size) (offset : Nat) :
    List (List UInt8) → Except Fault (Buffer size × Nat)
  | [] => return (buffer, offset)
  | field :: fields => do
    let buffer ← storeBytes buffer offset field
    storeFields buffer (offset + field.length) fields

theorem storeFields_eq (buffer : Buffer size) (offset : Nat) (field : List UInt8)
    (fields : List (List UInt8)) :
    storeFields buffer offset (field :: fields) = (do
      let buffer ← storeBytes buffer offset (field :: fields).flatten
      return (buffer, offset + (field :: fields).flatten.length)) := by
  induction fields generalizing buffer offset field with
  | nil =>
    rw [flatten_cons, flatten_nil, append_nil]
    rfl
  | cons second fields inductionHypothesis =>
    rw [storeFields]
    simp only [inductionHypothesis]
    rw [← bind_assoc, storeBytes_append]
    simp only [flatten_cons, length_append, Nat.add_assoc]

/-- Fields can be stored exactly if they fit. -/
theorem storeFields_ok_iff (buffer : Buffer size) (offset : Nat) (field : List UInt8)
    (fields : List (List UInt8)) :
    (∃ result, storeFields buffer offset (field :: fields) = .ok result) ↔
      offset + (field :: fields).flatten.length ≤ size := by
  rw [storeFields_eq]
  constructor
  · rintro ⟨result, run⟩
    obtain ⟨stored, store, -⟩ := bind_eq_ok.mp run
    exact (memory_of_store store).1
  · intro inside
    obtain ⟨stored, store⟩ := storeBytes_of_inside _ inside
    rw [store]
    exact ⟨_, rfl⟩

/-- Fields that were stored stand in the buffer. -/
theorem storeFields_stands {field : List UInt8} {fields : List (List UInt8)} {last : Nat}
    (run : storeFields buffer offset (field :: fields) = .ok (next, last)) :
    Stands next offset (field :: fields).flatten ∧
      last = offset + (field :: fields).flatten.length := by
  rw [storeFields_eq] at run
  obtain ⟨stored, store, same⟩ := bind_eq_ok.mp run
  cases same
  exact ⟨stands_of_store store, rfl⟩

/-! ### Strings -/

/-- The bytes that `strncpy` copies: up to a terminator, and at most `room` of them. -/
def loadChars (buffer : Buffer size) : Nat → Nat → Except Fault (List UInt8)
  | 0, _ => return []
  | room + 1, offset => do
    let byte ← load buffer offset
    if byte = 0 then return [] else
      let rest ← loadChars buffer room (offset + 1)
      return byte :: rest

/-- `strncpy` out of a buffer into a zeroed array. -/
def loadString (room : Nat) (buffer : Buffer size) (offset : Nat) :
    Except Fault (CString room) := do
  let bytes ← loadChars buffer room offset
  return strncpy room bytes

/-- Reading a string that is followed by a terminator. -/
theorem loadChars_of_stands {bytes rest : List UInt8} (noNul : ∀ byte ∈ bytes, byte ≠ 0)
    (short : bytes.length ≤ room) (stands : Stands buffer offset (bytes ++ 0 :: rest)) :
    loadChars buffer room offset = .ok bytes := by
  induction bytes generalizing room offset with
  | nil =>
    cases room with
    | zero => rfl
    | succ room =>
      rw [loadChars, (stands_cons.mp stands).1.load]
      rfl
  | cons byte bytes inductionHypothesis =>
    cases room with
    | zero => cases short
    | succ room =>
      obtain ⟨first, others⟩ := stands_cons.mp stands
      have tail := inductionHypothesis (fun other member => noNul _ (mem_cons_of_mem _ member))
        (Nat.le_of_succ_le_succ short) others
      rw [loadChars, first.load, ok_bind, if_neg (noNul _ mem_cons_self), tail]
      rfl

/-- Reading an array with a string back. -/
theorem loadString_of_stands {string : CString room} (stands : Stands buffer offset string.array) :
    loadString room buffer offset = .ok string := by
  have fits := string.fits
  obtain ⟨zeros, count⟩ : ∃ zeros, room + 1 - string.bytes.length = zeros + 1 :=
    ⟨room - string.bytes.length, by omega⟩
  rw [CString.array, count] at stands
  rw [loadString, loadChars_of_stands string.noNul fits stands, ok_bind, pure_eq_ok,
    CString.strncpy_self]

/-- A string whose array lies in the buffer can be read. -/
theorem loadChars_of_inside (buffer : Buffer size) (inside : offset + room ≤ size) :
    ∃ bytes, loadChars buffer room offset = .ok bytes := by
  induction room generalizing offset with
  | zero => exact ⟨[], rfl⟩
  | succ room inductionHypothesis =>
    obtain ⟨rest, tail⟩ := @inductionHypothesis (offset + 1) (by omega)
    rw [loadChars, load, dif_pos (by omega), ok_bind]
    split
    · exact ⟨[], rfl⟩
    · rw [tail]
      exact ⟨_, rfl⟩

theorem loadString_of_inside (buffer : Buffer size) (inside : offset + room ≤ size) :
    ∃ string, loadString room buffer offset = .ok string := by
  obtain ⟨bytes, run⟩ := loadChars_of_inside _ inside
  rw [loadString, run]
  exact ⟨_, rfl⟩

end Bytes

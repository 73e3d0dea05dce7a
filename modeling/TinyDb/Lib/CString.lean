/-
This file is a theory of character arrays that hold NUL-terminated strings. A
string with its terminator always fits its array here: copying cuts it where the
array ends. Reading a string back out of a buffer that starts with its array
gives the same string, whatever follows.
-/

namespace CStrings

open List

variable {text : List UInt8}

/-- The bytes of a buffer before its first NUL. -/
def untilNul (buffer : List UInt8) : List UInt8 := buffer.takeWhile (· ≠ 0)

/-- A string in an array of one byte more than `room`. -/
structure CString (room : Nat) where
  bytes : List UInt8
  noNul : ∀ byte ∈ bytes, byte ≠ 0
  fits : bytes.length ≤ room
  deriving DecidableEq

theorem untilNul_noNul {buffer : List UInt8} {byte : UInt8} (member : byte ∈ untilNul buffer) :
    byte ≠ 0 := by
  simpa using all_eq_true.mp all_takeWhile _ member

/-- A string is what stands in front of its terminator. -/
theorem untilNul_append (noNul : ∀ byte ∈ text, byte ≠ 0) (rest : List UInt8) :
    untilNul (text ++ 0 :: rest) = text := by
  rw [untilNul, takeWhile_append_of_pos (by simpa using noNul)]
  simp

theorem untilNul_eq_self (noNul : ∀ byte ∈ text, byte ≠ 0) :
    untilNul text = text := by
  have whole : untilNul (text ++ []) = text ++ [] :=
    takeWhile_append_of_pos (by simpa using noNul)
  simpa using whole

/-- `strncpy` of at most `room` bytes into a zeroed array. -/
def strncpy (room : Nat) (source : List UInt8) : CString room where
  bytes := (untilNul source).take room
  noNul _ member := untilNul_noNul (List.mem_of_mem_take member)
  fits := by
    rw [List.length_take]
    exact Nat.min_le_left _ _

@[simp] theorem strncpy_bytes (room : Nat) (source : List UInt8) :
    (strncpy room source).bytes = (untilNul source).take room :=
  rfl

namespace CString

variable {room : Nat}

theorem ext_bytes {first second : CString room} (same : first.bytes = second.bytes) :
    first = second := by
  cases second
  cases same
  rfl

/-- The array with the string, its terminator and zeros. -/
def array (string : CString room) : List UInt8 :=
  string.bytes ++ List.replicate (room + 1 - string.bytes.length) 0

@[simp] theorem array_length (string : CString room) : string.array.length = room + 1 := by
  have fits := string.fits
  rw [array, length_append, length_replicate]
  omega

@[simp] theorem untilNul_bytes (string : CString room) : untilNul string.bytes = string.bytes :=
  untilNul_eq_self string.noNul

/-- The string a buffer starts with, if it starts with an array. -/
theorem untilNul_array_append (string : CString room) (rest : List UInt8) :
    untilNul (string.array ++ rest) = string.bytes := by
  have fits := string.fits
  obtain ⟨zeros, count⟩ : ∃ zeros, room + 1 - string.bytes.length = zeros + 1 :=
    ⟨room - string.bytes.length, by omega⟩
  rw [array, count, append_assoc]
  exact untilNul_append string.noNul _

theorem strncpy_self (string : CString room) : strncpy room string.bytes = string := by
  refine ext_bytes ?_
  rw [strncpy_bytes, untilNul_bytes, take_of_length_le string.fits]

theorem strncpy_array_append (string : CString room) (rest : List UInt8) :
    strncpy room (string.array ++ rest) = string := by
  refine ext_bytes ?_
  rw [strncpy_bytes, untilNul_array_append, take_of_length_le string.fits]

end CString

/-! ### Character arrays -/

/-- A character array, whatever it holds. -/
structure CharArray (size : Nat) where
  bytes : List UInt8
  length : bytes.length = size

namespace CharArray

variable {size room : Nat}

/-- The string in the array. -/
def string (array : CharArray size) : List UInt8 := untilNul array.bytes

/-- There is a terminator in the array. -/
def Terminated (array : CharArray size) : Prop := 0 ∈ array.bytes

instance (array : CharArray size) : Decidable array.Terminated :=
  inferInstanceAs (Decidable (_ ∈ _))

/-- The array that holds a string and is zero behind it. -/
def ofString (string : CString room) : CharArray (room + 1) where
  bytes := string.array
  length := string.array_length

@[simp] theorem string_ofString (string : CString room) :
    (ofString string).string = string.bytes := by
  have whole := string.untilNul_array_append []
  rwa [append_nil] at whole

/-- A string with its terminator fits. -/
theorem Terminated.string_length {array : CharArray size} (terminated : array.Terminated) :
    array.string.length < size := by
  have begins : untilNul array.bytes <+: array.bytes := takeWhile_prefix _
  have shorter := begins.length_le
  rw [array.length] at shorter
  refine Nat.lt_of_le_of_ne shorter fun whole => ?_
  have all := begins.eq_of_length (whole.trans array.length.symm)
  exact untilNul_noNul (all.symm ▸ terminated : 0 ∈ untilNul array.bytes) rfl

/-- Copying a terminated string cuts nothing off. -/
theorem Terminated.strncpy_bytes {array : CharArray (room + 1)} (terminated : array.Terminated) :
    (strncpy room array.bytes).bytes = array.string :=
  take_of_length_le (Nat.le_of_lt_succ terminated.string_length)

end CharArray

end CStrings

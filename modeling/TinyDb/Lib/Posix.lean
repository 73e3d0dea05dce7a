/-
This file models one open regular file as a POSIX program sees it: a byte array
with a length, a file position, and the system calls that move the position,
transfer bytes, change the length or flush.

Every call may fail. What the kernel will answer is a schedule carried by the
descriptor: each call takes the next entry, and an exhausted schedule answers
every further call with full success. A run in which no input or output fails is
therefore a run with the empty schedule, and a statement about every schedule
covers every pattern of short transfers, interruptions and errors.
-/

import Mathlib.Data.List.GetD
import TinyDb.Lib.Bytes

namespace Posix

open Bytes

/-! ### Files -/

/-- The contents of a regular file. Bytes past the end read as zero once the file grows. -/
structure File where
  size : Nat
  byte : Memory
  pastEnd : ∀ index, size ≤ index → byte index = 0

@[ext] theorem File.ext_byte {first second : File} (size : first.size = second.size)
    (byte : first.byte = second.byte) : first = second := by
  cases second
  cases size
  cases byte
  rfl

/-- The empty file. -/
def File.empty : File where
  size := 0
  byte := fun _ => 0
  pastEnd := fun _ _ => rfl

/-- The file after writing the bytes at a position; a gap before them reads as zero. -/
def File.write (file : File) (position : Nat) (bytes : List UInt8) : File where
  size := if bytes = [] then file.size else max file.size (position + bytes.length)
  byte := overlay file.byte position bytes
  pastEnd := by
    intro index past
    split at past
    · rename_i none
      rw [none, overlay_nil]
      exact file.pastEnd index past
    · rw [overlay_outside (by omega)]
      exact file.pastEnd index (by omega)

/-- The file cut or extended with zeros to a length. -/
def File.truncate (file : File) (size : Nat) : File where
  size := size
  byte := fun index => if index < size then file.byte index else 0
  pastEnd := fun _ past => if_neg (by omega)

@[simp] theorem File.write_byte (file : File) (position : Nat) (bytes : List UInt8) :
    (file.write position bytes).byte = overlay file.byte position bytes := rfl

theorem File.write_size (file : File) {position : Nat} {bytes : List UInt8}
    (nonempty : bytes ≠ []) :
    (file.write position bytes).size = max file.size (position + bytes.length) :=
  if_neg nonempty

theorem File.size_le_write (file : File) (position : Nat) (bytes : List UInt8) :
    file.size ≤ (file.write position bytes).size := by
  by_cases empty : bytes = []
  · exact le_of_eq (if_pos empty).symm
  · rw [File.write_size _ empty]
    exact le_max_left _ _

theorem File.write_write (file : File) (position : Nat) (first second : List UInt8) :
    (file.write position first).write (position + first.length) second =
      file.write position (first ++ second) := by
  refine File.ext_byte ?_ ?_
  · by_cases one : first = [] <;> by_cases two : second = [] <;> simp [File.write, one, two]
    omega
  · funext index
    simp only [File.write_byte, overlay, List.length_append]
    by_cases before : index < position
    · rw [if_neg (by omega), if_neg (by omega), if_neg (by omega)]
    · by_cases inFirst : index < position + first.length
      · rw [if_neg (by omega), if_pos (by omega), if_pos (by omega),
          List.getD_append _ _ _ _ (by omega)]
      · by_cases inSecond : index < position + first.length + second.length
        · rw [if_pos (by omega), if_pos (by omega), List.getD_append_right _ _ _ _ (by omega)]
          congr 1
          omega
        · rw [if_neg (by omega), if_neg (by omega), if_neg (by omega)]

@[simp] theorem File.write_nil (file : File) (position : Nat) : file.write position [] = file :=
  File.ext_byte (by simp [File.write]) (overlay_nil _ _)

theorem File.truncate_byte_of_lt (file : File) {size index : Nat} (inside : index < size) :
    (file.truncate size).byte index = file.byte index :=
  if_pos inside

/-! ### Descriptors and the kernel's answers -/

/-- One answer of the kernel: it moves at most `limit + 1` bytes (or simply succeeds, for a
call that moves none), is interrupted, or fails. -/
inductive Answer
  | transfer (limit : Nat)
  | interrupted
  | failed
  deriving DecidableEq

/-- An open file with its position, its access mode and the answers still to come. -/
structure Descriptor where
  file : File
  position : Nat
  writable : Bool
  schedule : List Answer

namespace Descriptor

/-- A system call that moves no bytes. -/
def call (fd : Descriptor) : Bool × Descriptor :=
  match fd.schedule with
  | [] => (true, fd)
  | .transfer _ :: schedule => (true, { fd with schedule })
  | _ :: schedule => (false, { fd with schedule })

/-- `lseek` to an absolute position. -/
def lseek (fd : Descriptor) (offset : Nat) : Bool × Descriptor :=
  match fd.call with
  | (true, fd) => (true, { fd with position := offset })
  | (false, fd) => (false, fd)

/-- `ftruncate`. -/
def ftruncate (fd : Descriptor) (size : Nat) : Bool × Descriptor :=
  match fd.call with
  | (true, fd) =>
    if fd.writable then (true, { fd with file := fd.file.truncate size }) else (false, fd)
  | (false, fd) => (false, fd)

/-- `fsync`. -/
def fsync (fd : Descriptor) : Bool × Descriptor := fd.call

/-- What `read` hands back; no bytes at all means the end of the file. -/
inductive ReadResult
  | bytes (data : List UInt8)
  | interrupted
  | failed

/-- `read` of at most `count` bytes at the position. -/
def read (fd : Descriptor) (count : Nat) : ReadResult × Descriptor :=
  match fd.schedule with
  | [] =>
    let got := min count (fd.file.size - fd.position)
    (.bytes (window fd.file.byte fd.position got), { fd with position := fd.position + got })
  | .transfer limit :: schedule =>
    let got := min (limit + 1) (min count (fd.file.size - fd.position))
    (.bytes (window fd.file.byte fd.position got),
      { fd with position := fd.position + got, schedule })
  | .interrupted :: schedule => (.interrupted, { fd with schedule })
  | .failed :: schedule => (.failed, { fd with schedule })

/-- What `write` answers: how many bytes it took. -/
inductive WriteResult
  | count (taken : Nat)
  | interrupted
  | failed

/-- `write` of the bytes at the position. -/
def write (fd : Descriptor) (bytes : List UInt8) : WriteResult × Descriptor :=
  if fd.writable then
    match fd.schedule with
    | [] =>
      (.count bytes.length, { fd with
        file := fd.file.write fd.position bytes
        position := fd.position + bytes.length })
    | .transfer limit :: schedule =>
      let taken := bytes.take (limit + 1)
      (.count taken.length, { fd with
        file := fd.file.write fd.position taken
        position := fd.position + taken.length
        schedule })
    | .interrupted :: schedule => (.interrupted, { fd with schedule })
    | .failed :: schedule => (.failed, { fd with schedule })
  else (.failed, fd)

end Descriptor

end Posix

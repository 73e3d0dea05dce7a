/-
This file is a small theory of byte-addressed memory. A memory is a function
from offsets to bytes; a read is a window of it and a write overlays a list of
bytes at an offset. Fixed-width integers are stored as little-endian or
big-endian byte lists, and reading back a stored integer returns it modulo the
width.
-/

import Mathlib.Data.List.GetD
import Mathlib.Tactic.Ring

namespace Bytes

open List

variable {width : Nat}

/-- A byte for every offset. -/
abbrev Memory := Nat → UInt8

variable {other : Memory}

/-! ### Windows and overlays -/

/-- The bytes at `offset`, `offset + 1`, and so on, `count` of them. -/
def window (memory : Memory) (offset count : Nat) : List UInt8 :=
  (List.range count).map fun index => memory (offset + index)

/-- The memory after writing the bytes at the offset. -/
def overlay (memory : Memory) (offset : Nat) (bytes : List UInt8) : Memory :=
  fun index => if offset ≤ index ∧ index < offset + bytes.length then
    bytes.getD (index - offset) 0 else memory index

@[simp] theorem window_length (memory : Memory) (offset count : Nat) :
    (window memory offset count).length = count := by
  simp [window]

section Windows

variable {offset count index : Nat} {memory : Memory} {bytes : List UInt8}

theorem window_getD (memory : Memory) (inside : index < count) :
    (window memory offset count).getD index 0 = memory (offset + index) := by
  simp [window, inside]

/-- A window splits at any inner offset. -/
theorem window_append (memory : Memory) (offset first second : Nat) :
    window memory offset (first + second) =
      window memory offset first ++ window memory (offset + first) second := by
  simp only [window, range_add, map_append, List.map_map, Function.comp_def,
    Nat.add_assoc]

theorem window_congr (agree : ∀ index < count, other (offset + index) = memory (offset + index)) :
    window other offset count = window memory offset count := by
  refine map_congr_left fun index member => ?_
  exact agree _ (mem_range.mp member)

/-- A window begins a longer one at the same offset exactly when the memories agree there. -/
theorem window_prefix_iff {longer : Nat} (shorter : count ≤ longer) :
    window memory offset count <+: window other offset longer ↔
      ∀ index < count, other (offset + index) = memory (offset + index) := by
  obtain ⟨rest, rfl⟩ := Nat.exists_eq_add_of_le shorter
  rw [prefix_iff_eq_take, window_length, window_append,
    take_left' (window_length _ _ _)]
  constructor
  · intro same index inside
    rw [← window_getD other inside, ← window_getD memory inside, same]
  · intro agree
    exact (window_congr agree).symm

/-- A shorter window inside a longer one. -/
theorem window_drop_take (memory : Memory) {skip : Nat} (inside : skip + width ≤ count) :
    ((window memory offset count).drop skip).take width = window memory (offset + skip) width := by
  obtain ⟨rest, rfl⟩ : ∃ rest, count = skip + (width + rest) := ⟨count - skip - width, by omega⟩
  rw [window_append, drop_left' (window_length _ _ _), window_append,
    take_left' (window_length _ _ _)]

theorem overlay_outside (outside : index < offset ∨ offset + bytes.length ≤ index) :
    overlay memory offset bytes index = memory index := by
  rw [overlay, if_neg]
  omega

theorem overlay_inside (inside : index < bytes.length) :
    overlay memory offset bytes (offset + index) = bytes.getD index 0 := by
  rw [overlay, if_pos ⟨by omega, by omega⟩, Nat.add_sub_cancel_left]

/-- A window reads back the bytes just written there. -/
@[simp] theorem window_overlay (memory : Memory) (offset : Nat) (bytes : List UInt8) :
    window (overlay memory offset bytes) offset bytes.length = bytes := by
  refine ext_getElem (by simp) fun index inside _ => ?_
  rw [window_length] at inside
  simp [window, overlay_inside _, inside]

/-- A window disjoint from a write is unchanged. -/
theorem window_overlay_disjoint {start : Nat}
    (disjoint : start + count ≤ offset ∨ offset + bytes.length ≤ start) :
    window (overlay memory offset bytes) start count = window memory start count := by
  refine window_congr fun index inside => overlay_outside ?_
  omega

@[simp] theorem overlay_nil (memory : Memory) (offset : Nat) :
    overlay memory offset [] = memory := by
  funext index
  exact overlay_outside (by simp; omega)

/-- Two writes side by side are one. -/
theorem overlay_append (memory : Memory) (offset : Nat) (bytes others : List UInt8) :
    overlay (overlay memory offset bytes) (offset + bytes.length) others =
      overlay memory offset (bytes ++ others) := by
  funext index
  by_cases first : offset ≤ index ∧ index < offset + bytes.length
  · obtain ⟨skip, rfl⟩ := Nat.exists_eq_add_of_le first.1
    have inside : skip < bytes.length := by omega
    rw [overlay_outside (by omega), overlay_inside inside,
      overlay_inside (by rw [length_append]; omega), getD_append _ _ _ _ inside]
  · by_cases second : offset + bytes.length ≤ index ∧ index < offset + bytes.length + others.length
    · obtain ⟨skip, rfl⟩ := Nat.exists_eq_add_of_le second.1
      rw [overlay_inside (by omega), Nat.add_assoc,
        overlay_inside (by rw [length_append]; omega), getD_append_right _ _ _ _ (by omega),
        Nat.add_sub_cancel_left]
    · rw [overlay_outside (by omega), overlay_outside (by omega),
        overlay_outside (by rw [length_append]; omega)]

end Windows

/-! ### Fixed-width integers -/

/-- The `width` low bytes of a number, least significant first. -/
def littleEndian : Nat → Nat → List UInt8
  | 0, _ => []
  | width + 1, value => UInt8.ofNat value :: littleEndian width (value / 256)

/-- The number a little-endian byte list denotes. -/
def littleEndianValue : List UInt8 → Nat
  | [] => 0
  | byte :: rest => byte.toNat + 256 * littleEndianValue rest

/-- The `width` low bytes of a number, most significant first. -/
def bigEndian (width value : Nat) : List UInt8 := (littleEndian width value).reverse

@[simp] theorem littleEndian_length (width value : Nat) :
    (littleEndian width value).length = width := by
  induction width generalizing value with
  | zero => rfl
  | succ width inductionHypothesis => rw [littleEndian, length_cons, inductionHypothesis]

/-- Reading back a stored number gives it modulo the width. -/
theorem littleEndianValue_littleEndian (width value : Nat) :
    littleEndianValue (littleEndian width value) = value % 256 ^ width := by
  induction width generalizing value with
  | zero => simp [littleEndian, littleEndianValue, Nat.mod_one]
  | succ width inductionHypothesis =>
    have split : value % 256 ^ (width + 1) = value % 256 + 256 * (value / 256 % 256 ^ width) := by
      rw [pow_succ', Nat.mod_mul]
    rw [littleEndian, littleEndianValue, inductionHypothesis, UInt8.toNat_ofNat', split]

theorem littleEndianValue_littleEndian_of_lt {value : Nat} (small : value < 256 ^ width) :
    littleEndianValue (littleEndian width value) = value := by
  rw [littleEndianValue_littleEndian, Nat.mod_eq_of_lt small]

theorem littleEndianValue_lt (bytes : List UInt8) :
    littleEndianValue bytes < 256 ^ bytes.length := by
  induction bytes with
  | nil => simp [littleEndianValue]
  | cons byte rest inductionHypothesis =>
    have small := byte.toNat_lt
    rw [littleEndianValue, length_cons]
    omega

/-- The little-endian form of the number a byte list denotes is that byte list. -/
theorem littleEndian_littleEndianValue (bytes : List UInt8) :
    littleEndian bytes.length (littleEndianValue bytes) = bytes := by
  induction bytes with
  | nil => rfl
  | cons byte rest inductionHypothesis =>
    have small := byte.toNat_lt
    have low : UInt8.ofNat (byte.toNat + 256 * littleEndianValue rest) = byte := by
      refine UInt8.toNat_inj.mp ?_
      rw [UInt8.toNat_ofNat']
      omega
    have high : (byte.toNat + 256 * littleEndianValue rest) / 256 = littleEndianValue rest := by
      omega
    rw [littleEndianValue, length_cons, littleEndian, low, high, inductionHypothesis]

theorem littleEndianValue_injective {first second : List UInt8}
    (length : first.length = second.length)
    (same : littleEndianValue first = littleEndianValue second) : first = second := by
  rw [← littleEndian_littleEndianValue first, ← littleEndian_littleEndianValue second, length, same]

end Bytes

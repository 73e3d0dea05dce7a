/-
This file is a theory of byte buffers of a fixed size. A load or a store past the
end of a buffer is a fault. What a buffer contains is described by the byte lists
that stand in it at given offsets: a store puts its own bytes there and leaves
every list in place that does not overlap them.

Words are assembled from bytes by shifts. Read back from the bytes of a number in
either byte order they are that number.
-/

import TinyDb.Lib.Bytes
import TinyDb.Lib.Heap

namespace Bytes

open Heaps List

/-- Bytes at the offsets below the size. -/
abbrev Buffer (size : Nat) := Fin size → UInt8

variable {size : Nat} {buffer next : Buffer size} {offset count start : Nat}
  {bytes others : List UInt8} {byte : UInt8}

/-! ### Loads and stores -/

/-- The buffer as memory. -/
def memory (buffer : Buffer size) : Memory :=
  fun offset => if inside : offset < size then buffer ⟨offset, inside⟩ else 0

/-- `buffer[offset]`. -/
def load (buffer : Buffer size) (offset : Nat) : Except Fault UInt8 :=
  if inside : offset < size then .ok (buffer ⟨offset, inside⟩) else .error .outOfBounds

/-- `memcpy` out of the buffer. -/
def loadBytes (buffer : Buffer size) (offset count : Nat) : Except Fault (List UInt8) :=
  if offset + count ≤ size then .ok (window (memory buffer) offset count) else .error .outOfBounds

/-- `memcpy` into the buffer, or assignments to consecutive bytes of it. -/
def storeBytes (buffer : Buffer size) (offset : Nat) (bytes : List UInt8) :
    Except Fault (Buffer size) :=
  if offset + bytes.length ≤ size then
    .ok fun index => overlay (memory buffer) offset bytes index
  else .error .outOfBounds

/-- The bytes stand in the buffer at the offset. -/
structure Stands (buffer : Buffer size) (offset : Nat) (bytes : List UInt8) : Prop where
  inside : offset + bytes.length ≤ size
  same : window (memory buffer) offset bytes.length = bytes

theorem loadBytes_eq_ok :
    loadBytes buffer offset count = .ok bytes ↔ bytes.length = count ∧ Stands buffer offset bytes := by
  unfold loadBytes
  constructor
  · intro run
    split at run
    · obtain rfl := Except.ok.inj run
      exact ⟨window_length .., by rwa [window_length], by rw [window_length]⟩
    · cases run
  · rintro ⟨rfl, inside, same⟩
    rw [if_pos inside, same]

theorem Stands.loadBytes (stands : Stands buffer offset bytes) :
    loadBytes buffer offset bytes.length = .ok bytes :=
  loadBytes_eq_ok.mpr ⟨rfl, stands⟩

theorem stands_append :
    Stands buffer offset (bytes ++ others) ↔
      Stands buffer offset bytes ∧ Stands buffer (offset + bytes.length) others := by
  constructor
  · rintro ⟨inside, same⟩
    rw [length_append] at inside same
    rw [window_append] at same
    obtain ⟨first, second⟩ := append_inj same (window_length ..)
    exact ⟨⟨by omega, first⟩, by omega, second⟩
  · rintro ⟨⟨-, first⟩, inside, second⟩
    refine ⟨by rw [length_append]; omega, ?_⟩
    rw [length_append, window_append, first, second]

theorem Stands.load (stands : Stands buffer offset [byte]) : load buffer offset = .ok byte := by
  obtain ⟨inside, same⟩ := stands
  have less : offset < size := inside
  have value : memory buffer offset = byte := by simpa [window] using same
  rw [memory, dif_pos less] at value
  rw [Bytes.load, dif_pos less, value]

theorem stands_cons :
    Stands buffer offset (byte :: bytes) ↔
      Stands buffer offset [byte] ∧ Stands buffer (offset + 1) bytes :=
  (stands_append : Stands buffer offset ([byte] ++ bytes) ↔ _)

theorem storeBytes_of_inside (buffer : Buffer size) (inside : offset + bytes.length ≤ size) :
    ∃ next, storeBytes buffer offset bytes = .ok next :=
  ⟨_, if_pos inside⟩

theorem storeBytes_of_outside (buffer : Buffer size) (outside : size < offset + bytes.length) :
    storeBytes buffer offset bytes = .error .outOfBounds :=
  if_neg (Nat.not_le.mpr outside)

theorem storeBytes_error {fault : Fault} (run : storeBytes buffer offset bytes = .error fault) :
    fault = .outOfBounds := by
  unfold storeBytes at run
  split at run
  · cases run
  · exact (Except.error.inj run).symm

theorem memory_of_store (run : storeBytes buffer offset bytes = .ok next) :
    offset + bytes.length ≤ size ∧ memory next = overlay (memory buffer) offset bytes := by
  unfold storeBytes at run
  split at run
  · rename_i inside
    cases run
    refine ⟨inside, funext fun index => ?_⟩
    by_cases less : index < size
    · rw [memory, dif_pos less]
    · rw [memory, dif_neg less, overlay_outside (by omega), memory, dif_neg less]
  · cases run

/-- Two stores side by side are one. -/
theorem storeBytes_append (buffer : Buffer size) (offset : Nat) (bytes others : List UInt8) :
    (do
      let buffer ← storeBytes buffer offset bytes
      storeBytes buffer (offset + bytes.length) others) =
      storeBytes buffer offset (bytes ++ others) := by
  by_cases first : offset + bytes.length ≤ size
  · obtain ⟨middle, run⟩ := storeBytes_of_inside _ first
    obtain ⟨-, same⟩ := memory_of_store run
    rw [run, ok_bind, storeBytes, storeBytes, same, overlay_append, length_append,
      Nat.add_assoc]
  · rw [storeBytes, if_neg first, storeBytes, if_neg (by rw [length_append]; omega)]
    rfl

theorem storeBytes_bind {Result : Type} (buffer : Buffer size) (offset : Nat)
    (bytes others : List UInt8) (rest : Buffer size → Except Fault Result) :
    (do
      let buffer ← storeBytes buffer offset bytes
      let buffer ← storeBytes buffer (offset + bytes.length) others
      rest buffer) = storeBytes buffer offset (bytes ++ others) >>= rest := by
  rw [← storeBytes_append, bind_assoc]

/-- A store puts its bytes in place. -/
theorem stands_of_store (run : storeBytes buffer offset bytes = .ok next) :
    Stands next offset bytes := by
  obtain ⟨inside, same⟩ := memory_of_store run
  exact ⟨inside, by rw [same, window_overlay]⟩

/-- A store leaves everything in place that it does not overlap. -/
theorem Stands.of_store (stands : Stands buffer start others)
    (run : storeBytes buffer offset bytes = .ok next)
    (disjoint : start + others.length ≤ offset ∨ offset + bytes.length ≤ start) :
    Stands next start others := by
  obtain ⟨-, same⟩ := memory_of_store run
  refine ⟨stands.inside, ?_⟩
  rw [same, window_overlay_disjoint disjoint, stands.same]

/-! ### Words -/

theorem or_eq_add {low : Nat} (high width : Nat) (small : low < 2 ^ width) :
    high * 2 ^ width ||| low = high * 2 ^ width + low := by
  rw [← Nat.shiftLeft_eq, Nat.shiftLeft_add_eq_or_of_lt small]

theorem join_bytes {second third fourth : Nat} (first : Nat) (secondSmall : second < 256)
    (thirdSmall : third < 256) (fourthSmall : fourth < 256) :
    first * 2 ^ 24 ||| second * 2 ^ 16 ||| third * 2 ^ 8 ||| fourth =
      ((first * 256 + second) * 256 + third) * 2 ^ 8 + fourth := by
  have twoShifted : first * 2 ^ 24 + second * 2 ^ 16 = (first * 256 + second) * 2 ^ 16 := by ring
  have threeShifted : (first * 256 + second) * 2 ^ 16 + third * 2 ^ 8 =
      ((first * 256 + second) * 256 + third) * 2 ^ 8 := by ring
  have two := or_eq_add first 24 (by omega : second * 2 ^ 16 < 2 ^ 24)
  have three := or_eq_add (first * 256 + second) 16 (by omega : third * 2 ^ 8 < 2 ^ 16)
  have four := or_eq_add ((first * 256 + second) * 256 + third) 8 (by omega)
  rw [two, twoShifted, three, threeShifted, four]

theorem and_byte (value : Nat) : value &&& 255 = value % 2 ^ 8 :=
  Nat.and_two_pow_sub_one_eq_mod _ 8

/-- The two bytes of a 16-bit number, most significant first. -/
def bytes16 (value : UInt16) : List UInt8 := bigEndian 2 value.toNat

/-- The four bytes of a 32-bit number, most significant first. -/
def bytes32 (value : UInt32) : List UInt8 := bigEndian 4 value.toNat

/-- The eight bytes of a 64-bit number, as a little-endian machine stores it. -/
def native64 (value : UInt64) : List UInt8 := littleEndian 8 value.toNat

@[simp] theorem bytes16_length (value : UInt16) : (bytes16 value).length = 2 := rfl

@[simp] theorem bytes32_length (value : UInt32) : (bytes32 value).length = 4 := rfl

@[simp] theorem native64_length (value : UInt64) : (native64 value).length = 8 := rfl

theorem bytes16_eq (value : UInt16) :
    [(value >>> 8).toUInt8, (value &&& 0xFF).toUInt8] = bytes16 value := by
  have high : (value >>> 8).toUInt8 = UInt8.ofNat (value.toNat / 256) := by
    refine UInt8.toNat_inj.mp ?_
    rw [UInt16.toNat_toUInt8, UInt16.toNat_shiftRight, Nat.shiftRight_eq_div_pow]
    rfl
  have low : (value &&& 0xFF).toUInt8 = UInt8.ofNat value.toNat := by
    refine UInt8.toNat_inj.mp ?_
    exact (congrArg (· % 2 ^ 8) (and_byte _)).trans (Nat.mod_mod ..)
  rw [high, low]
  rfl

theorem bytes32_eq (value : UInt32) :
    [(value >>> 24).toUInt8, (value >>> 16).toUInt8, (value >>> 8).toUInt8,
      (value &&& 0xFF).toUInt8] = bytes32 value := by
  have shift : ∀ amount : UInt32, (value >>> amount).toUInt8 =
      UInt8.ofNat (value.toNat / 2 ^ (amount.toNat % 32)) := by
    intro amount
    refine UInt8.toNat_inj.mp ?_
    rw [UInt32.toNat_toUInt8, UInt32.toNat_shiftRight, UInt8.toNat_ofNat', Nat.shiftRight_eq_div_pow]
  have low : (value &&& 0xFF).toUInt8 = UInt8.ofNat value.toNat := by
    refine UInt8.toNat_inj.mp ?_
    exact (congrArg (· % 2 ^ 8) (and_byte _)).trans (Nat.mod_mod ..)
  have second : value.toNat / 256 / 256 = value.toNat / 2 ^ 16 := Nat.div_div_eq_div_mul ..
  have third : value.toNat / 256 / 256 / 256 = value.toNat / 2 ^ 24 := by
    rw [second, Nat.div_div_eq_div_mul, ← Nat.pow_add 2 16 8]
  change _ = [UInt8.ofNat (value.toNat / 256 / 256 / 256), UInt8.ofNat (value.toNat / 256 / 256),
    UInt8.ofNat _, UInt8.ofNat _]
  rw [third, second, shift, shift, shift, low]
  rfl

/-- The word two bytes denote, most significant first. -/
theorem join16 (value : UInt16) :
    (UInt8.ofNat (value.toNat / 256)).toUInt16 <<< 8 ||| (UInt8.ofNat value.toNat).toUInt16 =
      value := by
  have small := value.toNat_lt
  have high : ((UInt8.ofNat (value.toNat / 256)).toUInt16 <<< 8).toNat =
      value.toNat / 256 * 2 ^ 8 := by
    rw [UInt16.toNat_shiftLeft, UInt8.toNat_toUInt16, Nat.shiftLeft_eq]
    change value.toNat / 256 % 2 ^ 8 * 2 ^ 8 % 2 ^ 16 = _
    omega
  have low : (UInt8.ofNat value.toNat).toUInt16.toNat = value.toNat % 2 ^ 8 := by
    rw [UInt8.toNat_toUInt16, UInt8.toNat_ofNat']
  refine UInt16.toNat_inj.mp ?_
  rw [UInt16.toNat_or, high, low, or_eq_add _ 8 (Nat.mod_lt _ (by decide))]
  omega

/-- The word four bytes denote, most significant first. -/
theorem join32 (value : UInt32) :
    (UInt8.ofNat (value.toNat / 256 / 256 / 256)).toUInt32 <<< 24 |||
      (UInt8.ofNat (value.toNat / 256 / 256)).toUInt32 <<< 16 |||
      (UInt8.ofNat (value.toNat / 256)).toUInt32 <<< 8 |||
      (UInt8.ofNat value.toNat).toUInt32 = value := by
  have small := value.toNat_lt
  have part : ∀ (number : Nat) (amount : UInt32), amount.toNat ≤ 24 →
      ((UInt8.ofNat number).toUInt32 <<< amount).toNat = number % 256 * 2 ^ amount.toNat := by
    intro number amount bounded
    have fits : number % 256 * 2 ^ amount.toNat < 2 ^ 32 :=
      calc number % 256 * 2 ^ amount.toNat < 256 * 2 ^ amount.toNat :=
            Nat.mul_lt_mul_of_pos_right (Nat.mod_lt _ (by decide)) (Nat.two_pow_pos _)
        _ ≤ 256 * 2 ^ 24 := Nat.mul_le_mul_left _ (Nat.pow_le_pow_right (by decide) bounded)
    rw [UInt32.toNat_shiftLeft, UInt8.toNat_toUInt32, UInt8.toNat_ofNat', Nat.shiftLeft_eq,
      Nat.mod_eq_of_lt (by omega : amount.toNat < 32), Nat.mod_eq_of_lt fits]
  have low : (UInt8.ofNat value.toNat).toUInt32.toNat = value.toNat % 256 := by
    rw [UInt8.toNat_toUInt32, UInt8.toNat_ofNat']
  have first := part (value.toNat / 256 / 256 / 256) 24 (by decide)
  have second := part (value.toNat / 256 / 256) 16 (by decide)
  have third := part (value.toNat / 256) 8 (by decide)
  refine UInt32.toNat_inj.mp ?_
  rw [UInt32.toNat_or, UInt32.toNat_or, UInt32.toNat_or, first, second, third, low]
  simp only [UInt32.reduceToNat]
  rw [join_bytes _ (Nat.mod_lt _ (by decide)) (Nat.mod_lt _ (by decide)) (Nat.mod_lt _ (by decide))]
  omega

end Bytes

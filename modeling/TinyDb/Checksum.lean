/-
This file is about what `wal_checksum` can tell apart.

One turn of the loop multiplies by 33 and adds a byte. As 33 is odd, a turn loses
nothing: from the new sum and the byte the old sum can be told, and from the new
sum and the old one the byte. Two strings that differ at one position therefore
have different sums from that position on.

A page frame is not a function of the page. Its buffer is on the stack, 24 of its
32 header bytes are not set before the checksum is taken over them, and 16 of
those are written to the log as they are.
-/

import TinyDb.Lib.Run
import TinyDb.Wal

namespace TinyDb

open Bytes Posix List

variable {first second : List UInt8}

/-! ### One byte changed -/

/-- Two strings of one length that differ at exactly one position. -/
def OneByteApart (first second : List UInt8) : Prop :=
  first.length = second.length ∧ ∃! index : Nat, first[index]? ≠ second[index]?

theorem OneByteApart.split (apart : OneByteApart first second) :
    ∃ front one other back, first = front ++ one :: back ∧ second = front ++ other :: back ∧
      one ≠ other := by
  obtain ⟨length, index, differ, only⟩ := apart
  have agree : ∀ place, place ≠ index → first[place]? = second[place]? := by
    intro place elsewhere
    by_contra differs
    exact elsewhere (only place differs)
  have inside : index < first.length := by
    by_contra _
    rw [getElem?_eq_none (by omega), getElem?_eq_none (by omega)] at differ
    exact differ rfl
  have front : first.take index = second.take index := by
    refine ext_getElem? fun place => ?_
    by_cases before : place < index
    · rw [getElem?_take_of_lt before, getElem?_take_of_lt before]
      exact agree _ (by omega)
    · rw [getElem?_take_eq_none (by omega), getElem?_take_eq_none (by omega)]
  have back : first.drop (index + 1) = second.drop (index + 1) := by
    refine ext_getElem? fun place => ?_
    rw [getElem?_drop, getElem?_drop]
    exact agree _ (by omega)
  refine ⟨first.take index, first[index], second[index], first.drop (index + 1), ?_, ?_, ?_⟩
  · rw [← drop_eq_getElem_cons, take_append_drop]
  · rw [front, back, ← drop_eq_getElem_cons, take_append_drop]
  · intro same
    rw [getElem?_eq_getElem inside, getElem?_eq_getElem (by omega), same] at differ
    exact differ rfl

theorem oneByteApart_of_ne (front back : List UInt8) {one other : UInt8} (differ : one ≠ other) :
    OneByteApart (front ++ one :: back) (front ++ other :: back) := by
  refine ⟨by simp, front.length, ?_, fun index differs => ?_⟩
  · simpa using differ
  · by_contra elsewhere
    refine differs ?_
    rcases Nat.lt_or_gt_of_ne elsewhere with before | behind
    · rw [getElem?_append_left before, getElem?_append_left before]
    · obtain ⟨skip, rfl⟩ := Nat.exists_eq_add_of_lt behind
      simp [getElem?_append_right, Nat.add_assoc]

/-! ### What a turn of the loop keeps apart -/

theorem walChecksumStep_injective (byte : UInt8) :
    Function.Injective fun sum => walChecksumStep sum byte := by
  intro first second same
  have product : first.toNat * 33 + byte.toNat ≡ second.toNat * 33 + byte.toNat [MOD 2 ^ 32] := by
    have through := (walChecksumStep_modEq first byte).symm
    rw [show walChecksumStep first byte = walChecksumStep second byte from same] at through
    exact through.trans (walChecksumStep_modEq _ _)
  have cancelled : first.toNat ≡ second.toNat [MOD 2 ^ 32] :=
    (product.add_right_cancel' _).cancel_right_of_coprime (by decide)
  exact UInt32.toNat_inj.mp (cancelled.eq_of_lt_of_lt first.toNat_lt second.toNat_lt)

theorem walChecksumStep_byte_injective (sum : UInt32) :
    Function.Injective (walChecksumStep sum) := by
  intro one other same
  have added : sum.toNat * 33 + one.toNat ≡ sum.toNat * 33 + other.toNat [MOD 2 ^ 32] := by
    have through := (walChecksumStep_modEq sum one).symm
    rw [same] at through
    exact through.trans (walChecksumStep_modEq sum _)
  have small : ∀ byte : UInt8, byte.toNat < 2 ^ 32 := fun byte =>
    byte.toNat_lt.trans (by decide)
  exact UInt8.toNat_inj.mp ((added.add_left_cancel' _).eq_of_lt_of_lt (small one) (small _))

/-- Different sums stay different over the rest of the string. -/
theorem foldl_walChecksumStep_injective (data : List UInt8) :
    Function.Injective fun sum => data.foldl walChecksumStep sum := by
  induction data with
  | nil => exact fun first second same => same
  | cons byte rest inductionHypothesis =>
    intro first second same
    exact walChecksumStep_injective _ (inductionHypothesis same)

theorem OneByteApart.walChecksum_ne (apart : OneByteApart first second) :
    walChecksum first ≠ walChecksum second := by
  obtain ⟨front, one, other, back, rfl, rfl, differ⟩ := apart.split
  intro same
  rw [walChecksum, walChecksum, foldl_append, foldl_append] at same
  exact differ (walChecksumStep_byte_injective _ (foldl_walChecksumStep_injective _ same))

/-! ### The checksum of an entry -/

/-- The header of an entry while its checksum is still zero. -/
def bareHeader (type : WalEntryType) (txId : UInt64) (size : UInt32) : WalEntryHeader where
  type := type.code
  flags := 0
  size := size.toUInt16
  checksum := 0
  txId := txId

/-- The payload bytes that an entry has. -/
def entryPayload {size : UInt32} (payload : Option (Payload size)) : List UInt8 :=
  ((presentPayload payload).map Payload.bytes).getD []

/-- What `wal_append` computes from the bytes of the header and the payload. -/
def entryChecksum (header payload : List UInt8) : UInt32 :=
  walChecksum header ^^^ walChecksum payload

theorem walEntryHeader_checksum (type : WalEntryType) (txId : UInt64) {size : UInt32}
    (payload : Option (Payload size)) :
    (walEntryHeader type txId payload).checksum =
      entryChecksum (bareHeader type txId size).encode (entryPayload payload) := by
  unfold walEntryHeader entryPayload
  cases presentPayload payload with
  | none => exact (UInt32.xor_zero).symm
  | some payload => rfl

/-- Every change of a single byte changes the checksum of a string, and every change of a single
byte of the header or of the payload changes the checksum of an entry. -/
theorem checksum_detects_one_byte :
    (∀ first second, OneByteApart first second → walChecksum first ≠ walChecksum second) ∧
      ∀ (type : WalEntryType) (txId : UInt64) (size : UInt32) (payload : Option (Payload size)),
        (walEntryHeader type txId payload).checksum =
            entryChecksum (bareHeader type txId size).encode (entryPayload payload) ∧
          (∀ changed, OneByteApart (bareHeader type txId size).encode changed →
            entryChecksum changed (entryPayload payload) ≠
              (walEntryHeader type txId payload).checksum) ∧
          ∀ changed, OneByteApart (entryPayload payload) changed →
            entryChecksum (bareHeader type txId size).encode changed ≠
              (walEntryHeader type txId payload).checksum := by
  refine ⟨fun first second apart => apart.walChecksum_ne, fun type txId size payload => ?_⟩
  rw [walEntryHeader_checksum]
  refine ⟨rfl, fun changed apart same => ?_, fun changed apart same => ?_⟩
  · exact apart.walChecksum_ne ((UInt32.xor_left_inj _).mp same).symm
  · exact apart.walChecksum_ne ((UInt32.xor_right_inj _).mp same).symm

/-- A begin record does not have the checksum of the commit record of the same transaction, whose
header differs from its own in the first byte. -/
theorem checksum_detects_other_type :
    walChecksum [1, 2, 3] ≠ walChecksum [1, 7, 3] ∧
      entryChecksum (bareHeader .commit 1 0).encode [] ≠
        (walEntryHeader .begin 1 (none : Option (Payload 0))).checksum := by
  refine ⟨checksum_detects_one_byte.1 _ _ (oneByteApart_of_ne [1] [3] (by decide)), ?_⟩
  refine (checksum_detects_one_byte.2 _ 1 0 _).2.1 _ ?_
  exact oneByteApart_of_ne [] (bareHeader _ 1 0).encode.tail (by decide)

/-! ### Page frames -/

theorem wordBytes_injective : Function.Injective wordBytes := by
  intro first second same
  rw [← ofNat_littleEndianValue_wordBytes first, same, ofNat_littleEndianValue_wordBytes]

/-- Of strings of one length, what stands before and after them does not matter. -/
theorem walChecksum_between_iff (front back : List UInt8) (length : first.length = second.length) :
    walChecksum (front ++ first ++ back) = walChecksum (front ++ second ++ back) ↔
      walChecksum first = walChecksum second := by
  have from_any : ∀ data : List UInt8, (data.foldl walChecksumStep (walChecksum front)).toNat ≡
      (walChecksum front).toNat * 33 ^ data.length + (walChecksum data).toNat [MOD 2 ^ 32] :=
    fun data => (foldl_walChecksumStep_modEq _ _).trans
      ((walChecksum_modEq _).symm.add_left _)
  have through : walChecksum (front ++ first ++ back) = walChecksum (front ++ second ++ back) ↔
      first.foldl walChecksumStep (walChecksum front) =
        second.foldl walChecksumStep (walChecksum front) := by
    rw [walChecksum, walChecksum, foldl_append, foldl_append, foldl_append,
      foldl_append]
    exact (foldl_walChecksumStep_injective _).eq_iff
  rw [through]
  constructor
  · intro same
    have added := (from_any first).symm
    rw [same, length] at added
    have cancelled := (added.trans (from_any _)).add_left_cancel' _
    exact UInt32.toNat_inj.mp (cancelled.eq_of_lt_of_lt (UInt32.toNat_lt _) (UInt32.toNat_lt _))
  · intro same
    have added := from_any first
    rw [same, length] at added
    exact UInt32.toNat_inj.mp ((added.trans (from_any _).symm).eq_of_lt_of_lt
      (UInt32.toNat_lt _) (UInt32.toNat_lt _))

/-- What the stack holds leads to the same frame: it is the same where it is written to the log, and
has the same checksum where the two checksum words go over it. -/
def SameFrame (first second : FrameStack) : Prop :=
  (List.ofFn first).drop 8 = (List.ofFn second).drop 8 ∧
    walChecksum ((List.ofFn first).take 8) = walChecksum ((List.ofFn second).take 8)

instance (first second : FrameStack) : Decidable (SameFrame first second) :=
  inferInstanceAs (Decidable (_ ∧ _))

/-- The eight bytes that the checksum words go over, and the sixteen that are written. -/
theorem FrameStack.split (stack : FrameStack) :
    ∃ covered kept, List.ofFn stack = covered ++ kept ∧ covered.length = 8 :=
  ⟨(List.ofFn _).take 8, (List.ofFn _).drop 8, (take_append_drop 8 _).symm,
    length_take_of_le (by rw [length_ofFn]; decide)⟩

theorem walFrame_eq_iff (pageNum : UInt32) (data : PageData) (first second : FrameStack) :
    walFrame pageNum data first = walFrame pageNum data second ↔ SameFrame first second := by
  obtain ⟨covered, kept, firstSplit, firstLength⟩ := first.split
  obtain ⟨coveredToo, keptToo, secondSplit, secondLength⟩ := second.split
  have summed := walChecksum_between_iff (wordBytes pageNum ++ wordBytes pageSize.toUInt32)
    (kept ++ data.toBytes) (firstLength.trans secondLength.symm)
  simp only [← append_assoc] at summed
  rw [SameFrame, walFrame, walFrame, firstSplit, secondSplit, drop_left' firstLength,
    drop_left' secondLength, take_left' firstLength, take_left' secondLength]
  simp only [← append_assoc]
  constructor
  · intro same
    have headers := append_cancel_right same
    obtain ⟨checksums, written⟩ := append_inj headers (by simp)
    have checksum := append_cancel_left (append_inj' checksums (by simp)).1
    refine ⟨written, summed.mp ?_⟩
    rw [wordBytes_injective checksum, written]
  · rintro ⟨rfl, same⟩
    rw [summed.mpr same]

theorem walFrame_length (pageNum : UInt32) (data : PageData) (stack : FrameStack) :
    (walFrame pageNum data stack).length = walFrameHeaderSize + pageSize := by
  have kept : ((List.ofFn stack).drop 8).length = 16 := by
    rfl
  simp only [walFrame, length_append, PageData.toBytes_length]
  rfl

/-- The bytes two calls of `wal_write_page` write for the same page are the same exactly when the
stack held the same bytes behind the checksum words, and bytes of the same checksum under them. -/
theorem writePage_bytes_eq_iff {wal next other otherNext : Wal} {txId otherTxId : UInt64}
    {pageNum : UInt32} {data : PageData} {first second : FrameStack}
    (one : walWritePage wal txId pageNum data first = (.success, next))
    (two : walWritePage other otherTxId pageNum data second = (.success, otherNext)) :
    window next.fd.file.byte wal.fd.position (walFrameHeaderSize + pageSize) =
        window otherNext.fd.file.byte other.fd.position (walFrameHeaderSize + pageSize) ↔
      SameFrame first second := by
  rw [(walWritePage_ok one).window_eq (walFrame_length _ _ _),
    (walWritePage_ok two).window_eq (walFrame_length _ _ _), walFrame_eq_iff]

/-- A stack that begins with some bytes and is zero behind them. -/
def stackOf (bytes : List UInt8) : FrameStack := fun index => bytes.getD index 0

/-- Two stacks that differ only under the checksum words, and not in their checksum. -/
theorem writePage_bytes_eq_hidden : ∃ wal next otherNext,
    walWritePage wal 1 7 (fun _ => 0) (stackOf [1, 0]) = (.success, next) ∧
      walWritePage wal 1 7 (fun _ => 0) (stackOf [0, 33]) = (.success, otherNext) ∧
      stackOf [1, 0] ≠ stackOf [0, 33] ∧
      window next.fd.file.byte wal.fd.position (walFrameHeaderSize + pageSize) =
        window otherNext.fd.file.byte wal.fd.position (walFrameHeaderSize + pageSize) := by
  obtain ⟨⟨next, one⟩, otherNext, two⟩ :
      (∃ next, walWritePage newLog 1 7 (fun _ => 0) (stackOf [1, 0]) = (.success, next)) ∧
      ∃ next, walWritePage newLog 1 7 (fun _ => 0) (stackOf [0, 33]) = (.success, next) := by
    decide +kernel
  have differ : stackOf [1, 0] ≠ stackOf [0, 33] := fun same =>
    absurd (congrFun same ⟨0, by decide⟩) (by decide)
  exact ⟨newLog, next, otherNext, one, two, differ, (writePage_bytes_eq_iff one two).mpr (by decide)⟩

/-- The same page written over a cleared stack and over one full of ones. -/
theorem writePage_bytes_leak_stack : ∃ wal next otherNext,
    walWritePage wal 1 7 (fun _ => 0) (fun _ => 0) = (.success, next) ∧
      walWritePage wal 1 7 (fun _ => 0) (fun _ => 1) = (.success, otherNext) ∧
      window next.fd.file.byte wal.fd.position (walFrameHeaderSize + pageSize) ≠
        window otherNext.fd.file.byte wal.fd.position (walFrameHeaderSize + pageSize) := by
  obtain ⟨⟨next, one⟩, otherNext, two⟩ :
      (∃ next, walWritePage newLog 1 7 (fun _ => 0) (fun _ => 0) = (.success, next)) ∧
      ∃ next, walWritePage newLog 1 7 (fun _ => 0) (fun _ => 1) = (.success, next) := by
    decide +kernel
  refine ⟨newLog, next, otherNext, one, two, fun same => ?_⟩
  rw [(walWritePage_ok one).window_eq (walFrame_length _ _ _),
    (walWritePage_ok two).window_eq (walFrame_length _ _ _), walFrame_eq_iff] at same
  exact absurd same (by decide)

end TinyDb

/-
This file asks whether the entries of a log can be told apart again: whether
walking the bytes that `wal_append` wrote, one header and the bytes it announces
at a time, recovers the list of entries.

The size of an entry is a 32-bit argument and a 16-bit field of the header. The
entries come back exactly if the field holds the number of bytes that follow:
no payload has 65536 bytes or more, and where there is none the size is a multiple
of 65536.
-/

import TinyDb.Lib.Records
import TinyDb.Wal

namespace TinyDb

open Bytes Posix Records List

variable {wal : Wal}

/-! ### Entries -/

/-- The arguments of `wal_append`. -/
structure LogEntry where
  type : WalEntryType
  txId : UInt64
  size : UInt32
  payload : Option (Payload size)

namespace LogEntry

/-- The bytes behind the payload pointer. -/
def payloadBytes (entry : LogEntry) : List UInt8 := (entry.payload.map Payload.bytes).getD []

/-- What a reader of the log should find. -/
def content (entry : LogEntry) : WalEntryType × UInt64 × List UInt8 :=
  (entry.type, entry.txId, entry.payloadBytes)

/-- What `wal_append` writes. -/
def bytes (entry : LogEntry) : List UInt8 := walEntryBytes entry.type entry.txId entry.payload

/-- The size field, which has 16 bits, holds the number of bytes of the payload. -/
def Framed (entry : LogEntry) : Prop := entry.payloadBytes.length = entry.size.toNat % 65536

end LogEntry

/-- The entries are appended one after the other, all successfully. -/
inductive AppendRun : Wal → List LogEntry → Wal → Prop
  | nil (wal : Wal) : AppendRun wal [] wal
  | cons {wal next finish : Wal} {entry : LogEntry} {entries : List LogEntry}
      (success : walAppend wal entry.type entry.txId entry.payload = (.success, next))
      (rest : AppendRun next entries finish) : AppendRun wal (entry :: entries) finish

/-! ### Walking a log -/

/-- An entry at the front of the bytes: a header, and the bytes it announces. -/
def readEntry : Reader (WalEntryType × UInt64 × List UInt8) := fun bytes =>
  let header := WalEntryHeader.decode (bytes.take WalEntryHeader.sizeof)
  let rest := bytes.drop WalEntryHeader.sizeof
  if bytes.length < WalEntryHeader.sizeof ∨ rest.length < header.size.toNat then none
  else (WalEntryType.ofCode? header.type).map fun type =>
    ((type, header.txId, rest.take header.size.toNat), rest.drop header.size.toNat)

/-- The entries of a log. -/
def walkLog (bytes : List UInt8) : Option (List (WalEntryType × UInt64 × List UInt8)) :=
  readStream readEntry bytes

@[simp] theorem WalEntryHeader.decode_encode (header : WalEntryHeader) :
    decode header.encode = header := by
  obtain ⟨type, flags, size, checksum, txId⟩ := header
  simp only [decode, WalEntryHeader.mk.injEq]
  refine ⟨rfl, rfl, ?_, ?_, ?_⟩
  · show UInt16.ofNat (littleEndianValue (littleEndian 2 size.toNat)) = size
    rw [littleEndianValue_littleEndian_of_lt size.toNat_lt, UInt16.ofNat_toNat]
  · exact ofNat_littleEndianValue_wordBytes _
  · show UInt64.ofNat (littleEndianValue (littleEndian 8 txId.toNat)) = txId
    rw [littleEndianValue_littleEndian_of_lt txId.toNat_lt, UInt64.ofNat_toNat]

@[simp] theorem WalEntryType.ofCode?_code (type : WalEntryType) :
    ofCode? type.code = some type := by
  cases type <;> rfl

theorem walEntryHeader_fields (type : WalEntryType) (txId : UInt64) {size : UInt32}
    (payload : Option (Payload size)) :
    (walEntryHeader type txId payload).type = type.code ∧
      (walEntryHeader type txId payload).size = size.toUInt16 ∧
      (walEntryHeader type txId payload).txId = txId := by
  unfold walEntryHeader
  split <;> exact ⟨rfl, rfl, rfl⟩

/-- What stands behind the header is the payload. -/
theorem LogEntry.bytes_eq (entry : LogEntry) :
    entry.bytes = (walEntryHeader entry.type entry.txId entry.payload).encode ++
      entry.payloadBytes := by
  obtain ⟨type, txId, size, payload⟩ := entry
  rw [bytes, walEntryBytes, payloadBytes, presentPayload]
  split
  · rfl
  · rename_i none
    cases payload with
    | none => rfl
    | some payload =>
      have zero : size.toNat = 0 := by
        rw [UInt32.lt_iff_toNat_lt] at none
        simpa using none
      have empty := eq_nil_of_length_eq_zero (payload.length.trans zero)
      simp [empty]

/-- Reading an entry takes as many bytes for its payload as the size field says. -/
theorem readEntry_bytes (entry : LogEntry) (rest : List UInt8) :
    readEntry (entry.bytes ++ rest) =
      if (entry.payloadBytes ++ rest).length < entry.size.toNat % 65536 then none
      else some ((entry.type, entry.txId,
          (entry.payloadBytes ++ rest).take (entry.size.toNat % 65536)),
        (entry.payloadBytes ++ rest).drop (entry.size.toNat % 65536)) := by
  obtain ⟨type, size, txId⟩ := walEntryHeader_fields _ _ _
  have length := (walEntryHeader entry.type entry.txId entry.payload).encode_length
  have field : entry.size.toUInt16.toNat = entry.size.toNat % 65536 := UInt32.toNat_toUInt16 _
  have long : ¬(entry.bytes ++ rest).length < WalEntryHeader.sizeof := by
    rw [entry.bytes_eq, length_append, length_append]
    omega
  simp only [readEntry, long, false_or]
  rw [entry.bytes_eq, append_assoc, take_left' length,
    WalEntryHeader.decode_encode, type, size, txId, WalEntryType.ofCode?_code]
  rfl

/-- Exactly the framed entries are read back. -/
theorem readEntry_decodes :
    Decodes readEntry LogEntry.bytes LogEntry.content LogEntry.Framed where
  nonempty entry empty := by
    have length := congrArg List.length empty
    rw [entry.bytes_eq, length_append] at length
    exact absurd length (by simp [WalEntryHeader.sizeof])
  reads _ _ framed := by
    rw [readEntry_bytes, if_neg, take_left' framed, drop_left' framed]
    · rfl
    · rw [length_append, framed]
      omega
  misreads _ _ _ _ unframed reading same := by
    rw [readEntry_bytes] at reading
    split at reading
    · cases reading
    · rename_i enough
      cases reading
      refine unframed ?_
      have payload := congrArg (fun content => content.2.2.length) same
      simp only [LogEntry.content, length_take] at payload
      rw [LogEntry.Framed]
      omega

/-! ### The log -/

theorem AppendRun.wrote {finish : Wal} {entries : List LogEntry}
    (run : AppendRun wal entries finish) :
    finish.fd.file = wal.fd.file.write wal.fd.position (entries.flatMap LogEntry.bytes) ∧
      finish.fd.position = wal.fd.position + (entries.flatMap LogEntry.bytes).length := by
  induction run with
  | nil wal => exact ⟨(File.write_nil _ _).symm, rfl⟩
  | cons success rest inductionHypothesis =>
    have wrote := walAppend_ok success
    obtain ⟨file, position⟩ := inductionHypothesis
    rw [flatMap_cons, length_append]
    constructor
    · rw [file, wrote.file, wrote.position, File.write_write]
      rfl
    · rw [position, wrote.position, Nat.add_assoc]
      rfl

/-- Walking what was written recovers the entries exactly if each of them is framed. -/
theorem entries_recovered_iff {wal finish : Wal} {entries : List LogEntry}
    (run : AppendRun wal entries finish) :
    walkLog (window finish.fd.file.byte wal.fd.position
        (finish.fd.position - wal.fd.position)) = some (entries.map LogEntry.content) ↔
      ∀ entry ∈ entries, entry.Framed := by
  obtain ⟨file, position⟩ := run.wrote
  rw [file, position, Nat.add_sub_cancel_left, File.write_byte, window_overlay]
  exact readEntry_decodes.readStream_iff _

theorem Wal.Quiet.appendRun (quiet : wal.Quiet) (entries : List LogEntry) :
    ∃ finish, AppendRun wal entries finish := by
  induction entries generalizing wal with
  | nil => exact ⟨wal, .nil wal⟩
  | cons entry entries inductionHypothesis =>
    obtain ⟨next, success, quietNext⟩ := quiet.append entry.type entry.txId entry.payload
    obtain ⟨finish, rest⟩ := inductionHypothesis quietNext
    exact ⟨finish, .cons success rest⟩

/-- An entry with a payload of zeros. -/
def zerosEntry (type : WalEntryType) (txId : UInt64) (size : UInt32) : LogEntry where
  type
  txId
  size
  payload := some { bytes := List.replicate size.toNat 0, length := List.length_replicate }

theorem zerosEntry_framed_iff (type : WalEntryType) (txId : UInt64) (size : UInt32) :
    (zerosEntry type txId size).Framed ↔ size.toNat < 65536 := by
  have length : (zerosEntry type txId size).payloadBytes.length = size.toNat :=
    length_replicate
  rw [LogEntry.Framed, length, zerosEntry, eq_comm, Nat.mod_eq_iff_lt (by decide)]

theorem entries_recovered_iff_two : ∃ created opened finish,
    walOpen newPath = (some created, opened) ∧
      AppendRun created [zerosEntry .begin 1 0, zerosEntry .pageModify 1 65535] finish ∧
      walkLog (window finish.fd.file.byte created.fd.position
        (finish.fd.position - created.fd.position)) =
          some [(.begin, 1, []), (.pageModify, 1, List.replicate 65535 0)] := by
  obtain ⟨finish, run⟩ :=
    newLog_quiet.appendRun [zerosEntry _ 1 0, zerosEntry _ 1 _]
  refine ⟨newLog, _, finish, newLog_opened, run, (entries_recovered_iff run).mpr ?_⟩
  simp only [forall_mem_cons, zerosEntry_framed_iff]
  exact ⟨by decide, by decide, nofun⟩

/-- An entry of 65536 bytes is taken for an entry without payload, and its payload for entries that
are no entries. -/
theorem long_entry_not_recovered : ∃ created opened finish,
    walOpen newPath = (some created, opened) ∧
      AppendRun created [zerosEntry .pageModify 1 65536] finish ∧
      walkLog (window finish.fd.file.byte created.fd.position
        (finish.fd.position - created.fd.position)) ≠
          some [(.pageModify, 1, List.replicate 65536 0)] := by
  obtain ⟨finish, run⟩ := newLog_quiet.appendRun [zerosEntry _ 1 _]
  refine ⟨newLog, _, finish, newLog_opened, run, fun recovered => ?_⟩
  obtain ⟨file, position⟩ := run.wrote
  rw [file, position, Nat.add_sub_cancel_left, File.write_byte, window_overlay] at recovered
  have framed := (readEntry_decodes.readStream_iff [zerosEntry _ 1 _]).mp recovered
  rw [forall_mem_singleton, zerosEntry_framed_iff] at framed
  exact absurd framed (by decide)

end TinyDb

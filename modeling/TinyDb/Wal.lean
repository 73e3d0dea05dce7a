/-
This file models the write-ahead log: a file with a packed header, followed by
entries (a 16-byte header and a payload) and page frames (32 bytes and a page).

Two sizes are worth a look. The packed file header takes 40 bytes, while the
constant `WAL_HEADER_SIZE`, where the recovery scan starts, is 32. And nothing
seeks to the end of the log before it writes: an entry goes to wherever the file
position happens to be.
-/

import Mathlib.Data.Nat.ModEq
import TinyDb.Lib.Buffer
import TinyDb.Pager

namespace TinyDb

open Bytes Posix List

variable {bytes : List UInt8} {size : UInt32} {fd : Descriptor} {txId : UInt64} {path opened : Path}

/-! ### Constants and headers -/

def walMagic : UInt32 := 0x377F0682

def walFormatVersion : UInt32 := 1

/-- `WAL_HEADER_SIZE`. -/
def walHeaderSize : Nat := 32

/-- `WAL_FRAME_HEADER_SIZE`. -/
def walFrameHeaderSize : Nat := 32

/-- The number in the eight bytes at an offset of a buffer. -/
def quadAt (bytes : List UInt8) (offset : Nat) : UInt64 :=
  UInt64.ofNat (littleEndianValue ((bytes.drop offset).take 8))

/-- `WALHeader`, packed; the four reserved bytes are one word here. -/
structure WalHeader where
  magic : UInt32
  version : UInt32
  startOffset : UInt64
  endOffset : UInt64
  frameCount : UInt32
  checksum1 : UInt32
  checksum2 : UInt32
  reserved : UInt32

namespace WalHeader

/-- `sizeof(WALHeader)`. -/
def sizeof : Nat := 40

/-- The header as it lies in memory and in the file. -/
def encode (header : WalHeader) : List UInt8 :=
  wordBytes header.magic ++ wordBytes header.version ++ native64 header.startOffset ++
    native64 header.endOffset ++ wordBytes header.frameCount ++ wordBytes header.checksum1 ++
      (wordBytes header.checksum2 ++ wordBytes header.reserved)

/-- The header a buffer of 40 bytes holds. -/
def decode (bytes : List UInt8) : WalHeader where
  magic := wordAt bytes 0
  version := wordAt bytes 4
  startOffset := quadAt bytes 8
  endOffset := quadAt bytes 16
  frameCount := wordAt bytes 24
  checksum1 := wordAt bytes 28
  checksum2 := wordAt bytes 32
  reserved := wordAt bytes 36

@[simp] theorem encode_length (header : WalHeader) : header.encode.length = sizeof := by
  simp [encode, sizeof]

end WalHeader

/-- `WALEntryType`. -/
inductive WalEntryType
  | begin
  | commit
  | rollback
  | pageModify
  | checkpoint
  deriving DecidableEq

/-- The number of an entry type. -/
def WalEntryType.code : WalEntryType → UInt8
  | .begin => 1
  | .commit => 2
  | .rollback => 3
  | .pageModify => 4
  | .checkpoint => 5

/-- The entry type with a number. -/
def WalEntryType.ofCode? (code : UInt8) : Option WalEntryType :=
  [.begin, .commit, .rollback, .pageModify, .checkpoint].find? fun type => type.code = code

/-- `WALEntryHeader`, packed. -/
structure WalEntryHeader where
  type : UInt8
  flags : UInt8
  size : UInt16
  checksum : UInt32
  txId : UInt64

namespace WalEntryHeader

/-- `sizeof(WALEntryHeader)`. -/
def sizeof : Nat := 16

/-- The header as it lies in memory and in the file. -/
def encode (header : WalEntryHeader) : List UInt8 :=
  [header.type, header.flags] ++ littleEndian 2 header.size.toNat ++ wordBytes header.checksum ++
    native64 header.txId

/-- The header a buffer of 16 bytes holds. -/
def decode (bytes : List UInt8) : WalEntryHeader where
  type := bytes.getD 0 0
  flags := bytes.getD 1 0
  size := UInt16.ofNat (littleEndianValue ((bytes.drop 2).take 2))
  checksum := wordAt bytes 4
  txId := quadAt bytes 8

@[simp] theorem encode_length (header : WalEntryHeader) : header.encode.length = sizeof := by
  simp [encode, sizeof]

end WalEntryHeader

/-- One turn of the loop of `wal_checksum`. -/
def walChecksumStep (sum : UInt32) (byte : UInt8) : UInt32 := (sum <<< 5) + sum + byte.toUInt32

/-- `wal_checksum`. -/
def walChecksum (data : List UInt8) : UInt32 := data.foldl walChecksumStep 0

/-- The sum of the bytes, each with a power of 33 that falls from left to right. -/
def checksumSum : List UInt8 → Nat
  | [] => 0
  | byte :: rest => byte.toNat * 33 ^ rest.length + checksumSum rest

theorem walChecksumStep_modEq (sum : UInt32) (byte : UInt8) :
    (walChecksumStep sum byte).toNat ≡ sum.toNat * 33 + byte.toNat [MOD 2 ^ 32] := by
  have five : (5 : UInt32).toNat % 32 = 5 := rfl
  simp only [walChecksumStep, UInt32.toNat_add, UInt32.toNat_shiftLeft, UInt8.toNat_toUInt32,
    Nat.ModEq, five]
  omega

theorem foldl_walChecksumStep_modEq (data : List UInt8) (sum : UInt32) :
    (data.foldl walChecksumStep sum).toNat ≡
      sum.toNat * 33 ^ data.length + checksumSum data [MOD 2 ^ 32] := by
  induction data generalizing sum with
  | nil => simp [checksumSum, Nat.ModEq]
  | cons byte rest inductionHypothesis =>
    have step := ((walChecksumStep_modEq sum byte).mul_right (33 ^ rest.length)).add_right
      (checksumSum rest)
    have collect : (sum.toNat * 33 + byte.toNat) * 33 ^ rest.length + checksumSum rest =
        sum.toNat * 33 ^ (byte :: rest).length + checksumSum (byte :: rest) := by
      rw [checksumSum, length_cons]
      ring
    rw [← collect]
    exact (inductionHypothesis _).trans step

/-- The checksum is a polynomial in 33 modulo the word size. -/
theorem walChecksum_modEq (data : List UInt8) :
    (walChecksum data).toNat ≡ checksumSum data [MOD 2 ^ 32] := by
  have fold := foldl_walChecksumStep_modEq data 0
  rwa [UInt32.toNat_zero, Nat.zero_mul, Nat.zero_add] at fold

/-! ### The handle -/

/-- `WAL`. -/
structure Wal where
  fd : Descriptor
  path : Path
  logOffset : UInt64
  frameCount : UInt32
  currentTxId : UInt64
  fileSize : Nat
  isOpen : Bool

variable {wal : Wal}

/-- What the calls on a log return. -/
inductive WalCode
  | success
  | internal
  | storageIo
  deriving DecidableEq

/-- `unlink`; the path stays as it is if the call fails. -/
def Path.unlink (path : Path) : Path :=
  match path.schedule with
  | [] => { path with file := none }
  | .transfer _ :: schedule => { path with file := none, schedule }
  | _ :: schedule => { path with schedule }

/-- The header of a new log. -/
def newWalHeader : WalHeader where
  magic := walMagic
  version := walFormatVersion
  startOffset := walHeaderSize.toUInt64
  endOffset := walHeaderSize.toUInt64
  frameCount := 0
  checksum1 := 0
  checksum2 := 0
  reserved := 0

/-- The second half of `wal_open`, from `fstat` on. -/
def walOpened (fd : Descriptor) (path : Path) (logOffset : UInt64) (frameCount : UInt32) :
    Option Wal × Path :=
  match fd.call with
  | (false, fd) => (none, { path with file := some fd.file, schedule := fd.schedule })
  | (true, fd) =>
    (some {
      fd, path, logOffset, frameCount
      currentTxId := 0
      fileSize := fd.file.size
      isOpen := true }, path)

/-- `wal_open`. Whatever the reason why the log cannot be opened, a new one is created. -/
def walOpen (path : Path) : Option Wal × Path :=
  match path.open true with
  | (none, path) =>
    match path.create with
    | (none, path) => (none, path)
    | (some fd, path) =>
      match writeExact fd newWalHeader.encode with
      | (false, fd) =>
        (none, Path.unlink { path with file := some fd.file, schedule := fd.schedule })
      | (true, fd) => walOpened fd path walHeaderSize.toUInt64 0
  | (some fd, path) =>
    match readExact fd WalHeader.sizeof with
    | (none, fd) => (none, { path with schedule := fd.schedule })
    | (some bytes, fd) =>
      let header := WalHeader.decode bytes
      if header.magic ≠ walMagic then (none, { path with schedule := fd.schedule })
      else walOpened fd path header.endOffset header.frameCount

/-- `wal_close`: the path as the closed handle leaves it. -/
def walClose (wal : Wal) : Path :=
  let fd := if wal.isOpen then wal.fd.fsync.2 else wal.fd
  { wal.path with file := some fd.file, schedule := fd.schedule }

/-! ### Entries and frames -/

/-- The bytes behind a payload pointer, `size` of them. -/
structure Payload (size : UInt32) where
  bytes : List UInt8
  length : bytes.length = size.toNat

/-- What `payload && size > 0` lets through. -/
def presentPayload {size : UInt32} (payload : Option (Payload size)) : Option (Payload size) :=
  if 0 < size then payload else none

/-- The header `wal_append` builds; the checksum is taken while its own field is zero. -/
def walEntryHeader (type : WalEntryType) (txId : UInt64) {size : UInt32}
    (payload : Option (Payload size)) : WalEntryHeader :=
  let header : WalEntryHeader :=
    { type := type.code, flags := 0, size := size.toUInt16, checksum := 0, txId }
  let checksum := walChecksum header.encode
  match presentPayload payload with
  | none => { header with checksum }
  | some payload => { header with checksum := checksum ^^^ walChecksum payload.bytes }

/-- The `fstat` after a write: the size is brought up to date if it succeeds. -/
def Wal.updateSize (wal : Wal) : Wal :=
  match wal.fd.call with
  | (false, fd) => { wal with fd }
  | (true, fd) => { wal with fd, fileSize := fd.file.size }

/-- The second write of `wal_append`. -/
def writePayload {size : UInt32} (fd : Descriptor) : Option (Payload size) → Bool × Descriptor
  | none => (true, fd)
  | some payload => writeExact fd payload.bytes

/-- `wal_append`. -/
def walAppend (wal : Wal) (type : WalEntryType) (txId : UInt64) {size : UInt32}
    (payload : Option (Payload size)) : WalCode × Wal :=
  if wal.isOpen then
    match writeExact wal.fd (walEntryHeader type txId payload).encode with
    | (false, fd) => (.storageIo, { wal with fd })
    | (true, fd) =>
      match writePayload fd (presentPayload payload) with
      | (false, fd) => (.storageIo, { wal with fd })
      | (true, fd) =>
        let logOffset := wal.logOffset + (WalEntryHeader.sizeof.toUInt64 + size.toUInt64)
        (.success, Wal.updateSize { wal with fd, logOffset })
  else (.internal, wal)

/-- An entry without payload for the current transaction. -/
def walAppendMark (wal : Wal) (type : WalEntryType) : WalCode × Wal :=
  walAppend wal type wal.currentTxId (none : Option (Payload 0))

/-- `wal_begin_tx`. -/
def walBeginTx (wal : Wal) : WalCode × Wal :=
  walAppendMark { wal with currentTxId := wal.currentTxId + 1 } .begin

/-- `wal_commit_tx`. -/
def walCommitTx (wal : Wal) : WalCode × Wal := walAppendMark wal .commit

/-- `wal_rollback_tx`. -/
def walRollbackTx (wal : Wal) : WalCode × Wal := walAppendMark wal .rollback

/-- `wal_checkpoint`. -/
def walCheckpoint (wal : Wal) : WalCode × Wal := walAppendMark wal .checkpoint

/-- What the frame buffer of `wal_write_page` holds between its first eight bytes and the page
before anything is stored there. -/
abbrev FrameStack := Fin (walFrameHeaderSize - 8) → UInt8

/-- The frame that `wal_write_page` writes. The checksum is taken over the whole buffer before the
two checksum words are stored. -/
def walFrame (pageNum : UInt32) (data : PageData) (stack : FrameStack) : List UInt8 :=
  let start := wordBytes pageNum ++ wordBytes pageSize.toUInt32
  let checksum := walChecksum (start ++ List.ofFn stack ++ data.toBytes)
  start ++ wordBytes checksum ++ wordBytes (checksum ^^^ 0xFFFFFFFF) ++
    (List.ofFn stack).drop 8 ++ data.toBytes

/-- `wal_write_page`; the transaction id is not used. -/
def walWritePage (wal : Wal) (_txId : UInt64) (pageNum : UInt32) (data : PageData)
    (stack : FrameStack) : WalCode × Wal :=
  match writeExact wal.fd (walFrame pageNum data stack) with
  | (false, fd) => (.storageIo, { wal with fd })
  | (true, fd) =>
    (.success, Wal.updateSize { wal with
      fd
      logOffset := wal.logOffset + (walFrameHeaderSize + pageSize).toUInt64
      frameCount := wal.frameCount + 1 })

/-! ### Recovery -/

/-- `WALRecoveryInfo`. -/
structure WalRecoveryInfo where
  startOffset : UInt64
  endOffset : UInt64
  lastTxId : UInt64
  frameCount : UInt32
  hasCheckpoint : Bool
  checkpointOffset : UInt64

/-- The variables of the recovery scan. -/
structure WalScan where
  info : WalRecoveryInfo
  txId : UInt64
  inTx : Bool

/-- The variables before the scan. -/
def WalScan.start : WalScan where
  info := {
    startOffset := 0
    endOffset := 0
    lastTxId := 0
    frameCount := 0
    hasCheckpoint := false
    checkpointOffset := 0 }
  txId := 0
  inTx := false

/-- The `switch` of the scan. -/
def WalScan.enter (scan : WalScan) (offset : Nat) (header : WalEntryHeader) : WalScan :=
  match WalEntryType.ofCode? header.type with
  | some .begin => { scan with txId := header.txId, inTx := true }
  | some .commit =>
    if scan.inTx ∧ header.txId = scan.txId then
      { scan with info := { scan.info with lastTxId := header.txId }, inTx := false }
    else scan
  | some .rollback => { scan with inTx := false }
  | some .pageModify =>
    { scan with info := { scan.info with frameCount := scan.info.frameCount + 1 } }
  | some .checkpoint =>
    { scan with
      info := { scan.info with hasCheckpoint := true, checkpointOffset := offset.toUInt64 } }
  | none => scan

/-- The loop of `wal_recovery_info`; a failed seek or read ends it. -/
def walScanLoop (fd : Descriptor) (fileSize offset : Nat) (scan : WalScan) : WalScan × Descriptor :=
  if offset < fileSize then
    match fd.lseek offset with
    | (false, fd) => (scan, fd)
    | (true, fd) =>
      match readExact fd WalEntryHeader.sizeof with
      | (none, fd) => (scan, fd)
      | (some bytes, fd) =>
        let header := WalEntryHeader.decode bytes
        walScanLoop fd fileSize (offset + (WalEntryHeader.sizeof + header.size.toNat))
          (scan.enter offset header)
  else (scan, fd)
termination_by fileSize - offset
decreasing_by
  have positive : 0 < WalEntryHeader.sizeof := by decide
  omega

/-- `wal_recovery_info`. -/
def walRecoveryInfo (wal : Wal) : WalRecoveryInfo × Wal :=
  let (scan, fd) := walScanLoop wal.fd wal.fileSize walHeaderSize WalScan.start
  ({ scan.info with
      startOffset := walHeaderSize.toUInt64
      endOffset := wal.logOffset
      frameCount := wal.frameCount },
    { wal with fd })

/-! ### Truncation -/

/-- `ftruncate` with an unsigned length: one above the largest `off_t` is negative to it, and
refused. -/
def truncateTo (fd : Descriptor) (length : UInt64) : Bool × Descriptor :=
  if length.toNat < 2 ^ 63 then fd.ftruncate length.toNat else (false, fd)

/-- The header that `wal_truncate` writes back. -/
def WalHeader.cutTo (header : WalHeader) (checkpointOffset : UInt64) : WalHeader :=
  { header with endOffset := checkpointOffset, frameCount := 0 }

/-- `wal_truncate`. -/
def walTruncate (wal : Wal) (checkpointOffset : UInt64) : WalCode × Wal :=
  match truncateTo wal.fd checkpointOffset with
  | (false, fd) => (.storageIo, { wal with fd })
  | (true, fd) =>
    let wal := { wal with logOffset := checkpointOffset }
    match fd.lseek 0 with
    | (false, fd) => (.storageIo, { wal with fd })
    | (true, fd) =>
      match readExact fd WalHeader.sizeof with
      | (none, fd) => (.storageIo, { wal with fd })
      | (some bytes, fd) =>
        let header := (WalHeader.decode bytes).cutTo checkpointOffset
        match fd.lseek 0 with
        | (false, fd) => (.storageIo, { wal with fd })
        | (true, fd) =>
          match writeExact fd header.encode with
          | (false, fd) => (.storageIo, { wal with fd })
          | (true, fd) => (.success, { wal with fd := fd.fsync.2 })

/-! ### What the calls do to the file -/

/-- The bytes of an entry. -/
def walEntryBytes (type : WalEntryType) (txId : UInt64) {size : UInt32}
    (payload : Option (Payload size)) : List UInt8 :=
  (walEntryHeader type txId payload).encode ++
    ((presentPayload payload).map Payload.bytes).getD []

/-- A call has written the bytes to where the file position was. -/
structure WroteLog (wal next : Wal) (bytes : List UInt8) : Prop where
  file : next.fd.file = wal.fd.file.write wal.fd.position bytes
  position : next.fd.position = wal.fd.position + bytes.length
  currentTxId : next.currentTxId = wal.currentTxId

section Calls

variable {wal next : Wal}

theorem WroteLog.updateSize (wrote : WroteLog wal next bytes) :
    WroteLog wal next.updateSize bytes := by
  obtain ⟨file, position, currentTxId⟩ := wrote
  have sameFile := call_file next.fd
  have samePosition := call_position next.fd
  unfold Wal.updateSize
  split <;> rename_i called <;> rw [called] at sameFile samePosition <;>
    exact ⟨sameFile.trans file, samePosition.trans position, currentTxId⟩

theorem WroteLog.window_eq {count : Nat} (wrote : WroteLog wal next bytes)
    (length : bytes.length = count) : window next.fd.file.byte wal.fd.position count = bytes := by
  rw [wrote.file, File.write_byte, ← length, window_overlay]

theorem writePayload_ok {payload : Option (Payload size)} {next : Descriptor}
    (writing : writePayload fd payload = (true, next)) :
    next.file = fd.file.write fd.position ((payload.map Payload.bytes).getD []) ∧
      next.position = fd.position + ((payload.map Payload.bytes).getD []).length := by
  cases payload with
  | none =>
    cases writing
    exact ⟨(File.write_nil _ _).symm, rfl⟩
  | some payload =>
    obtain ⟨file, -, position⟩ := writeExact_ok writing
    exact ⟨file, position⟩

theorem walAppend_ok {type : WalEntryType} {payload : Option (Payload size)}
    (run : walAppend wal type txId payload = (.success, next)) :
    WroteLog wal next (walEntryBytes type txId payload) := by
  unfold walAppend at run
  split at run
  · split at run
    · cases run
    · rename_i header
      obtain ⟨headerFile, -, headerPosition⟩ := writeExact_ok header
      split at run
      · cases run
      · rename_i rest
        obtain ⟨restFile, restPosition⟩ := writePayload_ok rest
        cases run
        refine WroteLog.updateSize ⟨?_, ?_, rfl⟩
        · rw [restFile, headerFile, headerPosition, File.write_write, walEntryBytes]
        · rw [restPosition, headerPosition, walEntryBytes, length_append, Nat.add_assoc]
  · cases run

theorem walWritePage_ok {pageNum : UInt32} {data : PageData} {stack : FrameStack}
    (run : walWritePage wal txId pageNum data stack = (.success, next)) :
    WroteLog wal next (walFrame pageNum data stack) := by
  unfold walWritePage at run
  split at run
  · cases run
  · rename_i writing
    obtain ⟨file, -, position⟩ := writeExact_ok writing
    cases run
    exact WroteLog.updateSize ⟨file, position, rfl⟩

/-- The recovery scan moves the file position and nothing else. -/
theorem walScanLoop_file (fd : Descriptor) (fileSize offset : Nat) (scan : WalScan) :
    (walScanLoop fd fileSize offset scan).2.file = fd.file := by
  fun_induction walScanLoop fd _ offset scan with
  | case1 fd offset scan _ next seek => exact (lseek_spec seek).1
  | case2 fd offset scan _ next seek last reading =>
    exact (readExact_spec reading).1.trans (lseek_spec seek).1
  | case3 fd offset scan _ next seek bytes last reading header inductionHypothesis =>
    exact inductionHypothesis.trans ((readExact_spec reading).1.trans (lseek_spec seek).1)
  | case4 => rfl

/-- The file of a new log. -/
def newWalFile : File := File.empty.write 0 newWalHeader.encode

theorem walOpened_ok {logOffset : UInt64} {frameCount : UInt32}
    (run : walOpened fd path logOffset frameCount = (some wal, opened)) :
    wal.fd.file = fd.file ∧ wal.fd.position = fd.position ∧ wal.currentTxId = 0 := by
  unfold walOpened at run
  have sameFile := call_file fd
  have samePosition := call_position fd
  split at run
  · cases run
  · rename_i called
    rw [called] at sameFile samePosition
    obtain ⟨same, -⟩ := Prod.mk.inj run
    cases same
    exact ⟨sameFile, samePosition, rfl⟩

/-- `wal_open` either reads the header of the file it finds or, if `open` fails, starts a log
afresh. Either way the position is behind the header. -/
theorem walOpen_ok (run : walOpen path = (some wal, opened)) :
    wal.fd.position = WalHeader.sizeof ∧ wal.currentTxId = 0 ∧
      (((path.open true).1 ≠ none ∧ path.file = some wal.fd.file) ∨
        ((path.open true).1 = none ∧ wal.fd.file = newWalFile)) := by
  unfold walOpen at run
  split at run
  · rename_i failed absent
    split at run
    · cases run
    · rename_i created
      obtain ⟨empty, start, -⟩ := Path.create_ok created
      split at run
      · cases run
      · rename_i writing
        obtain ⟨file, -, position⟩ := writeExact_ok writing
        obtain ⟨sameFile, samePosition, currentTxId⟩ := walOpened_ok run
        rw [empty, start] at file
        rw [start] at position
        exact ⟨samePosition.trans position, currentTxId,
          Or.inr ⟨congrArg _ absent, sameFile.trans file⟩⟩
  · rename_i fd found opening
    obtain ⟨file, start, -⟩ := (Path.open_spec opening).2.2 fd rfl
    split at run
    · cases run
    · rename_i bytes read reading
      obtain ⟨fileRead, -, bytesRead⟩ := readExact_spec reading
      obtain ⟨-, -, position⟩ := bytesRead _ rfl
      simp only at run
      split at run
      · cases run
      · obtain ⟨sameFile, samePosition, currentTxId⟩ := walOpened_ok run
        rw [start] at position
        refine ⟨samePosition.trans position, currentTxId, Or.inl ⟨?_, ?_⟩⟩
        · rw [opening]
          exact Option.some_ne_none fd
        · rw [file, sameFile, fileRead]

theorem walClose_file (wal : Wal) : (walClose wal).file = some wal.fd.file := by
  unfold walClose
  split
  · exact congrArg _ (call_file _)
  · rfl

end Calls

/-! ### Without input or output errors -/

/-- No call on the handle will meet an error, and the size is up to date. -/
structure Wal.Quiet (wal : Wal) : Prop where
  schedule : wal.fd.schedule = []
  writable : wal.fd.writable = true
  isOpen : wal.isOpen = true
  sized : wal.fileSize = wal.fd.file.size

theorem Wal.updateSize_quiet (schedule : wal.fd.schedule = []) (writable : wal.fd.writable = true)
    (isOpen : wal.isOpen = true) : wal.updateSize.Quiet := by
  rw [Wal.updateSize, call_of_nil schedule]
  exact ⟨schedule, writable, isOpen, rfl⟩

theorem writePayload_of_nil (payload : Option (Payload size)) (quiet : fd.schedule = [])
    (writable : fd.writable = true) :
    ∃ next, writePayload fd (presentPayload payload) = (true, next) ∧ next.schedule = [] ∧
      next.writable = true := by
  cases present : presentPayload payload with
  | none => exact ⟨fd, rfl, quiet, writable⟩
  | some written =>
    have nonempty : written.bytes ≠ [] := by
      unfold presentPayload at present
      split at present
      · rename_i positive
        rw [← length_pos_iff, written.length]
        exact UInt32.lt_iff_toNat_lt.mp positive
      · cases present
    exact ⟨_, writeExact_of_nil fd quiet writable nonempty, quiet, writable⟩

theorem Wal.Quiet.append (quiet : wal.Quiet) (type : WalEntryType) (txId : UInt64)
    (payload : Option (Payload size)) :
    ∃ next, walAppend wal type txId payload = (.success, next) ∧ next.Quiet := by
  have header : (walEntryHeader type txId payload).encode ≠ [] := by
    exact cons_ne_nil _ _
  have writing := writeExact_of_nil _ quiet.schedule quiet.writable header
  obtain ⟨next, rest, schedule, writable⟩ : ∃ next,
      writePayload (writeExact wal.fd (walEntryHeader type txId payload).encode).2
        (presentPayload payload) = (true, next) ∧ next.schedule = [] ∧ next.writable = true := by
    rw [writing]
    exact writePayload_of_nil _ quiet.schedule quiet.writable
  rw [writing] at rest
  rw [walAppend, if_pos quiet.isOpen, writing]
  simp only [rest]
  exact ⟨_, rfl, Wal.updateSize_quiet schedule writable quiet.isOpen⟩

/-- The handle of a new log. -/
def newLog : Wal := (walOpen newPath).1.get rfl

theorem newLog_opened : walOpen newPath = (some newLog, (walOpen newPath).2) :=
  Prod.fst_eq_iff.mp (Option.some_get _).symm

theorem newLog_quiet : newLog.Quiet := ⟨rfl, rfl, rfl, rfl⟩

end TinyDb

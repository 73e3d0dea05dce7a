/-
This file asks whether a log knows its own length: whether `log_offset` and
`file_size` are the length of the file after every call, and whether the handle
and the file header agree after a truncation.

A new log has 40 bytes and a `log_offset` of 32, and every write adds what it wrote
to either. A truncation sets `log_offset` right but leaves `file_size`, the frame
count and the position as they were, the last of them just behind the header; what
is written next adds to the offset and goes over what is there. Only a log that is
cut back to its header is level again, and from then on every write that puts as
many bytes into the file as it counts keeps it so.
-/

import TinyDb.Wal

namespace TinyDb

open Bytes Posix

variable {offset : UInt64}

/-! ### What should agree -/

/-- Both lengths that the handle holds are the length of the file. -/
def Wal.Tracks (wal : Wal) : Prop :=
  wal.logOffset.toNat = wal.fd.file.size ∧ wal.fileSize = wal.fd.file.size

/-- The header in the file. -/
def Wal.fileHeader (wal : Wal) : WalHeader :=
  WalHeader.decode (window wal.fd.file.byte 0 WalHeader.sizeof)

/-- The handle and the header in the file agree. -/
def Wal.MatchesHeader (wal : Wal) : Prop :=
  wal.logOffset = wal.fileHeader.endOffset ∧ wal.frameCount = wal.fileHeader.frameCount

/-! ### Writes -/

/-- The calls of `wal_append` and `wal_write_page`. -/
inductive LogWrite
  | entry (type : WalEntryType) (txId : UInt64) (size : UInt32) (payload : Option (Payload size))
  | page (txId : UInt64) (pageNum : UInt32) (data : PageData) (stack : FrameStack)

variable {write : LogWrite}

namespace LogWrite

def run : LogWrite → Wal → WalCode × Wal
  | entry type txId _ payload, wal => walAppend wal type txId payload
  | page txId pageNum data stack, wal => walWritePage wal txId pageNum data stack

/-- The bytes that are written. -/
def bytes : LogWrite → List UInt8
  | entry type txId _ payload => walEntryBytes type txId payload
  | page _ pageNum data stack => walFrame pageNum data stack

/-- What is added to `log_offset`. -/
def counted : LogWrite → UInt64
  | entry _ _ size _ => WalEntryHeader.sizeof.toUInt64 + size.toUInt64
  | page .. => (walFrameHeaderSize + pageSize).toUInt64

/-- What is added to `frame_count`. -/
def frames : LogWrite → UInt32
  | entry .. => 0
  | page .. => 1

/-- The descriptor as `fstat` finds it. -/
def written : LogWrite → Wal → Descriptor
  | entry type txId _ payload, wal =>
    (writePayload (writeExact wal.fd (walEntryHeader type txId payload).encode).2
      (presentPayload payload)).2
  | page _ pageNum data stack, wal => (writeExact wal.fd (walFrame pageNum data stack)).2

/-- The length of the file after the write. -/
def newLength (write : LogWrite) (wal : Wal) : Nat :=
  max wal.fd.file.size (wal.fd.position + write.bytes.length)

end LogWrite

section Writes

variable {write : LogWrite} {wal next : Wal}

theorem Wal.updateSize_eq (wal : Wal) :
    wal.updateSize = { wal with
      fd := wal.fd.call.2
      fileSize := if wal.fd.call.1 then wal.fd.file.size else wal.fileSize } := by
  have sameFile := call_file wal.fd
  unfold Wal.updateSize
  split <;> rename_i called <;> rw [called] at sameFile ⊢
  · rfl
  · rw [← sameFile]
    rfl

/-- What a successful write does to the handle. -/
structure LogWrite.Done (write : LogWrite) (wal next : Wal) : Prop where
  wrote : WroteLog wal next write.bytes
  logOffset : next.logOffset = wal.logOffset + write.counted
  fileSize : next.fileSize =
    if (write.written wal).call.1 then next.fd.file.size else wal.fileSize
  frameCount : next.frameCount = wal.frameCount + write.frames

/-- Both writes end in the same way. -/
theorem LogWrite.done_of_updateSize {unsized : Wal}
    (wrote : WroteLog wal unsized.updateSize write.bytes) (fd : write.written wal = unsized.fd)
    (logOffset : unsized.logOffset = wal.logOffset + write.counted)
    (fileSize : unsized.fileSize = wal.fileSize)
    (frameCount : unsized.frameCount = wal.frameCount + write.frames) :
    write.Done wal unsized.updateSize := by
  refine ⟨wrote, ?_, ?_, ?_⟩
  · rw [Wal.updateSize_eq, logOffset]
  · rw [Wal.updateSize_eq, fd, call_file, fileSize]
  · rw [Wal.updateSize_eq, frameCount]

theorem LogWrite.run_ok (run : write.run wal = (.success, next)) : write.Done wal next := by
  cases write with
  | entry type txId size payload =>
    have wrote := walAppend_ok run
    rw [LogWrite.run, walAppend] at run
    split at run
    · split at run
      · cases run
      · rename_i header
        split at run
        · cases run
        · rename_i rest
          cases run
          refine done_of_updateSize wrote ?_ rfl rfl (UInt32.add_zero _).symm
          rw [written, header]
          exact congrArg _ rest
    · cases run
  | page txId pageNum data stack =>
    have wrote := walWritePage_ok (show walWritePage wal txId pageNum data stack = _ from run)
    rw [LogWrite.run, walWritePage] at run
    split at run
    · cases run
    · rename_i writing
      cases run
      exact done_of_updateSize wrote (congrArg Prod.snd writing) rfl rfl rfl

theorem LogWrite.bytes_ne_nil (write : LogWrite) : write.bytes ≠ [] := by
  cases write with
  | entry type txId size payload => exact List.cons_ne_nil _ _
  | page txId pageNum data stack =>
    exact fun empty => data.toBytes_ne_nil (List.append_eq_nil_iff.mp empty).2

theorem LogWrite.Done.size (done : write.Done wal next) :
    next.fd.file.size = write.newLength wal := by
  rw [done.wrote.file, File.write_size _ write.bytes_ne_nil]
  rfl

end Writes

/-! ### Truncations -/

/-- What a successful truncation does. The size, the frame count and the counter stay. -/
structure Truncated (wal next : Wal) (offset : UInt64) : Prop where
  behindHeader : WalHeader.sizeof ≤ offset.toNat
  size : next.fd.file.size = offset.toNat
  position : next.fd.position = WalHeader.sizeof
  logOffset : next.logOffset = offset
  fileSize : next.fileSize = wal.fileSize
  frameCount : next.frameCount = wal.frameCount
  endOffset : next.fileHeader.endOffset = offset
  noFrames : next.fileHeader.frameCount = 0

section Truncations

variable {wal next : Wal} {offset : UInt64}

theorem truncateTo_ok {fd next : Descriptor} {length : UInt64}
    (truncating : truncateTo fd length = (true, next)) :
    next.file = fd.file.truncate length.toNat := by
  unfold truncateTo at truncating
  split at truncating
  · exact (ftruncate_ok truncating).1
  · cases truncating

theorem WalHeader.decode_encode_fields (header : WalHeader) :
    (decode header.encode).endOffset = header.endOffset ∧
      (decode header.encode).frameCount = header.frameCount := by
  refine ⟨?_, ofNat_littleEndianValue_wordBytes _⟩
  show UInt64.ofNat (littleEndianValue (littleEndian 8 header.endOffset.toNat)) = header.endOffset
  rw [littleEndianValue_littleEndian_of_lt header.endOffset.toNat_lt, UInt64.ofNat_toNat]

theorem truncated_of_write {header : WalHeader} (behindHeader : WalHeader.sizeof ≤ offset.toNat)
    (file : next.fd.file =
      (wal.fd.file.truncate offset.toNat).write 0 (header.cutTo offset).encode)
    (position : next.fd.position = (header.cutTo offset).encode.length)
    (logOffset : next.logOffset = offset) (fileSize : next.fileSize = wal.fileSize)
    (frameCount : next.frameCount = wal.frameCount) : Truncated wal next offset := by
  have length := (header.cutTo offset).encode_length
  have nonempty : (header.cutTo offset).encode ≠ [] := by
    rw [← List.length_pos_iff, length]
    decide
  have inFile : next.fileHeader = WalHeader.decode (header.cutTo offset).encode := by
    rw [Wal.fileHeader, file, File.write_byte, ← length, window_overlay]
  obtain ⟨endOffset, noFrames⟩ := (header.cutTo _).decode_encode_fields
  refine ⟨behindHeader, ?_, position.trans length, logOffset, fileSize, frameCount, ?_, ?_⟩
  · rw [file, File.write_size _ nonempty]
    exact max_eq_left behindHeader
  · exact inFile ▸ endOffset
  · exact inFile ▸ noFrames

theorem walTruncate_ok (run : walTruncate wal offset = (.success, next)) :
    Truncated wal next offset := by
  unfold walTruncate at run
  split at run
  · cases run
  · rename_i truncated truncating
    have cut := truncateTo_ok truncating
    simp only at run
    split at run
    · cases run
    · rename_i rewound rewinding
      obtain ⟨rewoundFile, -, start⟩ := lseek_spec rewinding
      split at run
      · cases run
      · rename_i bytes read reading
        obtain ⟨readFile, -, hasRead⟩ := readExact_spec reading
        obtain ⟨-, inside, -⟩ := hasRead _ rfl
        split at run
        · cases run
        · rename_i again rewindingAgain
          obtain ⟨againFile, -, startAgain⟩ := lseek_spec rewindingAgain
          split at run
          · cases run
          · rename_i done writing
            obtain ⟨doneFile, -, donePosition⟩ := writeExact_ok writing
            cases run
            rw [againFile, readFile, rewoundFile, cut, startAgain rfl] at doneFile
            rw [startAgain rfl] at donePosition
            rw [start rfl, rewoundFile, cut] at inside
            exact truncated_of_write (inside (by decide)) ((call_file _).trans doneFile)
              ((call_position _).trans donePosition) rfl rfl rfl

end Truncations

/-! ### Runs -/

/-- The calls of a run: a write with whether its `fstat` answers, or a truncation. -/
inductive LogChange
  | write (write : LogWrite) (answered : Bool)
  | truncate (offset : UInt64)

/-- A successful call. -/
inductive LogChange.Takes : LogChange → Wal → Wal → Prop
  | write {write : LogWrite} {wal next : Wal} (run : write.run wal = (.success, next)) :
    Takes (.write write (write.written wal).call.1) wal next
  | truncate {offset : UInt64} {wal next : Wal} (run : walTruncate wal offset = (.success, next)) :
    Takes (.truncate offset) wal next

/-- A run of successful calls, the latest call first. -/
inductive LogRun (start : Wal) : List LogChange → Wal → Prop
  | start : LogRun start [] start
  | call {calls : List LogChange} {call : LogChange} {wal next : Wal}
    (run : LogRun start calls wal) (takes : call.Takes wal next) : LogRun start (call :: calls) next

/-- The offset of the last truncation. -/
def lastCut : List LogChange → Option UInt64
  | [] => none
  | .write _ _ :: earlier => lastCut earlier
  | .truncate offset :: _ => some offset

/-- The bytes written since the last truncation. -/
def bytesSince : List LogChange → Nat
  | [] => 0
  | .write write _ :: earlier => bytesSince earlier + write.bytes.length
  | .truncate _ :: _ => 0

/-- The bytes counted since the last truncation. -/
def countedSince : List LogChange → Nat
  | [] => 0
  | .write write _ :: earlier => countedSince earlier + write.counted.toNat
  | .truncate _ :: _ => 0

/-- The pages that were written. -/
def pagesWritten : List LogChange → Nat
  | [] => 0
  | .write write _ :: earlier => pagesWritten earlier + write.frames.toNat
  | .truncate _ :: earlier => pagesWritten earlier

/-- The offset that is counted: a new log starts with 32, a truncated one where it was cut. -/
def offsetAfter (calls : List LogChange) : Nat :=
  ((lastCut calls).elim walHeaderSize UInt64.toNat + countedSince calls) % 2 ^ 64

/-- The length that the last truncation, or the opening, left. -/
def cutLength (calls : List LogChange) : Nat :=
  (lastCut calls).elim WalHeader.sizeof UInt64.toNat

/-- The length of the file: the writes since the last truncation start behind the header and go over
what was not cut off. -/
def lengthAfter (calls : List LogChange) : Nat :=
  max (cutLength calls) (WalHeader.sizeof + bytesSince calls)

/-- The length of the file when `fstat` last answered a write. -/
def lengthSeen : List LogChange → Nat
  | [] => WalHeader.sizeof
  | .write write true :: earlier => lengthAfter (.write write true :: earlier)
  | .write _ false :: earlier => lengthSeen earlier
  | .truncate _ :: earlier => lengthSeen earlier

/-- The calls after which the lengths are right. -/
def LengthsRight : List LogChange → Prop
  | .truncate offset :: earlier =>
    lengthSeen earlier = offset.toNat ∧ pagesWritten earlier % 2 ^ 32 = 0
  | calls => offsetAfter calls = lengthAfter calls ∧ lengthSeen calls = lengthAfter calls

/-- What should hold after the calls. -/
def Wal.RightAfter (wal : Wal) : List LogChange → Prop
  | .truncate _ :: _ => wal.Tracks ∧ wal.MatchesHeader
  | _ => wal.Tracks

/-- The handle and the file as the calls leave them. -/
structure Wal.After (wal : Wal) (calls : List LogChange) : Prop where
  size : wal.fd.file.size = lengthAfter calls
  position : wal.fd.position = WalHeader.sizeof + bytesSince calls
  logOffset : wal.logOffset.toNat = offsetAfter calls
  fileSize : wal.fileSize = lengthSeen calls
  frameCount : wal.frameCount.toNat = pagesWritten calls % 2 ^ 32

section Runs

variable {wal next start : Wal} {calls : List LogChange}

/-- A new log counts 32 bytes for a header of 40. -/
theorem after_open {path opened : Path} (run : walOpen path = (some wal, opened))
    (absent : (path.open true).1 = none) : wal.After [] := by
  obtain ⟨position, -, ⟨found, -⟩ | ⟨-, file⟩⟩ := walOpen_ok run
  · exact absurd absent found
  · have size : wal.fd.file.size = WalHeader.sizeof := file ▸ rfl
    unfold walOpen at run
    split at run
    · split at run
      · cases run
      · split at run
        · cases run
        · unfold walOpened at run
          split at run
          · cases run
          · obtain ⟨same, -⟩ := Prod.mk.inj run
            cases same
            exact ⟨size, position, rfl, size, rfl⟩
    · rename_i opening
      rw [opening] at absent
      cases absent

theorem LogWrite.Done.after (done : write.Done wal next) (after : wal.After calls) :
    next.After (.write write (write.written wal).call.1 :: calls) := by
  have size : next.fd.file.size =
      lengthAfter (.write write (write.written wal).call.1 :: calls) := by
    rw [done.size, newLength, after.size, after.position, lengthAfter, lengthAfter, bytesSince,
      cutLength, cutLength, lastCut]
    omega
  refine ⟨size, ?_, ?_, ?_, ?_⟩
  · rw [done.wrote.position, after.position, bytesSince, Nat.add_assoc]
  · rw [done.logOffset, UInt64.toNat_add, after.logOffset, offsetAfter, offsetAfter, countedSince,
      lastCut, Nat.mod_add_mod, Nat.add_assoc]
  · rw [done.fileSize, size, after.fileSize]
    cases (write.written wal).call.1 <;> rfl
  · rw [done.frameCount, UInt32.toNat_add, after.frameCount, pagesWritten, Nat.mod_add_mod]

theorem Truncated.after (truncated : Truncated wal next offset) (after : wal.After calls) :
    next.After (.truncate offset :: calls) := by
  refine ⟨?_, truncated.position, ?_, ?_, ?_⟩
  · rw [truncated.size]
    exact (max_eq_left truncated.behindHeader).symm
  · rw [truncated.logOffset]
    exact (Nat.mod_eq_of_lt offset.toNat_lt).symm
  · exact truncated.fileSize.trans after.fileSize
  · exact (congrArg _ truncated.frameCount).trans after.frameCount

theorem LogRun.after (run : LogRun start calls wal) (new : start.After []) : wal.After calls := by
  induction run with
  | start => exact new
  | call run takes inductionHypothesis =>
    cases takes with
    | write run => exact (LogWrite.run_ok run).after inductionHypothesis
    | truncate run => exact (walTruncate_ok run).after inductionHypothesis

theorem Wal.After.tracks_iff (after : wal.After calls) :
    wal.Tracks ↔ offsetAfter calls = lengthAfter calls ∧ lengthSeen calls = lengthAfter calls := by
  rw [Tracks, after.logOffset, after.fileSize, after.size]

/-- After a truncation the lengths are right and the header agrees exactly if the length seen
already was the offset and no frames were counted. -/
theorem Truncated.right_iff (truncated : Truncated wal next offset) (after : wal.After calls) :
    next.Tracks ∧ next.MatchesHeader ↔
      lengthSeen calls = offset.toNat ∧ pagesWritten calls % 2 ^ 32 = 0 := by
  rw [Wal.Tracks, Wal.MatchesHeader, truncated.logOffset, truncated.size, truncated.endOffset,
    truncated.noFrames, truncated.fileSize, truncated.frameCount, ← after.frameCount,
    ← after.fileSize, ← UInt32.toNat_inj]
  simp

theorem LogRun.right_iff (run : LogRun start calls wal) (new : start.After []) :
    wal.RightAfter calls ↔ LengthsRight calls := by
  cases run with
  | start => exact new.tracks_iff
  | call run takes =>
    have before := run.after new
    cases takes with
    | write run => exact ((LogWrite.run_ok run).after before).tracks_iff
    | truncate run => exact (walTruncate_ok run).right_iff before

end Runs

/-! ### Plain runs -/

/-- A write that counts what it puts into the file and whose `fstat` answers, or a truncation. -/
def LogChange.Plain : LogChange → Prop
  | .write entry answered => entry.counted.toNat = entry.bytes.length ∧ answered = true
  | .truncate _ => True

section Plain

variable {calls : List LogChange}

theorem countedSince_of_plain (plain : ∀ call ∈ calls, call.Plain) :
    countedSince calls = bytesSince calls := by
  induction calls with
  | nil => rfl
  | cons call calls inductionHypothesis =>
    have earlier := inductionHypothesis fun call member => plain _ (List.mem_cons_of_mem _ member)
    cases call with
    | write write answered =>
      obtain ⟨counts, -⟩ := plain _ List.mem_cons_self
      rw [countedSince, bytesSince, earlier, counts]
    | truncate offset => rfl

/-- After a write the lengths are right exactly if the log was last cut back to its header. -/
theorem lengthsRight_write_iff {answered : Bool}
    (plain : ∀ call ∈ LogChange.write write answered :: calls, call.Plain)
    (room : WalHeader.sizeof + bytesSince (.write write answered :: calls) < 2 ^ 64) :
    LengthsRight (.write write answered :: calls) ↔
      lastCut calls = some WalHeader.sizeof.toUInt64 := by
  have positive := List.length_pos_iff.mpr write.bytes_ne_nil
  obtain rfl : answered = true := (plain _ List.mem_cons_self).2
  have seen : LengthsRight (.write write true :: calls) ↔
      offsetAfter (.write write true :: calls) = lengthAfter (.write write true :: calls) :=
    and_iff_left rfl
  rw [seen, offsetAfter, lengthAfter, countedSince_of_plain plain,
    cutLength, lastCut]
  rw [bytesSince] at room ⊢
  cases lastCut calls with
  | none =>
    have header : walHeaderSize < WalHeader.sizeof := by decide
    simp only [Option.elim, reduceCtorEq, iff_false]
    omega
  | some offset =>
    have small := offset.toNat_lt
    rw [Option.some.injEq, ← UInt64.toNat_inj]
    simp only [Option.elim]
    change _ ↔ offset.toNat = WalHeader.sizeof
    omega

end Plain

/-- After every run from a new log the lengths are right exactly if the calls meet the condition,
which a new log itself does not. After a write in a plain run the condition is that the log was last
cut back to its header. -/
theorem log_lengths_right_iff {path opened : Path} {new wal : Wal} {calls : List LogChange}
    (created : walOpen path = (some new, opened)) (absent : (path.open true).1 = none)
    (run : LogRun new calls wal) :
    (wal.RightAfter calls ↔ LengthsRight calls) ∧
    ((∀ call ∈ calls, call.Plain) → WalHeader.sizeof + bytesSince calls < 2 ^ 64 →
      ∀ write answered earlier, calls = .write write answered :: earlier →
        (LengthsRight calls ↔ lastCut earlier = some WalHeader.sizeof.toUInt64)) := by
  have fresh := after_open created absent
  refine ⟨run.right_iff fresh, ?_⟩
  rintro plain room write answered earlier rfl
  exact lengthsRight_write_iff plain room

/-- A checkpoint entry without payload. -/
def checkpointWrite : LogWrite := .entry .checkpoint 0 0 none

/-- A new log, cut back to its header. -/
def restartedLog : WalCode × Wal := walTruncate newLog WalHeader.sizeof.toUInt64

/-- The log after two entries. -/
def refilledLog : WalCode × Wal :=
  checkpointWrite.run (checkpointWrite.run restartedLog.2).2

/-- The calls that lead there, the latest first. -/
def refillCalls : List LogChange :=
  [.write checkpointWrite true, .write checkpointWrite true,
    .truncate WalHeader.sizeof.toUInt64]

/-- A new log that is cut back to its header and gets two entries knows its length; if it is then
truncated behind the first of them, it does not. -/
theorem log_lengths_right_restarted : ∃ created opened next cut,
    walOpen newPath = (some created, opened) ∧ LogRun created refillCalls next ∧ next.Tracks ∧
      LogRun created (.truncate 56 :: refillCalls) cut ∧
        ¬(cut.Tracks ∧ cut.MatchesHeader) := by
  have cut : restartedLog = (.success, restartedLog.2) := Prod.ext (by decide +kernel) rfl
  have first : checkpointWrite.run restartedLog.2 =
      (.success, (checkpointWrite.run restartedLog.2).2) := Prod.ext (by decide +kernel) rfl
  have second : refilledLog = (.success, refilledLog.2) := Prod.ext (by decide +kernel) rfl
  have third : walTruncate refilledLog.2 56 = (.success, (walTruncate refilledLog.2 56).2) :=
    Prod.ext (by decide +kernel) rfl
  have run : LogRun newLog refillCalls refilledLog.2 :=
    ((LogRun.start.call (.truncate cut)).call (.write first)).call (.write second)
  have rerun := run.call (.truncate third)
  refine ⟨_, _, _, _, newLog_opened, run, ?_, rerun, fun right => ?_⟩
  · exact (log_lengths_right_iff newLog_opened rfl run).1.mpr ⟨by decide +kernel, rfl⟩
  · have seen := (log_lengths_right_iff newLog_opened rfl rerun).1.mp right
    exact absurd seen.1 (by decide +kernel)

/-- The lengths of a new log. -/
theorem new_log_length_wrong : ∃ created opened, walOpen newPath = (some created, opened) ∧
    created.logOffset = 32 ∧ created.fd.file.size = 40 ∧ ¬created.Tracks := by
  refine ⟨_, _, rfl, rfl, rfl, ?_⟩
  rintro ⟨offset, -⟩
  exact absurd offset (by decide)

end TinyDb

/-
This file asks whether the write-ahead log only grows: whether the bytes after
the file header before a call are a prefix of those after it, for every sequence
of appends, page writes, recovery scans, closings and reopenings.

No writing call seeks first, so the answer depends on where the file position
stands. A write keeps the log exactly when the position is at the end of the file,
or what is written and what stands there are the same as far as both go. On a new
log that is only written to the position stays at the end. Reopening leaves it just
behind the file header, so that the next entry goes over the first one.
-/

import TinyDb.Wal

namespace TinyDb

open Bytes Posix List

variable {wal : Wal}

/-! ### Logs and calls -/

/-- The bytes after the file header. -/
def logBytes (file : File) : List UInt8 :=
  window file.byte WalHeader.sizeof (file.size - WalHeader.sizeof)

/-- A log between two calls: open, or closed and left in the file system. -/
inductive LogState
  | opened (wal : Wal)
  | closed (path : Path)

/-- The bytes of the log after the file header. -/
def LogState.log : LogState → List UInt8
  | .opened wal => logBytes wal.fd.file
  | .closed path => (path.file.map logBytes).getD []

/-- The calls a log is used with. -/
inductive LogCall
  | append (type : WalEntryType) (txId : UInt64) (size : UInt32) (payload : Option (Payload size))
  | writePage (txId : UInt64) (pageNum : UInt32) (data : PageData) (stack : FrameStack)
  | recoveryInfo
  | close
  | reopen

variable {call : LogCall} {calls : List LogCall}

/-- The handle of a call that succeeded. -/
def succeeded : WalCode × Wal → Option LogState
  | (.success, wal) => some (.opened wal)
  | _ => none

/-- The log after a successful call. -/
def LogCall.run : LogCall → LogState → Option LogState
  | .append type txId _ payload, .opened wal => succeeded (walAppend wal type txId payload)
  | .writePage txId pageNum data stack, .opened wal =>
    succeeded (walWritePage wal txId pageNum data stack)
  | .recoveryInfo, .opened wal => some (.opened (walRecoveryInfo wal).2)
  | .close, .opened wal => some (.closed (walClose wal))
  | .reopen, .closed path => (walOpen path).1.map .opened
  | _, _ => none

/-- The log after a sequence of successful calls. -/
def LogState.after (state : LogState) (calls : List LogCall) : Option LogState :=
  calls.foldlM (fun state call => call.run state) state

/-- A step of a run: the call takes the log from one state to the next. -/
def StepOf (start : LogState) (calls : List LogCall) (before : LogState) (call : LogCall)
    (after : LogState) : Prop :=
  ∃ early late, calls = early ++ call :: late ∧ start.after early = some before ∧
    call.run before = some after

/-- Every step of a run leaves the log as the beginning of the new one. -/
def KeepsLog (start : LogState) (calls : List LogCall) : Prop :=
  ∀ before call after, StepOf start calls before call after → before.log <+: after.log

/-! ### Which calls keep the log -/

/-- One of the two is the beginning of the other. -/
def Comparable (first second : List UInt8) : Prop := first <+: second ∨ second <+: first

/-- The log from the file position on, which the next write goes over. -/
def Wal.ahead (wal : Wal) : List UInt8 :=
  (logBytes wal.fd.file).drop (wal.fd.position - WalHeader.sizeof)

/-- The position is at the end of the file, or what is written behind the file header and what
stands there are the same as far as both go. -/
def Wal.Spares (wal : Wal) (bytes : List UInt8) : Prop :=
  wal.fd.file.size ≤ wal.fd.position ∨
    Comparable (bytes.drop (WalHeader.sizeof - wal.fd.position)) wal.ahead

/-- The condition under which a call keeps the log. A reopening must find the file; a new log is
started if `open` fails. -/
def LogCall.Spares : LogCall → LogState → Prop
  | .append type txId _ payload, .opened wal => wal.Spares (walEntryBytes type txId payload)
  | .writePage _ pageNum data stack, .opened wal => wal.Spares (walFrame pageNum data stack)
  | .reopen, .closed path => (path.open true).1 ≠ none ∨ (LogState.closed path).log = []
  | _, _ => True

theorem prefix_of_agree {first second : List UInt8} (shorter : first.length ≤ second.length)
    (agree : ∀ index < first.length, first.getD index 0 = second.getD index 0) :
    first <+: second := by
  rw [prefix_iff_getElem]
  refine ⟨shorter, fun index inside => ?_⟩
  have same := agree _ inside
  rwa [getD_eq_getElem _ _ _, getD_eq_getElem _ _ (by omega)] at same

theorem comparable_iff (first second : List UInt8) :
    Comparable first second ↔
      ∀ index < first.length, index < second.length → first.getD index 0 = second.getD index 0 := by
  constructor
  · rintro (⟨rest, rfl⟩ | ⟨rest, rfl⟩) index inFirst inSecond
    · exact (getD_append _ _ _ _ inFirst).symm
    · exact getD_append _ _ _ _ inSecond
  · intro agree
    rcases le_total first.length second.length with shorter | longer
    · exact Or.inl (prefix_of_agree shorter fun index inside => agree _ inside (by omega))
    · exact Or.inr (prefix_of_agree longer fun index inside => (agree _ (by omega) inside).symm)

theorem comparable_nil (first : List UInt8) : Comparable first [] := Or.inr nil_prefix

/-- What is written in two pieces is compared piece by piece. -/
theorem comparable_append (first second rest : List UInt8) :
    Comparable (first ++ second) rest ↔
      Comparable first rest ∧ Comparable second (rest.drop first.length) := by
  constructor
  · intro comparable
    have begins : Comparable first rest := by
      rcases comparable with longer | shorter
      · exact Or.inl ((prefix_append _ _).trans longer)
      · exact prefix_or_prefix_of_prefix (prefix_append _ _) shorter
    refine ⟨begins, ?_⟩
    rcases begins with ⟨other, rfl⟩ | shorter
    · rw [drop_left]
      exact comparable.imp (prefix_append_right_inj _).mp (prefix_append_right_inj _).mp
    · rw [drop_eq_nil_of_le shorter.length_le]
      exact comparable_nil _
  · rintro ⟨⟨other, rfl⟩ | shorter, comparable⟩
    · rw [drop_left] at comparable
      exact comparable.imp (prefix_append_right_inj _).mpr (prefix_append_right_inj _).mpr
    · exact Or.inr (shorter.trans (prefix_append _ _))

theorem getD_drop (bytes : List UInt8) (skip index : Nat) :
    (bytes.drop skip).getD index 0 = bytes.getD (skip + index) 0 := by
  simp [getD]

theorem logBytes_drop (file : File) (skip : Nat) :
    (logBytes file).drop skip =
      window file.byte (WalHeader.sizeof + skip) (file.size - WalHeader.sizeof - skip) := by
  refine ext_getElem (by simp [logBytes]) fun index _ _ => ?_
  simp [logBytes, window, Nat.add_assoc]

section Writing

variable {wal next : Wal} {bytes : List UInt8}

theorem Wal.ahead_length (wal : Wal) :
    wal.ahead.length =
      wal.fd.file.size - WalHeader.sizeof - (wal.fd.position - WalHeader.sizeof) := by
  rw [ahead, length_drop, logBytes, window_length]

theorem Wal.ahead_getD {index : Nat} (inside : index < wal.ahead.length) :
    wal.ahead.getD index 0 = wal.fd.file.byte (max WalHeader.sizeof wal.fd.position + index) := by
  rw [ahead_length] at inside
  rw [ahead, getD_drop, logBytes, window_getD _ (by omega)]
  congr 1
  omega

theorem Wal.spares_iff (wal : Wal) (bytes : List UInt8) :
    wal.Spares bytes ↔ Comparable (bytes.drop (WalHeader.sizeof - wal.fd.position)) wal.ahead := by
  refine or_iff_right_of_imp fun atEnd => ?_
  have empty : wal.ahead = [] := length_eq_zero_iff.mp (by rw [ahead_length]; omega)
  exact empty ▸ comparable_nil _

theorem WroteLog.keeps_iff (wrote : WroteLog wal next bytes) :
    logBytes wal.fd.file <+: logBytes next.fd.file ↔ wal.Spares bytes := by
  have grows := File.size_le_write wal.fd.file wal.fd.position bytes
  rw [Wal.spares_iff, comparable_iff, wrote.file, logBytes, logBytes,
    window_prefix_iff (Nat.sub_le_sub_right grows _), File.write_byte, length_drop]
  constructor
  · intro agree index inside within
    have length := wal.ahead_length
    have same := agree (max WalHeader.sizeof wal.fd.position + index - WalHeader.sizeof) (by omega)
    obtain ⟨place, inBytes⟩ : max WalHeader.sizeof wal.fd.position + index =
        wal.fd.position + (WalHeader.sizeof - wal.fd.position + index) ∧
          WalHeader.sizeof - wal.fd.position + index < bytes.length := by omega
    rw [Nat.add_sub_cancel' (by omega), place, overlay_inside inBytes] at same
    rw [Wal.ahead_getD within, place, getD_drop, same]
  · intro agree index inside
    by_cases written : wal.fd.position ≤ WalHeader.sizeof + index ∧
        WalHeader.sizeof + index < wal.fd.position + bytes.length
    · have length := wal.ahead_length
      obtain ⟨skip, place⟩ := Nat.exists_eq_add_of_le
        (show max WalHeader.sizeof wal.fd.position ≤ WalHeader.sizeof + index by omega)
      have same := agree skip (by omega) (by omega)
      rw [Wal.ahead_getD (by omega), getD_drop, ← place] at same
      have inBytes : WalHeader.sizeof + index =
          wal.fd.position + (WalHeader.sizeof - wal.fd.position + skip) := by omega
      rw [← same, inBytes, overlay_inside (by omega)]
    · exact overlay_outside (by omega)

/-- A write takes as much from what is ahead as it puts into the file. -/
theorem WroteLog.ahead_eq (wrote : WroteLog wal next bytes)
    (behind : WalHeader.sizeof ≤ wal.fd.position) :
    next.ahead = wal.ahead.drop bytes.length := by
  have size : next.fd.file.size - (wal.fd.position + bytes.length) =
      wal.fd.file.size - (wal.fd.position + bytes.length) := by
    rw [wrote.file]
    by_cases empty : bytes = []
    · rw [empty, File.write_nil]
    · rw [File.write_size _ empty]
      omega
  rw [Wal.ahead, Wal.ahead, drop_drop, wrote.position, logBytes_drop, logBytes_drop]
  have place : WalHeader.sizeof + (wal.fd.position + bytes.length - WalHeader.sizeof) =
      wal.fd.position + bytes.length := by omega
  rw [← Nat.sub_add_comm behind, place, Nat.sub_sub, place, Nat.sub_sub, place, size, wrote.file,
    File.write_byte, window_overlay_disjoint (Or.inr le_rfl)]

end Writing

theorem succeeded_eq_some {result : WalCode × Wal} {state : LogState}
    (run : succeeded result = some state) :
    ∃ wal, result = (.success, wal) ∧ state = .opened wal := by
  unfold succeeded at run
  split at run
  · exact ⟨_, rfl, (Option.some.inj run).symm⟩
  · cases run

theorem logBytes_newWalFile : logBytes newWalFile = [] := by decide

theorem walOpen_keeps_iff {path opened : Path} (run : walOpen path = (some wal, opened)) :
    (LogState.closed path).log <+: logBytes wal.fd.file ↔ LogCall.reopen.Spares (.closed path) := by
  obtain ⟨-, -, ⟨found, file⟩ | ⟨failed, file⟩⟩ := walOpen_ok run
  · have same : (LogState.closed path).log = logBytes wal.fd.file := by
      rw [LogState.log, file]
      rfl
    rw [same]
    exact iff_of_true prefix_rfl (Or.inl found)
  · rw [file, logBytes_newWalFile, prefix_nil]
    exact (or_iff_right (not_not.mpr failed)).symm

/-- A successful call keeps the log exactly under its condition. -/
theorem LogCall.keeps_iff {before after : LogState} (run : call.run before = some after) :
    before.log <+: after.log ↔ call.Spares before := by
  unfold LogCall.run at run
  split at run
  · obtain ⟨next, appended, rfl⟩ := succeeded_eq_some run
    exact (walAppend_ok appended).keeps_iff
  · obtain ⟨next, written, rfl⟩ := succeeded_eq_some run
    exact (walWritePage_ok written).keeps_iff
  · rename_i wal
    cases run
    have same : logBytes (walRecoveryInfo wal).2.fd.file = logBytes wal.fd.file :=
      congrArg _ (walScanLoop_file _ _ _ _)
    refine iff_of_true ?_ trivial
    change logBytes wal.fd.file <+: logBytes (walRecoveryInfo wal).2.fd.file
    exact same.symm ▸ prefix_rfl
  · rename_i wal
    cases run
    refine iff_of_true ?_ trivial
    rw [LogState.log, LogState.log, walClose_file]
    exact prefix_rfl
  · rename_i path
    obtain ⟨wal, opened, rfl⟩ := Option.map_eq_some_iff.mp run
    exact walOpen_keeps_iff (Prod.ext opened rfl)
  · cases run

/-! ### Sessions -/

/-- The calls that write an entry or a page. -/
def LogCall.writes : LogCall → Bool
  | .append .. => true
  | .writePage .. => true
  | _ => false

/-- The bytes that a call writes. -/
def LogCall.bytes : LogCall → List UInt8
  | .append type txId _ payload => walEntryBytes type txId payload
  | .writePage _ pageNum data stack => walFrame pageNum data stack
  | _ => []

theorem LogCall.wroteLog {after : LogState} (run : call.run (.opened wal) = some after)
    (writes : call.writes = true) :
    ∃ next, after = .opened next ∧ WroteLog wal next call.bytes := by
  cases call with
  | append type txId size payload =>
    obtain ⟨next, appended, rfl⟩ := succeeded_eq_some run
    exact ⟨next, rfl, walAppend_ok appended⟩
  | writePage txId pageNum data stack =>
    obtain ⟨next, written, rfl⟩ := succeeded_eq_some run
    exact ⟨next, rfl, walWritePage_ok written⟩
  | recoveryInfo => cases writes
  | close => cases writes
  | reopen => cases writes

theorem keepsLog_cons {start next : LogState} (run : call.run start = some next) :
    KeepsLog start (call :: calls) ↔ start.log <+: next.log ∧ KeepsLog next calls := by
  constructor
  · intro keeps
    refine ⟨keeps _ _ _ ⟨[], calls, rfl, rfl, run⟩, ?_⟩
    rintro before later after ⟨early, late, rfl, reached, step⟩
    refine keeps _ _ _ ⟨call :: early, late, rfl, ?_, step⟩
    exact Option.bind_eq_some_iff.mpr ⟨next, run, reached⟩
  · rintro ⟨first, keeps⟩ before later after ⟨_ | ⟨head, early⟩, late, split, reached, step⟩
    · cases split
      cases reached
      rw [run] at step
      exact Option.some.inj step ▸ first
    · cases split
      obtain ⟨state, stepped, reached⟩ := Option.bind_eq_some_iff.mp reached
      cases run.symm.trans stepped
      exact keeps _ _ _ ⟨early, late, rfl, reached, step⟩

/-- From a position behind the file header, writes keep the log exactly when all they write and
what is ahead are the same as far as both go. -/
theorem writes_keep_iff {finish : LogState} (behind : WalHeader.sizeof ≤ wal.fd.position)
    (writes : ∀ call ∈ calls, call.writes = true)
    (run : (LogState.opened wal).after calls = some finish) :
    KeepsLog (.opened wal) calls ↔ Comparable (calls.flatMap LogCall.bytes) wal.ahead := by
  induction calls generalizing wal with
  | nil =>
    refine iff_of_true ?_ (Or.inl nil_prefix)
    rintro before call after ⟨early, late, split, -⟩
    exact absurd split (by simp)
  | cons call calls inductionHypothesis =>
    obtain ⟨state, step, rest⟩ := Option.bind_eq_some_iff.mp run
    obtain ⟨next, rfl, wrote⟩ := LogCall.wroteLog step (writes _ mem_cons_self)
    have later := inductionHypothesis (wrote.position ▸ Nat.le_add_right_of_le behind)
      (fun call member => writes _ (mem_cons_of_mem _ member)) rest
    have first : (LogState.opened wal).log <+: (LogState.opened next).log ↔
        Comparable call.bytes wal.ahead := by
      have keeps := wrote.keeps_iff
      rwa [Wal.spares_iff, Nat.sub_eq_zero_of_le behind, drop_zero] at keeps
    rw [keepsLog_cons step, first, later, flatMap_cons, comparable_append, wrote.ahead_eq behind]

/-- A run keeps the log exactly when before every write the position is at the end of the file or
the write repeats what is ahead, and every reopening finds the file. The position is just behind
the file header after an opening, so that a session of writes keeps the log exactly when it repeats
the log from its beginning or the log is the beginning of what it writes; in a new log it always
does. -/
theorem log_append_only_iff (calls : List LogCall) :
    (∀ start, KeepsLog start calls ↔
      ∀ before call after, StepOf start calls before call after → call.Spares before) ∧
    ∀ path opened wal finish, walOpen path = (some wal, opened) →
      (∀ call ∈ calls, LogCall.writes call = true) →
      (LogState.opened wal).after calls = some finish →
      (KeepsLog (.opened wal) calls ↔
        Comparable (calls.flatMap LogCall.bytes) (logBytes wal.fd.file)) ∧
      ((path.open true).1 = none → KeepsLog (.opened wal) calls) := by
  refine ⟨fun start => ?_, fun path opened wal finish run writes reached => ?_⟩
  · refine forall_congr' fun before => forall_congr' fun call => forall_congr' fun after =>
      imp_congr_right fun step => ?_
    obtain ⟨-, -, -, -, run⟩ := step
    exact LogCall.keeps_iff run
  · obtain ⟨position, -, file⟩ := walOpen_ok run
    have keeps := writes_keep_iff position.ge writes reached
    rw [Wal.ahead, position, Nat.sub_self, drop_zero] at keeps
    refine ⟨keeps, fun absent => keeps.mpr ?_⟩
    obtain ⟨found, -⟩ | ⟨-, new⟩ := file
    · exact absurd absent found
    · rw [new, logBytes_newWalFile]
      exact comparable_nil _

/-- An entry for transaction 1 without payload. -/
def markCall (type : WalEntryType) : LogCall := .append type 1 0 none

/-- A closed log with the record that began transaction 1. -/
def begunPath : Path := walClose (walAppend newLog .begin 1 (none : Option (Payload 0))).2

/-- A second session that begins transaction 1 again and commits it keeps the log of the first; one
that only commits it does not. -/
theorem log_append_only_repeated : ∃ wal opened, walOpen begunPath = (some wal, opened) ∧
    KeepsLog (.opened wal) [markCall .begin, markCall .commit] ∧
      ¬KeepsLog (.opened wal) [markCall .commit] := by
  have keeps := fun calls finish => (log_append_only_iff calls).2 begunPath _ _ finish rfl
  refine ⟨_, _, rfl, (keeps _ _ (by decide) rfl).1.mpr ?_, ?_⟩
  · exact Or.inr (by decide +kernel)
  · rw [(keeps _ _ (by decide) rfl).1]
    rintro (longer | shorter)
    · revert longer
      decide +kernel
    · revert shorter
      decide +kernel

/-- The commit after a reopening goes over the record that began the transaction. -/
theorem begin_overwritten_by_commit : ∃ before after,
    StepOf (.closed newPath) [.reopen, markCall .begin, .close, .reopen, markCall .commit]
      before (markCall .commit) after ∧ ¬before.log <+: after.log := by
  refine ⟨_, _, ⟨[.reopen, markCall _, .close, .reopen], [], rfl, rfl, rfl⟩, ?_⟩
  decide

end TinyDb

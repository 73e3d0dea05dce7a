/-
This file asks whether a transaction id is ever used twice in one log.

The counter behind `wal_begin_tx` is a field of the handle. `wal_open` sets it to
zero and reads nothing back from the log, and 64 bits are all it has. So the id a
`wal_begin_tx` writes is the number of `wal_begin_tx` calls since the log was last
opened, modulo the word size, and ids grow along a run exactly as long as these
numbers do. A call that fails counts as well: the counter moves before anything is
written.
-/

import TinyDb.AppendOnly
import TinyDb.Framing

namespace TinyDb

open Bytes Posix List

/-! ### Sessions -/

/-- The calls that begin and end transactions, close a log and open it again. -/
inductive SessionCall
  | begin
  | commit
  | rollback
  | close
  | openLog
  deriving DecidableEq

/-- Whether a call on a handle succeeded, and the log after it. -/
def reported : WalCode × Wal → Bool × LogState
  | (code, wal) => (code = .success, .opened wal)

/-- A call, successful or not. Nothing else than opening can be done with a closed log. -/
def SessionCall.run : SessionCall → LogState → Option (Bool × LogState)
  | .begin, .opened wal => some (reported (walBeginTx wal))
  | .commit, .opened wal => some (reported (walCommitTx wal))
  | .rollback, .opened wal => some (reported (walRollbackTx wal))
  | .close, .opened wal => some (true, .closed (walClose wal))
  | .openLog, .closed path =>
    match walOpen path with
    | (some wal, _) => some (true, .opened wal)
    | (none, path) => some (false, .closed path)
  | _, _ => none

/-- The id in the record that a successful `wal_begin_tx` has written: it is read back from the file,
from where the position was before the call. -/
def begunIds : SessionCall × Bool → LogState → LogState → List UInt64
  | (.begin, true), .opened wal, .opened next =>
    [(WalEntryHeader.decode
      (window next.fd.file.byte wal.fd.position WalEntryHeader.sizeof)).txId]
  | _, _, _ => []

/-- A run: the calls with whether each one succeeded, and the ids that were written. -/
def sessionRun (state : LogState) :
    List SessionCall → Option (List (SessionCall × Bool) × List UInt64)
  | [] => some ([], [])
  | call :: calls => do
    let (success, after) ← call.run state
    let (rest, ids) ← sessionRun after calls
    return ((call, success) :: rest, begunIds (call, success) state after ++ ids)

/-! ### Numbering the calls -/

/-- How many `wal_begin_tx` calls there were since the log was last opened, after one more call. -/
def countBegun (count : Nat) : SessionCall × Bool → Nat
  | (.begin, _) => count + 1
  | (.openLog, true) => 0
  | _ => count

/-- The numbers, within their sessions and modulo the word size, of the `wal_begin_tx` calls that
succeed. -/
def begunNumbers (count : Nat) : List (SessionCall × Bool) → List Nat
  | [] => []
  | call :: calls =>
    (if call = (.begin, true) then [(count + 1) % 2 ^ 64] else []) ++
      begunNumbers (countBegun count call) calls

/-- The counter of an open log is right. -/
def Counts (count : Nat) : LogState → Prop
  | .opened wal => wal.currentTxId.toNat = count % 2 ^ 64
  | .closed _ => True

section Numbering

variable {wal : Wal} {count : Nat} {success : Bool} {after : LogState}

theorem Wal.updateSize_currentTxId (wal : Wal) : wal.updateSize.currentTxId = wal.currentTxId := by
  unfold Wal.updateSize
  split <;> rfl

/-- Whatever becomes of an entry, it leaves the counter alone. -/
theorem walAppend_currentTxId (wal : Wal) (type : WalEntryType) (txId : UInt64) {size : UInt32}
    (payload : Option (Payload size)) :
    (walAppend wal type txId payload).2.currentTxId = wal.currentTxId := by
  unfold walAppend
  split
  · split
    · rfl
    · split
      · rfl
      · exact Wal.updateSize_currentTxId _
  · rfl

/-- The record of a successful `wal_begin_tx` holds the next value of the counter. -/
theorem walBeginTx_written {next : Wal} (run : walBeginTx wal = (.success, next)) :
    (WalEntryHeader.decode
      (window next.fd.file.byte wal.fd.position WalEntryHeader.sizeof)).txId =
        wal.currentTxId + 1 := by
  have wrote := walAppend_ok run
  have bytes : walEntryBytes .begin (wal.currentTxId + 1) (none : Option (Payload 0)) =
      (walEntryHeader .begin (wal.currentTxId + 1) (none : Option (Payload 0))).encode :=
    append_nil _
  rw [bytes] at wrote
  have found := wrote.window_eq (WalEntryHeader.encode_length _)
  rw [found, WalEntryHeader.decode_encode]
  exact (walEntryHeader_fields _ _ _).2.2

theorem toNat_succ_of_counts {current : UInt64} (counts : current.toNat = count % 2 ^ 64) :
    (current + 1).toNat = (count + 1) % 2 ^ 64 := by
  rw [UInt64.toNat_add, counts, Nat.mod_add_mod]
  rfl

theorem reported_eq {result : WalCode × Wal}
    (step : some (reported result) = some (success, after)) :
    ∃ code wal, result = (code, wal) ∧ success = decide (code = .success) ∧
      after = .opened wal := by
  cases step
  exact ⟨result.1, result.2, rfl, rfl, rfl⟩

/-- Records that end a transaction leave the numbering as it is. -/
theorem walAppendMark_counts {type : WalEntryType}
    (step : some (reported (walAppendMark wal type)) = some (success, after))
    (counts : Counts count (.opened wal)) : Counts count after := by
  obtain ⟨code, next, run, -, rfl⟩ := reported_eq step
  have kept : next.currentTxId = wal.currentTxId := by
    rw [← walAppend_currentTxId wal _ _ _]
    exact congrArg (fun result => result.2.currentTxId) run.symm
  exact (congrArg _ kept).trans counts

theorem walBeginTx_counts (step : some (reported (walBeginTx wal)) = some (success, after))
    (counts : Counts count (.opened wal)) :
    Counts (count + 1) after ∧ (begunIds (.begin, success) (.opened wal) after).map UInt64.toNat =
      if success then [(count + 1) % 2 ^ 64] else [] := by
  obtain ⟨code, next, run, rfl, rfl⟩ := reported_eq step
  have counter : next.currentTxId = wal.currentTxId + 1 := by
    have kept := walAppend_currentTxId { wal with currentTxId := wal.currentTxId + 1 } .begin
      (wal.currentTxId + 1) (none : Option (Payload 0))
    exact (congrArg (fun result => result.2.currentTxId) run.symm).trans kept
  refine ⟨(congrArg _ counter).trans (toNat_succ_of_counts counts), ?_⟩
  by_cases success : code = .success
  · subst success
    rw [decide_eq_true rfl, if_pos rfl, begunIds, walBeginTx_written run, map_singleton,
      toNat_succ_of_counts counts]
  · simp [success, begunIds]

/-- A call moves the counter as it is numbered, and a record that is written has the number. -/
theorem SessionCall.counts {call : SessionCall} {before : LogState}
    (step : call.run before = some (success, after)) (counts : Counts count before) :
    Counts (countBegun count (call, success)) after ∧
      (begunIds (call, success) before after).map UInt64.toNat =
        if (call, success) = (.begin, true) then [(count + 1) % 2 ^ 64] else [] := by
  unfold SessionCall.run at step
  split at step
  · obtain ⟨moved, written⟩ := walBeginTx_counts step counts
    refine ⟨moved, written.trans ?_⟩
    simp
  · exact ⟨walAppendMark_counts step counts, rfl⟩
  · exact ⟨walAppendMark_counts step counts, rfl⟩
  · obtain ⟨rfl, rfl⟩ := Prod.mk.inj (Option.some.inj step)
    exact ⟨trivial, rfl⟩
  · split at step
    · rename_i path wal opened opening
      cases step
      obtain ⟨-, currentTxId, -⟩ := walOpen_ok opening
      exact ⟨congrArg _ currentTxId, rfl⟩
    · obtain ⟨rfl, rfl⟩ := Prod.mk.inj (Option.some.inj step)
      exact ⟨trivial, rfl⟩
  · cases step

/-- The ids of a run are the numbers of the calls. -/
theorem sessionRun_ids {calls : List SessionCall} {state : LogState}
    {results : List (SessionCall × Bool)} {ids : List UInt64}
    (run : sessionRun state calls = some (results, ids)) (counts : Counts count state) :
    ids.map UInt64.toNat = begunNumbers count results := by
  induction calls generalizing state results ids count with
  | nil =>
    cases run
    rfl
  | cons call calls inductionHypothesis =>
    obtain ⟨⟨success, after⟩, step, run⟩ := Option.bind_eq_some_iff.mp run
    obtain ⟨⟨rest, later⟩, next, last⟩ := Option.bind_eq_some_iff.mp run
    cases last
    obtain ⟨counted, written⟩ := SessionCall.counts step counts
    rw [map_append, written, inductionHypothesis next counted, begunNumbers]

end Numbering

/-! ### When ids grow -/

/-- How many `wal_begin_tx` calls there are. -/
def beginCalls (calls : List (SessionCall × Bool)) : Nat := calls.countP fun call => call.1 = .begin

/-- All transactions are begun in one session, and there are fewer calls than ids. -/
def OneSession (calls : List (SessionCall × Bool)) : Prop :=
  beginCalls calls < 2 ^ 64 ∧ ∃ early session late, calls = early ++ session ++ late ∧
    (.begin, true) ∉ early ∧ (.openLog, true) ∉ session ∧ (.begin, true) ∉ late

section Ids

variable {calls : List (SessionCall × Bool)}

theorem begunNumbers_append (count : Nat) (early late : List (SessionCall × Bool)) :
    begunNumbers count (early ++ late) =
      begunNumbers count early ++ begunNumbers (early.foldl countBegun count) late := by
  induction early generalizing count with
  | nil => rfl
  | cons call early inductionHypothesis =>
    rw [cons_append, begunNumbers, begunNumbers, foldl_cons, inductionHypothesis,
      append_assoc]

theorem begunNumbers_of_notMem (none : (.begin, true) ∉ calls) (count : Nat) :
    begunNumbers count calls = [] := by
  induction calls generalizing count with
  | nil => rfl
  | cons call calls inductionHypothesis =>
    rw [mem_cons, not_or] at none
    rw [begunNumbers, if_neg (Ne.symm none.1), inductionHypothesis none.2, append_nil]

theorem beginCalls_cons (call : SessionCall × Bool) (calls : List (SessionCall × Bool)) :
    beginCalls (call :: calls) = beginCalls calls + if call.1 = .begin then 1 else 0 := by
  simp [beginCalls, countP_cons]

/-- The count is never above the number of calls. -/
theorem foldl_countBegun_le (count : Nat) (calls : List (SessionCall × Bool)) :
    calls.foldl countBegun count ≤ count + beginCalls calls := by
  induction calls generalizing count with
  | nil => exact Nat.le_add_right _ _
  | cons call calls inductionHypothesis =>
    have moved : countBegun count call ≤ count + if call.1 = .begin then 1 else 0 := by
      unfold countBegun
      split <;> simp
    have rest := inductionHypothesis (countBegun count call)
    rw [foldl_cons, beginCalls_cons]
    omega

/-- Within a session the numbers grow. -/
theorem begunNumbers_increasing (one : (.openLog, true) ∉ calls) {count : Nat}
    (room : count + beginCalls calls < 2 ^ 64) :
    (begunNumbers count calls).Pairwise (· < ·) ∧
      ∀ number ∈ begunNumbers count calls, count < number := by
  induction calls generalizing count with
  | nil => exact ⟨List.Pairwise.nil, fun number member => absurd member not_mem_nil⟩
  | cons call calls inductionHypothesis =>
    rw [mem_cons, not_or] at one
    rw [beginCalls_cons] at room
    obtain ⟨name, success⟩ := call
    cases name with
    | begin =>
      have small : (count + 1) % 2 ^ 64 = count + 1 := Nat.mod_eq_of_lt (by simp at room; omega)
      obtain ⟨increasing, above⟩ := inductionHypothesis one.2
        (by simp at room; omega : count + 1 + beginCalls calls < 2 ^ 64)
      have later : ∀ number ∈ begunNumbers (count + 1) calls, count < number := fun number member =>
        Nat.lt_of_succ_lt (above _ member)
      rw [begunNumbers, small]
      cases success with
      | false => exact ⟨increasing, later⟩
      | true => exact ⟨increasing.cons above, forall_mem_cons.mpr ⟨Nat.lt_succ_self _, later⟩⟩
    | commit => exact inductionHypothesis one.2 room
    | rollback => exact inductionHypothesis one.2 room
    | close => exact inductionHypothesis one.2 room
    | openLog =>
      cases success with
      | false => exact inductionHypothesis one.2 room
      | true => exact absurd rfl one.1

theorem OneSession.increasing (one : OneSession calls) :
    (begunNumbers 0 calls).Pairwise (· < ·) := by
  obtain ⟨room, early, session, late, rfl, before, within, behind⟩ := one
  rw [begunNumbers_append, begunNumbers_append, begunNumbers_of_notMem before,
    begunNumbers_of_notMem behind, append_nil]
  have reached := foldl_countBegun_le 0 early
  refine (begunNumbers_increasing within ?_).1
  rw [beginCalls, countP_append, countP_append] at room
  simp only [beginCalls] at reached ⊢
  omega

/-- Along a run the ids grow exactly if the numbers of the successful `wal_begin_tx` calls within
their sessions do. They do if all transactions are begun in one session. -/
theorem txIds_increasing_iff {path : Path} {calls : List SessionCall}
    {results : List (SessionCall × Bool)} {ids : List UInt64}
    (run : sessionRun (.closed path) calls = some (results, ids)) :
    (ids.Pairwise (· < ·) ↔ (begunNumbers 0 results).Pairwise (· < ·)) ∧
      (OneSession results → ids.Pairwise (· < ·)) := by
  have numbered : ids.Pairwise (· < ·) ↔ (begunNumbers 0 results).Pairwise (· < ·) := by
    rw [← sessionRun_ids run trivial, pairwise_map]
    rfl
  exact ⟨numbered, fun one => numbered.mpr one.increasing⟩

/-- Two transactions in one session. -/
theorem txIds_increasing_two :
    sessionRun (.closed newPath) [.openLog, .begin, .commit, .begin] =
        some ([(.openLog, true), (.begin, true), (.commit, true), (.begin, true)], [1, 2]) ∧
      [(1 : UInt64), 2].Pairwise (· < ·) := by
  have run : sessionRun (.closed newPath) [.openLog, .begin, .commit, .begin] =
      some ([(.openLog, true), (.begin, true), (.commit, true), (.begin, true)], [1, 2]) := by
    decide
  refine ⟨run, (txIds_increasing_iff run).2 ⟨by decide, [(.openLog, true)],
    [(.begin, true), (.commit, true), (.begin, true)], [], rfl, by decide, by decide, by decide⟩⟩

/-- After a reopening the first id is used again. -/
theorem txId_reused :
    sessionRun (.closed newPath) [.openLog, .begin, .close, .openLog, .begin] =
        some ([(.openLog, true), (.begin, true), (.close, true), (.openLog, true),
          (.begin, true)], [1, 1]) ∧
      ¬[(1 : UInt64), 1].Pairwise (· < ·) := by
  decide

end Ids

end TinyDb

/-
This file asks what `wal_recovery_info` reports on a new log that is used without
an error: the last committed transaction, and whether there was a checkpoint.

The scan starts eight bytes before the first entry, because the file header takes
40 bytes and `WAL_HEADER_SIZE` is 32. In a log without page frames every entry
takes 16 bytes, so the scan stays eight bytes off: it takes the transaction id of
one entry for the first half of a header, and the first half of the next entry for
the transaction id. What it then reports is worked out here for every such log of
fewer than 65536 transactions. It never reports a commit, and it reports a
checkpoint whenever the log goes on after transaction 5 has begun.
-/

import Mathlib.Order.Lattice.Nat
import TinyDb.Lib.Run
import TinyDb.Wal

namespace TinyDb

open Bytes Posix List

variable {wal created : Wal} {path opened : Path} {current : UInt64} {offset : Nat}

/-! ### Calls and transactions -/

/-- The calls that write to a log. -/
inductive TxCall
  | begin
  | commit
  | rollback
  | checkpoint
  | writePage (txId : UInt64) (pageNum : UInt32) (data : PageData) (stack : FrameStack)

variable {calls : List TxCall} {call : TxCall}

/-- The call on a handle. -/
def TxCall.run : TxCall → Wal → WalCode × Wal
  | .begin, wal => walBeginTx wal
  | .commit, wal => walCommitTx wal
  | .rollback, wal => walRollbackTx wal
  | .checkpoint, wal => walCheckpoint wal
  | .writePage txId pageNum data stack, wal => walWritePage wal txId pageNum data stack

/-- A sequence of calls that all succeed. -/
inductive TxRun : Wal → List TxCall → Wal → Prop
  | nil (wal : Wal) : TxRun wal [] wal
  | cons {wal next finish : Wal} {call : TxCall} {calls : List TxCall}
      (success : call.run wal = (.success, next)) (rest : TxRun next calls finish) :
      TxRun wal (call :: calls) finish

def TxCall.isBegin : TxCall → Bool
  | .begin => true
  | _ => false

def TxCall.isPage : TxCall → Bool
  | .writePage .. => true
  | _ => false

/-- How many transactions were begun. -/
def begun (calls : List TxCall) : Nat := calls.countP TxCall.isBegin

/-- The transaction with this number was committed: its `BEGIN` is followed by a `COMMIT` with no
`ROLLBACK` and no other `BEGIN` between. -/
def CommittedTx (calls : List TxCall) (number : Nat) : Prop :=
  ∃ early between late, calls = early ++ .begin :: (between ++ .commit :: late) ∧
    number = begun early + 1 ∧ ∀ call ∈ between, call ≠ .begin ∧ call ≠ .rollback

/-- The report is right: it names the last committed transaction, or 0 if there is none, and tells
whether there was a checkpoint. -/
structure Recovers (calls : List TxCall) (info : WalRecoveryInfo) : Prop where
  last : ∀ number, IsGreatest {number | CommittedTx calls number} number →
    info.lastTxId = UInt64.ofNat number
  none : (∀ number, ¬CommittedTx calls number) → info.lastTxId = 0
  checkpoint : info.hasCheckpoint = true ↔ .checkpoint ∈ calls

theorem begun_append (early late : List TxCall) :
    begun (early ++ late) = begun early + begun late :=
  countP_append

theorem CommittedTx.bounds {number : Nat} (committed : CommittedTx calls number) :
    0 < number ∧ number ≤ begun calls := by
  obtain ⟨early, between, late, rfl, rfl, -⟩ := committed
  have one : 0 < begun (.begin :: (between ++ .commit :: late)) := by
    rw [begun, countP_cons_of_pos rfl]
    exact Nat.succ_pos _
  rw [begun_append]
  omega

/-- A report of 0 is right exactly when nothing was committed. -/
theorem recovers_iff_of_zero {info : WalRecoveryInfo} (few : begun calls < 65536)
    (zero : info.lastTxId = 0) :
    Recovers calls info ↔ (∀ number, ¬CommittedTx calls number) ∧
      (info.hasCheckpoint = true ↔ .checkpoint ∈ calls) := by
  constructor
  · intro recovers
    refine ⟨fun number committed => ?_, recovers.checkpoint⟩
    have bounded : BddAbove {number | CommittedTx calls number} :=
      ⟨begun _, fun other member => member.bounds.2⟩
    have greatest : IsGreatest {number | CommittedTx calls number}
        (sSup {number | CommittedTx calls number}) :=
      ⟨Nat.sSup_mem ⟨number, committed⟩ bounded, fun other member => le_csSup bounded member⟩
    have limits := greatest.1.bounds
    have reported := congrArg UInt64.toNat ((recovers.last _ greatest).symm.trans zero)
    rw [UInt64.toNat_ofNat', UInt64.toNat_zero] at reported
    omega
  · rintro ⟨nothing, checkpoint⟩
    exact ⟨fun number greatest => absurd greatest.1 (nothing _), fun _ => zero, checkpoint⟩

/-! ### The log without frames -/

/-- The type an entry is written with. -/
def TxCall.entryType : TxCall → WalEntryType
  | .begin => .begin
  | .commit => .commit
  | .rollback => .rollback
  | .checkpoint => .checkpoint
  | .writePage .. => .pageModify

/-- The transaction id after a call. -/
def TxCall.nextId (call : TxCall) (current : UInt64) : UInt64 :=
  if call.isBegin then current + 1 else current

/-- The 16 bytes of an entry without payload. -/
def markBytes (type : WalEntryType) (txId : UInt64) : List UInt8 :=
  walEntryBytes type txId (none : Option (Payload 0))

/-- The bytes that calls without pages add to the log. -/
def plainLog (current : UInt64) : List TxCall → List UInt8
  | [] => []
  | call :: calls =>
    markBytes call.entryType (call.nextId current) ++ plainLog (call.nextId current) calls

theorem markBytes_eq (type : WalEntryType) (txId : UInt64) :
    markBytes type txId =
      [type.code, 0, 0, 0] ++ wordBytes (walEntryHeader type txId (none : Option (Payload 0))).checksum ++
        native64 txId := by
  simp [markBytes, walEntryBytes, walEntryHeader, presentPayload, WalEntryHeader.encode, littleEndian]

@[simp] theorem markBytes_length (type : WalEntryType) (txId : UInt64) :
    (markBytes type txId).length = 16 := rfl

theorem markBytes_take (type : WalEntryType) (txId : UInt64) :
    (markBytes type txId).take 8 = [type.code, 0, 0, 0] ++
      wordBytes (walEntryHeader type txId (none : Option (Payload 0))).checksum := by
  rw [markBytes_eq]
  exact take_left' rfl

theorem plainLog_length (current : UInt64) (calls : List TxCall) :
    (plainLog current calls).length = 16 * calls.length := by
  induction calls generalizing current with
  | nil => rfl
  | cons call calls inductionHypothesis =>
    rw [plainLog, length_append, markBytes_length, inductionHypothesis, length_cons]
    omega

theorem TxCall.run_ok {next : Wal} (success : call.run wal = (.success, next))
    (plain : call.isPage = false) :
    next.fd.file = wal.fd.file.write wal.fd.position
        (markBytes call.entryType (call.nextId wal.currentTxId)) ∧
      next.fd.position = wal.fd.position + 16 ∧ next.currentTxId = call.nextId wal.currentTxId := by
  cases call with
  | begin =>
    have wrote := walAppend_ok success
    exact ⟨wrote.file, wrote.position, wrote.currentTxId⟩
  | commit =>
    have wrote := walAppend_ok success
    exact ⟨wrote.file, wrote.position, wrote.currentTxId⟩
  | rollback =>
    have wrote := walAppend_ok success
    exact ⟨wrote.file, wrote.position, wrote.currentTxId⟩
  | checkpoint =>
    have wrote := walAppend_ok success
    exact ⟨wrote.file, wrote.position, wrote.currentTxId⟩
  | writePage => cases plain

theorem TxRun.file {finish : Wal} (run : TxRun wal calls finish)
    (plain : ∀ call ∈ calls, call.isPage = false) :
    finish.fd.file = wal.fd.file.write wal.fd.position (plainLog wal.currentTxId calls) := by
  induction run with
  | nil wal => exact (File.write_nil _ _).symm
  | cons success rest inductionHypothesis =>
    obtain ⟨file, position, currentTxId⟩ := TxCall.run_ok success (plain _ mem_cons_self)
    rw [inductionHypothesis fun call member => plain _ (mem_cons_of_mem _ member), file,
      position, currentTxId, plainLog, ← File.write_write, markBytes_length]

/-- A log of calls without pages: the last half of the file header, which is zero, and the
entries. -/
structure PlainFile (file : File) (calls : List TxCall) : Prop where
  size : file.size = walHeaderSize + 8 + 16 * calls.length
  content : window file.byte walHeaderSize (8 + 16 * calls.length) = native64 0 ++ plainLog 0 calls

theorem TxRun.plainFile (fresh : path.file = none)
    (creation : walOpen path = (some created, opened)) (run : TxRun created calls wal)
    (plain : ∀ call ∈ calls, call.isPage = false) :
    PlainFile wal.fd.file calls := by
  obtain ⟨position, currentTxId, ⟨-, found⟩ | ⟨-, file⟩⟩ := walOpen_ok creation
  · rw [fresh] at found
    cases found
  · have written := run.file plain
    rw [file, position, currentTxId] at written
    have length := plainLog_length 0 calls
    constructor
    · by_cases none : plainLog 0 calls = []
      · rw [none] at written length
        rw [written, ← length]
        decide
      · rw [written, File.write_size _ none, length, max_eq_right]
        · rfl
        · exact Nat.le_add_right_of_le (by decide)
    · rw [written, File.write_byte, window_append, ← length]
      refine congrArg₂ _ ?_ (window_overlay _ _ _)
      have apart : walHeaderSize + 8 ≤ WalHeader.sizeof := by decide
      rw [window_overlay_disjoint (Or.inl apart)]
      decide

/-! ### What the scan reads -/

/-- The header the scan takes the second half of one entry and the first half of the next for. -/
def misreadHeader (current : UInt64) (type : WalEntryType) (txId : UInt64) : WalEntryHeader :=
  WalEntryHeader.decode (native64 current ++ (markBytes type txId).take 8)

/-- The variables after scanning eight bytes off. -/
def misread (offset : Nat) (scan : WalScan) (current : UInt64) : List TxCall → WalScan
  | [] => scan
  | call :: calls =>
    misread (offset + 16)
      (scan.enter offset (misreadHeader current call.entryType (call.nextId current)))
      (call.nextId current) calls

/-- An id below 65536 leaves the two bytes zero that are taken for the size. -/
theorem misreadHeader_size (small : current.toNat < 65536) (type : WalEntryType) (txId : UInt64) :
    (misreadHeader current type txId).size = 0 := by
  have high : current.toNat / 256 / 256 = 0 := by omega
  simp [misreadHeader, WalEntryHeader.decode, native64, littleEndian, littleEndianValue, high]

theorem begun_cons (call : TxCall) (calls : List TxCall) :
    begun (call :: calls) = (if call.isBegin then 1 else 0) + begun calls := by
  rw [begun, countP_cons, Nat.add_comm, begun]

theorem TxCall.nextId_toNat (call : TxCall) (small : current.toNat < 65536) :
    (call.nextId current).toNat = current.toNat + if call.isBegin then 1 else 0 := by
  unfold TxCall.nextId
  split
  · rw [UInt64.toNat_add, UInt64.toNat_one, Nat.mod_eq_of_lt (by omega)]
  · rfl

/-- The window on an entry that begins eight bytes early, and the one on the rest of the log. -/
theorem plain_windows {memory : Memory}
    (content : window memory offset (8 + 16 * (call :: calls).length) =
      native64 current ++ plainLog current (call :: calls)) :
    window memory offset 16 =
        native64 current ++ (markBytes call.entryType (call.nextId current)).take 8 ∧
      window memory (offset + 16) (8 + 16 * calls.length) =
        native64 (call.nextId current) ++ plainLog (call.nextId current) calls := by
  have count : 8 + 16 * (call :: calls).length = 16 + (8 + 16 * calls.length) := by
    rw [length_cons]
    omega
  rw [count, window_append, plainLog,
    ← take_append_drop 8 (markBytes _ _)] at content
  refine append_inj content ?_
  rfl

theorem walScanLoop_plain {fd : Descriptor} {scan : WalScan} (steady : Steady fd)
    (size : fd.file.size = offset + 8 + 16 * calls.length)
    (content : window fd.file.byte offset (8 + 16 * calls.length) =
      native64 current ++ plainLog current calls) (small : current.toNat + begun calls < 65536) :
    (walScanLoop fd fd.file.size offset scan).1 = misread offset scan current calls := by
  induction calls generalizing fd offset scan current with
  | nil =>
    obtain ⟨sought, seek, steadySought⟩ := lseek_steady steady _
    obtain ⟨file, -, position⟩ := lseek_spec seek
    have ended : (readExact sought WalEntryHeader.sizeof).1 = none := by
      refine readExact_past_end (by decide) ?_
      rw [file, position rfl, size]
      exact Nat.add_lt_add_left (by decide) offset
    rw [walScanLoop, if_pos (by omega), seek]
    simp only
    split
    · rfl
    · rename_i reading
      rw [reading] at ended
      cases ended
  | cons call calls inductionHypothesis =>
    obtain ⟨first, rest⟩ := plain_windows content
    obtain ⟨sought, seek, steadySought⟩ := lseek_steady steady offset
    obtain ⟨file, -, position⟩ := lseek_spec seek
    rw [length_cons] at size
    rw [begun_cons] at small
    have inside : sought.position + WalEntryHeader.sizeof ≤ sought.file.size := by
      rw [file, position rfl, WalEntryHeader.sizeof]
      omega
    obtain ⟨read, reading, fileRead, steadyRead⟩ := readExact_steady steadySought inside
    have sizeRead : read.file.size = offset + 16 + 8 + 16 * calls.length := by
      rw [fileRead, file]
      omega
    have nextId : (call.nextId current).toNat = _ := call.nextId_toNat (by omega)
    rw [walScanLoop, if_pos (by omega), seek]
    simp only
    rw [reading]
    simp only
    rw [position rfl, file, WalEntryHeader.sizeof, first]
    have header : (WalEntryHeader.decode (native64 current ++
        (markBytes call.entryType (call.nextId current)).take 8)).size = 0 :=
      misreadHeader_size (by omega) _ _
    rw [header, ← file, ← fileRead]
    refine inductionHypothesis steadyRead sizeRead ?_ (by omega)
    rw [fileRead, file]
    exact rest

/-! ### What the scan makes of it -/

section Scan

variable {txId current : UInt64} {type : WalEntryType} {scan : WalScan}

theorem misreadHeader_type (current : UInt64) (type : WalEntryType) (txId : UInt64) :
    (misreadHeader current type txId).type = UInt8.ofNat current.toNat := rfl

theorem misreadHeader_txId (current : UInt64) (type : WalEntryType) (txId : UInt64) :
    (misreadHeader current type txId).txId = quadAt (markBytes type txId) 0 := by
  rw [misreadHeader, WalEntryHeader.decode, quadAt, quadAt, drop_left' (native64_length _),
    drop_zero, take_take, min_self]

theorem quadAt_injective {first second : List UInt8} (firstLength : 8 ≤ first.length)
    (secondLength : 8 ≤ second.length) (same : quadAt first 0 = quadAt second 0) :
    first.take 8 = second.take 8 := by
  have small : ∀ bytes : List UInt8, littleEndianValue (bytes.take 8) < 2 ^ 64 := fun bytes =>
    (littleEndianValue_lt _).trans_le (Nat.pow_le_pow_right (by decide) (length_take_le 8 _))
  have values := congrArg UInt64.toNat same
  rw [quadAt, quadAt, drop_zero, drop_zero, UInt64.toNat_ofNat', UInt64.toNat_ofNat',
    Nat.mod_eq_of_lt (small _), Nat.mod_eq_of_lt (small _)] at values
  refine littleEndianValue_injective ?_ values
  rw [length_take, length_take]
  omega

/-- The two bytes of a small id carry neighbouring powers of 33. -/
theorem checksum_mark (small : txId.toNat < 65536) (type : WalEntryType) :
    (walEntryHeader type txId (none : Option (Payload 0))).checksum.toNat ≡
      type.code.toNat * 33 ^ 15 + 33 ^ 6 * (33 * (txId.toNat % 256) + txId.toNat / 256)
        [MOD 2 ^ 32] := by
  have sum := walChecksum_modEq (WalEntryHeader.encode
    { type := type.code, flags := 0, size := 0, checksum := 0, txId })
  have low : txId.toNat / 256 % 256 = txId.toNat / 256 := Nat.mod_eq_of_lt (by omega)
  have high : txId.toNat / 256 / 256 = 0 := by omega
  have value : checksumSum (WalEntryHeader.encode
      { type := type.code, flags := 0, size := 0, checksum := 0, txId }) =
      type.code.toNat * 33 ^ 15 + 33 ^ 6 * (33 * (txId.toNat % 256) + txId.toNat / 256) := by
    simp [WalEntryHeader.encode, wordBytes, native64, littleEndian, checksumSum, low, high]
    ring
  rw [← value]
  exact sum

/-- Two entries of one type whose first halves agree have ids with the same weighted sum of their
two bytes. -/
theorem quadAt_mark_injective {other : WalEntryType} {otherId : UInt64} (small : txId.toNat < 65536)
    (otherSmall : otherId.toNat < 65536)
    (same : quadAt (markBytes type txId) 0 = quadAt (markBytes other otherId) 0) :
    type = other ∧ 33 * (txId.toNat % 256) + txId.toNat / 256 =
      33 * (otherId.toNat % 256) + otherId.toNat / 256 := by
  have halves := quadAt_injective (by rw [markBytes_length]; decide)
    (by rw [markBytes_length]; decide) same
  rw [markBytes_take, markBytes_take] at halves
  obtain ⟨codes, words⟩ := append_inj halves rfl
  have types : type = other := by
    have code := (List.cons.inj codes).1
    revert code
    cases type <;> cases other <;> decide
  subst types
  have checksums := congrArg (fun bytes => UInt32.ofNat (littleEndianValue bytes)) words
  simp only [ofNat_littleEndianValue_wordBytes] at checksums
  have first := checksum_mark small type
  rw [checksums] at first
  have sums := Nat.ModEq.add_left_cancel' _ (first.symm.trans (checksum_mark otherSmall _))
  have coprime : Nat.gcd (2 ^ 32) (33 ^ 6) = 1 := rfl
  have weights := Nat.ModEq.cancel_left_of_coprime coprime sums
  exact ⟨rfl, weights.eq_of_lt_of_lt (by omega) (by omega)⟩

/-- What holds while the scan is eight bytes off. Where it takes an id for a `BEGIN`, the number it
keeps is the first half of the next entry; the `COMMIT`s it takes ids for come later, so that the
first halves of the entries after them differ from it. -/
structure Blind (current : UInt64) (scan : WalScan) : Prop where
  last : scan.info.lastTxId = 0
  pending : scan.inTx = true → ∃ type txId, scan.txId = quadAt (markBytes type txId) 0 ∧
    txId.toNat / 256 ≤ current.toNat / 256 ∧ txId.toNat % 256 = if type = .begin then 2 else 1

theorem ofCode?_eq_some {code : UInt8} (found : WalEntryType.ofCode? code = some type) :
    type.code = code := by
  simpa using find?_some found

theorem TxCall.entryType_eq_begin (call : TxCall) :
    call.entryType = .begin ↔ call.isBegin = true := by
  cases call <;> simp [TxCall.entryType, TxCall.isBegin]

theorem misread_code {found : WalEntryType}
    (read : WalEntryType.ofCode? (misreadHeader current type txId).type = some found) :
    current.toNat % 256 = found.code.toNat := by
  rw [ofCode?_eq_some read, misreadHeader_type, UInt8.toNat_ofNat']

section

variable (blind : Blind current scan)
include blind

theorem Blind.later {later : UInt64}
    (grows : current.toNat ≤ later.toNat) : Blind later scan := by
  refine ⟨blind.last, fun waiting => ?_⟩
  obtain ⟨type, txId, kept, early, low⟩ := blind.pending waiting
  exact ⟨type, txId, kept, early.trans (Nat.div_le_div_right grows), low⟩

/-- A `COMMIT` that the scan believes to see is not the one it waits for. -/
theorem Blind.no_commit (call : TxCall)
    (small : current.toNat + (if call.isBegin then 1 else 0) < 65536)
    (two : current.toNat % 256 = 2) (waiting : scan.inTx = true) :
    quadAt (markBytes call.entryType (call.nextId current)) 0 ≠ scan.txId := by
  intro same
  obtain ⟨type, txId, kept, early, low⟩ := blind.pending waiting
  have nextId := call.nextId_toNat (Nat.lt_of_le_of_lt (Nat.le_add_right _ _) small)
  obtain ⟨rfl, weights⟩ := quadAt_mark_injective (by omega) (by omega) (same.trans kept)
  rw [nextId] at weights
  simp only [TxCall.entryType_eq_begin] at low
  by_cases kind : call.isBegin = true
  · rw [if_pos kind] at low weights
    omega
  · rw [if_neg kind] at low weights
    omega

theorem Blind.enter (call : TxCall)
    (small : current.toNat + (if call.isBegin then 1 else 0) < 65536) (offset : Nat) :
    Blind (call.nextId current)
      (scan.enter offset (misreadHeader current call.entryType (call.nextId current))) := by
  have nextId := call.nextId_toNat (Nat.lt_of_le_of_lt (Nat.le_add_right _ _) small)
  have blindNext : Blind (call.nextId current) scan := blind.later (by omega)
  unfold WalScan.enter
  split
  · rename_i read
    have one : current.toNat % 256 = 1 := misread_code read
    refine ⟨blind.last, fun _ => ⟨_, _, misreadHeader_txId _ _ _, le_rfl, ?_⟩⟩
    simp only [nextId, TxCall.entryType_eq_begin]
    split <;> omega
  · rename_i read
    split
    · rename_i believed
      exact absurd believed.2 (blind.no_commit _ small (misread_code read) believed.1)
    · exact blindNext
  · exact ⟨blind.last, nofun⟩
  · exact ⟨blind.last, blindNext.pending⟩
  · exact ⟨blind.last, blindNext.pending⟩
  · exact blindNext

theorem misread_lastTxId (small : current.toNat + begun calls < 65536) :
    (misread offset scan current calls).info.lastTxId = 0 := by
  induction calls generalizing offset scan current with
  | nil => exact blind.last
  | cons call calls inductionHypothesis =>
    rw [begun_cons] at small
    have nextId : (call.nextId current).toNat = _ := call.nextId_toNat (by omega)
    exact inductionHypothesis (blind.enter _ (by omega) _) (by omega)

end

theorem enter_hasCheckpoint (scan : WalScan) (offset : Nat) (header : WalEntryHeader) :
    (scan.enter offset header).info.hasCheckpoint = true ↔
      scan.info.hasCheckpoint = true ∨ header.type = WalEntryType.checkpoint.code := by
  have other : ∀ type : WalEntryType, WalEntryType.ofCode? header.type = some type →
      type ≠ .checkpoint → header.type ≠ WalEntryType.checkpoint.code := by
    intro type read different same
    rw [same] at read
    exact different (Option.some.inj read).symm
  unfold WalScan.enter
  split
  · rename_i read
    exact (or_iff_left (other _ read (by decide))).symm
  · rename_i read
    rw [or_iff_left (other _ read (by decide))]
    split <;> exact Iff.rfl
  · rename_i read
    exact (or_iff_left (other _ read (by decide))).symm
  · rename_i read
    exact (or_iff_left (other _ read (by decide))).symm
  · rename_i read
    exact iff_of_true rfl (Or.inr (ofCode?_eq_some read).symm)
  · rename_i read
    refine (or_iff_left fun same => ?_).symm
    rw [same] at read
    cases read

theorem misread_hasCheckpoint (small : current.toNat + begun calls < 65536) :
    (misread offset scan current calls).info.hasCheckpoint = true ↔
      scan.info.hasCheckpoint = true ∨ ∃ early call late, calls = early ++ call :: late ∧
        (current.toNat + begun early) % 256 = 5 := by
  induction calls generalizing offset scan current with
  | nil => simp [misread]
  | cons call calls inductionHypothesis =>
    rw [begun_cons] at small
    have nextId : (call.nextId current).toNat = _ := call.nextId_toNat (by omega)
    have here : (misreadHeader current call.entryType (call.nextId current)).type =
        WalEntryType.checkpoint.code ↔ current.toNat % 256 = 5 := by
      rw [misreadHeader_type, ← UInt8.toNat_inj]
      exact Iff.rfl
    rw [misread, inductionHypothesis (by omega), enter_hasCheckpoint, here, or_assoc]
    refine or_congr_right ?_
    constructor
    · rintro (five | ⟨early, later, late, rfl, five⟩)
      · exact ⟨[], call, calls, rfl, five⟩
      · refine ⟨call :: early, later, late, rfl, ?_⟩
        rw [begun_cons, ← Nat.add_assoc, ← nextId]
        exact five
    · rintro ⟨early, later, late, split, five⟩
      cases early with
      | nil => exact Or.inl five
      | cons first early =>
        obtain ⟨rfl, rfl⟩ := List.cons.inj split
        rw [begun_cons, ← Nat.add_assoc, ← nextId] at five
        exact Or.inr ⟨early, later, late, rfl, five⟩

end Scan

/-! ### The report -/

theorem blind_start : Blind 0 WalScan.start := ⟨rfl, nofun⟩

/-- What the recovery reports on a log without frames. -/
theorem plain_report (fresh : path.file = none) (creation : walOpen path = (some created, opened))
    (run : TxRun created calls wal) (sized : wal.fileSize = wal.fd.file.size)
    (steady : Steady wal.fd) (plain : ∀ call ∈ calls, call.isPage = false)
    (few : begun calls < 65536) :
    (walRecoveryInfo wal).1.lastTxId = 0 ∧
      ((walRecoveryInfo wal).1.hasCheckpoint = true ↔
        ∃ early call late, calls = early ++ call :: late ∧ begun early % 256 = 5) := by
  obtain ⟨size, content⟩ := TxRun.plainFile fresh creation run plain
  have small : (0 : UInt64).toNat + begun calls < 65536 := by
    rw [UInt64.toNat_zero]
    omega
  have scanned : (walScanLoop wal.fd wal.fileSize walHeaderSize WalScan.start).1 =
      misread walHeaderSize WalScan.start 0 calls := by
    rw [sized]
    exact walScanLoop_plain steady size content small
  have last : (walRecoveryInfo wal).1.lastTxId =
      (misread walHeaderSize WalScan.start 0 calls).info.lastTxId := by
    rw [← scanned]
    rfl
  have checkpoint : (walRecoveryInfo wal).1.hasCheckpoint =
      (misread walHeaderSize WalScan.start 0 calls).info.hasCheckpoint := by
    rw [← scanned]
    rfl
  refine ⟨last.trans (misread_lastTxId blind_start small), ?_⟩
  rw [checkpoint, misread_hasCheckpoint small, UInt64.toNat_zero]
  simp only [Nat.zero_add]
  exact or_iff_right nofun

/-- On a new log without frames and with fewer than 65536 transactions, the report is right exactly
when no transaction was committed and a checkpoint was made if and only if the log went on after
transaction 5, or one that agrees with it modulo 256, had begun. -/
theorem recovery_info_right_iff {path opened : Path} {created wal : Wal} {calls : List TxCall}
    (fresh : path.file = none) (creation : walOpen path = (some created, opened))
    (run : TxRun created calls wal) (sized : wal.fileSize = wal.fd.file.size) (steady : Steady wal.fd)
    (plain : ∀ call ∈ calls, call.isPage = false) (few : begun calls < 65536) :
    Recovers calls (walRecoveryInfo wal).1 ↔ (∀ number, ¬CommittedTx calls number) ∧
      (.checkpoint ∈ calls ↔
        ∃ early call late, calls = early ++ call :: late ∧ begun early % 256 = 5) := by
  obtain ⟨zero, checkpoint⟩ := plain_report fresh creation run sized steady plain few
  rw [recovers_iff_of_zero few zero, checkpoint, iff_comm (a := TxCall.checkpoint ∈ calls)]

theorem committedTx_begin_commit : CommittedTx [.begin, .commit] 1 :=
  ⟨[], [], [], rfl, rfl, nofun⟩

theorem not_committedTx_begin_rollback (number : Nat) :
    ¬CommittedTx [.begin, .rollback] number := by
  rintro ⟨early, between, late, split, -, -⟩
  have member : TxCall.commit ∈ [TxCall.begin, .rollback] := by
    rw [split]
    simp
  simp at member

/-! ### Two transactions -/

theorem recovery_info_right_rolled_back : ∃ created opened wal,
    walOpen newPath = (some created, opened) ∧ TxRun created [.begin, .rollback] wal ∧
      Recovers [.begin, .rollback] (walRecoveryInfo wal).1 := by
  obtain ⟨opened, begins, wal, rolls, sized, schedule⟩ :
      ∃ opened, TxCall.begin.run newLog = (.success, opened) ∧
      ∃ wal, TxCall.rollback.run opened = (.success, wal) ∧ wal.fileSize = wal.fd.file.size ∧
        wal.fd.schedule = [] := by
    decide +kernel
  have run : TxRun newLog [.begin, .rollback] wal := .cons begins (.cons rolls (.nil wal))
  refine ⟨newLog, _, wal, newLog_opened, run, ?_⟩
  refine (recovery_info_right_iff rfl newLog_opened run sized (steady_of_nil schedule)
    (by decide) (by decide)).mpr ⟨not_committedTx_begin_rollback, ?_⟩
  refine iff_of_false (by simp) ?_
  rintro ⟨early, call, late, split, five⟩
  have total : 1 = begun early + begun (call :: late) := by
    rw [← begun_append, ← split]
    rfl
  omega

/-- A committed transaction is not reported. -/
theorem commit_not_recovered : ∃ created opened wal,
    walOpen newPath = (some created, opened) ∧ TxRun created [.begin, .commit] wal ∧
      ¬Recovers [.begin, .commit] (walRecoveryInfo wal).1 := by
  obtain ⟨opened, begins, wal, commits, sized, schedule⟩ :
      ∃ opened, TxCall.begin.run newLog = (.success, opened) ∧
      ∃ wal, TxCall.commit.run opened = (.success, wal) ∧ wal.fileSize = wal.fd.file.size ∧
        wal.fd.schedule = [] := by
    decide +kernel
  have run : TxRun newLog [.begin, .commit] wal := .cons begins (.cons commits (.nil wal))
  obtain ⟨zero, -⟩ := plain_report rfl newLog_opened run sized (steady_of_nil schedule)
    (by decide) (by decide)
  refine ⟨newLog, _, wal, newLog_opened, run, fun recovers => ?_⟩
  rw [recovers_iff_of_zero (by decide) zero] at recovers
  exact recovers.1 1 committedTx_begin_commit

end TinyDb

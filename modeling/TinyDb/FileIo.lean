/-
This file models the exact-transfer loops that the pager and the log share:
`read_exact` and `write_exact` repeat `read` and `write` until the whole count
is done, retry after an interruption, and give up on any other failure or on the
end of the file.

Each loop gets one specification: what the file and the buffer are when it
returns `0`, and that an empty schedule lets it return `0`.
-/

import TinyDb.Lib.Posix

namespace TinyDb

open Bytes Posix List

variable {ok : Bool} {fuel : Nat} {next : Descriptor} {buf : List UInt8}
  {result : Option (List UInt8)}

/-! ### The loops -/

/-- The loop of `read_exact`; `buf` is what has been read so far. -/
def readExactLoop : Nat → Descriptor → Nat → List UInt8 → Option (List UInt8) × Descriptor
  | 0, fd, _, _ => (none, fd)
  | fuel + 1, fd, count, buf =>
    if buf.length < count then
      match fd.read (count - buf.length) with
      | (.interrupted, fd) => readExactLoop fuel fd count buf
      | (.failed, fd) => (none, fd)
      | (.bytes [], fd) => (none, fd)
      | (.bytes data, fd) => readExactLoop fuel fd count (buf ++ data)
    else (some buf, fd)

/-- `read_exact`: the bytes read, or nothing for `-1`. Each turn of the loop uses up an answer of
the schedule or, once that is empty, finishes the transfer. -/
def readExact (fd : Descriptor) (count : Nat) : Option (List UInt8) × Descriptor :=
  readExactLoop (fd.schedule.length + 2) fd count []

/-- The loop of `write_exact`; `buf` is what is still to be written. -/
def writeExactLoop : Nat → Descriptor → List UInt8 → Bool × Descriptor
  | 0, fd, _ => (false, fd)
  | fuel + 1, fd, buf =>
    if buf = [] then (true, fd)
    else
      match fd.write buf with
      | (.interrupted, fd) => writeExactLoop fuel fd buf
      | (.failed, fd) => (false, fd)
      | (.count taken, fd) => writeExactLoop fuel fd (buf.drop taken)

/-- `write_exact`: whether it returned `0`. -/
def writeExact (fd : Descriptor) (buf : List UInt8) : Bool × Descriptor :=
  writeExactLoop (fd.schedule.length + 2) fd buf

/-! ### Single calls -/

section Calls

variable {fd next : Descriptor}

theorem call_file (fd : Descriptor) : fd.call.2.file = fd.file := by
  unfold Descriptor.call
  split <;> rfl

theorem call_writable (fd : Descriptor) : fd.call.2.writable = fd.writable := by
  unfold Descriptor.call
  split <;> rfl

theorem call_position (fd : Descriptor) : fd.call.2.position = fd.position := by
  unfold Descriptor.call
  split <;> rfl

theorem call_of_nil (quiet : fd.schedule = []) : fd.call = (true, fd) := by
  rw [Descriptor.call, quiet]

/-- Seeking touches nothing but the position and the schedule. -/
theorem lseek_spec {offset : Nat} (seek : fd.lseek offset = (ok, next)) :
    next.file = fd.file ∧ next.writable = fd.writable ∧ (ok = true → next.position = offset) := by
  unfold Descriptor.lseek at seek
  have file := call_file fd
  have writable := call_writable fd
  split at seek <;> rename_i result <;> rw [result] at file writable <;>
    cases seek
  · exact ⟨file, writable, fun _ => rfl⟩
  · exact ⟨file, writable, fun impossible => absurd impossible (by decide)⟩

theorem lseek_of_nil (fd : Descriptor) (quiet : fd.schedule = []) (offset : Nat) :
    fd.lseek offset = (true, { fd with position := offset }) := by
  rw [Descriptor.lseek, call_of_nil quiet]

theorem ftruncate_ok {size : Nat} (truncate : fd.ftruncate size = (true, next)) :
    next.file = fd.file.truncate size ∧ next.writable = fd.writable := by
  unfold Descriptor.ftruncate at truncate
  have file := call_file fd
  have writable := call_writable fd
  split at truncate
  · rename_i called result
    rw [result] at file writable
    split at truncate
    · obtain ⟨-, rfl⟩ := Prod.mk.inj truncate
      exact ⟨congrArg (File.truncate · size) file, writable⟩
    · cases truncate
  · cases truncate

theorem ftruncate_of_nil (fd : Descriptor) (quiet : fd.schedule = [])
    (writable : fd.writable = true)
    (size : Nat) : fd.ftruncate size = (true, { fd with file := fd.file.truncate size }) := by
  simp only [Descriptor.ftruncate, call_of_nil quiet, writable, if_true]

/-- A `read` leaves the file alone and hands back the bytes at the position. -/
theorem read_spec {count : Nat} {result : Descriptor.ReadResult}
    (reading : fd.read count = (result, next)) :
    next.file = fd.file ∧ next.writable = fd.writable ∧
      (∀ data, result = .bytes data →
        data = window fd.file.byte fd.position data.length ∧
          next.position = fd.position + data.length ∧ data.length ≤ count ∧
            (data ≠ [] → fd.position + data.length ≤ fd.file.size)) ∧
      (result = .interrupted → next.position = fd.position) := by
  unfold Descriptor.read at reading
  split at reading <;> obtain ⟨rfl, rfl⟩ := Prod.mk.inj reading
  · refine ⟨rfl, rfl, fun data same => ?_, nofun⟩
    obtain rfl := Descriptor.ReadResult.bytes.inj same
    refine ⟨by rw [window_length], by rw [window_length], by simp, fun nonempty => ?_⟩
    have positive := length_pos_iff.mpr nonempty
    rw [window_length] at positive ⊢
    omega
  · refine ⟨rfl, rfl, fun data same => ?_, nofun⟩
    obtain rfl := Descriptor.ReadResult.bytes.inj same
    refine ⟨by rw [window_length], by rw [window_length], by simp, fun nonempty => ?_⟩
    have positive := length_pos_iff.mpr nonempty
    rw [window_length] at positive ⊢
    omega
  · exact ⟨rfl, rfl, nofun, fun _ => rfl⟩
  · exact ⟨rfl, rfl, nofun, nofun⟩

/-- A `write` puts a prefix of the bytes at the position. -/
theorem write_spec {bytes : List UInt8} {result : Descriptor.WriteResult}
    (writing : fd.write bytes = (result, next)) :
    next.writable = fd.writable ∧
      (∀ taken, result = .count taken → taken ≤ bytes.length ∧
        next.file = fd.file.write fd.position (bytes.take taken) ∧
          next.position = fd.position + taken) ∧
      ((∀ taken, result ≠ .count taken) → next.file = fd.file ∧ next.position = fd.position) := by
  unfold Descriptor.write at writing
  split at writing
  · split at writing <;> obtain ⟨rfl, rfl⟩ := Prod.mk.inj writing
    · refine ⟨rfl, fun taken same => ?_, fun impossible => absurd rfl (impossible _)⟩
      obtain rfl := Descriptor.WriteResult.count.inj same
      exact ⟨le_rfl, by rw [take_length], rfl⟩
    · rename_i limit _ _
      refine ⟨rfl, fun taken same => ?_, fun impossible => absurd rfl (impossible _)⟩
      obtain rfl := Descriptor.WriteResult.count.inj same
      have prefixed : bytes.take (bytes.take (limit + 1)).length = bytes.take (limit + 1) := by
        rw [length_take, take_eq_take_iff]
        omega
      exact ⟨by rw [length_take]; omega, by rw [prefixed], rfl⟩
    · exact ⟨rfl, nofun, fun _ => ⟨rfl, rfl⟩⟩
    · exact ⟨rfl, nofun, fun _ => ⟨rfl, rfl⟩⟩
  · obtain ⟨rfl, rfl⟩ := Prod.mk.inj writing
    exact ⟨rfl, nofun, fun _ => ⟨rfl, rfl⟩⟩

end Calls

/-! ### Failures -/

/-- How many bytes an answer lets a transfer move. -/
def moved : Answer → Nat
  | .transfer limit => limit + 1
  | _ => 0

/-- A failure that is no interruption comes before the answers have moved this many bytes. -/
def FailsBefore (schedule : List Answer) (count : Nat) : Prop :=
  ∃ front back, schedule = front ++ .failed :: back ∧ .failed ∉ front ∧
    (front.map moved).sum < count

theorem failsBefore_cons (answer : Answer) (schedule : List Answer) (count : Nat) :
    FailsBefore (answer :: schedule) count ↔
      if answer = .failed then 0 < count else FailsBefore schedule (count - moved answer) := by
  constructor
  · rintro ⟨front, back, split, noFailure, few⟩
    cases front with
    | nil =>
      obtain ⟨rfl, -⟩ := List.cons.inj split
      exact few
    | cons first front =>
      obtain ⟨rfl, rest⟩ := List.cons.inj split
      rw [if_neg fun isFailed : answer = .failed => noFailure (isFailed ▸ mem_cons_self)]
      rw [map_cons, sum_cons] at few
      exact ⟨front, back, rest, fun member => noFailure (mem_cons_of_mem _ member), by omega⟩
  · split
    · next isFailed => exact fun positive => ⟨[], schedule, by rw [isFailed]; rfl, nofun, positive⟩
    · next notFailed =>
      rintro ⟨front, back, rfl, noFailure, few⟩
      refine ⟨answer :: front, back, rfl, fun member => ?_, ?_⟩
      · exact (mem_cons.mp member).elim (fun same => notFailed same.symm) noFailure
      · rw [map_cons, sum_cons]
        omega

theorem not_failsBefore_zero (schedule : List Answer) : ¬FailsBefore schedule 0 :=
  fun ⟨_, _, _, _, few⟩ => Nat.not_lt_zero _ few

theorem not_failsBefore_nil (count : Nat) : ¬FailsBefore [] count := by
  rintro ⟨front, back, split, -⟩
  simp at split

/-! ### Exact reads -/

section Reads

variable {fd : Descriptor} {count : Nat}

/-- The loop of `read_exact` never touches the file, and when it returns the buffer it holds the
bytes from the start of the transfer on. -/
theorem readExactLoop_spec {start : Nat} (loop : readExactLoop fuel fd count buf = (result, next))
    (sofar : buf = window fd.file.byte start buf.length) (here : fd.position = start + buf.length)
    (short : buf.length ≤ count) (inside : buf ≠ [] → start + buf.length ≤ fd.file.size) :
    next.file = fd.file ∧ next.writable = fd.writable ∧
      ∀ bytes, result = some bytes →
        bytes = window fd.file.byte start count ∧ (0 < count → start + count ≤ fd.file.size) ∧
          next.position = start + count := by
  induction fuel generalizing fd buf with
  | zero =>
    cases loop
    exact ⟨rfl, rfl, nofun⟩
  | succ fuel inductionHypothesis =>
    rw [readExactLoop] at loop
    split at loop
    · split at loop <;> rename_i reading <;> obtain ⟨file, writable, got, kept⟩ := read_spec reading
      · rw [← file, ← writable]
        exact inductionHypothesis loop (by rw [file]; exact sofar) (by rw [kept rfl, here]) short
          (by rw [file]; exact inside)
      · obtain ⟨rfl, rfl⟩ := Prod.mk.inj loop
        exact ⟨file, writable, nofun⟩
      · obtain ⟨rfl, rfl⟩ := Prod.mk.inj loop
        exact ⟨file, writable, nofun⟩
      · rename_i data _ more
        obtain ⟨dataEq, moved, fits, bound⟩ := got _ rfl
        rw [← file, ← writable]
        refine inductionHypothesis loop ?_ ?_ ?_ ?_
        · rw [file, length_append, window_append, ← here, ← dataEq, ← sofar]
        · rw [moved, here, length_append, Nat.add_assoc]
        · rw [length_append]
          omega
        · intro _
          have nonempty : data ≠ [] := fun empty => more (by rw [empty])
          have bounded := bound nonempty
          rw [file, length_append]
          omega
    · rename_i full
      cases loop
      refine ⟨rfl, rfl, fun bytes same => ?_⟩
      cases same
      have length : buf.length = count := by omega
      rw [← length]
      refine ⟨sofar, fun positive => inside ?_, here⟩
      exact ne_nil_of_length_pos positive

/-- `read_exact` never touches the file, and returning `0` it hands back the bytes at the position. -/
theorem readExact_spec (reading : readExact fd count = (result, next)) :
    next.file = fd.file ∧ next.writable = fd.writable ∧
      ∀ bytes, result = some bytes → bytes = window fd.file.byte fd.position count ∧
        (0 < count → fd.position + count ≤ fd.file.size) ∧ next.position = fd.position + count :=
  readExactLoop_spec reading rfl rfl (Nat.zero_le _) fun nonempty => absurd rfl nonempty

/-- With the empty schedule `read_exact` returns `0` whenever the bytes are there. -/
theorem readExact_of_nil (fd : Descriptor) (count : Nat) (quiet : fd.schedule = [])
    (positive : 0 < count) (inside : fd.position + count ≤ fd.file.size) :
    readExact fd count = (some (window fd.file.byte fd.position count),
      { fd with position := fd.position + count }) := by
  have all : min count (fd.file.size - fd.position) = count := by omega
  obtain ⟨first, rest, split⟩ : ∃ first rest,
      window fd.file.byte fd.position count = first :: rest := by
    refine exists_cons_of_length_pos ?_
    rw [window_length]
    exact positive
  have length : (first :: rest).length = count := by rw [← split, window_length]
  rw [readExact, quiet, length_nil, readExactLoop, length_nil,
    if_pos positive]
  simp only [Descriptor.read, quiet, Nat.sub_zero, all, split, nil_append]
  rw [readExactLoop, length, if_neg (lt_irrefl _)]

/-- `read` uses up answers of the schedule only. -/
theorem read_schedule (fd : Descriptor) (count : Nat) : (fd.read count).2.schedule <:+ fd.schedule := by
  unfold Descriptor.read
  cases fd.schedule with
  | nil => exact suffix_refl _
  | cons answer rest => cases answer <;> exact suffix_cons _ _

theorem readExactLoop_schedule (fuel : Nat) (fd : Descriptor) (count : Nat) (buf : List UInt8) :
    (readExactLoop fuel fd count buf).2.schedule <:+ fd.schedule := by
  induction fuel generalizing fd buf with
  | zero => exact suffix_refl _
  | succ fuel inductionHypothesis =>
    have kept := read_schedule fd (count - buf.length)
    rw [readExactLoop]
    split
    · split <;> rename_i reading <;> rw [reading] at kept
      · exact (inductionHypothesis _ _).trans kept
      · exact kept
      · exact kept
      · exact (inductionHypothesis _ _).trans kept
    · exact suffix_refl _

/-- `read_exact` uses up no answer of the schedule if there is none. -/
theorem readExact_quiet (fd : Descriptor) (count : Nat) (quiet : fd.schedule = []) :
    (readExact fd count).2.schedule = [] ∧ (readExact fd count).2.writable = fd.writable :=
  ⟨eq_nil_of_suffix_nil (quiet ▸ readExactLoop_schedule _ fd _ []),
    (readExact_spec (Prod.mk.eta.symm)).2.1⟩

/-- The kernel answers every call without an error, though it may move fewer bytes than asked. -/
def Steady (fd : Descriptor) : Prop := ∀ answer ∈ fd.schedule, ∃ limit, answer = .transfer limit

theorem steady_of_nil (quiet : fd.schedule = []) : Steady fd := by
  intro answer member
  rw [quiet] at member
  cases member

theorem lseek_steady (steady : Steady fd) (offset : Nat) :
    ∃ next, fd.lseek offset = (true, next) ∧ Steady next := by
  unfold Descriptor.lseek Descriptor.call
  cases answers : fd.schedule with
  | nil => exact ⟨_, rfl, steady⟩
  | cons answer schedule =>
    obtain ⟨limit, rfl⟩ := steady _ (by rw [answers]; exact mem_cons_self)
    refine ⟨_, rfl, fun later member => steady _ ?_⟩
    rw [answers]
    exact mem_cons_of_mem _ member

theorem readExactLoop_bytes {data : List UInt8} (missing : buf.length < count)
    (reading : fd.read (count - buf.length) = (.bytes data, next)) (nonempty : data ≠ []) :
    readExactLoop (fuel + 1) fd count buf = readExactLoop fuel next count (buf ++ data) := by
  rw [readExactLoop, if_pos missing, reading]
  cases data with
  | nil => exact absurd rfl nonempty
  | cons first rest => rfl

/-- Inside the file, the loop of `read_exact` gives up exactly on a failure. -/
theorem readExactLoop_none_iff (positive : 0 < fuel)
    (enough : buf.length < count → fd.schedule.length + 1 < fuel)
    (inside : fd.position + (count - buf.length) ≤ fd.file.size) :
    (readExactLoop fuel fd count buf).1 = none ↔ FailsBefore fd.schedule (count - buf.length) := by
  induction fuel generalizing fd buf with
  | zero => omega
  | succ fuel inductionHypothesis =>
    by_cases missing : buf.length < count
    · have enough := enough missing
      -- What a successful `read` leaves to be read.
      have step got schedule (some : 0 < got) (fits : got ≤ count - buf.length)
          (reading : fd.read (count - buf.length) = (.bytes (window fd.file.byte fd.position got),
            { fd with position := fd.position + got, schedule }))
          (fewer : got < count - buf.length → schedule.length + 1 < fuel) :
          (readExactLoop (fuel + 1) fd count buf).1 = none ↔
            FailsBefore schedule (count - buf.length - got) := by
        have length := window_length fd.file.byte fd.position got
        rw [readExactLoop_bytes missing reading (ne_nil_of_length_pos (by omega)),
          inductionHypothesis (by omega), length_append, length, Nat.sub_add_eq]
        · intro more
          rw [length_append, length] at more
          exact fewer (by omega)
        · show fd.position + got + _ ≤ fd.file.size
          rw [length_append, length]
          omega
      cases answers : fd.schedule with
      | nil =>
        rw [step _ [] (by omega) le_rfl
          (by rw [Descriptor.read, answers, Nat.min_eq_left (by omega)]) (by omega)]
        exact iff_of_false (not_failsBefore_nil _) (not_failsBefore_nil _)
      | cons answer schedule =>
        rw [answers, length_cons] at enough
        rw [failsBefore_cons]
        cases answer with
        | transfer limit =>
          rw [step (min (limit + 1) _) _ (by omega) (Nat.min_le_right _ _)
            (by rw [Descriptor.read, answers, Nat.min_eq_left (by omega)])
            (by omega)]
          rw [if_neg nofun, moved]
          congr! 1
          omega
        | interrupted =>
          have reading : fd.read (count - buf.length) = (.interrupted, { fd with schedule }) := by
            rw [Descriptor.read, answers]
          rw [readExactLoop, if_pos missing, reading]
          exact inductionHypothesis (by omega) (fun _ => by show schedule.length + 1 < fuel; omega)
            inside
        | failed =>
          have reading : fd.read (count - buf.length) = (.failed, { fd with schedule }) := by
            rw [Descriptor.read, answers]
          rw [readExactLoop, if_pos missing, reading]
          exact ⟨fun _ => Nat.sub_pos_of_lt missing, fun _ => rfl⟩
    · rw [readExactLoop, if_neg missing, Nat.sub_eq_zero_of_le (Nat.not_lt.mp missing)]
      exact iff_of_false nofun (not_failsBefore_zero _)

theorem readExact_none_iff (inside : fd.position + count ≤ fd.file.size) :
    (readExact fd count).1 = none ↔ FailsBefore fd.schedule count :=
  readExactLoop_none_iff (Nat.succ_pos _) (fun _ => Nat.lt_succ_self _) inside

/-- Short reads do not stop `read_exact` inside the file. -/
theorem readExact_steady (steady : Steady fd) (inside : fd.position + count ≤ fd.file.size) :
    ∃ next, readExact fd count = (some (window fd.file.byte fd.position count), next) ∧
      next.file = fd.file ∧ Steady next := by
  have later := readExactLoop_schedule (fd.schedule.length + 2) fd count []
  cases reading : readExact fd count with
  | mk result next =>
    rw [readExact] at reading
    rw [reading] at later
    cases result with
    | none =>
      obtain ⟨front, back, schedule, -⟩ := (readExact_none_iff inside).mp (congrArg _ reading)
      obtain ⟨limit, impossible⟩ := steady .failed (by rw [schedule]; simp)
      cases impossible
    | some bytes =>
      obtain ⟨file, -, content⟩ := readExact_spec reading
      exact ⟨next, by rw [(content bytes rfl).1], file,
        fun answer member => steady _ (later.subset member)⟩

/-- `read_exact` fails past the end of the file. -/
theorem readExact_past_end (positive : 0 < count) (past : fd.file.size < fd.position + count) :
    (readExact fd count).1 = none := by
  cases reading : readExact fd count with
  | mk result next =>
    cases result with
    | none => rfl
    | some bytes =>
      have bound := ((readExact_spec reading).2.2 _ rfl).2.1 positive
      omega

end Reads

/-! ### Exact writes -/

section Writes

variable {fd next : Descriptor} {buf : List UInt8}

/-- The loop of `write_exact` writes a prefix of the buffer, and all of it when it returns `0`. -/
theorem writeExactLoop_spec (loop : writeExactLoop fuel fd buf = (ok, next)) :
    next.writable = fd.writable ∧
      ∃ done, done ≤ buf.length ∧ next.file = fd.file.write fd.position (buf.take done) ∧
        next.position = fd.position + done ∧ (ok = true → done = buf.length) := by
  induction fuel generalizing fd buf with
  | zero =>
    cases loop
    exact ⟨rfl, 0, Nat.zero_le _, by rw [take_zero, File.write_nil], rfl, nofun⟩
  | succ fuel inductionHypothesis =>
    rw [writeExactLoop] at loop
    split at loop
    · rename_i empty
      cases loop
      subst empty
      exact ⟨rfl, 0, le_rfl, by rw [take_zero, File.write_nil], rfl, fun _ => rfl⟩
    · split at loop <;> rename_i writing <;> obtain ⟨writable, took, stuck⟩ := write_spec writing
      · obtain ⟨file, position⟩ := stuck nofun
        obtain ⟨kept, done, bound, wrote, moved, complete⟩ := inductionHypothesis loop
        exact ⟨kept.trans writable, done, bound, by rw [wrote, file, position],
          by rw [moved, position], complete⟩
      · obtain ⟨rfl, rfl⟩ := Prod.mk.inj loop
        obtain ⟨file, position⟩ := stuck nofun
        exact ⟨writable, 0, Nat.zero_le _, by rw [file, take_zero, File.write_nil],
          position, nofun⟩
      · rename_i taken _
        obtain ⟨fits, file, position⟩ := took _ rfl
        obtain ⟨kept, done, bound, wrote, moved, complete⟩ := inductionHypothesis loop
        rw [length_drop] at bound
        have length : (buf.take taken).length = taken := by rw [length_take]; omega
        refine ⟨kept.trans writable, taken + done, by omega, ?_, by omega, fun ended => ?_⟩
        · rw [wrote, file, position]
          nth_rewrite 2 [← length]
          rw [File.write_write, take_add]
        · have all := complete ended
          rw [length_drop] at all
          omega

/-- `write_exact` writes a prefix of the buffer, and all of it when it returns `0`. -/
theorem writeExact_spec (writing : writeExact fd buf = (ok, next)) :
    next.writable = fd.writable ∧
      ∃ done, done ≤ buf.length ∧ next.file = fd.file.write fd.position (buf.take done) ∧
        next.position = fd.position + done ∧ (ok = true → done = buf.length) :=
  writeExactLoop_spec writing

theorem writeExact_ok (writing : writeExact fd buf = (true, next)) :
    next.file = fd.file.write fd.position buf ∧ next.writable = fd.writable ∧
      next.position = fd.position + buf.length := by
  obtain ⟨writable, done, -, file, moved, complete⟩ := writeExact_spec writing
  refine ⟨?_, writable, ?_⟩
  · rw [file, complete rfl, take_length]
  · rw [moved, complete rfl]

/-- With the empty schedule and a writable file `write_exact` returns `0`. -/
theorem writeExact_of_nil (fd : Descriptor) (quiet : fd.schedule = [])
    (writable : fd.writable = true) (nonempty : buf ≠ []) :
    writeExact fd buf = (true, { fd with
      file := fd.file.write fd.position buf
      position := fd.position + buf.length }) := by
  rw [writeExact, quiet, length_nil, writeExactLoop, if_neg nonempty]
  simp only [Descriptor.write, writable, quiet, if_true, drop_length]
  rw [writeExactLoop, if_pos rfl]

/-- On a file that can be written, the loop of `write_exact` gives up exactly on a failure. -/
theorem writeExactLoop_false_iff (writable : fd.writable = true) (positive : 0 < fuel)
    (enough : buf ≠ [] → fd.schedule.length + 1 < fuel) :
    (writeExactLoop fuel fd buf).1 = false ↔ FailsBefore fd.schedule buf.length := by
  induction fuel generalizing fd buf with
  | zero => omega
  | succ fuel inductionHypothesis =>
    by_cases ended : buf = []
    · rw [writeExactLoop, if_pos ended, ended]
      exact iff_of_false nofun (not_failsBefore_zero _)
    · have enough := enough ended
      rw [writeExactLoop, if_neg ended, Descriptor.write, if_pos writable]
      cases answers : fd.schedule with
      | nil =>
        obtain ⟨fuel, rfl⟩ := Nat.exists_eq_add_one_of_ne_zero (by omega : fuel ≠ 0)
        simp only [drop_length, writeExactLoop]
        exact iff_of_false nofun (not_failsBefore_nil _)
      | cons answer schedule =>
        rw [answers, length_cons] at enough
        rw [failsBefore_cons]
        cases answer with
        | transfer limit =>
          have left : (buf.drop (buf.take (limit + 1)).length).length = buf.length - (limit + 1) := by
            rw [length_drop, length_take]
            omega
          rw [if_neg nofun, moved, ← left]
          exact inductionHypothesis writable (by omega)
            fun _ => by show schedule.length + 1 < fuel; omega
        | interrupted =>
          exact inductionHypothesis writable (by omega)
            fun _ => by show schedule.length + 1 < fuel; omega
        | failed => exact ⟨fun _ => length_pos_iff.mpr ended, fun _ => rfl⟩

theorem writeExact_false_iff (writable : fd.writable = true) :
    (writeExact fd buf).1 = false ↔ FailsBefore fd.schedule buf.length :=
  writeExactLoop_false_iff writable (Nat.succ_pos _) fun _ => Nat.lt_succ_self _

end Writes

/-- For every file, every position and every schedule of answers, `read_exact` returns `0` only with
the next bytes of the file, moved behind them, and `write_exact` only with the bytes written, moved
behind them; and they return `-1` exactly if a failure that is no interruption, or the end of the
file for a read, comes before all bytes are done. -/
theorem exact_transfers (fd : Descriptor) (count : Nat) (buf : List UInt8) :
    (∀ bytes next, readExact fd count = (some bytes, next) →
      bytes = window fd.file.byte fd.position count ∧ next.file = fd.file ∧
        next.position = fd.position + count) ∧
    ((readExact fd count).1 = none ↔
      0 < count ∧ fd.file.size < fd.position + count ∨ FailsBefore fd.schedule count) ∧
    (∀ next, writeExact fd buf = (true, next) →
      next.file = fd.file.write fd.position buf ∧ next.position = fd.position + buf.length) ∧
    ((writeExact fd buf).1 = false ↔
      buf ≠ [] ∧ fd.writable = false ∨ FailsBefore fd.schedule buf.length) := by
  refine ⟨fun bytes next reading => ?_, ?_, fun next writing => ?_, ?_⟩
  · obtain ⟨file, -, content⟩ := readExact_spec reading
    exact ⟨(content _ rfl).1, file, (content _ rfl).2.2⟩
  · by_cases past : 0 < count ∧ fd.file.size < fd.position + count
    · exact ⟨fun _ => .inl past, fun _ => readExact_past_end past.1 past.2⟩
    · rw [or_iff_right past]
      by_cases none : count = 0
      · rw [none]
        exact iff_of_false nofun (not_failsBefore_zero _)
      · exact readExact_none_iff (by omega)
  · obtain ⟨file, -, position⟩ := writeExact_ok writing
    exact ⟨file, position⟩
  · cases writable : fd.writable with
    | true =>
      rw [writeExact_false_iff writable]
      simp
    | false =>
      by_cases ended : buf = []
      · rw [writeExact, writeExactLoop, if_pos ended, ended]
        exact ⟨nofun, fun fails => (fails.resolve_left (absurd rfl ·.1)).elim nofun⟩
      · refine ⟨fun _ => .inl ⟨ended, rfl⟩, fun _ => ?_⟩
        rw [writeExact, writeExactLoop, if_neg ended, Descriptor.write, writable]
        rfl

end TinyDb

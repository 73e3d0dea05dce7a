/-
This file models the interactive loop of the client and the sending of a statement.

The loop joins the lines of a statement with single spaces in a buffer, and executes
it when a line ends in a semicolon. The check of the length leaves room for the space
and the terminator, so that every write stays in the buffer. The statement is then put
into a request in a buffer that is only about half as large: a longer statement is cut,
without its end and without a newline, and sent all the same.
-/

import Mathlib.Data.List.DropRight
import Mathlib.Data.List.TakeDrop
import TinyDb.Protocol

namespace TinyDb

open Bytes CStrings Heaps List

variable {text : List UInt8}

/-! ### The interactive loop -/

def cliMaxLine : Nat := 4096

/-- The size of `sql_buf`. -/
def sqlBufSize : Nat := cliMaxLine * 2

/-- The variables of `cli_interactive_loop`. -/
structure CliInput where
  multiline : Bool
  sqlBuf : Buffer sqlBufSize
  sqlLen : Nat

/-- What comes of a line. -/
inductive CliTurn
  | quits
  | metaCommand
  | emptied
  | tooLong
  | held
  | executed (sql : List UInt8)
  deriving DecidableEq

/-- `fgets` into `line`: the bytes up to a newline, as many as there is room for, and the rest of
the input. -/
def fgetsLine (input : List UInt8) : List UInt8 × List UInt8 :=
  let count := min (cliMaxLine - 1) (input.idxOf (char '\n') + 1)
  (input.take count, input.drop count)

/-- A line without the line ends behind it. -/
def strippedLine (line : List UInt8) : List UInt8 :=
  (untilNul line).rdropWhile fun c => c = char '\n' || c = char '\r'

/-- `cli_handle_meta_command` is not 0; the commands that it carries out all return 0. -/
def metaCommandQuits (cmd : List UInt8) : Bool :=
  untilNul cmd = ascii ".quit" || untilNul cmd = ascii ".exit"

/-- The loop starts over with an empty statement. -/
def CliInput.reset (input : CliInput) : CliInput := { input with multiline := false, sqlLen := 0 }

/-- One pass of the loop. -/
def cliTurn (input : CliInput) (line : List UInt8) : Except Fault (CliTurn × CliInput) :=
  let text := strippedLine line
  if text = [] then return (.emptied, input.reset)
  else if text.head? = some (char '.') ∧ input.multiline = false then
    return (if metaCommandQuits line then .quits else .metaCommand, input)
  else if input.sqlLen + text.length + 1 ≥ sqlBufSize then return (.tooLong, input.reset)
  else do
    let separator := if input.sqlLen > 0 then [char ' '] else []
    let (sqlBuf, behind) ← storeFields input.sqlBuf input.sqlLen [separator, text, [0]]
    if text.getLast? = some (char ';') then
      let sql := untilNul (window (memory sqlBuf) 0 sqlBufSize)
      return (.executed sql, { multiline := false, sqlBuf, sqlLen := 0 })
    else return (.held, { multiline := true, sqlBuf, sqlLen := behind - 1 })

/-- The passes of the loop up to the end of the input, which has no more lines than bytes. -/
def cliLoop : Nat → CliInput → List UInt8 → Except Fault (List CliTurn)
  | 0, _, _ => return []
  | fuel + 1, state, input =>
    if input = [] then return []
    else do
      let (line, rest) := fgetsLine input
      let (turn, state) ← cliTurn state line
      if turn = .quits then return [turn]
      else return turn :: (← cliLoop fuel state rest)

/-- `cli_interactive_loop`: what comes of each line. -/
def cliInteractiveLoop (sqlBuf : Buffer sqlBufSize) (input : List UInt8) :
    Except Fault (List CliTurn) :=
  cliLoop input.length { multiline := false, sqlBuf, sqlLen := 0 } input

/-! ### Statements of several lines -/

/-- The lines of a text, with their ends. -/
def textLines : List UInt8 → List (List UInt8)
  | [] => []
  | c :: text =>
    if c = char '\n' then [c] :: textLines text
    else match textLines text with
      | [] => [[c]]
      | line :: lines => (c :: line) :: lines

/-- Lines joined by single spaces. -/
def joined (lines : List (List UInt8)) : List UInt8 := [char ' '].intercalate lines

/-- The statement has no room for a line. -/
def TooLong (lines : List (List UInt8)) (text : List UInt8) : Prop :=
  (joined lines).length + text.length + 1 ≥ sqlBufSize

instance TooLong.instDecidable (lines : List (List UInt8)) (text : List UInt8) :
    Decidable (TooLong lines text) :=
  inferInstanceAs (Decidable (_ ≥ _))

/-- What comes of a line behind the lines of a statement. -/
def turnOf (lines : List (List UInt8)) (text : List UInt8) : CliTurn :=
  if text = [] then .emptied
  else if TooLong lines text then .tooLong
  else if text.getLast? = some (char ';') then .executed (joined (lines ++ [text]))
  else .held

/-- The lines of the statement behind a line. A line that is empty, too long or the last of its
statement resets it. -/
def linesAfter (lines : List (List UInt8)) (line : List UInt8) : List (List UInt8) :=
  let text := strippedLine line
  if text = [] ∨ TooLong lines text ∨ text.getLast? = some (char ';') then []
  else lines ++ [text]

/-- The lines since the last reset, without their ends. -/
def linesSinceReset (texts : List (List UInt8)) : List (List UInt8) := texts.foldl linesAfter []

/-- What comes of the lines of an input, behind the lines of a statement. -/
def turnsOf : List (List UInt8) → List (List UInt8) → List CliTurn
  | _, [] => []
  | lines, line :: texts => turnOf lines (strippedLine line) :: turnsOf (linesAfter lines line) texts

theorem turnOf_executed_iff (lines : List (List UInt8)) (text sql : List UInt8) :
    turnOf lines text = .executed sql ↔
      ¬TooLong lines text ∧ text.getLast? = some (char ';') ∧ sql = joined (lines ++ [text]) := by
  unfold turnOf
  split
  next empty => simp [empty]
  next =>
    split
    next long => simp [long]
    next =>
      split
      next ends => simp_all [eq_comm]
      next => simp_all

/-- What comes of a line is up to the lines since the last reset. -/
theorem turnsOf_getElem (lines front : List (List UInt8)) (line : List UInt8)
    (back : List (List UInt8)) :
    (turnsOf lines (front ++ line :: back))[front.length]? =
      some (turnOf (front.foldl linesAfter lines) (strippedLine line)) := by
  induction front generalizing lines with
  | nil => rfl
  | cons first front inductionHypothesis => exact inductionHypothesis _

theorem joined_concat (lines : List (List UInt8)) (text : List UInt8) :
    joined (lines ++ [text]) = joined lines ++ ((if lines = [] then [] else [char ' ']) ++ text) := by
  induction lines with
  | nil => simp [joined]
  | cons first lines inductionHypothesis =>
    cases lines with
    | nil => simp [joined]
    | cons second lines =>
      simp only [joined, cons_append, intercalate_cons_cons] at *
      rw [inductionHypothesis]
      simp

/-- The loop holds the lines of a statement. -/
structure CliInput.Holds (input : CliInput) (lines : List (List UInt8)) : Prop where
  stands : Stands input.sqlBuf 0 (joined lines)
  sqlLen : input.sqlLen = (joined lines).length
  nonempty : ∀ line ∈ lines, line ≠ []
  noNul : ∀ c ∈ joined lines, c ≠ 0

section Turns

variable {input : CliInput} {lines : List (List UInt8)} {line : List UInt8}

theorem CliInput.holds_nil (zero : input.sqlLen = 0) : input.Holds [] :=
  ⟨⟨Nat.zero_le _, rfl⟩, zero, nofun, nofun⟩

theorem CliInput.Holds.sqlLen_pos_iff (holds : input.Holds lines) : 0 < input.sqlLen ↔ lines ≠ [] := by
  rw [holds.sqlLen]
  cases lines with
  | nil => exact ⟨nofun, absurd rfl⟩
  | cons line lines =>
    have length := length_pos_iff.mpr (holds.nonempty _ mem_cons_self)
    cases lines with
    | nil => simpa [joined] using length
    | cons => simp [joined]

/-- A line that fits is put behind the others. -/
theorem CliInput.Holds.store (holds : input.Holds lines) (noNul : ∀ c ∈ text, c ≠ 0)
    (fits : input.sqlLen + text.length + 1 < sqlBufSize) :
    ∃ sqlBuf, storeFields input.sqlBuf input.sqlLen
        [if input.sqlLen > 0 then [char ' '] else [], text, [0]] =
          .ok (sqlBuf, (joined (lines ++ [text])).length + 1) ∧
      Stands sqlBuf 0 (joined (lines ++ [text]) ++ [0]) ∧ ∀ c ∈ joined (lines ++ [text]), c ≠ 0 := by
  have separator : (if input.sqlLen > 0 then [char ' '] else []) =
      if lines = [] then [] else [char ' '] := by
    rw [if_congr holds.sqlLen_pos_iff rfl rfl, ite_not]
  have blank : (if lines = [] then [] else [char ' ']).length ≤ 1 ∧
      ∀ c ∈ (if lines = [] then [] else [char ' ']), c ≠ 0 := by
    split <;> decide +kernel
  rw [separator, joined_concat]
  generalize (if lines = [] then [] else [char ' ']) = gap at blank
  have whole : [gap, text, [0]].flatten = (gap ++ text) ++ [0] := by simp
  have inside : input.sqlLen + [gap, text, [0]].flatten.length ≤ sqlBufSize := by
    rw [whole, length_append, length_append, length_singleton]
    omega
  obtain ⟨sqlBuf, run⟩ := storeBytes_of_inside _ inside
  refine ⟨sqlBuf, ?_, ?_, ?_⟩
  · rw [storeFields_eq, run, whole, length_append, ← Nat.add_assoc, holds.sqlLen,
      ← length_append]
    rfl
  · have kept := holds.stands.of_store run (.inl (by rw [holds.sqlLen, Nat.zero_add]))
    have added := stands_of_store run
    rw [holds.sqlLen, ← Nat.zero_add (joined _).length, whole] at added
    rw [append_assoc]
    exact stands_append.mpr ⟨kept, added⟩
  · simp only [forall_mem_append]
    exact ⟨holds.noNul, blank.2, noNul⟩

/-- One pass of the loop on a line that is no command. -/
theorem CliInput.Holds.turn (holds : input.Holds lines) (noDot : line.head? ≠ some (char '.')) :
    ∃ next, cliTurn input line = .ok (turnOf lines (strippedLine line), next) ∧
      next.Holds (linesAfter lines line) := by
  have begins : untilNul line <+: line := takeWhile_prefix _
  have shorter : strippedLine line <+: untilNul line := rdropWhile_prefix ..
  have isPrefix := shorter.trans begins
  have noNul : ∀ c ∈ strippedLine line, c ≠ 0 := fun c member =>
    untilNul_noNul (shorter.subset member)
  have noCommand : (strippedLine line).head? ≠ some (char '.') := fun isDot => by
    obtain ⟨others, same⟩ := head?_eq_some_iff.mp isDot
    obtain ⟨rest, rfl⟩ := same ▸ isPrefix
    exact noDot rfl
  unfold cliTurn turnOf linesAfter
  generalize strippedLine line = text at noNul noCommand
  have room : TooLong lines text ↔ input.sqlLen + text.length + 1 ≥ sqlBufSize := by
    rw [holds.sqlLen, TooLong]
  by_cases empty : text = []
  · simp only [empty, if_true, true_or]
    exact ⟨_, rfl, holds_nil rfl⟩
  simp only [empty, if_false, false_or, if_neg fun isCommand : _ ∧ _ => noCommand isCommand.1]
  by_cases long : TooLong lines text
  · simp only [if_pos (room.mp long), long, true_or, if_true]
    exact ⟨_, rfl, holds_nil rfl⟩
  obtain ⟨sqlBuf, run, stands, allNoNul⟩ := holds.store noNul (Nat.not_le.mp (mt room.mpr long))
  simp only [long, if_false, false_or, if_neg (mt room.mpr long), run, ok_bind]
  by_cases ends : text.getLast? = some (char ';')
  · simp only [if_pos ends, untilNul_of_stands allNoNul stands]
    exact ⟨_, rfl, holds_nil rfl⟩
  · simp only [if_neg ends]
    refine ⟨_, rfl, (stands_append.mp stands).1, rfl, ?_, allNoNul⟩
    exact forall_mem_append.mpr ⟨holds.nonempty, forall_mem_singleton.mpr empty⟩

/-- A text is its first line and the others. -/
theorem textLines_eq (nonempty : text ≠ []) :
    textLines text = text.take (text.idxOf (char '\n') + 1) ::
      textLines (text.drop (text.idxOf (char '\n') + 1)) := by
  induction text with
  | nil => exact absurd rfl nonempty
  | cons c text inductionHypothesis =>
    by_cases newline : c = char '\n'
    · simp [textLines, newline]
    rw [textLines, if_neg newline, idxOf_cons_ne _ newline]
    by_cases last : text = []
    · subst last
      rfl
    · rw [inductionHypothesis last]
      rfl

/-- A line that is short enough is read at once. -/
theorem fgetsLine_eq (short : (text.take (text.idxOf (char '\n') + 1)).length < cliMaxLine) :
    fgetsLine text =
      (text.take (text.idxOf (char '\n') + 1), text.drop (text.idxOf (char '\n') + 1)) := by
  rw [length_take] at short
  rw [fgetsLine]
  by_cases fits : text.idxOf (char '\n') + 1 ≤ cliMaxLine - 1
  · rw [Nat.min_eq_right fits]
  · simp only [Nat.min_eq_left (Nat.le_of_not_le fits)]
    rw [take_of_length_le (by omega), take_of_length_le (by omega),
      drop_of_length_le (by omega), drop_of_length_le (by omega)]

/-- The loop does to its lines what it should, and writes only to its buffer. -/
theorem CliInput.Holds.run {fuel : Nat} (holds : input.Holds lines)
    (plain : ∀ line ∈ textLines text, line.length < cliMaxLine ∧ line.head? ≠ some (char '.'))
    (enough : text.length ≤ fuel) :
    cliLoop fuel input text = .ok (turnsOf lines (textLines text)) := by
  induction fuel generalizing text input lines with
  | zero =>
    obtain rfl := length_eq_zero_iff.mp (Nat.le_zero.mp enough)
    rfl
  | succ fuel inductionHypothesis =>
    by_cases nonempty : text = []
    · subst nonempty
      rfl
    rw [textLines_eq nonempty] at plain ⊢
    obtain ⟨⟨short, noDot⟩, plain⟩ := forall_mem_cons.mp plain
    rw [cliLoop, if_neg nonempty, fgetsLine_eq short]
    obtain ⟨next, pass, held⟩ := holds.turn noDot
    have goesOn : turnOf lines (strippedLine (text.take (text.idxOf (char '\n') + 1))) ≠ .quits := by
      unfold turnOf
      split <;> try split <;> try split
      all_goals nofun
    dsimp only
    rw [pass, ok_bind]
    rw [if_neg goesOn, inductionHypothesis held plain (by rw [length_drop]; omega)]
    rfl

end Turns

/-- Every write of the loop stays in its buffer, and a line makes it execute a statement exactly if
there is room for it and it ends in a semicolon. The statement is then the lines since the last
reset, without their ends and joined by single spaces. -/
theorem statements_assembled (sqlBuf : Buffer sqlBufSize) (input : List UInt8)
    (plain : ∀ line ∈ textLines input, line.length < cliMaxLine ∧ line.head? ≠ some (char '.')) :
    cliInteractiveLoop sqlBuf input = .ok (turnsOf [] (textLines input)) ∧
      ∀ front line back sql, textLines input = front ++ line :: back →
        ((turnsOf [] (textLines input))[front.length]? = some (.executed sql) ↔
          ¬TooLong (linesSinceReset front) (strippedLine line) ∧
            (strippedLine line).getLast? = some (char ';') ∧
              sql = joined (linesSinceReset front ++ [strippedLine line])) := by
  refine ⟨(CliInput.holds_nil rfl).run plain le_rfl, fun front line back sql split => ?_⟩
  rw [split, turnsOf_getElem, Option.some.injEq, turnOf_executed_iff]
  rfl

/-- A statement of two lines, a line that an empty one takes back, and a statement of one line. -/
theorem statement_of_two_lines :
    cliInteractiveLoop (fun _ => 0) (ascii "SELECT\r\n1;\nDROP\n\nCOMMIT;\n") =
      .ok [.held, .executed (ascii "SELECT 1;"), .held, .emptied, .executed (ascii "COMMIT;")] := by
  have plain : ∀ line ∈ textLines (ascii "SELECT\r\n1;\nDROP\n\nCOMMIT;\n"),
      line.length < cliMaxLine ∧ line.head? ≠ some (char '.') := by
    decide +kernel
  rw [(statements_assembled (fun _ => 0) _ plain).1]
  decide +kernel

/-! ### Sending a statement -/

/-- The server, as `cli_execute_sql` meets it. -/
structure CliPeer where
  /-- `cli_connect` succeeds. -/
  connects : Bool
  /-- The number of bytes that `write` takes. -/
  write : List UInt8 → Option Nat
  write_le : ∀ {bytes written}, write bytes = some written → written ≤ bytes.length
  /-- What becomes of the response. -/
  answer : Int

/-- The size of `buf`. -/
def requestSize : Nat := cliMaxLine + 64

/-- What `snprintf` should put into `buf`. -/
def queryRequest (sql : List UInt8) : List UInt8 :=
  ascii "QUERY:" ++ (untilNul sql ++ ascii "\n")

/-- `cli_execute_sql`: the bytes that are sent, and the result. -/
def cliExecuteSql (peer : CliPeer) (connected : Bool) (sql : List UInt8) : List UInt8 × Int :=
  if connected = false ∧ peer.connects = false then ([], -1)
  else
    let buf := (queryRequest sql).take (requestSize - 1)
    match peer.write buf with
    | none => ([], -1)
    | some written => (buf.take written, if written ≠ buf.length then -1 else peer.answer)

theorem queryRequest_length (sql : List UInt8) :
    (queryRequest sql).length = (untilNul sql).length + 7 := by
  rw [queryRequest, length_append, length_append]
  have keyword : (ascii "QUERY:").length = 6 := rfl
  have newline : (ascii "\n").length = 1 := rfl
  omega

/-- The whole statement is sent, or nothing and an error is returned, exactly when nothing can be
sent, or the statement has at most 4152 bytes and all of the request is taken at once. -/
theorem statement_sent_whole_iff (peer : CliPeer) (connected : Bool) (sql : List UInt8) :
    ((cliExecuteSql peer connected sql).1 = queryRequest sql ∨
        cliExecuteSql peer connected sql = ([], -1)) ↔
      (connected = false ∧ peer.connects = false) ∨
        (∀ written, peer.write ((queryRequest sql).take 4159) = some written → written = 0 ∨
          (untilNul sql).length ≤ 4152 ∧ written = (queryRequest sql).length) := by
  have length := queryRequest_length sql
  have nonempty : queryRequest sql ≠ [] := nofun
  rw [cliExecuteSql]
  split
  next unreachable => exact iff_of_true (.inr rfl) (.inl unreachable)
  next reachable =>
    rw [or_iff_right reachable]
    dsimp only [requestSize, cliMaxLine]
    cases taken : peer.write ((queryRequest sql).take 4159) with
    | none => exact iff_of_true (.inr rfl) nofun
    | some written =>
      have most := peer.write_le taken
      rw [length_take] at most
      simp only [Option.some.injEq, forall_eq', take_take, take_eq_self_iff,
        Prod.mk.injEq, take_eq_nil_iff, length_take]
      constructor
      · rintro (whole | ⟨none, -⟩)
        · exact .inr ⟨by omega, by omega⟩
        · exact .inl (by have := none.resolve_right nonempty; omega)
      · rintro (rfl | ⟨short, rfl⟩)
        · exact .inr ⟨.inl (Nat.zero_min _), if_pos (by omega)⟩
        · exact .inl (by omega)

/-- A server that takes every request whole. -/
def readyPeer : CliPeer :=
  { connects := true, write := fun bytes => some bytes.length
    write_le := fun taken => (Option.some.inj taken).ge, answer := 0 }

theorem textLines_append {line : List UInt8} (isLine : char '\n' ∉ line) (text : List UInt8) :
    textLines (line ++ char '\n' :: text) = (line ++ [char '\n']) :: textLines text := by
  have first : (line ++ char '\n' :: text).idxOf (char '\n') = line.length := by
    rw [idxOf_append_of_notMem isLine, idxOf_cons_self, Nat.add_zero]
  have count : line.length + 1 = (line ++ [char '\n']).length := by
    rw [length_append, length_singleton]
  rw [textLines_eq (by simp), first, count, append_cons _ _ text, take_left,
    drop_left]

/-- A line of a statement, without its end. -/
structure IsStatementLine (text : List UInt8) : Prop where
  plain : ∀ c ∈ text, c ≠ 0 ∧ c ≠ char '\n' ∧ c ≠ char '\r'
  nonempty : text ≠ []
  short : text.length + 1 < cliMaxLine
  noDot : text.head? ≠ some (char '.')

theorem IsStatementLine.strippedLine_eq (isLine : IsStatementLine text) :
    strippedLine (text ++ [char '\n']) = text := by
  have whole : untilNul (text ++ [char '\n']) = text ++ [char '\n'] :=
    untilNul_eq_self (forall_mem_append.mpr
      ⟨fun c inside => (isLine.plain c inside).1, by decide +kernel⟩)
  rw [strippedLine, whole, rdropWhile_concat_pos _ _ _ rfl, rdropWhile_eq_self_iff]
  intro nonempty isEnd
  have last := isLine.plain _ (getLast_mem nonempty)
  simp [last] at isEnd

/-- A statement on two lines is passed on. -/
theorem two_lines_passed {first second : List UInt8} (isFirst : IsStatementLine first)
    (isSecond : IsStatementLine second) (goesOn : first.getLast? ≠ some (char ';'))
    (ends : second.getLast? = some (char ';')) :
    cliInteractiveLoop (fun _ => 0) (first ++ char '\n' :: (second ++ char '\n' :: [])) =
      .ok [.held, .executed (first ++ char ' ' :: second)] := by
  have firstShort := isFirst.short
  have secondShort := isSecond.short
  have lines : textLines (first ++ char '\n' :: (second ++ char '\n' :: [])) =
      [first ++ [char '\n'], second ++ [char '\n']] := by
    rw [textLines_append fun member => (isFirst.plain _ member).2.1 rfl,
      textLines_append fun member => (isSecond.plain _ member).2.1 rfl]
    rfl
  have firstFits : ¬TooLong [] first := by
    simp only [TooLong, joined, intercalate_nil, length_nil, sqlBufSize]
    omega
  have secondFits : ¬TooLong [first] second := by
    simp only [TooLong, joined, intercalate_singleton, sqlBufSize]
    omega
  have held : turnOf [] first = .held := by
    rw [turnOf, if_neg isFirst.nonempty, if_neg firstFits, if_neg goesOn]
  have executed : turnOf [first] second = .executed (first ++ char ' ' :: second) := by
    rw [turnOf, if_neg isSecond.nonempty, if_neg secondFits, if_pos ends]
    simp [joined]
  rw [cliInteractiveLoop, (CliInput.holds_nil rfl).run ?_ le_rfl, lines]
  · simp only [turnsOf, isFirst.strippedLine_eq, isSecond.strippedLine_eq, held, linesAfter,
      isFirst.nonempty, firstFits, goesOn, or_self, if_false, nil_append, executed]
  · rw [lines]
    simp only [forall_mem_cons, length_append,
      head?_append_of_ne_nil _ isFirst.nonempty, head?_append_of_ne_nil _ isSecond.nonempty]
    exact ⟨⟨isFirst.short, isFirst.noDot⟩, ⟨isSecond.short, isSecond.noDot⟩, nofun⟩

/-- The first line of a statement. -/
def deleteLine : List UInt8 :=
  ascii "DELETE FROM measurements_of_the_second_quarter_of_the_last_calendar_year"

/-- The rest of the statement, behind blanks. -/
def whereLine (blanks : Nat) : List UInt8 :=
  List.replicate blanks (char ' ') ++ ascii "WHERE id = 1;"

theorem whereLine_plain (blanks : Nat) :
    ∀ c ∈ whereLine blanks, c ≠ 0 ∧ c ≠ char '\n' ∧ c ≠ char '\r' := by
  simp only [whereLine, forall_mem_append, mem_replicate]
  exact ⟨fun c blank => blank.2 ▸ by decide, by decide +kernel⟩

theorem whereLine_length (blanks : Nat) : (whereLine blanks).length = blanks + 13 := by
  rw [whereLine, length_append, length_replicate]
  rfl

/-- The loop passes a statement on, and it is sent without its `WHERE` clause. -/
theorem where_clause_cut : ∃ input,
    cliInteractiveLoop (fun _ => 0) input =
        .ok [.held, .executed (deleteLine ++ whereLine 4081)] ∧
      cliExecuteSql readyPeer true (deleteLine ++ whereLine 4081) =
        (ascii "QUERY:" ++ (deleteLine ++ List.replicate 4081 (char ' ')), 0) := by
  have isFirst : IsStatementLine deleteLine :=
    ⟨by decide +kernel, by decide, by decide, by decide⟩
  have isSecond : IsStatementLine (whereLine 4080) :=
    ⟨whereLine_plain _, nofun, by rw [whereLine_length]; decide, nofun⟩
  have noNul : untilNul (deleteLine ++ whereLine 4081) = deleteLine ++ whereLine 4081 :=
    untilNul_eq_self (forall_mem_append.mpr
      ⟨fun c inside => (isFirst.plain c inside).1, fun c inside => (whereLine_plain _ c inside).1⟩)
  have request : queryRequest (deleteLine ++ whereLine 4081) =
      (ascii "QUERY:" ++ (deleteLine ++ List.replicate 4081 (char ' '))) ++
        ascii "WHERE id = 1;\n" := by
    rw [queryRequest, noNul, whereLine]
    simp only [append_assoc]
    rfl
  have length :
      (ascii "QUERY:" ++ (deleteLine ++ List.replicate 4081 (char ' '))).length = 4159 := by
    rw [length_append, length_append, length_replicate]
    rfl
  have ends : (whereLine 4080).getLast? = some (char ';') := by
    rw [whereLine, getLast?_append_of_ne_nil _ (by decide)]
    decide
  refine ⟨_, two_lines_passed isFirst isSecond (by decide) ends, ?_⟩
  rw [cliExecuteSql, request, show requestSize - 1 = 4159 from rfl, ← length]
  generalize ascii "QUERY:" ++ (deleteLine ++ List.replicate 4081 (char ' ')) = sent
  simp [readyPeer]

end TinyDb

/-
This file reads the output of `cli_format_result_csv` back. The reader follows RFC
4180 with a line feed at the end of a row: a field in quotes may hold anything, with
its quotes doubled, and any other field ends at the next comma or line feed.

The formatter puts every field in quotes that needs them, so that its output reads
back. It finds an entry of the matrix by the index `i * cols + j`, which is an `int`:
a matrix with more than `2 ^ 31` entries is not printed.
-/

import TinyDb.Escaping
import TinyDb.ResultSet

namespace TinyDb

open List

/-! ### The formatter -/

/-- The text of an entry. -/
def csvField : Option (List UInt8) → List UInt8
  | none => ascii "\"\""
  | some val =>
    if val = [] then ascii "\"\""
    else if char ',' ∈ val ∨ char '"' ∈ val ∨ char '\n' ∈ val then
      char '"' :: (doubled (char '"') val ++ [char '"'])
    else val

/-- `data[i * cols + j]`, printed behind a comma if it is not the first of its row. -/
def csvEntry (cols : Nat) (data : Int → Option (List UInt8)) (i j : Nat) :
    Except Halt (List UInt8) := do
  let index ← checkedInt32 (i * cols + j : Nat)
  .ok ((if j > 0 then [char ','] else []) ++ csvField (data index))

/-- A row. -/
def csvRow (cols : Nat) (data : Int → Option (List UInt8)) (i : Nat) :
    Except Halt (List UInt8) := do
  let entries ← (List.range cols).mapM (csvEntry cols data i)
  .ok (entries.flatten ++ [char '\n'])

/-- `cli_format_result_csv`, with the text that it prints. -/
def cliFormatResultCsv (rows cols : Nat) (data : Int → Option (List UInt8)) :
    Except Halt (List UInt8) := do
  let lines ← (List.range rows).mapM (csvRow cols data)
  .ok lines.flatten

/-! ### The reader -/

/-- Where the reader is: at the start of a field, in a plain field, in quotes, or behind a quote
that may close them. -/
inductive CsvState
  | start | plain | quoted | closed

variable {state : CsvState}

/-- Reads rows, with the field and the row that are read so far. -/
def csvRead (state : CsvState) (field : List UInt8) (row : List (List UInt8)) :
    List UInt8 → Option (List (List (List UInt8)))
  | [] =>
    match state with
    | .start => if row = [] then some [] else some [row ++ [field]]
    | .plain | .closed => some [row ++ [field]]
    | .quoted => none
  | c :: text =>
    match state with
    | .quoted =>
      if c = char '"' then csvRead .closed field row text
      else csvRead .quoted (field ++ [c]) row text
    | _ =>
      if c = char ',' then csvRead .start [] (row ++ [field]) text
      else if c = char '\n' then (csvRead .start [] [] text).map ((row ++ [field]) :: ·)
      else match state with
        | .start =>
          if c = char '"' then csvRead .quoted field row text else csvRead .plain [c] row text
        | .closed => if c = char '"' then csvRead .quoted (field ++ [c]) row text else none
        | _ => if c = char '"' then none else csvRead .plain (field ++ [c]) row text

/-- The rows of a text. -/
def readCsv (text : List UInt8) : Option (List (List (List UInt8))) := csvRead .start [] [] text

/-- The strings of a matrix, with an empty string for `NULL`. -/
def csvMatrix (rows cols : Nat) (data : Int → Option (List UInt8)) : List (List (List UInt8)) :=
  (List.range rows).map fun i => (List.range cols).map fun j =>
    (data (i * cols + j : Nat)).getD []

/-! ### Fields -/

section Fields

variable {field text val : List UInt8} {row : List (List UInt8)}

/-- Where a field may end, a comma or a line feed ends it. -/
theorem csvRead_comma (ends : state ≠ .quoted) :
    csvRead state field row (char ',' :: text) = csvRead .start [] (row ++ [field]) text := by
  cases state with
  | quoted => exact absurd rfl ends
  | start | plain | closed => rfl

theorem csvRead_newline (ends : state ≠ .quoted) :
    csvRead state field row (char '\n' :: text) =
      (csvRead .start [] [] text).map ((row ++ [field]) :: ·) := by
  cases state with
  | quoted => exact absurd rfl ends
  | start | plain | closed => rfl

theorem csvRead_quoted (val field : List UInt8) :
    csvRead .quoted field row (doubled (char '"') val ++ char '"' :: text) =
      csvRead .closed (field ++ val) row text := by
  induction val generalizing field with
  | nil =>
    rw [append_nil]
    rfl
  | cons c val inductionHypothesis =>
    rw [doubled, flatMap_cons, ← doubled, append_assoc, append_cons field]
    by_cases isQuote : c = char '"'
    · rw [isQuote, ← inductionHypothesis]
      rfl
    · rw [if_neg isQuote, singleton_append, csvRead, if_neg isQuote, inductionHypothesis]

theorem csvRead_plain (plain : ∀ c ∈ val, c ≠ char ',' ∧ c ≠ char '"' ∧ c ≠ char '\n')
    (field : List UInt8) :
    csvRead .plain field row (val ++ text) = csvRead .plain (field ++ val) row text := by
  induction val generalizing field with
  | nil => rw [append_nil, nil_append]
  | cons c val inductionHypothesis =>
    obtain ⟨⟨notComma, notQuote, notNewline⟩, plain⟩ := forall_mem_cons.mp plain
    rw [append_cons _, ← inductionHypothesis plain]
    simp [csvRead, notComma, notQuote, notNewline]

/-- A printed entry is read as one field. -/
theorem csvRead_field (val : Option (List UInt8)) (row : List (List UInt8)) (text : List UInt8) :
    ∃ state, state ≠ .quoted ∧
    csvRead .start [] row (csvField val ++ text) = csvRead state (val.getD []) row text := by
  rcases val with - | val
  · exact ⟨.closed, nofun, rfl⟩
  rw [csvField]
  split
  next isEmpty => exact ⟨.closed, nofun, by rw [isEmpty]; rfl⟩
  next nonempty =>
    split
    next special =>
      refine ⟨.closed, nofun, ?_⟩
      rw [cons_append, append_assoc]
      exact csvRead_quoted val []
    next plain =>
      refine ⟨.plain, nofun, ?_⟩
      have plain : ∀ c ∈ val, c ≠ char ',' ∧ c ≠ char '"' ∧ c ≠ char '\n' := fun c member =>
        ⟨fun is => plain (.inl (is ▸ member)), fun is => plain (.inr (.inl (is ▸ member))),
          fun is => plain (.inr (.inr (is ▸ member)))⟩
      obtain ⟨c, val, rfl⟩ := exists_cons_of_ne_nil nonempty
      obtain ⟨⟨notComma, notQuote, notNewline⟩, plain⟩ := forall_mem_cons.mp plain
      have rest : csvRead .plain [c] row (val ++ text) = csvRead .plain (c :: val) row text :=
        csvRead_plain plain [c]
      simp [csvRead, notComma, notQuote, notNewline, rest]

/-- The rest of a row behind one of its fields. -/
theorem csvRead_row (vals : List (Option (List UInt8))) (ends : state ≠ .quoted) :
    csvRead state field row ((vals.flatMap fun val => char ',' :: csvField val) ++ char '\n' :: text) =
      (csvRead .start [] [] text).map ((row ++ field :: vals.map (·.getD [])) :: ·) := by
  induction vals generalizing state field row with
  | nil => exact csvRead_newline ends
  | cons val vals inductionHypothesis =>
    obtain ⟨next, nextEnds, read⟩ := csvRead_field val (row ++ [field]) _
    rw [flatMap_cons, cons_append, cons_append, csvRead_comma ends, append_assoc,
      read, inductionHypothesis nextEnds, append_assoc]
    rfl

/-- A row and its end. -/
theorem csvRead_line (val : Option (List UInt8)) (vals : List (Option (List UInt8)))
    (text : List UInt8) :
    readCsv (csvField val ++ ((vals.flatMap fun val => char ',' :: csvField val) ++
        char '\n' :: text)) =
      (readCsv text).map (((val :: vals).map (·.getD [])) :: ·) := by
  obtain ⟨state, ends, first⟩ := csvRead_field val []
    ((vals.flatMap fun val => char ',' :: csvField val) ++ char '\n' :: text)
  rw [readCsv, first, csvRead_row _ ends]
  rfl

end Fields

/-! ### Matrices -/

section Matrices

variable {rows cols : Nat} {data : Int → Option (List UInt8)} {i : Nat}

theorem mapM_eq_ok {α β : Type} {f : α → Except Halt β} {g : α → β} {items : List α}
    (each : ∀ item ∈ items, f item = .ok (g item)) : items.mapM f = .ok (items.map g) := by
  induction items with
  | nil => rfl
  | cons item items inductionHypothesis =>
    obtain ⟨first, others⟩ := forall_mem_cons.mp each
    rw [mapM_cons, first, inductionHypothesis others]
    rfl

theorem mapM_ok_member {α β : Type} {f : α → Except Halt β} {items : List α} {results : List β}
    (run : items.mapM f = .ok results) : ∀ item ∈ items, ∃ result, f item = .ok result := by
  induction items generalizing results with
  | nil => exact fun _ member => absurd member not_mem_nil
  | cons item items inductionHypothesis =>
    rw [mapM_cons] at run
    cases first : f item with
    | error => rw [first] at run; cases run
    | ok result =>
      cases others : items.mapM f with
      | error => rw [first, others] at run; cases run
      | ok _ => exact forall_mem_cons.mpr ⟨⟨result, first⟩, inductionHypothesis others⟩

/-- An entry is printed exactly if its index is an `int`. -/
theorem csvEntry_eq (cols : Nat) (data : Int → Option (List UInt8)) (i j : Nat) :
    csvEntry cols data i j =
      if i * cols + j < 2 ^ 31 then
        .ok ((if j > 0 then [char ','] else []) ++ csvField (data (i * cols + j : Nat)))
      else .error .undefined := by
  rw [csvEntry, checkedInt32]
  by_cases inside : i * cols + j < 2 ^ 31
  · rw [if_pos inside, if_pos (by omega)]
    rfl
  · rw [if_neg inside, if_neg (by omega)]
    rfl

/-- A row that is printed is read back. -/
theorem csvRow_reads (data : Int → Option (List UInt8)) (positive : 0 < cols)
    (inside : i * cols + cols ≤ 2 ^ 31) :
    ∃ line, csvRow cols data i = .ok line ∧ ∀ text, readCsv (line ++ text) =
      (readCsv text).map (((List.range cols).map fun j =>
        (data (i * cols + j : Nat)).getD []) :: ·) := by
  have entries : (List.range cols).mapM (csvEntry cols data i) = .ok ((List.range cols).map fun j =>
      (if j > 0 then [char ','] else []) ++ csvField (data (i * cols + j : Nat))) :=
    mapM_eq_ok fun j member => (csvEntry_eq _ _ i j).trans
      (if_pos (by have := mem_range.mp member; omega))
  refine ⟨_, by rw [csvRow, entries]; rfl, fun text => ?_⟩
  obtain ⟨others, rfl⟩ := Nat.exists_eq_add_one_of_ne_zero (Nat.ne_of_gt positive)
  have line := csvRead_line (data (i * (others + 1) + 0))
    ((List.range others).map fun j => data (i * (others + 1) + (j + 1) : Nat)) text
  rw [range_succ_eq_map]
  simpa [flatMap_def, Function.comp_def] using line

/-- The rows are read back one after the other. -/
theorem csvRows_read (data : Int → Option (List UInt8)) (positive : 0 < cols) (numbers : List Nat)
    (inside : ∀ i ∈ numbers, i * cols + cols ≤ 2 ^ 31) :
    ∃ lines, numbers.mapM (csvRow cols data) = .ok lines ∧ readCsv lines.flatten =
      some (numbers.map fun i => (List.range cols).map fun j =>
        (data (i * cols + j : Nat)).getD []) := by
  induction numbers with
  | nil => exact ⟨[], rfl, rfl⟩
  | cons i numbers inductionHypothesis =>
    obtain ⟨insideFirst, inside⟩ := forall_mem_cons.mp inside
    obtain ⟨line, row, reads⟩ := csvRow_reads _ positive insideFirst
    obtain ⟨lines, others, readOthers⟩ := inductionHypothesis inside
    refine ⟨line :: lines, by rw [mapM_cons, row, others]; rfl, ?_⟩
    rw [flatten_cons, reads, readOthers]
    rfl

/-- The entry behind the last `int` is not printed. -/
theorem cliFormatResultCsv_ok {text : List UInt8} (positive : 0 < cols)
    (run : cliFormatResultCsv rows cols data = .ok text) : rows * cols ≤ 2 ^ 31 := by
  by_contra _
  cases lines : (List.range rows).mapM (csvRow cols data) with
  | error => rw [cliFormatResultCsv, lines] at run; cases run
  | ok _ =>
    have less : 2 ^ 31 / cols < rows := (Nat.div_lt_iff_lt_mul positive).mpr (by omega)
    obtain ⟨_, row⟩ := mapM_ok_member lines _ (mem_range.mpr less)
    cases entries : (List.range cols).mapM (csvEntry cols data (2 ^ 31 / cols)) with
    | error => rw [csvRow, entries] at row; cases row
    | ok _ =>
      obtain ⟨_, entry⟩ := mapM_ok_member entries _
        (mem_range.mpr (Nat.mod_lt _ positive))
      rw [csvEntry_eq, if_neg (by rw [Nat.div_add_mod']; omega)] at entry
      cases entry

end Matrices

/-- The printed text of a matrix reads back as the matrix exactly if it has at most `2 ^ 31`
entries. -/
theorem csv_read_back_iff (rows cols : Nat) (positive : 0 < cols)
    (data : Int → Option (List UInt8)) :
    (∃ text, cliFormatResultCsv rows cols data = .ok text ∧
      readCsv text = some (csvMatrix rows cols data)) ↔ rows * cols ≤ 2 ^ 31 := by
  constructor
  · rintro ⟨text, run, -⟩
    exact cliFormatResultCsv_ok positive run
  · intro few
    obtain ⟨lines, run, reads⟩ := csvRows_read _ positive (List.range rows) fun i member => by
      have := Nat.mul_le_mul_right cols (mem_range.mp member)
      rw [Nat.succ_mul] at this
      omega
    exact ⟨lines.flatten, by rw [cliFormatResultCsv, run]; rfl, reads⟩

/-- Two entries, one with every byte that needs quotes and one that is `NULL`. -/
theorem csv_read_back_two : ∃ text,
    cliFormatResultCsv 1 2 (fun index => if index = 0 then some (ascii "a\"\n,") else none) =
        .ok text ∧
      readCsv text = some [[ascii "a\"\n,", []]] :=
  (csv_read_back_iff 1 2 (by decide) _).mpr (by decide)

/-- A matrix of two rows with `2 ^ 31 + 2` entries is not printed. -/
theorem wide_matrix_not_printed :
    ¬∃ text, cliFormatResultCsv 2 (2 ^ 30 + 1) (fun _ => none) = .ok text :=
  fun ⟨_, run⟩ => absurd (cliFormatResultCsv_ok (by decide) run) (by decide)

end TinyDb

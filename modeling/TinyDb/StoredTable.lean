/-
This file settles the text of a table that `CREATE TABLE` puts into the catalog.

The text is put together in a buffer of 512 bytes by calls of `snprintf`, and the offset
counts what did not fit. The loop looks at the offset only in front of a column, so that a
long name takes it past the end of the buffer before the column is complete.
-/

import TinyDb.Executor
import TinyDb.RowBytes
import TinyDb.TableRoundTrip

namespace TinyDb

open CStrings Heaps TokenType List

variable {stmt : AstCreateTable} {first closed : Bool} {front : List ColumnDef}

/-! ### The texts of columns -/

/-- What is printed in front of the columns. -/
def tableStart (stmt : AstCreateTable) : List UInt8 :=
  ascii "CREATE TABLE " ++ untilNul stmt.tableName ++ ascii " ("

/-- What the calls of `snprintf` print for a column. -/
def columnPrints (first : Bool) (col : ColumnDef) : List (List UInt8) :=
  (if first then [] else [ascii ", "]) ++ [untilNul col.name ++ ascii " "] ++
    [columnTypeText col.type] ++ (if col.notNull then [ascii " NOT NULL"] else []) ++
    if col.primaryKey then [ascii " PRIMARY KEY"] else []

/-- The text of columns, of which the first has no comma in front of it. -/
def columnsText : Bool → List ColumnDef → List UInt8
  | _, [] => []
  | first, col :: columns => (columnPrints first col).flatten ++ columnsText false columns

theorem columnSql_eq (sql : SqlBuffer) (first : Bool) (col : ColumnDef) :
    columnSql sql first col = (columnPrints first col).foldlM snprintf sql := by
  obtain ⟨name, type, notNull, primaryKey⟩ := col
  cases first <;> cases notNull <;> cases primaryKey <;>
    simp only [columnSql, columnPrints, if_true, Bool.false_eq_true, if_false, cons_append,
      nil_append, foldlM_cons, foldlM_nil, bind_pure, pure_bind]

/-- The calls stay in the buffer if the last of them starts in it. -/
theorem foldlM_snprintf {prints : List (List UInt8)} (nonempty : prints ≠ []) (sql : SqlBuffer) :
    prints.foldlM snprintf sql =
      if sql.offset + prints.dropLast.flatten.length ≤ sqlBufferSize then
        .ok { text := sql.text ++ prints.flatten.take (sqlBufferSize - 1 - sql.offset)
              offset := sql.offset + prints.flatten.length }
      else .error .outOfBounds := by
  induction prints generalizing sql with
  | nil => exact absurd rfl nonempty
  | cons print prints inductionHypothesis =>
    rw [foldlM_cons, snprintf, flatten_cons]
    by_cases inside : sql.offset ≤ sqlBufferSize
    · rw [if_pos inside]
      by_cases last : prints = []
      · subst last
        rw [if_pos (by simpa using inside), flatten_nil, append_nil]
        rfl
      rw [dropLast_cons_of_ne_nil last, flatten_cons, length_append,
        length_append, ← Nat.add_assoc, ← Nat.add_assoc, take_append,
        ← append_assoc, ← Nat.sub_add_eq _ sql.offset]
      exact inductionHypothesis last _
    · rw [if_neg inside, if_neg (by omega)]
      rfl

theorem columnPrints_ne_nil (first : Bool) (col : ColumnDef) : columnPrints first col ≠ [] := by
  simp [columnPrints]

/-- The loop stays in the buffer exactly if every column it comes to starts its last call there. -/
theorem columnsSql_isOk_iff (sql : SqlBuffer) (first : Bool) (columns : List ColumnDef) :
    (∃ next, columnsSql sql first columns = .ok next) ↔
      ∀ front col back, columns = front ++ col :: back →
        sql.offset + (columnsText first front).length < 462 →
        sql.offset + (columnsText first front).length +
          (columnPrints (first && front.isEmpty) col).dropLast.flatten.length ≤ 512 := by
  induction columns generalizing sql first with
  | nil => exact iff_of_true ⟨sql, rfl⟩ fun front _ _ none => by cases front <;> cases none
  | cons col columns inductionHypothesis =>
    rw [columnsSql, columnSql_eq, foldlM_snprintf (columnPrints_ne_nil _ col)]
    by_cases early : sql.offset < sqlBufferSize - 50
    · rw [if_pos early]
      by_cases fits : sql.offset + (columnPrints first col).dropLast.flatten.length ≤ sqlBufferSize
      · rw [if_pos fits, ok_bind, inductionHypothesis]
        constructor
        · intro others front col back split
          cases front with
          | nil =>
            obtain ⟨rfl, -⟩ := List.cons.inj split
            intro _
            simpa [columnsText, sqlBufferSize] using fits
          | cons head front =>
            obtain ⟨rfl, behind⟩ := List.cons.inj split
            have stays := others _ col _ behind
            simp only [columnsText, length_append, ← Nat.add_assoc, isEmpty_cons,
              Bool.and_false] at stays ⊢
            exact stays
        · intro all front other back split
          have stays := all (col :: front) _ _ (congrArg _ split)
          simp only [columnsText, length_append, ← Nat.add_assoc, isEmpty_cons,
            Bool.and_false] at stays ⊢
          exact stays
      · rw [if_neg fits]
        refine iff_of_false nofun fun all => fits ?_
        have stays := all [] col _ rfl early
        simpa [columnsText, sqlBufferSize] using stays
    · rw [if_neg early]
      refine iff_of_true ⟨sql, rfl⟩ fun front other back _ start => ?_
      exact absurd (Nat.lt_of_le_of_lt (Nat.le_add_right ..) start) early

/-- The offset at which a column behind others starts. -/
def columnStart (stmt : AstCreateTable) (front : List ColumnDef) : Nat :=
  (tableStart stmt).length + (columnsText true front).length

/-- The buffer in front of the columns. -/
def startBuffer (stmt : AstCreateTable) : SqlBuffer :=
  { text := (tableStart stmt).take 511, offset := (tableStart stmt).length }

/-- The text with its parenthesis, if there is room for it. -/
def closedText (sql : SqlBuffer) : List UInt8 :=
  if sql.offset < sqlBufferSize - 2 then sql.text ++ ascii ")" else sql.text

theorem createTableSql_eq (stmt : AstCreateTable) :
    createTableSql stmt = (columnsSql (startBuffer stmt) true stmt.columns).map closedText := by
  have start : snprintf { text := [], offset := 0 } (tableStart stmt) = .ok (startBuffer stmt) := by
    simp [snprintf, startBuffer, sqlBufferSize]
  rw [createTableSql, ← tableStart, start, ok_bind]
  cases columnsSql (startBuffer stmt) true stmt.columns with
  | error fault => rfl
  | ok sql =>
    rw [ok_bind, Except.map, closedText]
    split
    next early =>
      have length : (ascii ")").length = 1 := rfl
      rw [snprintf, if_pos (by omega), take_of_length_le (by omega)]
      rfl
    next => rfl

theorem createTableSql_isOk_iff :
    (∃ sql, createTableSql stmt = .ok sql) ↔
      ∃ next, columnsSql (startBuffer stmt) true stmt.columns = .ok next := by
  rw [createTableSql_eq]
  cases columnsSql (startBuffer stmt) true stmt.columns with
  | error fault => exact iff_of_false nofun nofun
  | ok sql => exact iff_of_true ⟨_, rfl⟩ ⟨_, rfl⟩

/-- The text of a table stays in its buffer exactly if every column that starts below offset 462
starts its last piece in the buffer. -/
theorem create_table_in_buffer_iff (stmt : AstCreateTable) :
    (∃ sql, createTableSql stmt = .ok sql) ↔
      ∀ front col back, stmt.columns = front ++ col :: back → columnStart stmt front < 462 →
        columnStart stmt front + (columnPrints front.isEmpty col).dropLast.flatten.length ≤ 512 :=
  createTableSql_isOk_iff.trans (columnsSql_isOk_iff _ _ _)

theorem ColumnName.untilNul_text (name : ColumnName) : untilNul name.text = name.text :=
  untilNul_eq_self fun c member isNul => by
    have isChar := name.identifier c member
    rw [isNul] at isChar
    cases isChar

theorem columnPrints_plain (name : ColumnName) (type : ColumnType) :
    (columnPrints true (ColumnText.tree ⟨name, type, []⟩)).dropLast.flatten =
      untilNul name.text ++ ascii " " :=
  append_nil _

/-- A name of many letters. -/
def longName (count : Nat) : ColumnName where
  text := List.replicate (count + 20) (char 'a')
  starts := rfl
  identifier _ member := List.eq_of_mem_replicate member ▸ by decide
  noKeyword entry member same := by
    have short : ∀ entry ∈ keywords, entry.1.length < 20 := by decide +kernel
    have length := congrArg List.length same
    rw [List.length_map, List.length_replicate] at length
    exact absurd (short entry member) (by omega)

theorem longName_length (count : Nat) : (longName count).text.length = count + 20 :=
  length_replicate

/-- A table with a long name for its only column. -/
def longTable : TableText where
  table := nameOfTable
  columns := ⟨⟨longName 500, .text, []⟩, []⟩

/-- The type of a column with a long name is printed behind the end of the buffer. -/
theorem long_name_overflows : ∃ stmt, Parsed (.createTable stmt) ∧
    stmt.columns.map ColumnDef.name = [List.replicate 520 (char 'a')] ∧
    ¬∃ sql, createTableSql stmt = .ok sql := by
  have writes : Writes [char ' '] _ (tablePieces longTable.table
      (listed sqlWords.columnPieces longTable.columns) true) := writes_spaced rfl
  have parsed := (sqlWords.parsed_iff _ writes longTable.node).mpr ⟨⟨rfl, by decide⟩, rfl⟩
  refine ⟨_, ⟨_, parsed⟩, rfl, fun printed => ?_⟩
  have inside := (columnsSql_isOk_iff ..).mp (createTableSql_isOk_iff.mp printed) []
    (ColumnText.tree ⟨longName 500, .text, []⟩) [] rfl (by decide +kernel)
  rw [isEmpty_nil, Bool.and_self, columnPrints_plain, length_append, ColumnName.untilNul_text,
    longName_length] at inside
  omega

end TinyDb

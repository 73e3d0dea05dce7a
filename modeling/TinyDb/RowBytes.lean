/-
This file settles what the bytes of a row keep of its values, and where they are written.

The bytes of a row have no types: a negated number becomes the byte of `NULL`, the empty
string is that byte as well, and a number that is too large becomes the largest one. Two
rows with different values have different bytes if no value of one can be mistaken for the
value of the other in its place, since neither's bytes begin with the other's. Rows of the
same kinds of values have different bytes if and only if none of them is negated or too
large. The buffer of the bytes has no check: an `INSERT` into a table writes past its end
exactly when the bytes of all value lists are more than 1024.
-/

import TinyDb.InsertRows
import TinyDb.StatementRoundTrip

namespace TinyDb

open Bytes CStrings Heaps Relation TokenType List

/-! ### Literals of a row -/

/-- A literal in a value list. -/
inductive RowLiteral
  | number (literal : Int64Literal)
  | large (literal : IntegerLiteral) (isLarge : 2 ^ 63 ≤ literal.value)
  | negated (literal : IntegerLiteral)
  | text (str : List UInt8) (noNul : ∀ c ∈ str, c ≠ 0)
  | null

/-- The kinds of literals. -/
inductive RowKind
  | number | large | negated | text | null
  deriving DecidableEq

/-- What a literal denotes. -/
inductive RowValue
  | integer (value : Int)
  | text (str : List UInt8)
  | null
  deriving DecidableEq

namespace RowLiteral

def kind : RowLiteral → RowKind
  | number _ => .number
  | large _ _ => .large
  | negated _ => .negated
  | text _ _ => .text
  | null => .null

def value : RowLiteral → RowValue
  | number literal => .integer literal.literal.value
  | large literal _ => .integer literal.value
  | negated literal => .integer (-literal.value)
  | text str _ => .text str
  | null => .null

/-- The expression that `parse_literal` makes of a literal. -/
def expression : RowLiteral → Expression
  | number literal => .literalInt literal.literal.stored
  | large literal _ => .literalInt literal.stored
  | negated literal => .unary tokenMinus.code (.literalInt literal.stored)
  | text str _ => .literalString str
  | null => .literalNull

/-- The bytes that `executor_exec_insert` makes of a literal. -/
def bytes (literal : RowLiteral) : List UInt8 := valueBytes literal.expression

/-- Neither literal is mistaken for the other: its bytes do not begin with those of the other, unless
they have the same bytes and the same value. -/
def Clear (first second : RowLiteral) : Prop :=
  first.bytes <+: second.bytes ∨ second.bytes <+: first.bytes →
    first.bytes = second.bytes ∧ first.value = second.value

instance (first second : RowLiteral) : Decidable (first.Clear second) :=
  inferInstanceAs (Decidable (_ → _))

end RowLiteral

/-- The bytes of a literal keep its value. -/
def RowKind.Kept (kind : RowKind) : Prop := kind ≠ .large ∧ kind ≠ .negated

instance (kind : RowKind) : Decidable kind.Kept := inferInstanceAs (Decidable (_ ∧ _))

/-! ### Rows with the same bytes -/

/-- A number of nines. -/
def nines (count : Nat) : IntegerLiteral :=
  .decimal (List.replicate (count + 1) (char '9')) nofun fun _ member =>
    List.eq_of_mem_replicate member ▸ by decide

/-- Two literals of a kind, with the same bytes; they differ if the kind is not kept. -/
def RowKind.sample (second : Bool) : RowKind → RowLiteral
  | number => .number ⟨nines 0, by decide +kernel⟩
  | large => .large (nines (19 + second.toNat)) (by cases second <;> decide +kernel)
  | negated => .negated (nines second.toNat)
  | text => .text [] nofun
  | null => .null

/-! ### Statements from texts -/

/-- The parser returns a statement for some text, without an error. -/
def Parsed (node : AstNode) : Prop :=
  ∃ sql parser, parseText sql = some (some node, some parser) ∧ parserError parser = none

theorem InsertText.parsed (statement : InsertText) : Parsed statement.node := by
  have writes : Writes [char ' '] _ statement.pieces := writes_spaced rfl
  obtain ⟨parser, tokens, others, created, stands, atTokens⟩ := writes.parserCreate
  exact ⟨_, (Parser.At.insert_yields _ stands atTokens).parseText created⟩

/-- The name `t`. -/
def nameOfTable : ColumnName := ⟨ascii "t", by decide, by decide +kernel, by decide +kernel⟩

/-- `INSERT INTO t VALUES` with one literal. -/
def oneLiteral (literal : InsertLiteral) : InsertText :=
  { table := nameOfTable
    columns := none
    rows := ⟨⟨literal, []⟩, []⟩ }

/-! ### The buffer of a row -/

/-- The number of bytes that an `INSERT` puts into its buffer. -/
def insertedBytes (values : List (List Expression)) : Nat :=
  ((values.flatMap (·.take 16)).flatMap valueBytes).length

theorem serializeValues_isOk_iff {values : List (List Expression)} :
    (∃ row, serializeValues values = .ok row) ↔ insertedBytes values ≤ rowBufferSize := by
  simp only [serializeValues_eq_ok, exists_eq_left, insertedBytes]

/-- An `INSERT` that finds no table or no page for it never looks at its values. -/
theorem Represents.insert_rejected {Free : PageCache → View → Prop}
    {Held : PageCache → View → Addr → Prop} {exec : Executor} {db : Database}
    (backs : Backs .must Free Held) (represents : Represents Free exec db) {stmt : AstInsert}
    (rejected : ∀ table, db.find stmt.tableName = some table → table.entry.rootPage = 0) :
    ∃ code next, executorExecInsert exec stmt = .ok (code, next) := by
  obtain ⟨-, view, free, depicts⟩ := represents
  obtain ⟨⟨_, looked⟩, lookup, rfl, -⟩ :=
    backs.catalogLookup free depicts.entries _ _
  rw [executorExecInsert, lookup, ok_bind, db.find_entry]
  cases found : db.find stmt.tableName with
  | none => exact ⟨_, _, rfl⟩
  | some table =>
    simp only [Option.map_some]
    rw [if_neg (by rw [rejected _ found]; decide)]
    exact ⟨_, _, rfl⟩

/-- An `INSERT` stays in its buffer exactly when it finds no table or no page for it, or all values
together have at most 1024 bytes. -/
theorem insert_in_buffer_iff {exec : Executor} {db : Database} (works : WorksOn exec db)
    (stmt : AstInsert) :
    (∃ code next, executorExecInsert exec stmt = .ok (code, next)) ↔
      (∀ entry, FoundAs exec.storage.cache exec.storage.catalog .table stmt.tableName
        (some entry) → entry.rootPage = 0) ∨ insertedBytes stmt.values ≤ 1024 := by
  obtain ⟨Free, Held, backs, represents⟩ := works
  have rejects : (∀ entry, FoundAs exec.storage.cache exec.storage.catalog .table stmt.tableName
      (some entry) → entry.rootPage = 0) ↔
        ∀ table, db.find stmt.tableName = some table → table.entry.rootPage = 0 := by
    simp only [represents.foundAs_iff backs.toServes]
    exact ⟨fun all table found => all _ ⟨table, found, rfl⟩,
      fun all entry ⟨table, found, same⟩ => same ▸ all _ found⟩
  rw [rejects]
  constructor
  · rintro ⟨code, next, run⟩
    obtain ⟨value, fits | rejected, -⟩ := represents.insert_returned backs run
    · exact .inr (serializeValues_isOk_iff.mp ⟨value, fits⟩)
    · exact .inl rejected
  · rintro (rejected | fits)
    · exact represents.insert_rejected backs rejected
    · obtain ⟨row, serialized⟩ := serializeValues_isOk_iff.mpr fits
      obtain ⟨⟨code, next⟩, run, -⟩ := represents.insert backs serialized
      exact ⟨code, next, run⟩

/-- One value, inserted into a new table. -/
theorem insert_in_buffer_first_row : ∃ storage path process code next,
    tinydbOpen (.named newPath) = .ok (some storage, path) ∧
      ReflTransGen Executes (.start storage 0) process ∧
      executorExecInsert process.exec rowStatement = .ok (code, next) := by
  obtain ⟨db, works⟩ := run_worksOn newStorage_opened tableProcess_runs tableProcess_roomy
  obtain ⟨code, next, execution⟩ := (insert_in_buffer_iff works rowStatement).mpr (.inr (by decide))
  exact ⟨newStorage, _, tableProcess, code, next, newStorage_opened, tableProcess_runs, execution⟩

/-- A string of 1024 bytes, inserted into a new table, is written past the end of the buffer. -/
theorem long_text_overflows : ∃ storage path process stmt,
    tinydbOpen (.named newPath) = .ok (some storage, path) ∧
      ReflTransGen Executes (.start storage 0) process ∧ Parsed (.insert stmt) ∧
      stmt.values = [[.literalString (List.replicate 1024 (char 'a'))]] ∧
      ¬∃ code next, executorExecInsert process.exec stmt = .ok (code, next) := by
  have noNul : ∀ c ∈ List.replicate 1024 (char 'a'), c ≠ 0 := fun c member =>
    eq_of_mem_replicate member ▸ by decide
  have fault : executorExecInsert tableProcess.exec ⟨ascii "t", [],
      [[.literalString (List.replicate 1024 (char 'a'))]]⟩ = .error .outOfBounds := by
    decide +kernel
  exact ⟨newStorage, _, tableProcess, _, newStorage_opened, tableProcess_runs,
    (oneLiteral (.string _ noNul)).parsed, rfl, fun ⟨_, _, run⟩ => nomatch fault.symm.trans run⟩

end TinyDb

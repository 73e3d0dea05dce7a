/-
This file says which tables survive closing and opening the database: none. The
pages of a table do survive, but `catalog_open` makes a new tree for the catalog
whatever the file holds, so the catalog of a database that was opened again has no
entries.

The first part of the result needs nothing of the session before: the catalog is
empty after opening, so every table that was found before is lost. The second part
shows that a session with a `CREATE TABLE` that succeeded always has a table to lose.
-/

import TinyDb.Isolation

namespace TinyDb

open Heaps CStrings Posix List

variable {db : Database} {process last : Process} {stmts : List AstCreateTable}

/-- Every table that was found before is found after, on the same page. -/
def Durable (before after : Storage) : Prop :=
  ∀ name entry, FoundAs before.cache before.catalog .table name (some entry) →
    ∃ other, FoundAs after.cache after.catalog .table name (some other) ∧
      other.rootPage = entry.rootPage

/-- Some `CREATE TABLE` statements, all of which succeed. -/
inductive CreatesTables : Process → List AstCreateTable → Process → Prop
  | nil {process : Process} : CreatesTables process [] process
  | cons {process last : Process} {freed : FreedHandle} {stmt : AstCreateTable} {next : Executor}
      {rest : List AstCreateTable}
      (run : executorExec freed process.exec (.createTable stmt) = .ok (.success, next))
      (others : CreatesTables (process.after (.createTable stmt) next) rest last) :
      CreatesTables process (stmt :: rest) last

/-! ### Sessions -/

/-- All entries are those of tables. -/
def Database.OnlyTables (db : Database) : Prop := ∀ table ∈ db.tables, table.entry.type = .table

theorem Database.OnlyTables.create (only : db.OnlyTables) (stmt : AstCreateTable) (sql : List UInt8)
    (rootPage : UInt32) :
    (db.create (createTableEntry stmt sql rootPage)).OnlyTables := by
  intro table member
  rcases mem_append.mp member with old | new
  · exact only table old
  · rw [mem_singleton.mp new]
    rfl

/-- The first table is found under its name. -/
theorem Database.OnlyTables.find_first (only : db.OnlyTables) (nonempty : db.tables ≠ []) :
    ∃ name table, db.find name = some table := by
  obtain ⟨table, rest, tables⟩ := exists_cons_of_ne_nil nonempty
  refine ⟨table.entry.name.bytes, table, ?_⟩
  have named : table.entry.isNamed .table table.entry.name.bytes = true :=
    CatalogEntry.isNamed_iff.mpr ⟨only table (by rw [tables]; exact mem_cons_self),
      table.entry.name.untilNul_bytes.symm⟩
  rw [Database.find, tables, find?_cons, named]

theorem CreatesTables.roomy (creates : CreatesTables process stmts last) (roomy : last.Roomy) :
    process.Roomy := by
  induction creates with
  | nil => exact roomy
  | cons run _ inductionHypothesis =>
    exact Executes.roomy (.statement run) (inductionHypothesis roomy)

/-- After a `CREATE TABLE` that succeeded there is a table. -/
theorem CreatesTables.sound (creates : CreatesTables process stmts last) (sound : process.Sound db)
    (only : db.OnlyTables) (roomy : last.Roomy) :
    ∃ after, last.Sound after ∧ after.OnlyTables ∧
      (db.tables ≠ [] ∨ stmts ≠ [] → after.tables ≠ []) := by
  induction creates generalizing db with
  | nil =>
    exact ⟨db, sound, only, fun tables => tables.resolve_right fun nonempty => nonempty rfl⟩
  | cons run others inductionHypothesis =>
    rcases sound.createTable run (others.roomy roomy) with ⟨same, nonempty⟩ | ⟨sql, rootPage, created⟩
    · obtain ⟨after, soundAfter, onlyAfter, tables⟩ := inductionHypothesis same only roomy
      exact ⟨after, soundAfter, onlyAfter, fun _ => tables (Or.inl (nonempty rfl))⟩
    · obtain ⟨after, soundAfter, onlyAfter, tables⟩ :=
        inductionHypothesis created (only.create _ sql _) roomy
      exact ⟨after, soundAfter, onlyAfter, fun _ =>
        tables (Or.inl (append_ne_nil_of_right_ne_nil _ (cons_ne_nil _ _)))⟩

/-! ### Opening again -/

/-- No table is found in a database that was just opened. -/
theorem opened_finds_nothing {location : Location} {storage : Storage} {path : Path}
    (opening : tinydbOpen location = .ok (some storage, path)) (name : List UInt8)
    (entry : CatalogEntry) : ¬FoundAs storage.cache storage.catalog .table name (some entry) := by
  intro found
  obtain ⟨table, search, -⟩ := ((opened_represents opening 0).foundAs_iff
    (stocked_backs 1).toServes).mp found
  cases search

/-- The tables of a session are found after closing and opening the database exactly when there was
none to find; on few pages, exactly when no table was created. -/
theorem tables_durable_iff {location : Location} {storage reopened : Storage} {path last : Path}
    {counter : UInt64} {process : Process} {stmts : List AstCreateTable} {closed : Path}
    {access : Access} {schedule : List Answer}
    (opening : tinydbOpen location = .ok (some storage, path))
    (creates : CreatesTables (.start storage counter) stmts process)
    (closing : tinydbClose process.exec.storage = .ok (some closed))
    (reopening : tinydbOpen (.named { closed with access, schedule }) = .ok (some reopened, last)) :
    (Durable process.exec.storage reopened ↔ ∀ name entry,
      ¬FoundAs process.exec.storage.cache process.exec.storage.catalog .table name (some entry)) ∧
    (process.pages.length < 256 → process.pages.Nodup →
      (Durable process.exec.storage reopened ↔ stmts = [])) := by
  have lost : Durable process.exec.storage reopened ↔ ∀ name entry, ¬FoundAs
      process.exec.storage.cache process.exec.storage.catalog .table name (some entry) := by
    constructor
    · intro durable name entry found
      obtain ⟨other, foundAgain, -⟩ := durable _ _ found
      exact opened_finds_nothing reopening _ _ foundAgain
    · intro none name entry found
      exact absurd found (none _ _)
  refine ⟨lost, fun few fresh => lost.trans ⟨fun none => ?_, ?_⟩⟩
  · by_contra nonempty
    obtain ⟨db, sound, only, tables⟩ :=
      creates.sound (start_sound opening _) nofun ⟨few, fresh⟩
    obtain ⟨name, table, found⟩ := only.find_first (tables (Or.inr nonempty))
    exact none _ _ ((sound.represents.foundAs_iff
      (stocked_backs _).toServes).mpr ⟨table, found, rfl⟩)
  · rintro rfl
    cases creates
    exact opened_finds_nothing opening

/-- A session without statements loses nothing. -/
theorem tables_durable_idle : ∃ storage path closed reopened last,
    tinydbOpen (.named newPath) = .ok (some storage, path) ∧
      tinydbClose storage = .ok (some closed) ∧
      tinydbOpen (.named closed) = .ok (some reopened, last) ∧ Durable storage reopened := by
  obtain ⟨closed, close, reopened, last, reopen, -⟩ :
      ∃ closed, tinydbClose newStorage = .ok (some closed) ∧
      ∃ reopened last, tinydbOpen (.named closed) = .ok (some reopened, last) ∧
        reopened.isOpen = true := by
    decide +kernel
  have creates : CreatesTables (.start newStorage 0) [] (.start newStorage 0) := .nil
  exact ⟨newStorage, _, closed, reopened, last, newStorage_opened, close, reopen,
    ((tables_durable_iff newStorage_opened creates close reopen).2 (by simp [Process.start])
      (nodup_singleton _)).mpr rfl⟩

/-- A table that was created is not found after closing and opening the database. -/
theorem created_table_lost : ∃ storage path next closed reopened last entry,
    tinydbOpen (.named newPath) = .ok (some storage, path) ∧
      executorExec .intact (executorCreate storage 0) (.createTable tableStatement) =
        .ok (.success, next) ∧
      FoundAs next.storage.cache next.storage.catalog .table tableStatement.tableName
        (some entry) ∧
      tinydbClose next.storage = .ok (some closed) ∧
      tinydbOpen (.named closed) = .ok (some reopened, last) ∧
      ∀ other, ¬FoundAs reopened.cache reopened.catalog .table tableStatement.tableName
        (some other) := by
  obtain ⟨next, run, ⟨entry, found, -⟩, closed, close, reopened, last, reopen, -⟩ :
      ∃ next, executorExec .intact (executorCreate newStorage 0) (.createTable tableStatement) =
        .ok (.success, next) ∧ TableRows next tableStatement.tableName [] ∧
      ∃ closed, tinydbClose next.storage = .ok (some closed) ∧
      ∃ reopened last, tinydbOpen (.named closed) = .ok (some reopened, last) ∧
        reopened.isOpen = true := by
    decide +kernel
  exact ⟨newStorage, _, next, closed, reopened, last, entry, newStorage_opened, run, found, close,
    reopen, fun other => opened_finds_nothing reopen _ _⟩

end TinyDb

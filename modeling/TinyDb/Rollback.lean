/-
This file says what `ROLLBACK` undoes: nothing. The statement changes the state of
the transaction in the executor, and the storage hook behind it only looks whether
the handle is open. So the tables are as they were before `BEGIN` exactly when the
statements in between stored nothing.

Insertions only add rows behind the others. If the rows of every table are the same
at the end as at the beginning, they were the same all the time, and no statement
stored a row.
-/

import TinyDb.Isolation

namespace TinyDb

open Heaps CStrings Relation List Option

/-- Some `INSERT` statements, one after the other. -/
def executeInserts (freed : FreedHandle) : Executor → List AstInsert → Except Fault Executor
  | exec, [] => return exec
  | exec, stmt :: rest => do
    let (_, exec) ← executorExec freed exec (.insert stmt)
    executeInserts freed exec rest

/-- An `INSERT` cannot store its row: the table has no page, the next row id is in use, or the row
does not fit. -/
def Idle (exec : Executor) (stmt : AstInsert) : Prop :=
  ∀ entry rows value,
    FoundAs exec.storage.cache exec.storage.catalog .table stmt.tableName (some entry) →
    Scans exec.storage.cache (btreeOpen entry.rootPage) rows →
    serializeValues stmt.values = .ok value →
    entry.rootPage = 0 ∨ exec.rowidCounter + 1 ∈ rows.map Prod.fst ∨ ¬RowFits rows value

/-- Every statement is idle in the state in which it is executed. -/
def IdleThroughout (freed : FreedHandle) : Executor → List AstInsert → Prop
  | _, [] => True
  | exec, stmt :: rest => Idle exec stmt ∧ ∀ code next,
    executorExec freed exec (.insert stmt) = .ok (code, next) → IdleThroughout freed next rest

/-! ### Rows are only added -/

namespace Database

variable {first second third : Database}

/-- The second database has at least the rows of the first, in the same order. -/
def Extends (before after : Database) : Prop :=
  ∀ name table, before.find name = some table →
    ∃ grown, after.find name = some grown ∧ table.rows <+: grown.rows

theorem Extends.trans (one : first.Extends second) (two : second.Extends third) :
    first.Extends third := by
  intro name table found
  obtain ⟨middle, foundMiddle, below⟩ := one _ _ found
  obtain ⟨grown, foundGrown, above⟩ := two _ _ foundMiddle
  exact ⟨grown, foundGrown, below.trans above⟩

theorem insert_extends (db : Database) (name value : List UInt8) :
    db.Extends (db.insert name value).2 := by
  intro other table found
  rcases db.insert_cases name value with ⟨code, -, run, -⟩ |
    ⟨owner, -, -, ⟨-, run⟩ | ⟨-, -, run⟩ | ⟨-, -, run⟩⟩ <;> rw [run]
  · exact ⟨table, found, prefix_rfl⟩
  · exact ⟨table, found, prefix_rfl⟩
  · exact ⟨table, found, prefix_rfl⟩
  · have counted : find { db with rowid := db.rowid + 1 } other = some table := found
    refine ⟨_, by rw [find_append, counted, map_some], ?_⟩
    rw [Table.append]
    split
    · exact prefix_append ..
    · exact prefix_rfl

/-- The tables that are found have the same rows. -/
def SameRows (before after : Database) : Prop :=
  ∀ name, (after.find name).map Table.rows = (before.find name).map Table.rows

/-- Rows that are the same at the end were the same all the time. -/
theorem SameRows.between (same : first.SameRows third) (one : first.Extends second)
    (two : second.Extends third) : first.SameRows second ∧ second.SameRows third := by
  have middle : first.SameRows second := by
    intro name
    have rows := same name
    cases found : first.find name with
    | none =>
      rw [found, map_none, map_eq_none_iff] at rows
      rw [map_none, map_eq_none_iff, eq_none_iff_forall_ne_some]
      intro table foundSecond
      obtain ⟨grown, foundThird, -⟩ := two _ _ foundSecond
      cases rows.symm.trans foundThird
    | some table =>
      obtain ⟨middle, foundMiddle, below⟩ := one _ _ found
      obtain ⟨last, foundLast, above⟩ := two _ _ foundMiddle
      rw [found, foundLast, map_some, map_some, Option.some.injEq] at rows
      rw [foundMiddle, map_some, map_some,
        below.eq_of_length_le (rows ▸ above.length_le)]
  exact ⟨middle, fun name => (same _).trans (middle _).symm⟩

theorem SameRows.trans (one : first.SameRows second) (two : second.SameRows third) :
    first.SameRows third :=
  fun name => (two name).trans (one name)

/-- An insertion stores nothing when the table has no page, the row id is in use, or the row does
not fit. -/
theorem insert_sameRows_iff (db : Database) (name value : List UInt8) :
    db.SameRows (db.insert name value).2 ↔ ∀ table, db.find name = some table →
      table.entry.rootPage = 0 ∨ db.rowid + 1 ∈ table.rows.map Prod.fst ∨
        ¬RowFits table.rows value := by
  rcases db.insert_cases name value with ⟨code, -, run, zero⟩ |
    ⟨table, found, nonzero, ⟨taken, run⟩ | ⟨-, full, run⟩ | ⟨new, fits, run⟩⟩ <;> rw [run]
  · exact iff_of_true (fun _ => rfl) fun table found => Or.inl (zero _ found)
  · exact iff_of_true (fun _ => rfl) fun other search =>
      Or.inr (Or.inl (Option.some.inj (found.symm.trans search) ▸ taken))
  · exact iff_of_true (fun _ => rfl) fun other search =>
      Or.inr (Or.inr (Option.some.inj (found.symm.trans search) ▸ full))
  · refine iff_of_false (fun same => ?_) fun idle => ?_
    · have counted : find { db with rowid := db.rowid + 1 } name = some table := found
      have rows := same name
      rw [append_find_self counted, found, map_some, map_some]
        at rows
      exact absurd rows (by simp)
    · rcases idle table found with zero | taken | full
      · exact nonzero zero
      · exact new taken
      · exact full fits

end Database

/-! ### Statements in between -/

section Statements

variable {Free : PageCache → View → Prop} {Held : PageCache → View → Addr → Prop}
  {exec next : Executor} {db : Database}

theorem Represents.idle_iff (represents : Represents Free exec db) (serves : Serves .must Free Held)
    {stmt : AstInsert} {value : List UInt8}
    (known : serializeValues stmt.values = .ok value ∨
      ∀ table, db.find stmt.tableName = some table → table.entry.rootPage = 0) :
    Idle exec stmt ↔ db.SameRows (db.insert stmt.tableName value).2 := by
  rw [db.insert_sameRows_iff, Idle, represents.counter]
  constructor
  · intro idle table found
    rcases known with serialized | zero
    · exact idle _ _ _ ((represents.foundAs_iff serves).mpr ⟨table, found, rfl⟩)
        ((represents.scans_iff serves found).mpr rfl) serialized
    · exact Or.inl (zero _ found)
  · intro idle entry rows other foundAs scans serialized
    obtain ⟨table, found, rfl⟩ := (represents.foundAs_iff serves).mp foundAs
    obtain rfl := (represents.scans_iff serves found).mp scans
    rcases known with same | zero
    · obtain rfl := Except.ok.inj (same.symm.trans serialized)
      exact idle _ found
    · exact Or.inl (zero _ found)

/-- After the statements, the tables have the same rows exactly when every statement was idle. -/
theorem Represents.inserts (backs : Backs .must Free Held) {freed : FreedHandle}
    (represents : Represents Free exec db) (stmts : List AstInsert)
    (run : executeInserts freed exec stmts = .ok next) :
    ∃ after, Represents Free next after ∧ db.Extends after ∧
      (IdleThroughout freed exec stmts ↔ db.SameRows after) := by
  induction stmts generalizing exec db with
  | nil =>
    cases run
    exact ⟨db, represents, fun name table found => ⟨table, found, prefix_rfl⟩,
      iff_of_true trivial fun _ => rfl⟩
  | cons stmt rest inductionHypothesis =>
    rw [executeInserts, bind_eq_ok] at run
    obtain ⟨⟨code, middle⟩, first, run⟩ := run
    obtain ⟨value, known, -, representsMiddle⟩ := represents.insert_returned backs first
    obtain ⟨after, representsNext, grows, idle⟩ := inductionHypothesis representsMiddle run
    have step := db.insert_extends stmt.tableName value
    refine ⟨after, representsNext, step.trans grows, ?_⟩
    rw [IdleThroughout, represents.idle_iff backs.toServes known]
    constructor
    · rintro ⟨same, others⟩
      exact same.trans (idle.mp (others _ _ first))
    · intro same
      obtain ⟨one, two⟩ := same.between step grows
      refine ⟨one, fun otherCode other again => ?_⟩
      cases (first.symm.trans again)
      exact idle.mpr two

end Statements

/-! ### Transactions -/

theorem tableRows_same_iff {Free : PageCache → View → Prop} {Held : PageCache → View → Addr → Prop}
    {exec next : Executor} {db after : Database} (serves : Serves .must Free Held)
    (represents : Represents Free exec db) (representsNext : Represents Free next after) :
    (∀ name rows, TableRows next name rows ↔ TableRows exec name rows) ↔ db.SameRows after := by
  simp only [representsNext.tableRows_iff serves, represents.tableRows_iff serves]
  exact forall_congr' fun name => ⟨Option.ext, fun same rows => by rw [same]⟩

/-- `ROLLBACK` restores the rows of all tables exactly when no statement since `BEGIN` stored
anything. -/
theorem rollback_restores_iff {location : Location} {storage : Storage} {path : Path}
    {counter : UInt64} {process : Process}
    (opening : tinydbOpen location = .ok (some storage, path))
    (run : ReflTransGen Executes (.start storage counter) process)
    (few : process.pages.length < 256) (fresh : process.pages.Nodup) {freed : FreedHandle}
    {begun last rolled : Executor} {stmts : List AstInsert}
    (begins : executorExec freed process.exec (.transaction .txBegin) = .ok (.success, begun))
    (inserts : executeInserts freed begun stmts = .ok last)
    (rolls : executorExec freed last (.transaction .txRollback) = .ok (.success, rolled)) :
    (∀ name rows, TableRows rolled name rows ↔ TableRows process.exec name rows) ↔
      IdleThroughout freed begun stmts := by
  obtain ⟨db, sound, -⟩ := run_sound opening run ⟨few, fresh⟩
  have backs := stocked_backs process.pages.length
  have begunRepresents := sound.represents.transaction begins
  obtain ⟨after, lastRepresents, -, idle⟩ := begunRepresents.inserts backs _ inserts
  rw [idle]
  exact tableRows_same_iff backs.toServes sound.represents (lastRepresents.transaction rolls)

/-- A transaction on a database without tables. -/
theorem rollback_restores_empty : ∃ storage path begun last rolled,
    tinydbOpen (.named newPath) = .ok (some storage, path) ∧
      executorExec .intact (executorCreate storage 0) (.transaction .txBegin) =
        .ok (.success, begun) ∧
      executeInserts .intact begun [rowStatement] = .ok last ∧
      executorExec .intact last (.transaction .txRollback) = .ok (.success, rolled) ∧
      ∀ name rows, TableRows rolled name rows ↔ TableRows (executorCreate storage 0) name rows := by
  obtain ⟨begun, begins, ⟨_, absent⟩, last, inserts, rolled, rolls⟩ :
      ∃ begun, executorExec .intact (executorCreate newStorage 0) (.transaction .txBegin) =
        .ok (.success, begun) ∧
      FoundAs begun.storage.cache begun.storage.catalog .table rowStatement.tableName none ∧
      ∃ last, executeInserts .intact begun [rowStatement] = .ok last ∧
      ∃ rolled, executorExec .intact last (.transaction .txRollback) = .ok (.success, rolled) := by
    decide +kernel
  refine ⟨newStorage, _, begun, last, rolled, newStorage_opened, begins, inserts, rolls, ?_⟩
  refine (rollback_restores_iff newStorage_opened .refl (by simp [Process.start])
    (nodup_singleton _) begins inserts rolls).mpr ⟨?_, fun _ _ _ => trivial⟩
  rintro entry rows value ⟨_, found⟩
  cases absent.symm.trans found

/-- A row that was inserted after `BEGIN` is there after `ROLLBACK`. -/
theorem rollback_keeps_row : ∃ storage path process begun last rolled rows,
    tinydbOpen (.named newPath) = .ok (some storage, path) ∧
      ReflTransGen Executes (.start storage 0) process ∧ process.pages.length < 256 ∧
      process.pages.Nodup ∧
      executorExec .intact process.exec (.transaction .txBegin) = .ok (.success, begun) ∧
      executeInserts .intact begun [rowStatement] = .ok last ∧
      executorExec .intact last (.transaction .txRollback) = .ok (.success, rolled) ∧
      TableRows process.exec rowStatement.tableName rows ∧
      ¬TableRows rolled rowStatement.tableName rows := by
  obtain ⟨begun, begins, last, inserts, rolled, rolls, before, after⟩ :
      ∃ begun, executorExec .intact tableProcess.exec (.transaction .txBegin) =
        .ok (.success, begun) ∧
      ∃ last, executeInserts .intact begun [rowStatement] = .ok last ∧
      ∃ rolled, executorExec .intact last (.transaction .txRollback) = .ok (.success, rolled) ∧
        TableRows tableProcess.exec rowStatement.tableName [] ∧
        ¬TableRows rolled rowStatement.tableName [] := by
    decide +kernel
  exact ⟨newStorage, _, tableProcess, begun, last, rolled, [], newStorage_opened, tableProcess_runs,
    tableProcess_roomy.1, tableProcess_roomy.2, begins, inserts, rolls, before, after⟩

end TinyDb

/-
This file settles how many rows one `INSERT` adds to its table.

`INSERT` takes several value lists, and each of them should become a row of its
own. The executor puts the values of all lists into one buffer and inserts that
buffer under one row id, so there is one new row, whatever the number of lists.
-/

import TinyDb.Isolation

namespace TinyDb

open Heaps CStrings Relation List

variable {before : List Row} {data : List (List UInt8)}

/-! ### Rows of a statement -/

/-- The bytes of a value list. -/
def valueListBytes (values : List Expression) : List UInt8 := values.flatMap valueBytes

/-- There is one more row for each piece of data, under a new row id of its own. -/
def Gains (before after : List Row) (data : List (List UInt8)) : Prop :=
  ∃ rowids : List UInt64, rowids.length = data.length ∧ rowids.Nodup ∧
    (∀ rowid ∈ rowids, rowid ∉ before.map Prod.fst) ∧ after.Perm (before ++ rowids.zip data)

theorem Gains.length_eq {after : List Row} (gains : Gains before after data) :
    after.length = before.length + data.length := by
  obtain ⟨rowids, sameLength, -, -, perm⟩ := gains
  rw [perm.length_eq, length_append, length_zip, sameLength, Nat.min_self]

/-- A row under a new id is the gain of one value list. -/
theorem gains_append_one {rowid : UInt64} (new : rowid ∉ before.map Prod.fst) (value : List UInt8) :
    Gains before (before ++ [(rowid, value)]) [value] :=
  ⟨[rowid], rfl, nodup_singleton _, fun _ same => mem_singleton.mp same ▸ new, .refl _⟩

/-- Short value lists are serialised one behind the other. -/
theorem serializeValues_short {values : List (List Expression)} {value : List UInt8}
    (serialized : serializeValues values = .ok value)
    (short : ∀ list ∈ values, list.length ≤ 16) : value = (values.map valueListBytes).flatten := by
  have whole : values.flatMap (·.take 16) = values.flatten := by
    rw [flatMap_def, map_congr_left fun list member =>
      take_of_length_le (short _ member), map_id']
  rw [(serializeValues_eq_ok.mp serialized).1, whole, flatMap_def, map_flatten,
    flatten_flatten, List.map_map]
  rfl

namespace Database

variable {db : Database} {name : List UInt8} {table : Table}

/-- An insertion that succeeds adds one row, if its id is new. -/
theorem insert_gains_iff (found : db.find name = some table) (nonempty : data ≠ []) :
    ((db.insert name data.flatten).1 = .success →
        ∃ grown, (db.insert name data.flatten).2.find name = some grown ∧
          Gains table.rows grown.rows data) ↔
      (table.entry.rootPage ≠ 0 → db.rowid + 1 ∉ table.rows.map Prod.fst ∧
        (RowFits table.rows data.flatten → data.length = 1)) := by
  have positive : 0 < data.length := length_pos_iff.mpr nonempty
  rcases db.insert_cases name data.flatten with ⟨code, failed, run, zero⟩ |
    ⟨other, search, nonzero, cases⟩
  · rw [run]
    exact iff_of_true (fun succeeded => absurd succeeded failed)
      fun nonzero => absurd (zero _ found) nonzero
  cases (found.symm.trans search)
  have counted : find { db with rowid := db.rowid + 1 } name = some table := found
  rcases cases with ⟨taken, run⟩ | ⟨new, full, run⟩ | ⟨new, fits, run⟩ <;> rw [run]
  · refine iff_of_false (fun gains => ?_) fun single => (single nonzero).1 taken
    obtain ⟨grown, again, gained⟩ := gains rfl
    cases (counted.symm.trans again)
    have length := gained.length_eq
    omega
  · exact iff_of_true nofun fun _ => ⟨new, fun fits => absurd fits full⟩
  · rw [append_find_self counted]
    constructor
    · intro gains _
      obtain ⟨grown, same, gained⟩ := gains rfl
      cases same
      have length := gained.length_eq
      rw [length_append, length_singleton] at length
      exact ⟨new, fun _ => by omega⟩
    · intro single _
      obtain ⟨value, rfl⟩ := length_eq_one_iff.mp ((single nonzero).2 fits)
      refine ⟨_, rfl, ?_⟩
      rw [flatten_singleton]
      exact gains_append_one new _

end Database

/-! ### Executors -/

/-- The executor works on a database in pages that the cache can always serve. -/
def WorksOn (exec : Executor) (db : Database) : Prop :=
  ∃ Free Held, Backs .must Free Held ∧ Represents Free exec db

/-- So does every executor in a run on few pages. -/
theorem run_worksOn {location : Location} {storage : Storage} {path : Path} {counter : UInt64}
    {process : Process} (opening : tinydbOpen location = .ok (some storage, path))
    (run : ReflTransGen Executes (.start storage counter) process) (roomy : process.Roomy) :
    ∃ db, WorksOn process.exec db := by
  obtain ⟨db, sound, -⟩ := run_sound opening run roomy
  exact ⟨db, _, _, stocked_backs _, sound.represents⟩

/-- An `INSERT` that succeeds adds a row for each value list exactly when there is only one list and
the next row id is not in use; one that does not fit, or finds no page, does not succeed. -/
theorem insert_gains_rows_iff {exec : Executor} {db : Database} (works : WorksOn exec db)
    (stmt : AstInsert) {entry : CatalogEntry} {rows : List Row}
    (found : FoundAs exec.storage.cache exec.storage.catalog .table stmt.tableName (some entry))
    (scans : Scans exec.storage.cache (btreeOpen entry.rootPage) rows)
    (nonempty : stmt.values ≠ []) (short : ∀ list ∈ stmt.values, list.length ≤ 16)
    {value : List UInt8} (fits : serializeValues stmt.values = .ok value) :
    ∃ code next, executorExecInsert exec stmt = .ok (code, next) ∧
      ((code = .success → ∃ after, TableRows next stmt.tableName after ∧
          Gains rows after (stmt.values.map valueListBytes)) ↔
        (entry.rootPage ≠ 0 → exec.rowidCounter + 1 ∉ rows.map Prod.fst ∧
          (RowFits rows value → stmt.values.length = 1))) := by
  obtain ⟨Free, Held, backs, represents⟩ := works
  have serves := backs.toServes
  obtain ⟨table, search, rfl⟩ := (represents.foundAs_iff serves).mp found
  obtain rfl := (represents.scans_iff serves search).mp scans
  obtain ⟨⟨_, next⟩, run, rfl, after⟩ := represents.insert backs fits
  refine ⟨_, next, run, ?_⟩
  obtain rfl := serializeValues_short fits short
  have someData : stmt.values.map valueListBytes ≠ [] :=
    fun none => nonempty (map_eq_nil_iff.mp none)
  have gains := Database.insert_gains_iff search someData
  rw [length_map] at gains
  rw [represents.counter, ← gains]
  simp only [after.tableRows_iff serves, Option.map_eq_some_iff]
  refine imp_congr_right fun _ => ⟨?_, ?_⟩
  · rintro ⟨_, ⟨grown, again, rfl⟩, gained⟩
    exact ⟨grown, again, gained⟩
  · rintro ⟨grown, again, gained⟩
    exact ⟨_, ⟨grown, again, rfl⟩, gained⟩

/-- One value list, inserted into a new table. -/
theorem insert_gains_first_row : ∃ storage path process next after,
    tinydbOpen (.named newPath) = .ok (some storage, path) ∧
      ReflTransGen Executes (.start storage 0) process ∧
      executorExecInsert process.exec rowStatement = .ok (.success, next) ∧
      TableRows next rowStatement.tableName after ∧
      Gains [] after [[7, 0, 0, 0, 0, 0, 0, 0]] := by
  obtain ⟨⟨entry, found, scans⟩, next, execution⟩ :
      TableRows tableProcess.exec rowStatement.tableName [] ∧
      ∃ next, executorExecInsert tableProcess.exec rowStatement = .ok (.success, next) := by
    decide +kernel
  obtain ⟨db, works⟩ := run_worksOn newStorage_opened tableProcess_runs tableProcess_roomy
  obtain ⟨code, again, returned, gains⟩ := insert_gains_rows_iff works _ found scans nofun
    (by decide) rowStatement_fits
  obtain ⟨rfl, rfl⟩ := Prod.mk.inj (Except.ok.inj (returned.symm.trans execution))
  obtain ⟨after, rows, gained⟩ := gains.mpr (fun _ => ⟨nofun, fun _ => rfl⟩) rfl
  exact ⟨newStorage, _, tableProcess, again, after, newStorage_opened, tableProcess_runs, execution,
    rows, gained⟩

/-- `INSERT INTO t VALUES (7), (8)`. -/
def rowsStatement : AstInsert :=
  { tableName := [116], columns := [], values := [[.literalInt 7], [.literalInt 8]] }

/-- Two value lists, inserted into a new table, become one row. -/
theorem insert_merges_rows : ∃ storage path process next,
    tinydbOpen (.named newPath) = .ok (some storage, path) ∧
      ReflTransGen Executes (.start storage 0) process ∧
      executorExecInsert process.exec rowsStatement = .ok (.success, next) ∧
      TableRows process.exec rowsStatement.tableName [] ∧
      TableRows next rowsStatement.tableName
        [(1, [7, 0, 0, 0, 0, 0, 0, 0, 8, 0, 0, 0, 0, 0, 0, 0])] := by
  refine ⟨newStorage, newDatabase.2, tableProcess, ?_⟩
  simp only [exists_and_left]
  exact ⟨newStorage_opened, tableProcess_runs, by decide +kernel⟩

end TinyDb

/-
This file proves that an `INSERT` touches no table but its own.

A process executes statements over one storage handle. Its pages are those that
`pager_allocate_page` has handed out to it. As long as no page is handed out twice
and they all fit into the cache, every table has a page of its own, which stays
resident, and the executor behaves like a database. The row ids come from a 64-bit
counter: rows are told apart as long as it has not come round to an id in use.
-/

import TinyDb.Database

namespace TinyDb

open Heaps CStrings Posix Bytes Relation List Option

variable {location : Location} {storage : Storage} {path : Path} {db : Database}

/-! ### Processes -/

/-- An executor, the pages handed out to it, and the number of `INSERT` statements. -/
structure Process where
  exec : Executor
  pages : List UInt32
  inserts : Nat

variable {next : Process}

/-- A process after `tinydb_open`; the catalog has taken one page. -/
def Process.start (storage : Storage) (counter : UInt64) : Process where
  exec := executorCreate storage counter
  pages := [storage.catalog.tree.rootPage]
  inserts := 0

/-- The page a statement takes. -/
def pagesTaken (exec : Executor) : AstNode → List UInt32
  | .createTable _ => (nextPage exec.storage.cache).toList
  | _ => []

/-- How many rows a statement asks for. -/
def insertCount : AstNode → Nat
  | .insert _ => 1
  | _ => 0

/-- The process after a statement. -/
def Process.after (process : Process) (stmt : AstNode) (next : Executor) : Process where
  exec := next
  pages := process.pages ++ pagesTaken process.exec stmt
  inserts := process.inserts + insertCount stmt

/-- A statement is executed and returns, whatever it returns. -/
inductive Executes : Process → Process → Prop
  | statement {process : Process} {freed : FreedHandle} {stmt : AstNode} {code : ReturnCode}
      {next : Executor} (run : executorExec freed process.exec stmt = .ok (code, next)) :
      Executes process (process.after stmt next)

/-- The process works on a database, on pages that were handed out to it. -/
structure Process.Sound (process : Process) (db : Database) : Prop where
  represents : Represents (Stocked process.pages.length) process.exec db
  owned : process.exec.storage.catalog.tree.rootPage :: db.roots ⊆ process.pages

/-- The pages are different and fit into the cache. -/
def Process.Roomy (process : Process) : Prop :=
  process.pages.length < 256 ∧ process.pages.Nodup

instance (process : Process) : Decidable process.Roomy := inferInstanceAs (Decidable (_ ∧ _))

/-- What a statement can do to a database. -/
inductive Database.Step (db : Database) : Nat → Database → Prop
  | same (inserts : Nat) : Step db inserts db
  | create (stmt : AstCreateTable) (sql : List UInt8) (rootPage : UInt32) :
      Step db 0 (db.create (createTableEntry stmt sql rootPage))
  | insert (name value : List UInt8) : Step db 1 (db.insert name value).2

section Processes

variable {process : Process} {db : Database}

theorem start_sound (opening : tinydbOpen location = .ok (some storage, path)) (counter : UInt64) :
    (Process.start storage counter).Sound (.empty counter) :=
  ⟨opened_represents opening _, List.Subset.refl _⟩

/-- `btree_create` gives the process a page of its own. -/
theorem Process.Sound.plants (sound : process.Sound db) {pages : List UInt32}
    (taken : pages = process.pages ++ (nextPage process.exec.storage.cache).toList)
    (few : pages.length < 256) (fresh : pages.Nodup) {out : Option BTree × PageCache}
    (run : btreeCreate process.exec.storage.cache = .ok out) :
    Plants (Stocked pages.length) process.exec.storage.catalog db out := by
  obtain ⟨⟨-, view, ⟨resident, count, maxPages⟩, depicts⟩, owned⟩ := sound
  have length : pages.length =
      process.pages.length + (nextPage process.exec.storage.cache).toList.length := by
    rw [taken, length_append]
  have room : process.exec.storage.cache.count < process.exec.storage.cache.maxPages := by
    omega
  obtain ⟨sameMax, counted, ⟨failed, kept⟩ | ⟨root, empty, handed, planted, layout, kept⟩⟩ :=
    btreeCreate_cases resident room run
  · exact ⟨view, ⟨kept, by omega, sameMax.trans maxPages⟩, depicts, fun tree some => by
      rw [failed] at some
      cases some⟩
  · have outside : root ∉ process.exec.storage.catalog.tree.rootPage :: db.roots := by
      intro member
      rw [taken, handed] at fresh
      exact (nodup_append.mp fresh).2.2 _ (owned member) _ (mem_singleton_self _) rfl
    refine ⟨_, ⟨kept, by omega, sameMax.trans maxPages⟩, depicts.update_other outside,
      fun tree some => ?_⟩
    cases (planted.symm.trans some)
    exact ⟨⟨empty, pageSize, [], Function.update_self .., layout, rfl, rfl⟩, outside⟩

/-- `CREATE TABLE` adds a table, or leaves the database as it is; if it succeeds there is a table. -/
theorem Process.Sound.createTable (sound : process.Sound db) {freed : FreedHandle}
    {stmt : AstCreateTable} {code : ReturnCode} {next : Executor}
    (run : executorExec freed process.exec (.createTable stmt) = .ok (code, next))
    (roomy : (process.after (.createTable stmt) next).Roomy) :
    ((process.after (.createTable stmt) next).Sound db ∧ (code = .success → db.tables ≠ [])) ∨
      ∃ sql rootPage, (process.after (.createTable stmt) next).Sound
        (db.create (createTableEntry stmt sql rootPage)) := by
  have handle : (process.after (.createTable stmt) next).exec.storage.catalog =
    process.exec.storage.catalog := executorExec_catalog run
  have grown : process.exec.storage.catalog.tree.rootPage :: db.roots ⊆
      (process.after (.createTable stmt) next).pages :=
    List.Subset.trans sound.owned (subset_append_left ..)
  have plants : Ensures .may (btreeCreate process.exec.storage.cache) _ := fun out create =>
    sound.plants rfl roomy.1 roomy.2 create
  have backs : Backs .may _ _ :=
    (stocked_backs (process.after (.createTable stmt) next).pages.length).weaken
  rcases (Represents.createTable backs sound.represents.counter (fun _ _ => trivial) nofun
    plants).elim run with ⟨represents, nonempty⟩ | ⟨-, -, sql, tree, created, create, represents⟩
  · refine Or.inl ⟨⟨represents, by rw [handle]; exact grown⟩, fun succeeded => ?_⟩
    rcases nonempty with ⟨nonempty, -⟩ | ⟨failed, -⟩
    · exact nonempty
    · exact nomatch succeeded.symm.trans failed
  · refine Or.inr ⟨sql, tree.rootPage, represents, ?_⟩
    rw [handle, Database.roots, Database.create, map_append]
    refine append_subset.mpr ⟨grown, fun root member => ?_⟩
    rw [mem_singleton.mp member]
    refine mem_append_right _ ?_
    simp only [pagesTaken, btreeCreate_root create]
    exact mem_singleton_self _

/-- A statement keeps the process sound. -/
theorem Executes.sound (step : Executes process next) (sound : process.Sound db)
    (roomy : next.Roomy) :
    ∃ inserts after, next.inserts = process.inserts + inserts ∧ db.Step inserts after ∧
      next.Sound after := by
  obtain @⟨freed, stmt, code, exec, run⟩ := step
  have backs : Backs .may _ _ := (stocked_backs process.pages.length).weaken
  have keeps : pagesTaken process.exec stmt = [] → ∀ after, after.roots = db.roots →
      Represents (Stocked process.pages.length) exec after →
      (process.after stmt exec).Sound after := by
    intro none after roots represents
    have handle : (process.after stmt exec).exec.storage.catalog = process.exec.storage.catalog :=
      executorExec_catalog run
    have pages : (process.after stmt exec).pages = process.pages := by
      rw [Process.after, none, append_nil]
    refine ⟨by rw [pages]; exact represents, ?_⟩
    rw [pages, roots, handle]
    exact sound.owned
  cases stmt with
  | createTable stmt =>
    rcases sound.createTable run roomy with ⟨same, -⟩ | ⟨sql, rootPage, created⟩
    · exact ⟨0, db, rfl, .same 0, same⟩
    · exact ⟨0, _, rfl, .create _ sql _, created⟩
  | insert stmt =>
    obtain ⟨value, -, -, represents⟩ := sound.represents.insert_returned backs run
    exact ⟨1, _, rfl, .insert _ _, keeps rfl _ (db.insert_roots ..) represents⟩
  | select stmt => exact ⟨0, db, rfl, .same 0, keeps rfl db rfl (sound.represents.select backs run)⟩
  | transaction kind =>
    exact ⟨0, db, rfl, .same 0, keeps rfl db rfl (sound.represents.transaction run)⟩
  | dropTable _ | createIndex _ | dropIndex _ | update _ | delete _ =>
    cases run
    exact ⟨0, db, rfl, .same 0, keeps rfl db rfl sound.represents⟩

theorem Executes.roomy (step : Executes process next) (roomy : next.Roomy) :
    process.Roomy := by
  obtain @⟨freed, stmt, code, exec, run⟩ := step
  obtain ⟨few, fresh⟩ := roomy
  simp only [Process.after, length_append] at few
  exact ⟨by omega, (nodup_append.mp fresh).1⟩

end Processes

/-! ### Row ids -/

/-- Every row has an id that the counter has passed. -/
def Database.Numbered (db : Database) : Prop :=
  ∀ table ∈ db.tables, ∀ row ∈ table.rows, 0 < row.1.toNat ∧ row.1.toNat ≤ db.rowid.toNat

/-- While the counter does not come round, the next row id is new. -/
theorem Database.Numbered.fresh (numbered : db.Numbered) {table : Table}
    (member : table ∈ db.tables) : db.rowid + 1 ∉ table.rows.map Prod.fst := by
  intro taken
  obtain ⟨row, inRows, same⟩ := List.mem_map.mp taken
  obtain ⟨positive, bounded⟩ := numbered _ member row inRows
  have limit := db.rowid.toNat_lt
  rw [same, UInt64.toNat_add, UInt64.toNat_one] at positive bounded
  omega

theorem Database.Step.numbered {after : Database} {inserts : Nat} (step : db.Step inserts after)
    (numbered : db.Numbered) (young : db.rowid.toNat + inserts < 2 ^ 64) :
    after.Numbered ∧ after.rowid.toNat ≤ db.rowid.toNat + inserts := by
  cases step with
  | same => exact ⟨numbered, Nat.le_add_right ..⟩
  | create =>
    refine ⟨fun table member => ?_, Nat.le_refl _⟩
    rcases mem_append.mp member with old | new
    · exact numbered _ old
    · rw [mem_singleton.mp new]
      nofun
  | insert name value =>
    have next : (db.rowid + 1).toNat = db.rowid.toNat + 1 := by
      rw [UInt64.toNat_add, UInt64.toNat_one, Nat.mod_eq_of_lt young]
    have older : ∀ table ∈ db.tables, ∀ row ∈ table.rows,
        0 < row.1.toNat ∧ row.1.toNat ≤ (db.rowid + 1).toNat := by
      intro table member row inRows
      have bounds := numbered _ member row inRows
      rw [next]
      exact ⟨bounds.1, Nat.le_succ_of_le bounds.2⟩
    rcases db.insert_cases name value with ⟨code, -, run, -⟩ |
      ⟨table, -, -, ⟨-, run⟩ | ⟨-, -, run⟩ | ⟨-, -, run⟩⟩ <;> rw [run]
    · exact ⟨numbered, Nat.le_add_right ..⟩
    · exact ⟨older, Nat.le_of_eq next⟩
    · exact ⟨older, Nat.le_of_eq next⟩
    · refine ⟨fun other member row inRows => ?_, Nat.le_of_eq next⟩
      obtain ⟨old, oldMember, rfl⟩ := List.mem_map.mp member
      rw [Table.append] at inRows
      split at inRows
      · rcases mem_append.mp inRows with before | isNew
        · exact older old oldMember row before
        · rw [mem_singleton.mp isNew]
          exact ⟨by rw [next]; exact Nat.succ_pos _, Nat.le_refl _⟩
      · exact older old oldMember row inRows

/-! ### Runs -/

/-- A run on few pages works on a database. -/
theorem run_sound {counter : UInt64} {process : Process}
    (opening : tinydbOpen location = .ok (some storage, path))
    (run : ReflTransGen Executes (.start storage counter) process) (roomy : process.Roomy) :
    ∃ db, process.Sound db ∧ (counter.toNat + process.inserts < 2 ^ 64 →
      db.Numbered ∧ db.rowid.toNat ≤ counter.toNat + process.inserts) := by
  induction run with
  | refl => exact ⟨_, start_sound opening _, fun _ => ⟨nofun, Nat.le_refl _⟩⟩
  | tail _ step inductionHypothesis =>
    obtain ⟨db, sound, young⟩ := inductionHypothesis (step.roomy roomy)
    obtain ⟨inserts, after, counted, abstract, soundAfter⟩ := step.sound sound roomy
    refine ⟨after, soundAfter, fun bounded => ?_⟩
    obtain ⟨numbered, below⟩ := young (by omega)
    obtain ⟨numberedAfter, belowAfter⟩ := abstract.numbered numbered (by omega)
    exact ⟨numberedAfter, by omega⟩

/-! ### Tables with other names -/

namespace Database

variable {db : Database} {table : Table} {name : List UInt8}

theorem find_some (found : db.find name = some table) :
    table ∈ db.tables ∧ table.entry.name.bytes = untilNul name := by
  have named := find?_some found
  exact ⟨mem_of_find?_eq_some found, (CatalogEntry.isNamed_iff.mp named).2⟩

/-- A row that is added to one table is added to no table with another name. -/
theorem append_find_other (apart : db.roots.Nodup) (found : db.find name = some table)
    {other : List UInt8} (different : untilNul other ≠ untilNul name) (row : Row) :
    (db.append table.entry.rootPage row).find other = db.find other := by
  rw [find_append]
  cases search : db.find other with
  | none => rfl
  | some second =>
    rw [map_some, Table.append, if_neg]
    intro same
    obtain ⟨secondMember, secondName⟩ := find_some search
    obtain ⟨member, itsName⟩ := find_some found
    obtain rfl := inj_on_of_nodup_map apart secondMember member same
    exact different (secondName.symm.trans itsName)

end Database

theorem Represents.apart {Free : PageCache → View → Prop} {exec : Executor}
    (represents : Represents Free exec db) : db.roots.Nodup := by
  obtain ⟨-, view, -, depicts⟩ := represents
  exact (nodup_cons.mp depicts.apart).2

/-! ### A process with one table -/

/-- `CREATE TABLE t ()`. -/
def tableStatement : AstCreateTable := { tableName := [116], ifNotExists := false, columns := [] }

/-- `INSERT INTO t VALUES (7)`. -/
def rowStatement : AstInsert :=
  { tableName := [116], columns := [], values := [[.literalInt 7]] }

section OneTable

variable {process : Process} {db : Database} {table : Table}

theorem rowStatement_fits :
    serializeValues rowStatement.values = .ok [7, 0, 0, 0, 0, 0, 0, 0] := rfl

/-- What the opening of a new database returns. -/
@[irreducible] def newDatabase : Option Storage × Path :=
  Ensures.outcome (tinydbOpen (.named newPath)) (by decide +kernel)

def newStorage : Storage := newDatabase.1.get (by decide +kernel)

theorem newStorage_opened :
    tinydbOpen (.named newPath) = .ok (some newStorage, newDatabase.2) := by
  have opening : tinydbOpen (.named newPath) = .ok newDatabase := by
    unfold newDatabase
    exact Ensures.outcome_eq
  exact opening.trans (congrArg _ (Prod.ext (some_get _).symm rfl))

/-- What the creation of the table returns. -/
@[irreducible] def tableCreated : ReturnCode × Executor :=
  Ensures.outcome (executorExec .intact (executorCreate newStorage 0) (.createTable tableStatement))
    (by decide +kernel)

/-- The process that has created the table. -/
def tableProcess : Process :=
  (Process.start newStorage 0).after (.createTable tableStatement) tableCreated.2

theorem tableProcess_runs : ReflTransGen Executes (.start newStorage 0) tableProcess := by
  have creation : executorExec .intact (executorCreate newStorage 0) (.createTable tableStatement) =
      .ok tableCreated := by
    unfold tableCreated
    exact Ensures.outcome_eq
  exact .single (.statement creation)

theorem tableProcess_roomy : tableProcess.Roomy := by
  decide +kernel

/-- A process in which there is a table. -/
structure Process.HasTable (process : Process) (db : Database) (table : Table) : Prop where
  roomy : process.Roomy
  represents : Represents (Stocked process.pages.length) process.exec db
  found : db.find rowStatement.tableName = some table
  nonzero : table.entry.rootPage ≠ 0

theorem Process.HasTable.insert (has : process.HasTable db table) :
    ∃ next grown, executorExec .intact process.exec (.insert rowStatement) =
        .ok ((db.insert rowStatement.tableName [7, 0, 0, 0, 0, 0, 0, 0]).1, next) ∧
      (process.after (.insert rowStatement) next).HasTable
        (db.insert rowStatement.tableName [7, 0, 0, 0, 0, 0, 0, 0]).2 grown ∧
      table.rows ⊆ grown.rows ∧
      (db.insert rowStatement.tableName [7, 0, 0, 0, 0, 0, 0, 0]).2.rowid = db.rowid + 1 := by
  obtain ⟨⟨_, next⟩, run, rfl, after⟩ :=
    has.represents.insert (stocked_backs _) rowStatement_fits
  obtain ⟨grown, found, entry, kept, counted⟩ := Database.insert_found has.found has.nonzero
    [7, 0, 0, 0, 0, 0, 0, 0]
  have pages : (process.after (.insert rowStatement) next).pages = process.pages :=
    append_nil _
  refine ⟨next, grown, run, ⟨?_, ?_, found, entry ▸ has.nonzero⟩, kept, counted⟩
  · rw [Process.Roomy, pages]
    exact has.roomy
  · rw [pages]
    exact after

/-- Any number of rows can be asked for; the rows of the table stay there. -/
theorem Process.HasTable.inserts (has : process.HasTable db table) (count : Nat) :
    ∃ last after grown, ReflTransGen Executes process last ∧ last.HasTable after grown ∧
      after.rowid = db.rowid + UInt64.ofNat count ∧ table.rows ⊆ grown.rows := by
  induction count with
  | zero => exact ⟨process, db, table, .refl, has, (UInt64.add_zero _).symm, List.Subset.refl _⟩
  | succ count inductionHypothesis =>
    obtain ⟨last, after, grown, run, hasLast, rowid, kept⟩ := inductionHypothesis
    obtain ⟨next, further, step, hasNext, keptNext, counted⟩ := hasLast.insert
    refine ⟨_, _, further, run.tail (.statement step), hasNext, ?_, List.Subset.trans kept keptNext⟩
    rw [counted, rowid, UInt64.add_assoc, ← UInt64.ofNat_one, ← UInt64.ofNat_add]

end OneTable

/-! ### Isolation -/

/-- An `INSERT` that succeeds adds one row with a new id to its table and leaves every other table
and the catalog alone; one that fails changes nothing. This holds in every run on fewer than 256
pages, none of them handed out twice, with fewer than 2 ^ 64 `INSERT` statements. -/
theorem insert_touches_one_table {location : Location} {storage : Storage} {path : Path}
    {counter : UInt64} {process : Process}
    (opening : tinydbOpen location = .ok (some storage, path))
    (run : ReflTransGen Executes (.start storage counter) process)
    (few : process.pages.length < 256) (fresh : process.pages.Nodup)
    (young : counter.toNat + process.inserts < 2 ^ 64) (freed : FreedHandle) (stmt : AstInsert)
    {value : List UInt8} (fits : serializeValues stmt.values = .ok value) :
    ∃ code next, executorExec freed process.exec (.insert stmt) = .ok (code, next) ∧
      (∃ entries, CatalogRows process.exec entries ∧ CatalogRows next entries) ∧
      (∀ name entry, FoundAs process.exec.storage.cache process.exec.storage.catalog .table name
        (some entry) → ∃ rows, TableRows process.exec name rows) ∧
      (code = .success → ∃ rowid rows, TableRows process.exec stmt.tableName rows ∧
        TableRows next stmt.tableName (rows ++ [(rowid, value)]) ∧
        (∀ name others, TableRows process.exec name others → rowid ∉ others.map Prod.fst) ∧
        ∀ name, untilNul name ≠ untilNul stmt.tableName → ∀ others,
          (TableRows next name others ↔ TableRows process.exec name others)) ∧
      (code ≠ .success → ∀ name others,
        (TableRows next name others ↔ TableRows process.exec name others)) := by
  obtain ⟨db, sound, counts⟩ := run_sound opening run ⟨few, fresh⟩
  obtain ⟨numbered, -⟩ := counts young
  have backs := stocked_backs process.pages.length
  have serves := backs.toServes
  have represents := sound.represents
  obtain ⟨⟨_, next⟩, execution, rfl, after⟩ := represents.insert backs fits
  refine ⟨_, next, execution, ?_, fun name entry found => ?_, fun succeeded => ?_,
    fun failed name others => ?_⟩
  · refine ⟨_, (represents.catalogRows_iff serves).mpr rfl, (after.catalogRows_iff serves).mpr ?_⟩
    have entries := congrArg (List.map CatalogEntry.stored)
      (db.insert_entries stmt.tableName value)
    rw [List.map_map, List.map_map] at entries
    exact entries.symm
  · obtain ⟨table, found, -⟩ := (represents.foundAs_iff serves).mp found
    refine ⟨table.rows, (represents.tableRows_iff serves).mpr ?_⟩
    rw [found, map_some]
  · rcases db.insert_cases stmt.tableName value with ⟨code, failed, run, -⟩ |
      ⟨table, found, -, ⟨taken, -⟩ | ⟨-, -, run⟩ | ⟨-, -, run⟩⟩
    · rw [run] at succeeded
      exact absurd succeeded failed
    · exact absurd taken (numbered.fresh (Database.find_some found).1)
    · rw [run] at succeeded
      cases succeeded
    · have counted : Database.find { db with rowid := db.rowid + 1 } stmt.tableName = some table :=
        found
      have apart : (Database.roots { db with rowid := db.rowid + 1 }).Nodup := represents.apart
      refine ⟨db.rowid + 1, table.rows, (represents.tableRows_iff serves).mpr ?_,
        (after.tableRows_iff serves).mpr ?_, fun name others held => ?_,
        fun name different others => ?_⟩
      · rw [found, map_some]
      · rw [run, Database.append_find_self counted, map_some]
      · rw [represents.tableRows_iff serves, map_eq_some_iff] at held
        obtain ⟨other, search, rfl⟩ := held
        exact numbered.fresh (Database.find_some search).1
      · rw [after.tableRows_iff serves, represents.tableRows_iff serves, run,
          Database.append_find_other apart counted different]
        rfl
  · simp only [after.tableRows_iff serves, represents.tableRows_iff serves]
    rcases db.insert_cases stmt.tableName value with ⟨code, -, run, -⟩ |
      ⟨table, -, -, ⟨-, run⟩ | ⟨-, -, run⟩ | ⟨-, -, run⟩⟩ <;> rw [run] at failed ⊢
    · rfl
    · rfl
    · exact absurd rfl failed

theorem insert_touches_one_table_first : ∃ storage path process next rowid rows,
    tinydbOpen (.named newPath) = .ok (some storage, path) ∧
      ReflTransGen Executes (.start storage 0) process ∧
      executorExec .intact process.exec (.insert rowStatement) = .ok (.success, next) ∧
      TableRows process.exec rowStatement.tableName rows ∧
      TableRows next rowStatement.tableName (rows ++ [(rowid, [7, 0, 0, 0, 0, 0, 0, 0])]) := by
  obtain ⟨next, step⟩ : ∃ next,
      executorExec .intact tableProcess.exec (.insert rowStatement) = .ok (.success, next) := by
    decide +kernel
  obtain ⟨code, after, again, -, -, adds, -⟩ := insert_touches_one_table newStorage_opened
    tableProcess_runs tableProcess_roomy.1 tableProcess_roomy.2
    (by decide) _ _ rowStatement_fits
  obtain ⟨rfl, rfl⟩ := Prod.mk.inj (Except.ok.inj (again.symm.trans step))
  obtain ⟨rowid, rows, before, added, -⟩ := adds rfl
  exact ⟨newStorage, _, tableProcess, after, rowid, rows, newStorage_opened, tableProcess_runs, step,
    before, added⟩

theorem row_lost : ∃ storage path process next rows,
    tinydbOpen (.named newPath) = .ok (some storage, path) ∧
      ReflTransGen Executes (.start storage 0) process ∧ process.pages.length < 256 ∧
      process.pages.Nodup ∧
      executorExec .intact process.exec (.insert rowStatement) = .ok (.success, next) ∧
      TableRows process.exec rowStatement.tableName rows ∧
      TableRows next rowStatement.tableName rows := by
  obtain ⟨next, step, roomy, one, entry, found, nonzero, scans⟩ : ∃ next,
      executorExec .intact tableProcess.exec (.insert rowStatement) = .ok (.success, next) ∧
      (tableProcess.after (.insert rowStatement) next).Roomy ∧ next.rowidCounter = 1 ∧
      ∃ entry, FoundAs next.storage.cache next.storage.catalog .table rowStatement.tableName
        (some entry) ∧ entry.rootPage ≠ 0 ∧
        Scans next.storage.cache (btreeOpen entry.rootPage) [(1, [7, 0, 0, 0, 0, 0, 0, 0])] := by
    decide +kernel
  let process := tableProcess.after (.insert rowStatement) next
  have run : ReflTransGen Executes (.start newStorage 0) process :=
    tableProcess_runs.tail (.statement step)
  obtain ⟨db, ⟨represents, -⟩, -⟩ := run_sound newStorage_opened run roomy
  have serves := (stocked_backs process.pages.length).toServes
  obtain ⟨table, search, rfl⟩ := (represents.foundAs_iff serves).mp found
  have first := (represents.scans_iff serves search).mp scans
  have has : process.HasTable db table := ⟨roomy, represents, search, nonzero⟩
  obtain ⟨last, after, grown, rows, hasLast, rowid, kept⟩ := has.inserts (2 ^ 64 - 1)
  have wrapped : after.rowid + 1 = 1 := by
    rw [rowid, ← represents.counter, show process.exec.rowidCounter = 1 from one]
    decide
  have taken : after.rowid + 1 ∈ grown.rows.map Prod.fst := by
    rw [wrapped]
    exact List.mem_map_of_mem (kept (first ▸ mem_singleton_self _))
  obtain ⟨final, further, insertion, hasFinal, -⟩ := hasLast.insert
  have serves := (stocked_backs last.pages.length).toServes
  have pages : (last.after (.insert rowStatement) final).pages = last.pages := append_nil _
  have represents := hasFinal.represents
  rw [pages] at represents
  have found : (after.find rowStatement.tableName).map Table.rows = some grown.rows := by
    rw [hasLast.found, map_some]
  rcases after.insert_cases rowStatement.tableName [7, 0, 0, 0, 0, 0, 0, 0] with
    ⟨_, -, -, absent⟩ | ⟨other, search, -, ⟨-, stored⟩ | ⟨new, -⟩ | ⟨new, -⟩⟩
  · exact absurd (absent _ hasLast.found) hasLast.nonzero
  · rw [stored] at insertion represents
    exact ⟨newStorage, _, last, final, grown.rows, newStorage_opened, run.trans rows,
      hasLast.roomy.1, hasLast.roomy.2, insertion, (hasLast.represents.tableRows_iff serves).mpr found,
      (represents.tableRows_iff serves).mpr found⟩
  all_goals
    cases (hasLast.found.symm.trans search)
    exact absurd taken new

/-- A file of two pages, in which page 1 is free and comes behind itself in the freelist. -/
def cyclicPath : Path :=
  let header := { initHeader with pageCount := 2, firstFreePage := 1, freePageCount := 1 }
  { newPath with file := some (((File.empty.write 0 header.encode).truncate (2 * pageSize)).write
      pageSize (wordBytes 1)) }

/-- The counter comes round after 2 ^ 64 statements: the next one reports success and stores
nothing. Where a page is handed out twice, a table gets the page of the catalog, and its first row
lands there. -/
theorem insert_not_isolated : (∃ storage path process next rows,
    tinydbOpen (.named newPath) = .ok (some storage, path) ∧
      ReflTransGen Executes (.start storage 0) process ∧ process.pages.length < 256 ∧
      process.pages.Nodup ∧
      executorExec .intact process.exec (.insert rowStatement) = .ok (.success, next) ∧
      TableRows process.exec rowStatement.tableName rows ∧
      TableRows next rowStatement.tableName rows) ∧
    ∃ storage path process next rows, tinydbOpen (.named cyclicPath) = .ok (some storage, path) ∧
      ReflTransGen Executes (.start storage 0) process ∧ process.pages.length < 256 ∧
      process.inserts = 0 ∧
      executorExec .intact process.exec (.insert rowStatement) = .ok (.success, next) ∧
      CatalogRows process.exec rows ∧ ¬CatalogRows next rows := by
  refine ⟨row_lost, ?_⟩
  obtain ⟨storage, path, opening, created, creation, few, next, insertion, before, scan, after, again,
      longer⟩ : ∃ storage path, tinydbOpen (.named cyclicPath) = .ok (some storage, path) ∧
        ∃ created, executorExec .intact (executorCreate storage 0) (.createTable tableStatement) =
          .ok created ∧
        ((Process.start storage 0).after (.createTable tableStatement) created.2).pages.length < 256 ∧
        ∃ next, executorExec .intact created.2 (.insert rowStatement) = .ok (.success, next) ∧
        ∃ before, btreeScan created.2.storage.cache created.2.storage.catalog.tree = .ok before ∧
        ∃ after, btreeScan next.storage.cache next.storage.catalog.tree = .ok after ∧
          before.1.length ≠ after.1.length := by
    decide +kernel
  refine ⟨storage, path, _, next, before.1, opening, .single (.statement creation), few, rfl, insertion,
    ⟨_, scan⟩, fun ⟨_, same⟩ => longer ?_⟩
  rw [Except.ok.inj (again.symm.trans same)]

end TinyDb

/-
This file settles what `CREATE TABLE` does for a table that exists.

The executor never looks at `IF NOT EXISTS`. It takes a page for the new table before it
asks the catalog, and the catalog reports success for an entry under a key that is in use.
So the statement succeeds with `IF NOT EXISTS` and without it, and the page is lost. The
catalog and the rows of the tables stay as they are.
-/

import TinyDb.Durability
import TinyDb.ForeignFiles

namespace TinyDb

open Heaps CStrings Relation List

variable {result tree : Option BTree} {db : Database} {stmt : AstCreateTable} {table : Table}
  {created : PageCache}

/-! ### The page count -/

/-- The page count of the pager below a cache. -/
def PageCache.pageCount (cache : PageCache) : Option UInt32 := cache.pager.map Pager.pageCount

section Pages

variable {cache next : PageCache} {view : View} {pager : Pager}

/-- A page that is handed out is taken from the free pages, if there are any. -/
theorem pagerAllocatePage_pageCount (pager : Pager) :
    (pagerAllocatePage pager).2.pageCount =
      if pager.firstFreePage = 0 then pager.pageCount + 1 else pager.pageCount := by
  unfold pagerAllocatePage
  by_cases free : pager.firstFreePage = 0
  · rw [if_neg (not_not.mpr free), if_pos free]
    dsimp only
    split
    · rfl
    · split <;> rfl
  · rw [if_pos free, if_neg free]
    dsimp only
    split
    · rfl
    · split <;> rfl

theorem btreeCreate_pageCount (attached : cache.pager = some pager)
    (room : cache.count < cache.maxPages) (run : btreeCreate cache = .ok (result, next)) :
    next.pageCount = some (pagerAllocatePage pager).2.pageCount := by
  unfold btreeCreate at run
  rw [attached] at run
  dsimp only at run
  cases allocate : pagerAllocatePage pager with
  | mk answer grown =>
    rw [allocate] at run
    cases answer with
    | none =>
      cases run
      rfl
    | some root =>
      obtain ⟨⟨written, last⟩, write, finish⟩ := bind_eq_ok.mp run
      cases finish
      have withPager : ({ cache with pager := some grown }).pager = some grown := rfl
      obtain ⟨after, present, count, -⟩ := pinWrite_file withPager room write
      rw [PageCache.pageCount, present, Option.map_some, count]

/-- A tree is made without another page exactly if there is a free one. -/
theorem btreeCreate_pageCount_iff (room : cache.count < cache.maxPages)
    (run : btreeCreate cache = .ok (result, next)) :
    next.pageCount = cache.pageCount ↔
      ∀ pager, cache.pager = some pager → pager.firstFreePage ≠ 0 := by
  cases attached : cache.pager with
  | none =>
    rw [btreeCreate, attached] at run
    cases run
    exact iff_of_true rfl (by simp)
  | some pager =>
    rw [btreeCreate_pageCount attached room run, PageCache.pageCount, attached, Option.map_some,
      pagerAllocatePage_pageCount]
    simp only [Option.some.injEq, forall_eq']
    split
    next free => exact iff_of_false (by simp) (not_not.mpr free)
    next taken => exact iff_of_true rfl taken

theorem flushPage_pageCount {page : Addr} {written : Bool}
    (run : flushPage cache page = .ok (written, next)) : next.pageCount = cache.pageCount := by
  obtain ⟨read, -, pager, -⟩ := flushPage_writeBack run
  rw [PageCache.pageCount, pager, writeBack]
  split
  next attached =>
    rw [PageCache.pageCount, attached]
    exact congrArg some (pagerWritePage_spec Prod.mk.eta.symm).1
  next => rfl

/-- The resident pages serve, and the page count stays. -/
theorem counted_backs (limit : Nat) (count : Option UInt32) : Backs .must
    (fun cache view => Stocked limit cache view ∧ cache.pageCount = count)
    (fun cache view page => StockedHeld limit cache view page ∧ cache.pageCount = count) where
  toServes := (stocked_backs _).toServes.keeping
    (fun {cache view pageNum data out} stocked found get same => by
      obtain ⟨bucket, hash⟩ := stocked.1.usable.hash
      rw [← stocked.1.same, residentPage_eq_some hash] at found
      obtain ⟨page, read, core, rfl, -⟩ := found
      obtain ⟨next, run, hit⟩ := pageCacheGet_hit hash stocked.1.usable.links core
      obtain rfl := Except.ok.inj (run.symm.trans get)
      rw [PageCache.pageCount, hit.rest]
      exact same)
    fun _ same => same
  flush := by
    rintro cache view ⟨stocked, same⟩
    obtain ⟨bucket, hash⟩ := stocked.1.usable.hash
    refine ((stocked_backs _).flush stocked).and_run fun out run => ?_
    exact hash.flush_keeps (fun cache => cache.pageCount = count)
      (fun _ _ _ _ same flush => (flushPage_pageCount flush).trans same) same run

end Pages

/-! ### Existing tables -/

/-- What should become of `CREATE TABLE` for a table that exists. -/
def KeepsExisting (exec : Executor) (stmt : AstCreateTable) (code : ReturnCode) (next : Executor) :
    Prop :=
  (code = .success ↔ stmt.ifNotExists = true) ∧
    (∀ rows, CatalogRows exec rows ↔ CatalogRows next rows) ∧
    (∀ rows, TableRows exec stmt.tableName rows ↔ TableRows next stmt.tableName rows) ∧
    next.storage.cache.pageCount = exec.storage.cache.pageCount

/-- The key of a table that exists is in use. -/
theorem Database.tableKey_mem (found : db.find stmt.tableName = some table) :
    tableKey stmt ∈ db.keys := by
  have named := find?_some found
  obtain ⟨isTable, name⟩ := CatalogEntry.isNamed_iff.mp named
  have member := mem_of_find?_eq_some found
  have fits := name ▸ table.entry.name.fits
  have same : catalogKey table.entry = tableKey stmt := by
    refine (catalogKey_eq_iff (.inl isTable) (.inl rfl)).mpr ⟨isTable, ?_⟩
    rw [name, createTableEntry, strncpy_bytes, take_of_length_le fits]
  exact same ▸ mem_map_of_mem (mem_map_of_mem member)

/-- `CREATE TABLE` for a table that exists succeeds once a tree is made, and changes no table. -/
theorem Process.Sound.createExisting {process : Process} (sound : process.Sound db)
    (found : db.find stmt.tableName = some table) {sql : List UInt8}
    (text : createTableSql stmt = .ok sql)
    (creation : btreeCreate process.exec.storage.cache = .ok (tree, created))
    (few : (process.pages ++ (nextPage process.exec.storage.cache).toList).length < 256)
    (fresh : (process.pages ++ (nextPage process.exec.storage.cache).toList).Nodup) :
    ∃ code next, executorExecCreateTable .intact process.exec stmt = .ok (code, next) ∧
      (code = .success ↔ tree.isSome = true) ∧ ∃ limit, Represents (fun cache view =>
        Stocked limit cache view ∧ cache.pageCount = created.pageCount) next db := by
  obtain ⟨view, free, planted⟩ := sound.plants rfl few fresh creation
  obtain ⟨⟨code, next⟩, run, cases⟩ : Ensures .must _ _ := Represents.createTable
    (counted_backs _ _) sound.represents.counter ⟨sql, text, trivial⟩ (fun _ => rfl)
    ⟨_, creation, view, ⟨free, rfl⟩, planted⟩
  refine ⟨code, next, run, ?_⟩
  rcases cases with ⟨represents, ⟨-, success, some, other, create⟩ | ⟨failed, other, create⟩⟩ |
    ⟨-, absent, -⟩
  · obtain ⟨rfl, -⟩ := Prod.mk.inj (Except.ok.inj (creation.symm.trans create))
    exact ⟨iff_of_true (success.mpr (Database.tableKey_mem found)) rfl, _, represents⟩
  · obtain ⟨rfl, -⟩ := Prod.mk.inj (Except.ok.inj (creation.symm.trans create))
    exact ⟨iff_of_false (fun succeeded => nomatch succeeded.symm.trans failed) nofun, _, represents⟩
  · exact absurd (Database.tableKey_mem found) absent

/-- The second `btree_close` is reached once there is a tree, and must find the handle. -/
theorem executorExecCreateTable_eq_ok {freed : FreedHandle} {exec : Executor}
    {out : ReturnCode × Executor} (creation : btreeCreate exec.storage.cache = .ok (tree, created)) :
    executorExecCreateTable freed exec stmt = .ok out ↔
      (tree.isSome = true → freed = .intact) ∧
        executorExecCreateTable .intact exec stmt = .ok out := by
  cases freed with
  | intact => exact (and_iff_right fun _ => rfl).symm
  | lost =>
    cases tree with
    | none =>
      rw [and_iff_right (by simp), executorExecCreateTable, executorExecCreateTable, creation]
      rfl
    | some tree =>
      refine iff_of_false (fun run => ?_) fun both => absurd (both.1 rfl) (by simp)
      simp only [executorExecCreateTable, creation, bind_eq_ok] at run
      obtain ⟨_, -, _, same, run⟩ := run
      cases same
      simp only [bind_eq_ok] at run
      obtain ⟨_, -, _, -, _, closing, -⟩ := run
      cases closing

/-- `CREATE TABLE` for a table that exists leaves the catalog and the rows alone if it returns, and
does what it should exactly if its text fits, the making of a tree fails without `IF NOT EXISTS` and
succeeds with it, there is a free page for it, and the handle of a tree that was made survives being
freed. -/
theorem existing_table_kept_iff {location : Location} {storage : Storage} {path : Path}
    {counter : UInt64} {process : Process}
    (opening : tinydbOpen location = .ok (some storage, path))
    (run : ReflTransGen Executes (.start storage counter) process) (freed : FreedHandle)
    (stmt : AstCreateTable) {entry : CatalogEntry}
    (found : FoundAs process.exec.storage.cache process.exec.storage.catalog .table stmt.tableName
      (some entry)) {tree : Option BTree} {created : PageCache}
    (creation : btreeCreate process.exec.storage.cache = .ok (tree, created))
    (few : (process.pages ++ (nextPage process.exec.storage.cache).toList).length < 256)
    (fresh : (process.pages ++ (nextPage process.exec.storage.cache).toList).Nodup) :
    (∀ code next, executorExecCreateTable freed process.exec stmt = .ok (code, next) →
      (code = .success ↔ tree.isSome = true) ∧
      (∀ rows, CatalogRows process.exec rows ↔ CatalogRows next rows) ∧
      (∀ rows, TableRows process.exec stmt.tableName rows ↔ TableRows next stmt.tableName rows)) ∧
    ((∃ code next, executorExecCreateTable freed process.exec stmt = .ok (code, next) ∧
        KeepsExisting process.exec stmt code next) ↔
      (∃ sql, createTableSql stmt = .ok sql) ∧ (tree.isSome = true → freed = .intact) ∧
        (tree.isSome = true ↔ stmt.ifNotExists = true) ∧
        ∀ pager, process.exec.storage.cache.pager = some pager → pager.firstFreePage ≠ 0) := by
  have roomy : process.Roomy := by
    rw [length_append] at few
    exact ⟨by omega, (nodup_append.mp fresh).1⟩
  obtain ⟨db, sound, -⟩ := run_sound opening run roomy
  have serves := (stocked_backs process.pages.length).toServes
  obtain ⟨table, search, -⟩ := (sound.represents.foundAs_iff serves).mp found
  have room : process.exec.storage.cache.count < process.exec.storage.cache.maxPages := by
    obtain ⟨-, before, ⟨-, loaded, maxPages⟩, -⟩ := sound.represents
    have limited := roomy.1
    omega
  -- a run that returns has read the text, and ends as it does with the handle intact
  have returned : ∀ code next, executorExecCreateTable freed process.exec stmt = .ok (code, next) →
      (code = .success ↔ tree.isSome = true) ∧
      (∀ rows, CatalogRows process.exec rows ↔ CatalogRows next rows) ∧
      (∀ rows, TableRows process.exec stmt.tableName rows ↔
        TableRows next stmt.tableName rows) ∧
      (∃ sql, createTableSql stmt = .ok sql) ∧ (tree.isSome = true → freed = .intact) ∧
      (KeepsExisting process.exec stmt code next ↔ (tree.isSome = true ↔ stmt.ifNotExists = true) ∧
        ∀ pager, process.exec.storage.cache.pager = some pager → pager.firstFreePage ≠ 0) := by
    intro code next execution
    obtain ⟨intact, execution⟩ := (executorExecCreateTable_eq_ok creation).mp execution
    obtain ⟨sql, text, -⟩ := bind_eq_ok.mp execution
    obtain ⟨_, _, same, success, limit, represents⟩ :=
      sound.createExisting search text creation few fresh
    cases same.symm.trans execution
    have servesNext := (counted_backs limit created.pageCount).toServes
    have catalog : ∀ rows, CatalogRows process.exec rows ↔ CatalogRows next rows := fun rows => by
      rw [sound.represents.catalogRows_iff serves, represents.catalogRows_iff servesNext]
    have rows : ∀ rows, TableRows process.exec stmt.tableName rows ↔
        TableRows next stmt.tableName rows := fun rows => by
      rw [sound.represents.tableRows_iff serves, represents.tableRows_iff servesNext]
    refine ⟨success, catalog, rows, ⟨sql, text⟩, intact, ?_⟩
    obtain ⟨-, view, ⟨-, count⟩, -⟩ := represents
    simp only [KeepsExisting, success, count, eq_true catalog, eq_true rows, true_and]
    exact and_congr_right fun _ => btreeCreate_pageCount_iff room creation
  refine ⟨fun code next execution => ?_, ?_, ?_⟩
  · obtain ⟨success, catalog, rows, -⟩ := returned _ _ execution
    exact ⟨success, catalog, rows⟩
  · rintro ⟨code, next, execution, kept⟩
    obtain ⟨-, -, -, text, intact, keeps⟩ := returned _ _ execution
    exact ⟨text, intact, keeps.mp kept⟩
  · rintro ⟨⟨sql, text⟩, intact, right⟩
    obtain ⟨code, next, execution, -⟩ := sound.createExisting search text creation few fresh
    have execution := (executorExecCreateTable_eq_ok creation).mpr ⟨intact, execution⟩
    obtain ⟨-, -, -, -, -, keeps⟩ := returned _ _ execution
    exact ⟨code, next, execution, keeps.mpr right⟩

/-! ### A table that is created twice -/

/-- `CREATE TABLE t ()` succeeds for a table that exists, and takes a page. -/
theorem table_created_twice : ∃ storage path first second,
    tinydbOpen (.named newPath) = .ok (some storage, path) ∧
      executorExec .intact (executorCreate storage 0) (.createTable tableStatement) =
        .ok (.success, first) ∧
      executorExec .intact first (.createTable tableStatement) = .ok (.success, second) ∧
      tableStatement.ifNotExists = false ∧
      first.storage.cache.pageCount.map UInt32.toNat = some 3 ∧
      second.storage.cache.pageCount.map UInt32.toNat = some 4 := by
  refine ⟨newStorage, newDatabase.2, ?_⟩
  simp only [exists_and_left]
  exact ⟨newStorage_opened, by decide +kernel⟩

/-- The statement for the table again, in a new database: it succeeds, and the rows stay. -/
theorem existing_table_kept_again : ∃ storage path process next,
    tinydbOpen (.named newPath) = .ok (some storage, path) ∧
      ReflTransGen Executes (.start storage 0) process ∧
      executorExecCreateTable .intact process.exec tableStatement = .ok (.success, next) ∧
      (∀ rows, TableRows process.exec tableStatement.tableName rows ↔
        TableRows next tableStatement.tableName rows) ∧
      ¬KeepsExisting process.exec tableStatement .success next := by
  obtain ⟨⟨entry, found, -⟩, ⟨tree, created⟩, creation, made, few, fresh⟩ :
      TableRows tableProcess.exec tableStatement.tableName [] ∧
      ∃ created, btreeCreate tableProcess.exec.storage.cache = .ok created ∧
        created.1.isSome = true ∧
        (tableProcess.pages ++ (nextPage tableProcess.exec.storage.cache).toList).length < 256 ∧
        (tableProcess.pages ++ (nextPage tableProcess.exec.storage.cache).toList).Nodup := by
    decide +kernel
  obtain ⟨next, execution⟩ : ∃ next, executorExecCreateTable .intact tableProcess.exec
      tableStatement = .ok (.success, next) := by
    decide +kernel
  obtain ⟨returned, kept⟩ := existing_table_kept_iff newStorage_opened tableProcess_runs .intact
    tableStatement found creation few fresh
  obtain ⟨-, -, rows⟩ := returned _ _ execution
  refine ⟨newStorage, _, tableProcess, next, newStorage_opened, tableProcess_runs, execution, rows,
    fun keeps => ?_⟩
  obtain ⟨-, -, asked, -⟩ := kept.mp ⟨_, next, execution, keeps⟩
  exact nomatch asked.mp made

end TinyDb

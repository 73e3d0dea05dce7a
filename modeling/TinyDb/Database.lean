/-
This file says what the statements of the executor mean. A database is a list of
tables with their rows and the last row id; inserting puts a row behind the others
of one table, or reports why not. The second half shows that the executor, working
on pages through the catalog, the trees and the cache, behaves like that, for every
invariant of the cache that backs trees.

Two things of the source show here. A row whose id is taken already is not stored,
and success is reported all the same. And an entry is entered into the catalog only
if no entry has its key.
-/

import TinyDb.Backing
import TinyDb.CatalogEntries
import TinyDb.Executor

namespace TinyDb

open Heaps Bytes CStrings List Option Function

variable {other : UInt32} {start : Nat} {cells : List Cell} {value row : List UInt8}
  {stmt : AstInsert} {code : ReturnCode} {next : Executor} {cache : PageCache} {view : View}
  {entry : CatalogEntry} {kind : TransactionType} {data : PageData} {location : Location}
  {storage : Storage} {path : Path}

/-! ### Databases -/

/-- A row: its id and its bytes. -/
abbrev Row := UInt64 × List UInt8

/-- A table: its entry in the catalog and its rows. -/
structure Table where
  entry : CatalogEntry
  rows : List Row

variable {table : Table}

/-- The tables of a database, and the last row id of the process. -/
structure Database where
  tables : List Table
  rowid : UInt64

/-- The bytes the cells of some rows take. -/
def spaceUsed (rows : List Row) : Nat := (rows.map fun row => 16 + row.2.length).sum

/-- One more row fits into the page of the table. -/
def RowFits (rows : List Row) (value : List UInt8) : Prop :=
  pointerOffset (rows.length + 1) + (16 + value.length) + spaceUsed rows ≤ pageSize

instance (rows : List Row) (value : List UInt8) : Decidable (RowFits rows value) :=
  inferInstanceAs (Decidable (_ ≤ _))

/-- A row is put behind the others if the table is on the page. -/
def Table.append (rootPage : UInt32) (row : Row) (table : Table) : Table :=
  if table.entry.rootPage = rootPage then { table with rows := table.rows ++ [row] } else table

theorem Table.append_entry (rootPage : UInt32) (row : Row) (table : Table) :
    (table.append rootPage row).entry = table.entry := by
  rw [append]
  split <;> rfl

namespace Database

variable {db : Database} {name : List UInt8} {table : Table}

/-- The table with a name. -/
def find (db : Database) (name : List UInt8) : Option Table :=
  db.tables.find? (·.entry.isNamed .table name)

/-- The root pages of the tables. -/
def roots (db : Database) : List UInt32 := db.tables.map fun table => table.entry.rootPage

/-- A row is put behind the others of the table on a page. -/
def append (db : Database) (rootPage : UInt32) (row : Row) : Database :=
  { db with tables := db.tables.map (·.append rootPage row) }

/-- A table without rows is added. -/
def create (db : Database) (entry : CatalogEntry) : Database :=
  { db with tables := db.tables ++ [{ entry, rows := [] }] }

/-- An insertion. -/
def insert (db : Database) (name value : List UInt8) : ReturnCode × Database :=
  match db.find name with
  | none => (.execTableNotFound, db)
  | some table =>
    if table.entry.rootPage = 0 then (.storageIo, db)
    else
      let rowid := db.rowid + 1
      let counted := { db with rowid }
      if rowid ∈ table.rows.map Prod.fst then (.success, counted)
      else if RowFits table.rows value then
        (.success, counted.append table.entry.rootPage (rowid, value))
      else (.failure, counted)

theorem append_entries (db : Database) (rootPage : UInt32) (row : Row) :
    (db.append rootPage row).tables.map Table.entry = db.tables.map Table.entry := by
  rw [append, List.map_map]
  exact map_congr_left fun table _ => table.append_entry _ row

theorem append_roots (db : Database) (rootPage : UInt32) (row : Row) :
    (db.append rootPage row).roots = db.roots := by
  have entries := congrArg (List.map CatalogEntry.rootPage) (db.append_entries rootPage row)
  rwa [List.map_map, List.map_map] at entries

theorem find_append (db : Database) (rootPage : UInt32) (row : Row) (name : List UInt8) :
    (db.append rootPage row).find name = (db.find name).map (·.append rootPage row) := by
  rw [find, append, find?_map]
  congr 2
  funext table
  rw [comp_apply, Table.append_entry]

theorem append_find_self (found : db.find name = some table) (row : Row) :
    (db.append table.entry.rootPage row).find name =
      some { table with rows := table.rows ++ [row] } := by
  rw [find_append, found, map_some, Table.append, if_pos rfl]

/-- What an insertion can do: there is no such table; or a row id is used up, and the row is
added if the id is new and the row fits. -/
theorem insert_cases (db : Database) (name value : List UInt8) :
    (∃ code, code ≠ .success ∧ db.insert name value = (code, db) ∧
      ∀ table, db.find name = some table → table.entry.rootPage = 0) ∨
      ∃ table, db.find name = some table ∧ table.entry.rootPage ≠ 0 ∧
        ((db.rowid + 1 ∈ table.rows.map Prod.fst ∧
            db.insert name value = (.success, { db with rowid := db.rowid + 1 })) ∨
          (db.rowid + 1 ∉ table.rows.map Prod.fst ∧ ¬RowFits table.rows value ∧
            db.insert name value = (.failure, { db with rowid := db.rowid + 1 })) ∨
          (db.rowid + 1 ∉ table.rows.map Prod.fst ∧ RowFits table.rows value ∧
            db.insert name value = (.success, Database.append { db with rowid := db.rowid + 1 }
              table.entry.rootPage (db.rowid + 1, value)))) := by
  rw [insert]
  cases db.find name with
  | none => exact Or.inl ⟨.execTableNotFound, nofun, rfl, nofun⟩
  | some table =>
    by_cases zero : table.entry.rootPage = 0
    · exact Or.inl ⟨.storageIo, nofun, if_pos zero, fun other same => Option.some.inj same ▸ zero⟩
    · refine Or.inr ⟨table, rfl, zero, ?_⟩
      simp only [if_neg zero]
      by_cases taken : db.rowid + 1 ∈ table.rows.map Prod.fst
      · exact Or.inl ⟨taken, if_pos taken⟩
      · refine Or.inr ?_
        rw [if_neg taken]
        by_cases fits : RowFits table.rows value
        · exact Or.inr ⟨taken, fits, if_pos fits⟩
        · exact Or.inl ⟨taken, fits, if_neg fits⟩

/-- No insertion changes the catalog. -/
theorem insert_entries (db : Database) (name value : List UInt8) :
    (db.insert name value).2.tables.map Table.entry = db.tables.map Table.entry := by
  rcases db.insert_cases name value with ⟨code, -, run, -⟩ |
    ⟨table, -, -, ⟨-, run⟩ | ⟨-, -, run⟩ | ⟨-, -, run⟩⟩ <;> rw [run]
  exact append_entries ..

/-- A table stays, and loses no row. -/
theorem insert_found (found : db.find name = some table) (nonzero : table.entry.rootPage ≠ 0)
    (value : List UInt8) :
    ∃ grown, (db.insert name value).2.find name = some grown ∧ grown.entry = table.entry ∧
      table.rows ⊆ grown.rows ∧ (db.insert name value).2.rowid = db.rowid + 1 := by
  rcases db.insert_cases name value with ⟨code, -, -, absent⟩ |
    ⟨other, search, -, ⟨-, run⟩ | ⟨-, -, run⟩ | ⟨-, -, run⟩⟩
  · exact absurd (absent _ found) nonzero
  · rw [run]
    exact ⟨table, found, rfl, List.Subset.refl _, rfl⟩
  · rw [run]
    exact ⟨table, found, rfl, List.Subset.refl _, rfl⟩
  · obtain rfl := Option.some.inj (found.symm.trans search)
    have counted : find { db with rowid := db.rowid + 1 } name = some table := found
    rw [run]
    exact ⟨_, append_find_self counted _, rfl, subset_append_left .., rfl⟩

theorem insert_roots (db : Database) (name value : List UInt8) :
    (db.insert name value).2.roots = db.roots := by
  have entries := congrArg (List.map CatalogEntry.rootPage) (db.insert_entries name value)
  rwa [List.map_map, List.map_map] at entries

end Database

/-! ### Databases in pages -/

/-- The page is a leaf with some rows, and the rest of it is free. -/
def RowsAt (view : View) (rootPage : UInt32) (rows : List Row) : Prop :=
  ∃ data start cells, view rootPage = some data ∧ LeafLayout data start cells ∧
    cells.map Cell.entry = rows ∧ start + spaceUsed rows = pageSize

/-- The pages of a view hold the catalog and the tables of a database. -/
structure Depicts (view : View) (catalog : Catalog) (db : Database) : Prop where
  entries : CatalogHolds view catalog (db.tables.map Table.entry)
  rows : ∀ table ∈ db.tables, RowsAt view table.entry.rootPage table.rows
  apart : (catalog.tree.rootPage :: db.roots).Nodup

/-- An executor works on a database. -/
structure Represents (Free : PageCache → View → Prop) (exec : Executor) (db : Database) : Prop where
  counter : exec.rowidCounter = db.rowid
  stored : ∃ view, Free exec.storage.cache view ∧ Depicts view exec.storage.catalog db

section Pages

variable {view : View} {catalog : Catalog} {db : Database} {rootPage : UInt32} {data : PageData}
  {rows : List Row}

theorem RowsAt.update_other (held : RowsAt view rootPage rows) (different : rootPage ≠ other) :
    RowsAt (Function.update view other (some data)) rootPage rows := by
  rw [RowsAt, update_of_ne different]
  exact held

theorem CatalogHolds.update_other {entries : List CatalogEntry}
    (holds : CatalogHolds view catalog entries) (different : catalog.tree.rootPage ≠ other) :
    CatalogHolds (Function.update view other (some data)) catalog entries := by
  refine ⟨holds.opened, ?_⟩
  rw [update_of_ne different]
  exact holds.leaf

section

variable (depicts : Depicts view catalog db)
include depicts

/-- A page that is no root of the database may be changed. -/
theorem Depicts.update_other
    (outside : other ∉ catalog.tree.rootPage :: db.roots) :
    Depicts (Function.update view other (some data)) catalog db where
  entries := depicts.entries.update_other fun same => outside (same ▸ mem_cons_self)
  rows _ member := (depicts.rows _ member).update_other fun same =>
    outside (mem_cons_of_mem _ (same ▸ List.mem_map_of_mem member))
  apart := depicts.apart

/-- The catalog and the tables have pages of their own. -/
theorem Depicts.catalog_ne (member : table ∈ db.tables) :
    catalog.tree.rootPage ≠ table.entry.rootPage := by
  intro same
  refine (nodup_cons.mp depicts.apart).1 ?_
  rw [same]
  exact List.mem_map_of_mem member

theorem Depicts.table_eq {first second : Table}
    (firstMember : first ∈ db.tables) (secondMember : second ∈ db.tables)
    (same : first.entry.rootPage = second.entry.rootPage) : first = second :=
  inj_on_of_nodup_map (nodup_cons.mp depicts.apart).2 firstMember secondMember same

/-- A row was added to one table. -/
theorem Depicts.append (member : table ∈ db.tables) {row : Row}
    (added : RowsAt (Function.update view table.entry.rootPage (some data)) table.entry.rootPage
      (table.rows ++ [row])) :
    Depicts (Function.update view table.entry.rootPage (some data)) catalog
      (db.append table.entry.rootPage row) where
  entries := by
    rw [Database.append_entries]
    exact depicts.entries.update_other (depicts.catalog_ne member)
  rows := by
    intro other inTables
    obtain ⟨old, oldMember, rfl⟩ := List.mem_map.mp inTables
    rw [Table.append]
    split
    · rename_i same
      obtain rfl := depicts.table_eq oldMember member same
      exact added
    · rename_i different
      exact (depicts.rows old oldMember).update_other different
  apart := by
    rw [Database.append_roots]
    exact depicts.apart

end

theorem LeafLayout.fits_iff_rowFits (same : cells.map Cell.entry = rows)
    (used : start + spaceUsed rows = pageSize) :
    LeafLayout.Fits start cells value ↔ RowFits rows value := by
  rw [LeafLayout.Fits, RowFits, ← same, length_map, same]
  omega

end Pages

/-! ### Row data -/

/-- The values are put behind the others as long as the buffer is not full. -/
theorem foldlM_appendValue (exprs : List Expression) (short : row.length ≤ rowBufferSize) :
    exprs.foldlM appendValue row =
      if (row ++ exprs.flatMap valueBytes).length ≤ rowBufferSize then
        .ok (row ++ exprs.flatMap valueBytes)
      else .error .outOfBounds := by
  induction exprs generalizing row with
  | nil =>
    rw [flatMap_nil, append_nil, if_pos short]
    rfl
  | cons expr rest inductionHypothesis =>
    rw [foldlM_cons, flatMap_cons, ← append_assoc, appendValue, ← length_append]
    by_cases fits : (row ++ valueBytes expr).length ≤ rowBufferSize
    · rw [if_pos fits]
      exact inductionHypothesis fits
    · have full : ¬(row ++ valueBytes expr ++ rest.flatMap valueBytes).length ≤ rowBufferSize := by
        rw [length_append]
        omega
      rw [if_neg fits, if_neg full]
      rfl

/-- The bytes of a row are those of all its values, if they fit into its buffer. -/
theorem serializeValues_eq_ok {values : List (List Expression)} :
    serializeValues values = .ok row ↔
      row = (values.flatMap (·.take 16)).flatMap valueBytes ∧ row.length ≤ rowBufferSize := by
  rw [serializeValues, foldlM_appendValue _ (Nat.zero_le _)]
  split
  · rename_i fits
    exact ⟨fun same => ⟨(Except.ok.inj same).symm, Except.ok.inj same ▸ fits⟩,
      fun ⟨same, _⟩ => congrArg _ same.symm⟩
  · rename_i full
    exact iff_of_false nofun fun ⟨same, fits⟩ => full (same ▸ fits)

/-! ### Statements -/

section Statements

variable {demand : Demand} {Free : PageCache → View → Prop}
  {Held : PageCache → View → Addr → Prop} {exec : Executor} {db : Database}

theorem Database.find_entry (db : Database) (name : List UInt8) :
    (db.tables.map Table.entry).find? (·.isNamed .table name) = (db.find name).map Table.entry := by
  rw [find?_map]
  rfl

section

variable (backs : Backs demand Free Held) (represents : Represents Free exec db)
include backs represents

/-- `INSERT` does what an insertion into the database does. -/
theorem Represents.insert
    (serialized : serializeValues stmt.values = .ok value) :
    Ensures demand (executorExecInsert exec stmt) fun out =>
      out.1 = (db.insert stmt.tableName value).1 ∧
        Represents Free out.2 (db.insert stmt.tableName value).2 := by
  obtain ⟨counter, view, free, depicts⟩ := represents
  refine (backs.catalogLookup free depicts.entries _ _).bind ?_
  rintro ⟨_, looked⟩ ⟨rfl, free⟩
  rw [db.find_entry, Database.insert]
  cases found : db.find stmt.tableName with
  | none => exact Ensures.ok ⟨rfl, counter, view, free, depicts⟩
  | some table =>
    have member : table ∈ db.tables := mem_of_find?_eq_some found
    simp only [map_some]
    by_cases zero : table.entry.rootPage = 0
    · rw [if_neg (by rw [zero]; decide), if_pos zero]
      exact Ensures.ok ⟨rfl, counter, view, free, depicts⟩
    · have positive : table.entry.rootPage > 0 := UInt32.pos_iff_ne_zero.mpr zero
      have short : value.length ≤ pageSize :=
        Nat.le_trans (serializeValues_eq_ok.mp serialized).2 (by decide)
      obtain ⟨data, start, cells, root, layout, same, used⟩ := depicts.rows _ member
      have keys : cells.map Cell.key = table.rows.map Prod.fst := by
        rw [← same, List.map_map]
        rfl
      have fits : LeafLayout.Fits start cells value ↔ RowFits table.rows value :=
        LeafLayout.fits_iff_rowFits same used
      rw [if_pos positive, if_neg zero, serialized, counter]
      refine (backs.insert free rfl root layout
        _ fun _ => short).bind ?_
      rintro ⟨done, inserted⟩ (⟨free, present, full⟩ |
        ⟨rfl, absent, fit, new, offset, free, below, layoutNew⟩)
      · refine (backs.close free).bind fun next kept => ?_
        rw [keys] at present full
        by_cases taken : db.rowid + 1 ∈ table.rows.map Prod.fst
        · obtain rfl := present.mpr taken
          rw [if_pos taken]
          exact Ensures.ok ⟨rfl, rfl, view, kept, depicts.entries, depicts.rows, depicts.apart⟩
        · obtain rfl : done = false := Bool.eq_false_iff.mpr fun isDone => taken (present.mp isDone)
          rw [if_neg taken, if_neg fun fit => full taken (fits.mpr fit)]
          exact Ensures.ok ⟨rfl, rfl, view, kept, depicts.entries, depicts.rows, depicts.apart⟩
      · refine (backs.close free).bind fun next kept => ?_
        rw [keys] at absent
        rw [if_neg absent, if_pos (fits.mp fit)]
        refine Ensures.ok ⟨rfl, rfl, _, kept, ?_⟩
        have counted : Depicts view exec.storage.catalog { db with rowid := db.rowid + 1 } :=
          ⟨depicts.entries, depicts.rows, depicts.apart⟩
        refine counted.append member ⟨new, offset, _, update_self .., layoutNew, ?_, ?_⟩
        · rw [map_append, same]
          rfl
        · rw [spaceUsed, map_append, sum_append, ← spaceUsed]
          simp only [map_singleton, sum_singleton]
          omega

/-- Whatever an `INSERT` that returned did, it is what some insertion does. -/
theorem Represents.insert_returned (run : executorExecInsert exec stmt = .ok (code, next)) :
    ∃ value, (serializeValues stmt.values = .ok value ∨
        ∀ table, db.find stmt.tableName = some table → table.entry.rootPage = 0) ∧
      code = (db.insert stmt.tableName value).1 ∧
      Represents Free next (db.insert stmt.tableName value).2 := by
  cases serialized : serializeValues stmt.values with
  | ok value => exact ⟨value, Or.inl rfl, (represents.insert backs serialized).elim run⟩
  | error fault =>
    -- the values are not looked at before the table is found
    obtain ⟨counter, view, free, depicts⟩ := represents
    simp only [executorExecInsert, bind_eq_ok] at run
    obtain ⟨⟨result, looked⟩, lookup, run⟩ := run
    obtain ⟨rfl, free⟩ :=
      (backs.catalogLookup free depicts.entries _ _).elim lookup
    refine ⟨[], ?_⟩
    rw [db.find_entry] at run
    rw [Database.insert]
    cases found : db.find stmt.tableName with
    | none =>
      rw [found] at run
      cases run
      exact ⟨Or.inr nofun, rfl, counter, view, free, depicts⟩
    | some table =>
      simp only [found, map_some] at run
      split at run
      · rw [serialized] at run
        cases run
      · rename_i notPositive
        have zero : table.entry.rootPage = 0 :=
          not_not.mp fun nonzero => notPositive (UInt32.pos_iff_ne_zero.mpr nonzero)
        cases run
        simp only [if_pos zero]
        exact ⟨Or.inr fun other same => Option.some.inj same ▸ zero, trivial, counter, view, free,
          depicts⟩

/-- `SELECT` changes nothing. -/
theorem Represents.select
    {stmt : AstSelect} (run : executorExecSelect exec stmt = .ok (code, next)) :
    Represents Free next db := by
  obtain ⟨counter, view, free, depicts⟩ := represents
  simp only [executorExecSelect, bind_eq_ok] at run
  obtain ⟨⟨result, looked⟩, lookup, run⟩ := run
  obtain ⟨rfl, free⟩ := (backs.catalogLookup free depicts.entries _ _).elim lookup
  rw [db.find_entry] at run
  cases found : db.find stmt.tableName with
  | none =>
    rw [found] at run
    cases run
    exact ⟨counter, view, free, depicts⟩
  | some table =>
    have member : table ∈ db.tables := mem_of_find?_eq_some found
    obtain ⟨data, start, cells, root, layout, -⟩ := depicts.rows _ member
    simp only [found, map_some] at run
    split at run
    · simp only [bind_eq_ok] at run
      obtain ⟨⟨rows, scanned⟩, scan, run⟩ := run
      have keptScan := ((backs.scan free
        (rfl : (btreeOpen table.entry.rootPage).isOpen = true) root layout).elim scan).2
      split at run
      · simp only [bind_eq_ok] at run
        obtain ⟨closed, close, run⟩ := run
        cases run
        exact ⟨counter, view, (backs.close keptScan).elim close, depicts⟩
      · cases run
    · obtain ⟨-, rfl⟩ := Prod.mk.inj (Except.ok.inj run)
      exact ⟨counter, view, free, depicts⟩

end

/-- The keys of the catalog. -/
def Database.keys (db : Database) : List UInt64 := (db.tables.map Table.entry).map catalogKey

/-- An entry for a new leaf is entered into the catalog, or not; the first one always is, and none
is under a key that is in use. -/
theorem Depicts.enter (backs : Backs demand Free Held) {catalog : Catalog} (free : Free cache view)
    (depicts : Depicts view catalog db) (leaf : RowsAt view entry.rootPage [])
    (fresh : entry.rootPage ∉ catalog.tree.rootPage :: db.roots) :
    Ensures demand (catalogInsert cache catalog entry) fun out =>
      ((db.tables ≠ [] ∧ (out.1 = true ↔ catalogKey entry ∈ db.keys)) ∧ Free out.2 view) ∨
        (out.1 = true ∧ catalogKey entry ∉ db.keys ∧ ∃ after, Free out.2 after ∧
          Depicts after catalog (db.create entry)) := by
  obtain ⟨⟨opened, data, start, cells, root, layout, same⟩, rows, apart⟩ := depicts
  refine (backs.catalogInsert free opened root layout same _).mono ?_
  rintro out (⟨kept, present, full⟩ | ⟨done, absent, new, kept, holds⟩)
  · refine Or.inl ⟨⟨fun empty => ?_, present⟩, kept⟩
    rw [empty] at same full
    obtain rfl : cells = [] := map_eq_nil_iff.mp same
    exact full not_mem_nil (layout.fits_first _)
  · refine Or.inr ⟨done, absent, _, kept, ?_, fun table member => ?_, ?_⟩
    · rw [Database.create, map_append]
      exact holds
    · rcases mem_append.mp member with old | isNew
      · exact (rows _ old).update_other fun same =>
          (nodup_cons.mp apart).1 (same ▸ List.mem_map_of_mem old)
      · obtain rfl := mem_singleton.mp isNew
        exact leaf.update_other fun same => fresh (same ▸ mem_cons_self)
    · rw [Database.roots, Database.create, map_append, ← cons_append]
      exact nodup_append_comm.mp (nodup_cons.mpr ⟨fresh, apart⟩)

/-- What `btree_create` does for a database: nothing, or it makes an empty leaf of a new page. -/
def Plants (Free : PageCache → View → Prop) (catalog : Catalog) (db : Database)
    (out : Option BTree × PageCache) : Prop :=
  ∃ view, Free out.2 view ∧ Depicts view catalog db ∧ ∀ tree, out.1 = some tree →
    RowsAt view tree.rootPage [] ∧ tree.rootPage ∉ catalog.tree.rootPage :: db.roots

/-- The key of the entry that `CREATE TABLE` makes. -/
def tableKey (stmt : AstCreateTable) : UInt64 := catalogKey (createTableEntry stmt [] 0)

/-- `CREATE TABLE` adds a table or changes nothing, once the tree is made. -/
theorem Represents.createTable (backs : Backs demand Free Held) {freed : FreedHandle}
    {stmt : AstCreateTable} (counter : exec.rowidCounter = db.rowid)
    (text : Ensures demand (createTableSql stmt) fun _ => True)
    (closable : demand = .must → freed = .intact)
    (plants : Ensures demand (btreeCreate exec.storage.cache)
      (Plants Free exec.storage.catalog db)) :
    Ensures demand (executorExecCreateTable freed exec stmt) fun out =>
      (Represents Free out.2 db ∧
        ((db.tables ≠ [] ∧ (out.1 = .success ↔ tableKey stmt ∈ db.keys) ∧
            ∃ tree created, btreeCreate exec.storage.cache = .ok (some tree, created)) ∨
          out.1 = .storageIo ∧ ∃ created, btreeCreate exec.storage.cache = .ok (none, created))) ∨
        (out.1 = .success ∧ tableKey stmt ∉ db.keys ∧ ∃ sql tree created,
          btreeCreate exec.storage.cache = .ok (some tree, created) ∧
          Represents Free out.2 (db.create (createTableEntry stmt sql tree.rootPage))) := by
  have creates := plants.and_run fun out run => run
  refine text.bind fun sql _ => creates.bind ?_
  rintro ⟨tree, created⟩ ⟨⟨view, free, depicts, planted⟩, run⟩
  cases tree with
  | none => exact Ensures.ok (Or.inl ⟨⟨counter, view, free, depicts⟩, Or.inr ⟨rfl, created, run⟩⟩)
  | some tree =>
    obtain ⟨leaf, fresh⟩ := planted _ rfl
    have again : ∀ {cache view}, Free cache view →
        Ensures demand (btreeCloseAgain freed cache) fun next => Free next view := by
      intro cache view free
      cases freed with
      | intact => exact backs.close free
      | lost =>
        cases demand with
        | must => cases closable rfl
        | may =>
          intro next returned
          cases returned
    refine (backs.close free).bind fun closed kept => ?_
    refine (Depicts.enter backs kept depicts
      leaf fresh).bind ?_
    rintro ⟨done, entered⟩ (⟨⟨nonempty, present⟩, kept⟩ |
      ⟨rfl, absent, after, kept, depictsAfter⟩)
    · refine (again kept).bind fun last kept => ?_
      refine Ensures.ok (Or.inl ⟨⟨counter, view, kept, depicts⟩, Or.inl ⟨nonempty, ?_, tree, created,
        run⟩⟩)
      rw [show tableKey stmt ∈ db.keys ↔ done = true from present.symm]
      cases done <;> simp [ReturnCode.ofTree]
    · refine (again kept).bind fun last kept => ?_
      exact Ensures.ok (Or.inr ⟨rfl, absent, sql, tree, created, run, counter, after, kept,
        depictsAfter⟩)

end Statements

section Calls

variable {freed : FreedHandle} {exec next : Executor} {code : ReturnCode}

/-- The transaction statements leave the storage and the row ids alone. -/
theorem executorExec_transaction
    (run : executorExec freed exec (.transaction kind) = .ok (code, next)) :
    next.storage = exec.storage ∧ next.rowidCounter = exec.rowidCounter := by
  have transaction : next = (match kind with
      | .txBegin => executorExecBegin exec
      | .txCommit => executorExecCommit exec
      | .txRollback => executorExecRollback exec).2 := by
    cases kind <;> exact (Prod.mk.inj (Except.ok.inj run)).2.symm
  rw [transaction]
  cases kind <;>
    simp only [executorExecBegin, executorExecCommit, executorExecRollback] <;>
    split <;> try split
  all_goals exact ⟨rfl, rfl⟩

theorem Represents.transaction {Free : PageCache → View → Prop} {db : Database}
    (represents : Represents Free exec db)
    (run : executorExec freed exec (.transaction kind) = .ok (code, next)) :
    Represents Free next db := by
  obtain ⟨storage, counter⟩ := executorExec_transaction run
  refine ⟨counter.trans represents.counter, ?_⟩
  rw [storage]
  exact represents.stored

/-- The other statements change the cache and the row ids only. -/
theorem executorExec_rest {stmt : AstNode} (run : executorExec freed exec stmt = .ok (code, next)) :
    (∃ kind, stmt = .transaction kind) ∨ next = { exec with
      storage := { exec.storage with cache := next.storage.cache }
      rowidCounter := next.rowidCounter } := by
  cases stmt with
  | createTable stmt =>
    simp only [executorExec, executorExecCreateTable, bind_eq_ok] at run
    obtain ⟨sql, -, ⟨tree, created⟩, -, run⟩ := run
    cases tree with
    | none =>
      cases run
      exact Or.inr rfl
    | some tree =>
      simp only [bind_eq_ok] at run
      obtain ⟨closed, -, entered, -, last, -, run⟩ := run
      cases run
      exact Or.inr rfl
  | insert stmt =>
    simp only [executorExec, executorExecInsert, bind_eq_ok] at run
    obtain ⟨⟨entry, looked⟩, -, run⟩ := run
    cases entry with
    | none =>
      cases run
      exact Or.inr rfl
    | some entry =>
      simp only at run
      split at run
      · simp only [bind_eq_ok] at run
        obtain ⟨value, -, inserted, -, last, -, run⟩ := run
        cases run
        exact Or.inr rfl
      · obtain ⟨-, rfl⟩ := Prod.mk.inj (Except.ok.inj run)
        exact Or.inr rfl
  | select stmt =>
    simp only [executorExec, executorExecSelect, bind_eq_ok] at run
    obtain ⟨⟨entry, looked⟩, -, run⟩ := run
    cases entry with
    | none =>
      cases run
      exact Or.inr rfl
    | some entry =>
      simp only at run
      split at run
      · simp only [bind_eq_ok] at run
        obtain ⟨scanned, -, run⟩ := run
        split at run
        · simp only [bind_eq_ok] at run
          obtain ⟨last, -, run⟩ := run
          cases run
          exact Or.inr rfl
        · cases run
      · obtain ⟨-, rfl⟩ := Prod.mk.inj (Except.ok.inj run)
        exact Or.inr rfl
  | transaction kind => exact Or.inl ⟨kind, rfl⟩
  | dropTable _ | createIndex _ | dropIndex _ | update _ | delete _ =>
    cases run
    exact Or.inr rfl

/-- No statement changes the catalog handle. -/
theorem executorExec_catalog {stmt : AstNode}
    (run : executorExec freed exec stmt = .ok (code, next)) :
    next.storage.catalog = exec.storage.catalog := by
  rcases executorExec_rest run with ⟨kind, rfl⟩ | rest
  · rw [(executorExec_transaction run).1]
  · rw [rest]

end Calls

/-! ### Scans -/

/-- The scan of a tree returns some rows. -/
def Scans (cache : PageCache) (tree : BTree) (rows : List Row) : Prop :=
  ∃ next, btreeScan cache tree = .ok (rows, next)

instance {cache : PageCache} {tree : BTree} {rows : List Row} : Decidable (Scans cache tree rows) :=
  inferInstanceAs (Decidable (∃ _, _ = _))

/-- A table with the name is found, and the scan of its tree returns some rows. -/
def TableRows (exec : Executor) (name : List UInt8) (rows : List Row) : Prop :=
  ∃ entry, FoundAs exec.storage.cache exec.storage.catalog .table name (some entry) ∧
    Scans exec.storage.cache (btreeOpen entry.rootPage) rows

instance {exec : Executor} {name : List UInt8} {rows : List Row} :
    Decidable (TableRows exec name rows) :=
  inferInstanceAs (Decidable (∃ _, _ ∧ _))

/-- The scan of the catalog. -/
def CatalogRows (exec : Executor) (rows : List Row) : Prop :=
  Scans exec.storage.cache exec.storage.catalog.tree rows

section Scans

variable {Free : PageCache → View → Prop} {Held : PageCache → View → Addr → Prop}
  {exec : Executor} {db : Database} {rows : List Row} {name : List UInt8}

theorem Serves.scans_iff (serves : Serves .must Free Held) (free : Free cache view) {tree : BTree}
    (opened : tree.isOpen = true) (root : view tree.rootPage = some data)
    (layout : LeafLayout data start cells) :
    Scans cache tree rows ↔ rows = cells.map Cell.entry := by
  obtain ⟨⟨_, next⟩, run, rfl, -⟩ := serves.scan free opened root layout
  constructor
  · rintro ⟨_, again⟩
    exact (Prod.mk.inj (Except.ok.inj (again.symm.trans run))).1
  · rintro rfl
    exact ⟨next, run⟩

section

variable (represents : Represents Free exec db) (serves : Serves .must Free Held)
include represents serves

theorem Represents.foundAs_iff :
    FoundAs exec.storage.cache exec.storage.catalog .table name (some entry) ↔
      ∃ table, db.find name = some table ∧ table.entry = entry := by
  obtain ⟨-, view, free, depicts⟩ := represents
  rw [serves.foundAs_iff free depicts.entries, db.find_entry, eq_comm, map_eq_some_iff]

theorem Represents.scans_iff (found : db.find name = some table) :
    Scans exec.storage.cache (btreeOpen table.entry.rootPage) rows ↔ rows = table.rows := by
  obtain ⟨-, view, free, depicts⟩ := represents
  obtain ⟨data, start, cells, root, layout, same, -⟩ :=
    depicts.rows _ (mem_of_find?_eq_some found)
  rw [← same]
  exact serves.scans_iff free rfl root layout

theorem Represents.tableRows_iff :
    TableRows exec name rows ↔ (db.find name).map Table.rows = some rows := by
  simp only [TableRows, represents.foundAs_iff serves, map_eq_some_iff]
  constructor
  · rintro ⟨_, ⟨table, found, rfl⟩, scans⟩
    exact ⟨table, found, ((represents.scans_iff serves found).mp scans).symm⟩
  · rintro ⟨table, found, rfl⟩
    exact ⟨table.entry, ⟨table, found, rfl⟩, (represents.scans_iff serves found).mpr rfl⟩

theorem Represents.catalogRows_iff :
    CatalogRows exec rows ↔ rows = db.tables.map fun table => table.entry.stored := by
  obtain ⟨-, view, free, depicts⟩ := represents
  obtain ⟨opened, data, start, cells, root, layout, same⟩ := depicts.entries
  rw [CatalogRows, serves.scans_iff free opened root layout, same, List.map_map]
  rfl

end

end Scans

/-! ### Opening -/

/-- An empty database. -/
def Database.empty (rowid : UInt64) : Database := { tables := [], rowid }

theorem tinydbOpen_eq_ok (opening : tinydbOpen location = .ok (some storage, path)) :
    ∃ pager, openPager location = (some pager, path) ∧ storage.isOpen = true ∧
      catalogOpen (storageCache pager) = .ok (some storage.catalog, storage.cache) := by
  unfold tinydbOpen at opening
  split at opening
  · cases opening
  · rename_i pager after opened
    simp only [bind_eq_ok] at opening
    obtain ⟨⟨result, cache⟩, create, opening⟩ := opening
    cases result with
    | none =>
      simp only [bind_eq_ok] at opening
      obtain ⟨closed, -, same⟩ := opening
      cases same
    | some catalog =>
      obtain ⟨same, rfl⟩ := Prod.mk.inj (Except.ok.inj opening)
      cases same
      exact ⟨pager, opened, rfl, create⟩

/-- A leaf without rows is a catalog without entries. -/
theorem depicts_empty {rootPage : UInt32} (rowid : UInt64) (root : view rootPage = some data)
    (layout : LeafLayout data pageSize []) :
    Depicts view { tree := btreeOpen rootPage, isOpen := true } (.empty rowid) :=
  ⟨⟨rfl, data, pageSize, [], root, layout, rfl⟩, nofun, nodup_singleton _⟩

/-- Whatever the pager answers, a storage handle starts with an empty database. -/
theorem opened_represents (opening : tinydbOpen location = .ok (some storage, path))
    (counter : UInt64) :
    Represents (Stocked 1) (executorCreate storage counter) (.empty counter) := by
  obtain ⟨pager, -, -, catalogOpening⟩ := tinydbOpen_eq_ok opening
  obtain ⟨tree, create, same⟩ := catalogOpen_eq_ok.mp catalogOpening
  obtain ⟨maxPages, count, ⟨failed, -⟩ | ⟨root, empty, handed, isTree, layout, resident⟩⟩ :=
    btreeCreate_cases ⟨created_usable 256 256 _, rfl⟩
      (by decide : 0 < clampMaxPages 256 256) create
  · cases failed
  · obtain rfl := Option.some.inj isTree
    rw [handed] at count
    refine ⟨rfl, _, ⟨resident, count, maxPages⟩, ?_⟩
    rw [executorCreate, same]
    exact depicts_empty _ (update_self ..) layout

end TinyDb

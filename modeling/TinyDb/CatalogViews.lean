/-
This file compares the ways to look at a catalog: the lookup of a table, the list of
all tables, the lists of the indexes of a table, and a scan of all entries.

All of them walk the same leaf with the same cursor, and differ in what they keep. So
a lookup finds the first of the listed tables with the name, and as an entry is a
table or the index of one table, the lists together hold every entry once.
-/

import Mathlib.Data.List.Dedup
import TinyDb.CatalogEntries
import TinyDb.FrontPage

namespace TinyDb

open Heaps Bytes CStrings List

variable {view : View}

/-! ### Lists in groups -/

section Groups

variable {Item Key : Type} [BEq Key] [LawfulBEq Key]

/-- The items with one of two properties that exclude each other. -/
theorem filter_or_perm {first second : Item → Bool} (items : List Item)
    (apart : ∀ item, first item = true → second item = false) :
    (items.filter first ++ items.filter second).Perm
      (items.filter fun item => first item || second item) := by
  have split := filter_append_perm first (items.filter fun item => first item || second item)
  rw [filter_filter, filter_filter] at split
  have one : (items.filter fun item => first item && (first item || second item)) =
      items.filter first := filter_congr fun item _ => by cases first item <;> simp
  have two : (items.filter fun item => !first item && (first item || second item)) =
      items.filter second := filter_congr fun item _ => by
    cases isFirst : first item with
    | false => simp
    | true => simp [apart _ isFirst]
  rwa [one, two] at split

/-- Items collected key by key. -/
theorem flatMap_filter_perm (key : Item → Key) (items : List Item) {keys : List Key}
    (distinct : keys.Nodup) :
    (keys.flatMap fun wanted => items.filter fun item => key item == wanted).Perm
      (items.filter fun item => keys.contains (key item)) := by
  induction keys with
  | nil => simp
  | cons wanted keys inductionHypothesis =>
    obtain ⟨new, distinct⟩ := nodup_cons.mp distinct
    refine ((inductionHypothesis distinct).append_left _).trans ?_
    have apart : ∀ item, (key item == wanted) = true → keys.contains (key item) = false := by
      intro item same
      rw [beq_iff_eq.mp same]
      simpa using new
    refine (filter_or_perm _ apart).trans ?_
    exact List.Perm.refl _

end Groups

/-! ### Collecting entries -/

section Collect

variable {demand : Demand} {Free : PageCache → View → Prop}
  {Held : PageCache → View → Addr → Prop} {cache : PageCache} {view : View} {catalog : Catalog}
  {entries : List CatalogEntry}

namespace Serves

theorem catalogCollectLoop_leaf (serves : Serves demand Free Held)
    (holds : CatalogHolds view catalog entries) (wanted : CatalogEntry → Bool) {number fuel : Nat}
    {cursor : CatalogCursor} (found : List CatalogEntry) (free : Free cache view)
    (stands : CursorAt catalog entries number cursor) (bounded : entries.length ≤ number + fuel) :
    Ensures demand (catalogCollectLoop wanted fuel cursor found cache)
      fun out => out.1 = found ++ (entries.drop number).filter wanted ∧ Free out.2 view := by
  induction fuel generalizing cache cursor number found with
  | zero =>
    have finished : entries.length ≤ number := bounded
    rw [catalogCollectLoop, stands.valid, decide_eq_false (by omega),
      drop_eq_nil_of_le finished, filter_nil, append_nil]
    exact Ensures.ok ⟨rfl, free⟩
  | succ fuel inductionHypothesis =>
    rw [catalogCollectLoop, stands.valid]
    by_cases inside : number < entries.length
    · rw [decide_eq_true inside]
      refine (serves.catalogGet free holds stands inside).bind ?_
      rintro ⟨_, middle⟩ ⟨rfl, free⟩
      refine (serves.catalogNext free holds stands inside).bind ?_
      rintro ⟨moved, next⟩ ⟨movedStands, free⟩
      have kept : (entries.drop number).filter wanted =
          ((some entries[number]).filter wanted).toList ++
            (entries.drop (number + 1)).filter wanted := by
        rw [drop_eq_getElem_cons _, filter_cons, Option.filter_some]
        split <;> rfl
      rw [kept, ← append_assoc]
      exact inductionHypothesis _ free movedStands (by omega)
    · rw [decide_eq_false inside, drop_eq_nil_of_le (Nat.not_lt.mp inside), filter_nil,
        append_nil]
      exact Ensures.ok ⟨rfl, free⟩

/-- Collecting filters the entries. -/
theorem catalogCollect (serves : Serves demand Free Held) (free : Free cache view)
    (holds : CatalogHolds view catalog entries) (wanted : CatalogEntry → Bool) :
    Ensures demand (TinyDb.catalogCollect wanted cache catalog) fun out =>
      out.1 = entries.filter wanted ∧ Free out.2 view := by
  refine (serves.catalogCreate free holds).bind ?_
  rintro ⟨cursor, middle⟩ ⟨stands, free⟩
  exact serves.catalogCollectLoop_leaf holds _ [] free stands
    (Nat.le_trans holds.length_le (Nat.le_add_left _ _))

end Serves

end Collect

/-! ### The views together -/

/-- A view of the catalog returns the entries. -/
def ListedAs (list : PageCache → Catalog → Except Fault (List CatalogEntry × PageCache))
    (cache : PageCache) (catalog : Catalog) (entries : List CatalogEntry) : Prop :=
  ∃ next, list cache catalog = .ok (entries, next)

section Views

variable {cache : PageCache} {catalog : Catalog} {entries : List CatalogEntry}

theorem Serves.listedAs_filter {Free : PageCache → View → Prop}
    {Held : PageCache → View → Addr → Prop} (serves : Serves .must Free Held)
    (free : Free cache view) (holds : CatalogHolds view catalog entries)
    (wanted : CatalogEntry → Bool) :
    ListedAs (TinyDb.catalogCollect wanted) cache catalog (entries.filter wanted) := by
  obtain ⟨⟨_, next⟩, run, rfl, -⟩ := serves.catalogCollect free holds wanted
  exact ⟨next, run⟩

/-- What the views of a catalog have to do with each other. -/
structure ViewsAgree (cache : PageCache) (catalog : Catalog) (scan tables : List CatalogEntry)
    (indexes : List UInt8 → List CatalogEntry) : Prop where
  scanned : ListedAs catalogScan cache catalog scan
  listed : ListedAs catalogGetTables cache catalog tables
  indexed : ∀ table, ListedAs (catalogGetIndexes table) cache catalog (indexes table)
  first : ∀ name result, FoundAs cache catalog .table name result ↔
    result = tables.find? fun entry => entry.name.bytes == untilNul name
  inOrder : ∀ table, indexes table = scan.filter fun entry =>
    entry.type == .index && entry.tblName.bytes == untilNul table
  once : (tables ++ (scan.map fun entry => entry.tblName.bytes).dedup.flatMap indexes).Perm scan

/-- Tables, and indexes by the name of their table, hold every entry once. -/
theorem tables_indexes_perm (known : ∀ entry ∈ entries, entry.Known) :
    (entries.filter (fun entry => entry.type == .table) ++
      (entries.map fun entry => entry.tblName.bytes).dedup.flatMap fun table =>
        entries.filter fun entry => entry.type == .index &&
          entry.tblName.bytes == untilNul table).Perm entries := by
  have groups : ∀ table ∈ (entries.map fun entry => entry.tblName.bytes).dedup,
      (entries.filter fun entry => entry.type == .index &&
        entry.tblName.bytes == untilNul table) =
      (entries.filter fun entry => entry.type == .index).filter fun entry =>
        entry.tblName.bytes == table := by
    intro table isTable
    obtain ⟨named, -, rfl⟩ := mem_map.mp (mem_dedup.mp isTable)
    rw [filter_filter, CString.untilNul_bytes]
    exact filter_congr fun entry _ => Bool.and_comm ..
  have rest : (entries.filter fun entry => !(entry.type == .table)) =
      entries.filter fun entry => entry.type == .index := by
    refine filter_congr fun entry isEntry => ?_
    rcases known entry isEntry with table | index
    · rw [table]
      rfl
    · rw [index]
      rfl
  have covered : ((entries.filter fun entry => entry.type == .index).filter fun entry =>
      (entries.map fun entry => entry.tblName.bytes).dedup.contains entry.tblName.bytes) =
      entries.filter fun entry => entry.type == .index := by
    refine filter_eq_self.mpr fun entry isIndex => ?_
    rw [contains_iff_mem, mem_dedup]
    exact mem_map_of_mem (mem_of_mem_filter isIndex)
  have collected := flatMap_filter_perm (fun entry => entry.tblName.bytes)
    (entries.filter fun entry => entry.type == .index)
    (nodup_dedup (entries.map fun entry => entry.tblName.bytes))
  rw [covered] at collected
  rw [flatMap_congr groups]
  have halves := filter_append_perm (fun entry : CatalogEntry => entry.type == .table) entries
  rw [rest] at halves
  exact (collected.append_left _).trans halves

theorem Serves.viewsAgree {Free : PageCache → View → Prop} {Held : PageCache → View → Addr → Prop}
    (serves : Serves .must Free Held) (free : Free cache view)
    (holds : CatalogHolds view catalog entries) (known : ∀ entry ∈ entries, entry.Known) :
    ViewsAgree cache catalog entries (entries.filter fun entry => entry.type == .table)
      fun table => entries.filter fun entry =>
        entry.type == .index && entry.tblName.bytes == untilNul table where
  scanned := by
    have all := serves.listedAs_filter free holds fun _ => true
    rwa [filter_true] at all
  listed := serves.listedAs_filter free holds _
  indexed _ := serves.listedAs_filter free holds _
  first _ _ := by
    rw [serves.foundAs_iff free holds, find?_filter]
    simp only [CatalogEntry.isNamed, Bool.decide_and, Bool.decide_eq_true]
  inOrder _ := rfl
  once := tables_indexes_perm known

/-- A new catalog is a leaf without entries, and its root page is at the front of the cache. -/
theorem catalogOpen_front {next : PageCache} {bucket : Nat → List Addr}
    (hash : HashSound cache bucket) (opening : catalogOpen cache = .ok (some catalog, next)) :
    CatalogServed Front catalog next := by
  obtain ⟨tree, create, rfl⟩ := catalogOpen_eq_ok.mp opening
  obtain ⟨opened, view, data, front, root, layout⟩ := hash.btreeCreate_front create
  exact ⟨view, [], front, ⟨opened, data, pageSize, [], root, layout, rfl⟩, nofun⟩

/-- In every catalog that is built by insertions the views agree, whatever happened to the cache
before. -/
theorem catalog_views_agree {defaultCacheSize maxPages : Int} {pager : Option Pager}
    {cache opened current : PageCache} {catalog : Catalog}
    (run : Relation.ReflTransGen CacheEvent (pageCacheCreate defaultCacheSize maxPages pager)
      cache)
    (opening : catalogOpen cache = .ok (some catalog, opened))
    (calls : Relation.ReflTransGen (CatalogStep catalog) opened current) :
    ∃ scan tables indexes, ViewsAgree current catalog scan tables indexes := by
  obtain ⟨bucket, hash⟩ := hashSound_of_run run
  obtain ⟨view, entries, front, holds, known⟩ := Runs.run_invariant _
    (fun _ _ step => step.served front_serves) calls (catalogOpen_front hash opening)
  exact ⟨_, _, _, front_serves.viewsAgree front holds known⟩

/-- The entry of an index of a table. -/
def indexEntry (name table : List UInt8) (rootPage : UInt32) : CatalogEntry where
  type := .index
  name := strncpy 63 name
  tblName := strncpy 63 table
  sql := strncpy 511 []
  rootPage
  isValid := true

/-- A catalog with a table and two indexes. -/
theorem catalog_views_agree_indexes : ∃ pager catalog opened first second third scan tables indexes,
    catalogOpen (pageCacheCreate 256 256 (some pager)) = .ok (some catalog, opened) ∧
      catalogInsert opened catalog (tableEntry [116] 2) = .ok (true, first) ∧
      catalogInsert first catalog (indexEntry [105, 49] [116] 3) = .ok (true, second) ∧
      catalogInsert second catalog (indexEntry [105, 49, 48] [116] 4) = .ok (true, third) ∧
      ViewsAgree third catalog scan tables indexes := by
  obtain ⟨catalog, opened, opening, first, one, second, two, third, three⟩ : ∃ catalog opened,
      catalogOpen (pageCacheCreate 256 256 (some newPager)) = .ok (some catalog, opened) ∧
      ∃ first, catalogInsert opened catalog (tableEntry [116] 2) = .ok (true, first) ∧
      ∃ second, catalogInsert first catalog (indexEntry [105, 49] [116] 3) = .ok (true, second) ∧
      ∃ third, catalogInsert second catalog (indexEntry [105, 49, 48] [116] 4) =
        .ok (true, third) := by
    decide +kernel
  obtain ⟨scan, tables, indexes, agree⟩ := catalog_views_agree .refl opening
    (((Relation.ReflTransGen.single (.insert (Or.inl rfl) one)).tail (.insert (Or.inr rfl) two)).tail
      (.insert (Or.inr rfl) three))
  exact ⟨newPager, catalog, opened, first, second, third, scan, tables, indexes, opening, one, two,
    three, agree⟩

end Views

end TinyDb

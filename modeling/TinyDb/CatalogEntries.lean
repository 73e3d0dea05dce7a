/-
This file shows that a catalog is a list of entries, and when a table that was
entered is found again.

The entries stand in the root leaf in the order of their insertion. A lookup finds
the first of them with the wanted kind and name. An insertion appends its entry
unless there is one with the same key already; it reports success in both cases.
The key is made from the length of the name, so the second of two tables with
names of one length is not entered, and is not found.
-/

import TinyDb.Catalog
import TinyDb.LeafTree

namespace TinyDb

open Heaps Bytes CStrings List Option

variable {number : Nat} {cursor : CatalogCursor} {entry : CatalogEntry} {type : CatalogEntryType}
  {name : List UInt8} {result : Option CatalogEntry} {before after : PageCache}

/-! ### The codec of entries -/

theorem CatalogEntryType.ofCode_code (type : CatalogEntryType) : ofCode type.code = type := by
  cases type with
  | table => rfl
  | index => rfl
  | other word foreign =>
    rw [CatalogEntryType.code, ofCode, dif_neg foreign.1, dif_neg foreign.2]

/-- A word behind some bytes of known length. -/
theorem wordAt_append {front : List UInt8} {offset : Nat} (length : front.length = offset)
    (word : UInt32) (rest : List UInt8) : wordAt (front ++ (wordBytes word ++ rest)) offset = word := by
  rw [wordAt, drop_left' length, take_left' (wordBytes_length _),
    ofNat_littleEndianValue_wordBytes]

theorem serializeEntry_length (entry : CatalogEntry) :
    (serializeEntry entry).length = catalogEntrySize := by
  simp [serializeEntry, catalogEntrySize]

/-- An entry read back from its own bytes. -/
theorem deserializeEntry_serializeEntry (entry : CatalogEntry) :
    deserializeEntry (serializeEntry entry) = entry := by
  obtain ⟨type, name, tblName, sql, rootPage, isValid⟩ := entry
  simp only [serializeEntry, CString.strncpy_self]
  generalize kind : wordBytes type.code = typeBytes
  have typeLength : typeBytes.length = 4 := by rw [← kind, wordBytes_length]
  generalize validBytes : wordBytes (if isValid then 1 else 0) = flag
  -- the buffer split in front of each of the later fields
  have atTblName : ∀ rest : List UInt8,
      typeBytes ++ (name.array ++ rest) = (typeBytes ++ name.array) ++ rest := by simp
  have atSql : ∀ rest : List UInt8, typeBytes ++ (name.array ++ (tblName.array ++ rest)) =
      (typeBytes ++ (name.array ++ tblName.array)) ++ rest := by simp
  have atRoot : ∀ rest : List UInt8,
      typeBytes ++ (name.array ++ (tblName.array ++ (sql.array ++ rest))) =
        (typeBytes ++ (name.array ++ (tblName.array ++ sql.array))) ++ rest := by simp
  have atValid : typeBytes ++ (name.array ++ (tblName.array ++ (sql.array ++
      (wordBytes rootPage ++ flag)))) = (typeBytes ++ (name.array ++ (tblName.array ++
        (sql.array ++ wordBytes rootPage)))) ++ (flag ++ []) := by simp
  rw [deserializeEntry, CatalogEntry.mk.injEq]
  refine ⟨?_, ?_, ?_, ?_, ?_, ?_⟩
  · have word := wordAt_append (rfl : ([]).length = 0) type.code
    rw [← kind]
    exact (congrArg _ (word _)).trans type.ofCode_code
  · rw [drop_left' typeLength, CString.strncpy_array_append]
  · rw [atTblName, drop_left' (by simp [typeLength]), CString.strncpy_array_append]
  · rw [atSql, drop_left' (by simp [typeLength]), CString.strncpy_array_append]
  · rw [atRoot, wordAt_append (by simp [typeLength])]
  · rw [atValid, ← validBytes, wordAt_append (by simp [typeLength])]
    cases isValid <;> rfl

/-! ### A catalog as a list of entries -/

/-- What the tree stores for an entry. -/
def CatalogEntry.stored (entry : CatalogEntry) : UInt64 × List UInt8 :=
  (catalogKey entry, serializeEntry entry)

/-- The root of the catalog is a leaf with some entries. -/
structure CatalogHolds (view : View) (catalog : Catalog) (entries : List CatalogEntry) : Prop where
  opened : catalog.tree.isOpen = true
  leaf : ∃ data start cells, view catalog.tree.rootPage = some data ∧
    LeafLayout data start cells ∧ cells.map Cell.entry = entries.map CatalogEntry.stored

section Operations

variable {demand : Demand} {Free : PageCache → View → Prop}
  {Held : PageCache → View → Addr → Prop} {cache : PageCache} {view : View} {catalog : Catalog}
  {data : PageData} {start : Nat} {cells : List Cell} {entries : List CatalogEntry}

theorem length_of_stored (same : cells.map Cell.entry = entries.map CatalogEntry.stored) :
    cells.length = entries.length := by
  have lengths := congrArg List.length same
  rwa [length_map, length_map] at lengths

theorem keys_of_stored (same : cells.map Cell.entry = entries.map CatalogEntry.stored) :
    cells.map Cell.key = entries.map catalogKey := by
  have keys := congrArg (List.map Prod.fst) same
  rwa [List.map_map, List.map_map] at keys

/-- A catalog has fewer entries than the loops over it take steps. -/
theorem CatalogHolds.length_le (holds : CatalogHolds view catalog entries) :
    entries.length ≤ 65536 := by
  obtain ⟨-, data, start, cells, -, layout, same⟩ := holds
  rw [← length_of_stored same]
  exact Nat.le_trans (Nat.le_of_lt layout.length_le) (by simp)

/-- The cursor stands on the entry with a number, or behind the last one. -/
def CursorAt (catalog : Catalog) (entries : List CatalogEntry) (number : Nat)
    (cursor : CatalogCursor) : Prop :=
  ∃ leafCursor : BTreeCursor, cursor.btreeCursor = some leafCursor ∧
    leafCursor.page = catalog.tree.rootPage ∧ leafCursor.cell = number ∧
    (leafCursor.isEnd = true ↔ entries.length ≤ number) ∧
    (cursor.isEnd = true → leafCursor.isEnd = true)

theorem CursorAt.valid (stands : CursorAt catalog entries number cursor) :
    catalogCursorValid cursor = decide (number < entries.length) := by
  obtain ⟨btreeCursor, isEnd⟩ := cursor
  obtain ⟨leafCursor, rfl, -, -, ends, stops⟩ := stands
  have same : catalogCursorValid { btreeCursor := some leafCursor, isEnd } = !leafCursor.isEnd := by
    cases isEnd with
    | true => rw [stops rfl]; rfl
    | false => rfl
  rw [same, Bool.eq_iff_iff, Bool.not_eq_true', ← Bool.not_eq_true, ends, decide_eq_true_iff,
    Nat.not_le]

/-- A cursor on an entry is not at its end. -/
theorem CursorAt.inside (stands : CursorAt catalog entries number cursor)
    (inside : number < entries.length) :
    ∃ leafCursor : BTreeCursor, cursor = { btreeCursor := some leafCursor, isEnd := false } ∧
      leafCursor.page = catalog.tree.rootPage ∧ leafCursor.cell = number ∧
      leafCursor.isEnd = false := by
  obtain ⟨btreeCursor, isEnd⟩ := cursor
  obtain ⟨leafCursor, rfl, page, cell, ends, stops⟩ := stands
  have open_leaf : leafCursor.isEnd = false := by
    rw [← Bool.not_eq_true, ends]
    exact Nat.not_le.mpr inside
  have open_cursor : isEnd = false := by
    rw [← Bool.not_eq_true]
    exact fun stop => Bool.false_ne_true (open_leaf.symm.trans (stops stop))
  subst open_cursor
  exact ⟨leafCursor, rfl, page, cell, open_leaf⟩

namespace Serves

variable {number : Nat} {cursor : CatalogCursor}

section

variable (serves : Serves demand Free Held)
  (free : Free cache view)
  (holds : CatalogHolds view catalog entries)
include serves free holds

/-- `catalog_cursor_get` on an entry. -/
theorem catalogGet (stands : CursorAt catalog entries number cursor)
    (inside : number < entries.length) :
    Ensures demand (catalogCursorGet cache cursor)
      fun out => out.1 = some entries[number] ∧ Free out.2 view := by
  obtain ⟨-, data, start, cells, root, layout, same⟩ := holds
  obtain ⟨leafCursor, rfl, page, rfl, valid⟩ := stands.inside inside
  have stored : cells[leafCursor.cell]?.map Cell.entry =
      entries[leafCursor.cell]?.map CatalogEntry.stored := by
    rw [← getElem?_map, same, getElem?_map]
  refine (serves.get free root layout page).bind ?_
  rintro ⟨_, next⟩ ⟨rfl, free⟩
  rw [valid, if_neg nofun, stored, getElem?_eq_getElem inside]
  simp only [map_some, CatalogEntry.stored, serializeEntry_length,
    deserializeEntry_serializeEntry]
  exact Ensures.ok ⟨rfl, free⟩

/-- `catalog_cursor_next` moves to the next entry, or behind the last one. -/
theorem catalogNext (stands : CursorAt catalog entries number cursor)
    (inside : number < entries.length) :
    Ensures demand (catalogCursorNext cache cursor)
      fun out => CursorAt catalog entries (number + 1) out.1 ∧ Free out.2 view := by
  obtain ⟨-, data, start, cells, root, layout, same⟩ := holds
  have length := length_of_stored same
  obtain ⟨leafCursor, rfl, page, rfl, valid⟩ := stands.inside inside
  refine (serves.next free root layout page valid).bind ?_
  rintro ⟨moved, next⟩ ⟨landed, free⟩
  have sameEnd : (!btreeCursorValid moved) = moved.isEnd := Bool.not_not _
  refine Ensures.ok ⟨⟨moved, rfl, ?_⟩, free⟩
  rw [sameEnd, ← length]
  rw [← length] at inside
  split at landed <;> subst landed
  · rename_i last
    exact ⟨page, Nat.le_antisymm last inside, iff_of_true rfl last, id⟩
  · rename_i more
    exact ⟨page, rfl, iff_of_false (by simp [valid]) more, id⟩

/-- A new cursor stands on the first entry. -/
theorem catalogCreate :
    Ensures demand (catalogCursorCreate cache catalog) fun out =>
      CursorAt catalog entries 0 out.1 ∧ Free out.2 view := by
  obtain ⟨opened, data, start, cells, root, layout, same⟩ := holds
  rw [catalogCursorCreate, btreeFirst, if_pos opened]
  refine (serves.descend_leaf free root layout.firstVisit _).bind ?_
  rintro ⟨_, next⟩ ⟨rfl, free⟩
  refine Ensures.ok ⟨⟨_, rfl, rfl, rfl, ?_, fun impossible => absurd impossible Bool.false_ne_true⟩,
    free⟩
  rw [rootCursor, List.isEmpty_iff, ← length_eq_zero_iff, Nat.le_zero, length_of_stored same]

end

theorem catalogLookupLoop_leaf (serves : Serves demand Free Held)
    (holds : CatalogHolds view catalog entries) (type : CatalogEntryType) (name : List UInt8)
    {fuel : Nat} (free : Free cache view) (stands : CursorAt catalog entries number cursor)
    (bounded : entries.length ≤ number + fuel) :
    Ensures demand (catalogLookupLoop type name fuel cursor cache)
      fun out => out.1 = (entries.drop number).find? (·.isNamed type name) ∧ Free out.2 view := by
  induction fuel generalizing cache cursor number with
  | zero =>
    have finished : entries.length ≤ number := bounded
    rw [catalogLookupLoop, stands.valid, decide_eq_false (by omega),
      drop_eq_nil_of_le finished]
    exact Ensures.ok ⟨rfl, free⟩
  | succ fuel inductionHypothesis =>
    rw [catalogLookupLoop, stands.valid]
    by_cases inside : number < entries.length
    · rw [decide_eq_true inside, drop_eq_getElem_cons inside, find?_cons]
      refine (serves.catalogGet free holds stands inside).bind ?_
      rintro ⟨_, middle⟩ ⟨rfl, free⟩
      simp only [filter_some]
      cases entries[number].isNamed type name with
      | true => exact Ensures.ok ⟨rfl, free⟩
      | false =>
        refine (serves.catalogNext free holds stands inside).bind ?_
        rintro ⟨moved, next⟩ ⟨movedStands, free⟩
        exact inductionHypothesis free movedStands (by omega)
    · rw [decide_eq_false inside, drop_eq_nil_of_le (Nat.not_lt.mp inside)]
      exact Ensures.ok ⟨rfl, free⟩

/-- A lookup finds the first entry with the kind and the name. -/
theorem catalogLookup (serves : Serves demand Free Held) (free : Free cache view)
    (holds : CatalogHolds view catalog entries) (type : CatalogEntryType) (name : List UInt8) :
    Ensures demand (catalogLookupTypeName cache catalog type name) fun out =>
      out.1 = entries.find? (·.isNamed type name) ∧ Free out.2 view := by
  refine (serves.catalogCreate free holds).bind ?_
  rintro ⟨cursor, middle⟩ ⟨stands, free⟩
  exact serves.catalogLookupLoop_leaf holds _ _ free stands
    (Nat.le_trans holds.length_le (Nat.le_add_left _ _))

/-- An insertion appends the entry if it fits, unless there is one with its key. -/
theorem catalogInsert (serves : Serves demand Free Held) (free : Free cache view)
    (opened : catalog.tree.isOpen = true) (root : view catalog.tree.rootPage = some data)
    (layout : LeafLayout data start cells)
    (same : cells.map Cell.entry = entries.map CatalogEntry.stored) (entry : CatalogEntry) :
    Ensures demand (TinyDb.catalogInsert cache catalog entry) fun out =>
      (Free out.2 view ∧ (out.1 = true ↔ catalogKey entry ∈ entries.map catalogKey) ∧
        (catalogKey entry ∉ entries.map catalogKey →
          ¬LeafLayout.Fits start cells (serializeEntry entry))) ∨
        (out.1 = true ∧ catalogKey entry ∉ entries.map catalogKey ∧ ∃ new,
          Free out.2 (Function.update view catalog.tree.rootPage (some new)) ∧
          CatalogHolds (Function.update view catalog.tree.rootPage (some new)) catalog
            (entries ++ [entry])) := by
  have small : (serializeEntry entry).length ≤ pageSize := by
    rw [serializeEntry_length]
    decide
  rw [← keys_of_stored same]
  refine (serves.insert free opened root layout _ fun _ => small).mono ?_
  rintro ⟨done, next⟩ (unchanged | ⟨rfl, absent, -, new, offset, free, -, layoutNew⟩)
  · exact Or.inl unchanged
  · refine Or.inr ⟨rfl, absent, new, free, opened, new, offset, _, Function.update_self ..,
      layoutNew, ?_⟩
    rw [map_append, map_append, same]
    rfl

end Serves

end Operations

/-! ### Keys -/

/-- The entry is that of a table or of an index. -/
def CatalogEntry.Known (entry : CatalogEntry) : Prop := entry.type = .table ∨ entry.type = .index

theorem catalogKey_toNat (entry : CatalogEntry) : (catalogKey entry).toNat =
    (if entry.type = .table then 1 else 2147483648) + entry.name.bytes.length := by
  have short := entry.name.fits
  rw [catalogKey]
  split <;> simp only [UInt64.toNat_add, UInt64.toNat_ofNat', UInt64.reduceToNat] <;> omega

/-- Two entries have one key when they are of one kind and their names have one length. -/
theorem catalogKey_eq_iff {first second : CatalogEntry} (known : first.Known)
    (otherKnown : second.Known) : catalogKey first = catalogKey second ↔
      first.type = second.type ∧ first.name.bytes.length = second.name.bytes.length := by
  have short := first.name.fits
  have otherShort := second.name.fits
  rw [← UInt64.toNat_inj, catalogKey_toNat, catalogKey_toNat]
  rcases known with kind | kind <;> rcases otherKnown with otherKind | otherKind <;>
    simp only [kind, otherKind, if_true, reduceCtorEq, if_false, true_and, false_and,
      iff_false] <;> omega

theorem CatalogEntry.isNamed_iff :
    entry.isNamed type name = true ↔ entry.type = type ∧ entry.name.bytes = untilNul name := by
  rw [isNamed, Bool.and_eq_true_iff, beq_iff_eq, beq_iff_eq]

/-- The key of an entry is free when no entry of its kind has a name of the same length. -/
theorem catalogKey_notMem_iff {entries : List CatalogEntry}
    (knownEntries : ∀ other ∈ entries, other.Known) (known : entry.Known) :
    catalogKey entry ∉ entries.map catalogKey ↔
      ∀ name, (untilNul name).length = entry.name.bytes.length →
        entries.find? (·.isNamed entry.type name) = none := by
  rw [List.mem_map]
  constructor
  · intro new name length
    rw [find?_eq_none]
    intro other member named
    obtain ⟨sameType, sameName⟩ := CatalogEntry.isNamed_iff.mp named
    refine new ⟨other, member, (catalogKey_eq_iff (knownEntries _ member) known).mpr
      ⟨sameType, ?_⟩⟩
    rw [sameName, length]
  · rintro none ⟨other, member, sameKey⟩
    obtain ⟨sameType, length⟩ := (catalogKey_eq_iff (knownEntries _ member) known).mp sameKey
    have missing := none _ (by rw [CString.untilNul_bytes, length])
    refine find?_eq_none.mp missing _ member ?_
    exact CatalogEntry.isNamed_iff.mpr ⟨sameType, other.name.untilNul_bytes.symm⟩

/-! ### Catalogs from `catalog_open` -/

/-- `catalog_lookup_type_name` returns the result. -/
def FoundAs (cache : PageCache) (catalog : Catalog) (type : CatalogEntryType) (name : List UInt8)
    (result : Option CatalogEntry) : Prop :=
  ∃ next, catalogLookupTypeName cache catalog type name = .ok (result, next)

section Evaluating

variable {cache : PageCache} {catalog : Catalog} {type : CatalogEntryType} {name : List UInt8}

instance {result : Option CatalogEntry} : Decidable (FoundAs cache catalog type name result) :=
  inferInstanceAs (Decidable (∃ _, _ = _))

instance {post : CatalogEntry → Prop} [DecidablePred post] :
    Decidable (∃ entry, FoundAs cache catalog type name (some entry) ∧ post entry) :=
  decidable_of_iff (∃ entry next, catalogLookupTypeName cache catalog type name =
      .ok (some entry, next) ∧ post entry)
    ⟨fun ⟨entry, next, run, holds⟩ => ⟨entry, ⟨next, run⟩, holds⟩,
      fun ⟨entry, ⟨next, run⟩, holds⟩ => ⟨entry, next, run, holds⟩⟩

end Evaluating

/-- A table or an index is inserted or looked up, whatever the call returns. -/
inductive CatalogStep (catalog : Catalog) : PageCache → PageCache → Prop
  | insert {cache next : PageCache} {entry : CatalogEntry} {done : Bool} (known : entry.Known)
      (run : catalogInsert cache catalog entry = .ok (done, next)) : CatalogStep catalog cache next
  | lookup {cache next : PageCache} {type : CatalogEntryType} {name : List UInt8}
      {result : Option CatalogEntry}
      (run : catalogLookupTypeName cache catalog type name = .ok (result, next)) :
      CatalogStep catalog cache next

/-- The root of the catalog is served, and holds tables and indexes. -/
def CatalogServed (Free : PageCache → View → Prop) (catalog : Catalog) (cache : PageCache) : Prop :=
  ∃ view entries, Free cache view ∧ CatalogHolds view catalog entries ∧
    ∀ entry ∈ entries, entry.Known

section Sound

variable {cache next : PageCache} {view : View} {catalog : Catalog} {entries : List CatalogEntry}
  {Free : PageCache → View → Prop} {Held : PageCache → View → Addr → Prop}

theorem Serves.foundAs_iff (serves : Serves .must Free Held) (free : Free cache view)
    (holds : CatalogHolds view catalog entries) :
    FoundAs cache catalog type name result ↔ result = entries.find? (·.isNamed type name) := by
  obtain ⟨⟨_, next⟩, run, rfl, -⟩ := serves.catalogLookup free holds type name
  constructor
  · rintro ⟨_, again⟩
    exact (Prod.mk.inj (Except.ok.inj (again.symm.trans run))).1
  · rintro rfl
    exact ⟨next, run⟩

theorem foundAs_iff (resident : Resident cache view) (holds : CatalogHolds view catalog entries) :
    FoundAs cache catalog type name result ↔ result = entries.find? (·.isNamed type name) :=
  resident_serves.foundAs_iff resident holds

/-- What `catalog_open` returns, if it returns a catalog. -/
theorem catalogOpen_eq_ok :
    catalogOpen cache = .ok (some catalog, next) ↔
      ∃ tree, btreeCreate cache = .ok (some tree, next) ∧ catalog = { tree, isOpen := true } := by
  simp only [catalogOpen, bind_eq_ok]
  constructor
  · rintro ⟨⟨result, created⟩, create, run⟩
    cases result with
    | none => cases run
    | some tree =>
      obtain ⟨same, rfl⟩ := Prod.mk.inj (Except.ok.inj run)
      exact ⟨tree, create, (Option.some.inj same).symm⟩
  · rintro ⟨tree, create, rfl⟩
    exact ⟨_, create, rfl⟩

/-- A new catalog is a resident leaf without entries. -/
theorem catalogOpen_holds (usable : Usable cache) (room : cache.count < cache.maxPages)
    (opening : catalogOpen cache = .ok (some catalog, next)) :
    ∃ view, Resident next view ∧ CatalogHolds view catalog [] := by
  obtain ⟨tree, create, rfl⟩ := catalogOpen_eq_ok.mp opening
  obtain ⟨opened, view, data, resident, root, layout⟩ := btreeCreate_resident usable room create
  exact ⟨view, resident, opened, data, pageSize, [], root, layout, rfl⟩

/-- What a successful insertion does to the entries. -/
theorem CatalogHolds.insert {done : Bool} (holds : CatalogHolds view catalog entries)
    (serves : Serves .must Free Held) (free : Free cache view)
    (run : catalogInsert cache catalog entry = .ok (done, next)) :
    (Free next view ∧ (done = true → catalogKey entry ∈ entries.map catalogKey)) ∨
      (catalogKey entry ∉ entries.map catalogKey ∧
        ∃ after, Free next after ∧ CatalogHolds after catalog (entries ++ [entry])) := by
  obtain ⟨opened, data, start, cells, root, layout, same⟩ := holds
  rcases (serves.catalogInsert free opened root layout same entry).elim run with
    ⟨kept, present, -⟩ | ⟨-, absent, new, kept, holdsNew⟩
  · exact Or.inl ⟨kept, present.mp⟩
  · exact Or.inr ⟨absent, _, kept, holdsNew⟩

theorem CatalogStep.served (step : CatalogStep catalog before after)
    (serves : Serves .must Free Held) (served : CatalogServed Free catalog before) :
    CatalogServed Free catalog after := by
  obtain ⟨view, entries, free, holds, known⟩ := served
  cases step with
  | insert isKnown run =>
    rcases holds.insert serves free run with ⟨kept, -⟩ | ⟨-, next, kept, holdsNext⟩
    · exact ⟨view, entries, kept, holds, known⟩
    · refine ⟨next, _, kept, holdsNext, fun entry member => ?_⟩
      rcases mem_append.mp member with old | new
      · exact known _ old
      · exact mem_singleton.mp new ▸ isKnown
  | lookup run =>
    exact ⟨view, entries, ((serves.catalogLookup free holds _ _).elim run).2, holds, known⟩

end Sound

/-- An entry that was inserted with success is found, and nothing else changes, exactly when no
entry of its kind with a name of the same length was there. -/
theorem catalog_insert_found_iff {defaultCacheSize maxPages : Int} {pager : Option Pager}
    {cache opened current next : PageCache} {catalog : Catalog} {entry : CatalogEntry}
    (run : Relation.ReflTransGen BelowCapacity (pageCacheCreate defaultCacheSize maxPages pager)
      cache)
    (room : cache.count < cache.maxPages)
    (opening : catalogOpen cache = .ok (some catalog, opened))
    (calls : Relation.ReflTransGen (CatalogStep catalog) opened current) (known : entry.Known)
    (absent : FoundAs current catalog entry.type entry.name.bytes none)
    (insertion : catalogInsert current catalog entry = .ok (true, next)) :
    (FoundAs next catalog entry.type entry.name.bytes (some entry) ∧
      ∀ type name, ¬(type = entry.type ∧ untilNul name = entry.name.bytes) → ∀ result,
        (FoundAs next catalog type name result ↔ FoundAs current catalog type name result)) ↔
    ∀ name, (untilNul name).length = entry.name.bytes.length →
      FoundAs current catalog entry.type name none := by
  obtain ⟨first, residentFirst, holdsFirst⟩ := catalogOpen_holds (usable_of_run run) room opening
  obtain ⟨view, entries, resident, holds, knownEntries⟩ := Runs.run_invariant _
    (fun _ _ step => step.served resident_serves) calls ⟨first, [], residentFirst, holdsFirst, nofun⟩
  have missing := (foundAs_iff resident holds).mp absent
  simp only [foundAs_iff resident holds, eq_comm (a := none)]
  rw [← catalogKey_notMem_iff knownEntries known]
  rcases holds.insert resident_serves resident insertion with ⟨kept, present⟩ | ⟨new, after, kept, holdsAfter⟩
  · -- the key is taken: nothing was stored
    refine iff_of_false (fun found => ?_) (not_not.mpr (present rfl))
    rw [foundAs_iff kept holds, ← missing] at found
    cases found.1
  · -- the entry stands behind the others
    have named : entry.isNamed entry.type entry.name.bytes = true :=
      CatalogEntry.isNamed_iff.mpr ⟨rfl, entry.name.untilNul_bytes.symm⟩
    refine iff_of_true ⟨?_, fun type name different result => ?_⟩ new
    · rw [foundAs_iff kept holdsAfter, find?_append, ← missing, none_or,
        find?_singleton, if_pos named]
    · have other : ¬entry.isNamed type name = true := by
        rw [CatalogEntry.isNamed_iff]
        exact fun same => different ⟨same.1.symm, same.2.symm⟩
      rw [foundAs_iff kept holdsAfter, find?_append, find?_singleton, if_neg other,
        or_none]

/-! ### Two names of one length -/

/-- An entry fits into an empty leaf. -/
theorem LeafLayout.fits_first {data : PageData} {start : Nat} (layout : LeafLayout data start [])
    (entry : CatalogEntry) : LeafLayout.Fits start [] (serializeEntry entry) := by
  obtain rfl : start = pageSize := by
    rcases layout.lowest with ⟨-, whole⟩ | ⟨cell, member, -⟩
    · exact whole
    · cases member
  rw [LeafLayout.Fits, serializeEntry_length]
  decide

/-- The entry of a table. -/
def tableEntry (name : List UInt8) (rootPage : UInt32) : CatalogEntry where
  type := .table
  name := strncpy 63 name
  tblName := strncpy 63 name
  sql := strncpy 511 []
  rootPage
  isValid := true

/-- A table `bc` is entered after a table `a`. -/
theorem catalog_insert_found_second : ∃ pager catalog opened current next,
    catalogOpen (pageCacheCreate 256 256 (some pager)) = .ok (some catalog, opened) ∧
      catalogInsert opened catalog (tableEntry [97] 2) = .ok (true, current) ∧
      catalogInsert current catalog (tableEntry [98, 99] 3) = .ok (true, next) ∧
      FoundAs next catalog .table [98, 99] (some (tableEntry [98, 99] 3)) := by
  obtain ⟨catalog, opened, opening, current, first, next, second⟩ : ∃ catalog opened,
      catalogOpen (pageCacheCreate 256 256 (some newPager)) = .ok (some catalog, opened) ∧
        ∃ current, catalogInsert opened catalog (tableEntry [97] 2) = .ok (true, current) ∧
        ∃ next, catalogInsert current catalog (tableEntry [98, 99] 3) = .ok (true, next) := by
    decide +kernel
  obtain ⟨view, resident, holds⟩ := catalogOpen_holds (created_usable 256 256 _) (by decide) opening
  obtain ⟨-, present⟩ | ⟨-, after, kept, holdsAfter⟩ := holds.insert resident_serves resident first
  · cases present rfl
  have none (name : List UInt8) (two : (untilNul name).length = 2) :
      FoundAs current catalog .table name none := by
    refine (foundAs_iff kept holdsAfter).mpr (find?_eq_none.mpr fun entry member named => ?_).symm
    cases mem_singleton.mp member
    rw [← (CatalogEntry.isNamed_iff.mp named).2] at two
    exact absurd two (by decide)
  have found := ((catalog_insert_found_iff .refl (by decide) opening
    (.single (.insert (Or.inl rfl) first)) (Or.inl rfl) (none _ (by decide)) second).mpr
      fun name two => none _ two).1
  exact ⟨newPager, catalog, opened, current, next, opening, first, second, found⟩

/-- A table `b` is entered after a table `a`: the insertion reports success, and the lookup of `b`
finds nothing. -/
theorem second_name_of_one_length_lost : ∃ pager catalog opened current next,
    catalogOpen (pageCacheCreate 256 256 (some pager)) = .ok (some catalog, opened) ∧
      catalogInsert opened catalog (tableEntry [97] 2) = .ok (true, current) ∧
      FoundAs current catalog .table [98] none ∧
      catalogInsert current catalog (tableEntry [98] 3) = .ok (true, next) ∧
      FoundAs next catalog .table [98] none := by
  refine ⟨newPager, ?_⟩
  simp only [exists_and_left]
  decide +kernel

end TinyDb

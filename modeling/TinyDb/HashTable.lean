/-
This file proves that the hash table of the page cache finds the resident pages.

Every bucket is a doubly linked list of exactly the live pages that hash to it,
and no two live pages have the same number. The search walks one bucket and
returns the live page with the number, if there is one. Entering a new page and
taking one out keep the representation; so does everything that touches neither
the hash links nor the page numbers, above all the list of recently used pages.
Taken by itself, the table refines a finite map from numbers to pages.
-/

import TinyDb.CacheLinks

namespace TinyDb

open Heaps Chains List Option Function

variable {idx other : Nat} {heap : Heap Page} {pageId : UInt32} {change : Page → Page}

/-! ### The representation -/

/-- The number of a live page. -/
def Numbered (heap : Heap Page) (addr : Addr) (pageId : UInt32) : Prop :=
  (coreOf heap addr).map Page.id = some pageId

/-- The table holds these pages under these numbers, and no others. -/
structure Hashed (cache : PageCache) (inside : Addr → UInt32 → Prop) (bucket : Nat → List Addr) :
    Prop where
  linked : ∀ idx, Linked (link Page.hashNext cache.heap) (link Page.hashPrev cache.heap)
    (cache.pages idx) (bucket idx).getLast? (bucket idx)
  members : ∀ idx addr, addr ∈ bucket idx ↔
    ∃ pageId, inside addr pageId ∧ hashPageId pageId cache.tableSize = idx
  numbered : ∀ addr pageId, inside addr pageId → Numbered cache.heap addr pageId
  unique : ∀ first second pageId, inside first pageId → inside second pageId → first = second
  positive : 0 < cache.tableSize
  bounded : cache.tableSize < 4294967296

/-- The representation of the hash table: it holds the live pages. -/
structure HashSound (cache : PageCache) (bucket : Nat → List Addr) : Prop where
  linked : ∀ idx, Linked (link Page.hashNext cache.heap) (link Page.hashPrev cache.heap)
    (cache.pages idx) (bucket idx).getLast? (bucket idx)
  members : ∀ idx addr, addr ∈ bucket idx ↔
    ∃ page, coreOf cache.heap addr = some page ∧ hashPageId page.id cache.tableSize = idx
  unique : ∀ first second one two, coreOf cache.heap first = some one →
    coreOf cache.heap second = some two → one.id = two.id → first = second
  positive : 0 < cache.tableSize
  bounded : cache.tableSize < 4294967296

/-- A bucket index lies inside the table. -/
theorem hashPageId_lt (pageId : UInt32) {tableSize : Nat} (positive : 0 < tableSize)
    (bounded : tableSize < 4294967296) : hashPageId pageId tableSize < tableSize := by
  have mask : (UInt32.ofNat tableSize - 1).toNat = tableSize - 1 := by
    have size : (UInt32.ofNat tableSize).toNat = tableSize := UInt32.toNat_ofNat_of_lt' bounded
    have one : (1 : UInt32) ≤ UInt32.ofNat tableSize := by
      rw [UInt32.le_iff_toNat_le, size]
      exact positive
    rw [UInt32.toNat_sub_of_le _ _ one, size]
    rfl
  rw [hashPageId, UInt32.toNat_and, mask]
  exact Nat.lt_of_le_of_lt Nat.and_le_right (Nat.sub_lt positive Nat.one_pos)

section Representation

variable {cache next : PageCache} {bucket : Nat → List Addr} {addr : Addr} {page : Page}

section

variable (sound : HashSound cache bucket)
include sound

theorem HashSound.live (member : addr ∈ bucket idx) :
    cache.heap.Live addr := by
  obtain ⟨page, found, -⟩ := (sound.members idx _).mp member
  exact live_of_coreOf found

theorem HashSound.mem_bucket
    (found : coreOf cache.heap addr = some page) :
    addr ∈ bucket (hashPageId page.id cache.tableSize) :=
  (sound.members _ _).mpr ⟨page, found, rfl⟩

/-- A page lies in one bucket only. -/
theorem HashSound.bucket_eq
    (found : coreOf cache.heap addr = some page) (member : addr ∈ bucket idx) :
    hashPageId page.id cache.tableSize = idx := by
  obtain ⟨other, foundOther, same⟩ := (sound.members idx _).mp member
  rw [found] at foundOther
  cases foundOther
  exact same

theorem HashSound.same_bucket (member : addr ∈ bucket idx)
    (again : addr ∈ bucket other) : idx = other := by
  obtain ⟨page, found, rfl⟩ := (sound.members idx _).mp member
  exact sound.bucket_eq found again

end

/-- The buckets hold every resident page once. -/
theorem HashSound.residents (hash : HashSound cache bucket) :
    ((List.range cache.tableSize).flatMap bucket).Nodup ∧
      ∀ addr, addr ∈ (List.range cache.tableSize).flatMap bucket ↔ cache.heap.Live addr := by
  constructor
  · refine nodup_flatMap.mpr ⟨fun idx _ => (hash.linked idx).nodup, ?_⟩
    refine nodup_range.imp fun different addr inFirst inSecond => ?_
    exact different (hash.same_bucket inFirst inSecond)
  · intro addr
    constructor
    · intro member
      obtain ⟨idx, -, inBucket⟩ := mem_flatMap.mp member
      exact hash.live inBucket
    · intro live
      obtain ⟨read, found⟩ := Heap.live_iff.mp live
      refine mem_flatMap.mpr ⟨_, ?_, hash.mem_bucket (coreOf_of_cell found)⟩
      exact mem_range.mpr (hashPageId_lt _ hash.positive hash.bounded)

theorem numbered_iff :
    Numbered heap addr pageId ↔ ∃ page, coreOf heap addr = some page ∧ page.id = pageId :=
  map_eq_some_iff

/-- The numbers with a new page. -/
theorem numbered_alloc {after : Heap Page} {other : Addr} (dead : ¬heap.Live addr)
    (core : coreOf after = Function.update (coreOf heap) addr (some page)) :
    Numbered after other pageId ↔ other = addr ∧ pageId = page.id ∨ Numbered heap other pageId := by
  rw [Numbered, Numbered, core]
  by_cases same : other = addr
  · rw [live_iff_coreOf, not_isSome_iff_eq_none] at dead
    simp [same, dead, eq_comm]
  · simp [same]

theorem hashSound_iff : HashSound cache bucket ↔ Hashed cache (Numbered cache.heap) bucket := by
  constructor
  · intro sound
    refine ⟨sound.linked, fun idx addr => ?_, fun _ _ => id, fun first second pageId one two => ?_,
      sound.positive, sound.bounded⟩
    · rw [sound.members]
      simp [numbered_iff]
    · obtain ⟨read, foundRead, rfl⟩ := numbered_iff.mp one
      obtain ⟨other, foundOther, same⟩ := numbered_iff.mp two
      exact sound.unique _ _ _ _ foundRead foundOther same.symm
  · intro hashed
    refine ⟨hashed.linked, fun idx addr => ?_, fun first second one two foundOne foundTwo same => ?_,
      hashed.positive, hashed.bounded⟩
    · rw [hashed.members]
      simp [numbered_iff]
    · exact hashed.unique _ _ _ (numbered_iff.mpr ⟨one, foundOne, same⟩)
        (numbered_iff.mpr ⟨two, foundTwo, rfl⟩)

/-- What touches neither hash links nor the numbers of the pages keeps the table. -/
theorem Hashed.frame {inside now : Addr → UInt32 → Prop} (hashed : Hashed cache inside bucket)
    (hashNext : link Page.hashNext next.heap = link Page.hashNext cache.heap)
    (hashPrev : link Page.hashPrev next.heap = link Page.hashPrev cache.heap)
    (pages : next.pages = cache.pages) (tableSize : next.tableSize = cache.tableSize)
    (same : ∀ addr pageId, now addr pageId ↔ inside addr pageId)
    (numbered : ∀ addr pageId, now addr pageId → Numbered next.heap addr pageId) :
    Hashed next now bucket := by
  obtain rfl : now = inside := funext₂ fun addr pageId => propext (same _ _)
  refine ⟨fun idx => ?_, ?_, numbered, hashed.unique, tableSize ▸ hashed.positive,
    tableSize ▸ hashed.bounded⟩
  · rw [hashNext, hashPrev, pages]
    exact hashed.linked idx
  · rw [tableSize]
    exact hashed.members

theorem HashSound.frame (sound : HashSound cache bucket)
    (hashNext : link Page.hashNext next.heap = link Page.hashNext cache.heap)
    (hashPrev : link Page.hashPrev next.heap = link Page.hashPrev cache.heap)
    (ids : ∀ addr, (coreOf next.heap addr).map Page.id = (coreOf cache.heap addr).map Page.id)
    (pages : next.pages = cache.pages) (tableSize : next.tableSize = cache.tableSize) :
    HashSound next bucket :=
  hashSound_iff.mpr ((hashSound_iff.mp sound).frame hashNext hashPrev pages tableSize
    (fun addr pageId => by rw [Numbered, Numbered, ids]) fun _ _ => id)

end Representation

/-! ### The same shape -/

/-- Where a page hangs. -/
structure PagePlace where
  id : UInt32
  lruNext : Option Addr
  lruPrev : Option Addr
  hashNext : Option Addr
  hashPrev : Option Addr

/-- The number and the links of a page. -/
def Page.place (page : Page) : PagePlace :=
  ⟨page.id, page.lruNext, page.lruPrev, page.hashNext, page.hashPrev⟩

/-- The same pages hang in the same places. -/
structure SameShape (cache next : PageCache) : Prop where
  places : ∀ addr, (next.heap.cell addr).map Page.place = (cache.heap.cell addr).map Page.place
  rest : next = { cache with
    heap := next.heap
    pager := next.pager
    missCount := next.missCount }

section Shapes

variable {cache next : PageCache} {bucket : Nat → List Addr} {addr : Addr} {page : Page}

section

variable (same : SameShape cache next)
include same

theorem SameShape.link_eq {field : Page → Option Addr}
    (project : PagePlace → Option Addr) (is : ∀ page, field page = project page.place) :
    link field next.heap = link field cache.heap := by
  have through : ∀ heap addr, link field heap addr =
      ((heap.cell addr).map Page.place).bind project := by
    intro heap addr
    rw [link]
    cases heap.cell addr with
    | none => rfl
    | some page => exact is _
  funext addr
  rw [through, through, same.places]

theorem SameShape.lruNext :
    link Page.lruNext next.heap = link Page.lruNext cache.heap :=
  same.link_eq PagePlace.lruNext fun _ => rfl

theorem SameShape.lruPrev :
    link Page.lruPrev next.heap = link Page.lruPrev cache.heap :=
  same.link_eq PagePlace.lruPrev fun _ => rfl

theorem SameShape.ids (addr : Addr) :
    (coreOf next.heap addr).map Page.id = (coreOf cache.heap addr).map Page.id := by
  have through : ∀ heap addr, (coreOf heap addr).map Page.id =
      ((heap.cell addr).map Page.place).map PagePlace.id := by
    intro heap addr
    rw [coreOf]
    cases heap.cell addr <;> rfl
  rw [through, through, same.places]

theorem SameShape.live_iff (addr : Addr) :
    next.heap.Live addr ↔ cache.heap.Live addr := by
  rw [Heap.Live, Heap.Live, ← isSome_map, same.places, isSome_map]

end

theorem SameShape.of_links
    (lruNext : link Page.lruNext next.heap = link Page.lruNext cache.heap)
    (lruPrev : link Page.lruPrev next.heap = link Page.lruPrev cache.heap)
    (hashNext : link Page.hashNext next.heap = link Page.hashNext cache.heap)
    (hashPrev : link Page.hashPrev next.heap = link Page.hashPrev cache.heap)
    (ids : ∀ addr, (coreOf next.heap addr).map Page.id = (coreOf cache.heap addr).map Page.id)
    (rest : next = { cache with heap := next.heap, pager := next.pager }) :
    SameShape cache next := by
  refine ⟨fun addr => ?_, by rw [rest]⟩
  have id := ids addr
  cases before : cache.heap.cell addr with
  | none =>
    rw [coreOf, coreOf, before] at id
    cases after : next.heap.cell addr with
    | none => rfl
    | some page =>
      rw [after] at id
      cases id
  | some page =>
    cases after : next.heap.cell addr with
    | none =>
      rw [coreOf, coreOf, before, after] at id
      cases id
    | some read =>
      rw [coreOf_of_cell before, coreOf_of_cell after] at id
      have number : read.id = page.id := Option.some.inj id
      rw [map_some, map_some, Page.place, Page.place, number,
        ← link_of_cell after Page.lruNext, ← link_of_cell after Page.lruPrev,
        ← link_of_cell after Page.hashNext, ← link_of_cell after Page.hashPrev, lruNext, lruPrev,
        hashNext, hashPrev, link_of_cell before, link_of_cell before, link_of_cell before,
        link_of_cell before]

/-- An assignment that keeps the links and the number of the page. -/
theorem SameShape.update (run : cache.update addr change = .ok next)
    (kept : ∀ read, (change read).place = read.place) : SameShape cache next := by
  obtain ⟨-, rest, -⟩ := update_rest run
  have whole := update_bind run fun read => some read.place
  simp only [kept, update_eq_self] at whole
  refine ⟨fun other => ?_, by rw [rest]⟩
  rw [map_eq_bind, map_eq_bind]
  exact congrFun whole _

theorem SameShape.missed (cache : PageCache) :
    SameShape cache { cache with missCount := cache.missCount + 1 } := ⟨fun _ => rfl, rfl⟩

theorem SameShape.attach (cache : PageCache) (pager : Option Pager) :
    SameShape cache { cache with pager } := ⟨fun _ => rfl, rfl⟩

section

variable (sound : HashSound cache bucket)
include sound

theorem HashSound.sameShape (same : SameShape cache next) :
    HashSound next bucket :=
  sound.frame (same.link_eq PagePlace.hashNext fun _ => rfl)
    (same.link_eq PagePlace.hashPrev fun _ => rfl) same.ids (by rw [same.rest])
    (by rw [same.rest])

/-- An assignment that keeps the links and the number of the page. -/
theorem HashSound.update
    (run : cache.update addr change = .ok next) (kept : ∀ read, (change read).place = read.place) :
    HashSound next bucket :=
  sound.sameShape (.update run kept)

theorem HashSound.missed :
    HashSound { cache with missCount := cache.missCount + 1 } bucket := sound.sameShape (.missed _)

theorem HashSound.attach (pager : Option Pager) :
    HashSound { cache with pager } bucket := sound.sameShape (.attach _ _)

end

/-! ### Search -/

/-- The walk along a chain of live pages returns the first page with the number. -/
theorem hashFindLoop_chain (pageId : UInt32) {fuel : Nat} {start : Option Addr}
    {visited : List Addr} (chain : Chain (link Page.hashNext heap) start visited)
    (live : ∀ addr ∈ visited, heap.Live addr) (enough : visited.length ≤ fuel) :
    (∃ addr ∈ visited, ∃ page, coreOf heap addr = some page ∧ page.id = pageId ∧
      hashFindLoop heap pageId fuel start = .ok (some addr)) ∨
    ((∀ addr ∈ visited, ∀ page, coreOf heap addr = some page → page.id ≠ pageId) ∧
      hashFindLoop heap pageId fuel start = .ok none) := by
  induction chain generalizing fuel with
  | stop => exact Or.inr ⟨nofun, by rw [hashFindLoop]; rfl⟩
  | visit addr rest tail inductionHypothesis =>
    obtain ⟨fuel, rfl⟩ : ∃ less, fuel = less + 1 :=
      Nat.exists_eq_add_one_of_ne_zero (by simp at enough; omega)
    obtain ⟨page, found⟩ := Heap.live_iff.mp (live _ mem_cons_self)
    have core := coreOf_of_cell found
    rw [link_of_cell found] at inductionHypothesis
    rw [hashFindLoop, Heap.load_eq_ok.mpr found, ok_bind]
    by_cases same : page.id = pageId
    · rw [if_pos same]
      exact Or.inl ⟨addr, mem_cons_self, page.core, core, same, rfl⟩
    · rw [if_neg same]
      have rest := inductionHypothesis
        (fun other member => live _ (mem_cons_of_mem _ member))
        (Nat.le_of_succ_le_succ enough)
      rcases rest with ⟨other, member, present⟩ | ⟨absent, run⟩
      · exact Or.inl ⟨other, mem_cons_of_mem _ member, present⟩
      · refine Or.inr ⟨fun other member read foundOther => ?_, run⟩
        rcases mem_cons.mp member with rfl | member
        · rw [core] at foundOther
          rw [← Option.some.inj foundOther]
          exact same
        · exact absent _ member _ foundOther

/-- A page on the chain of a bucket is live. -/
theorem Hashed.live {inside : Addr → UInt32 → Prop} (hashed : Hashed cache inside bucket)
    (member : addr ∈ bucket idx) : cache.heap.Live addr := by
  obtain ⟨pageId, within, -⟩ := (hashed.members idx _).mp member
  obtain ⟨page, found, -⟩ := numbered_iff.mp (hashed.numbered _ _ within)
  exact live_of_coreOf found

/-- `hash_find` returns the page in the table with the number, and `NULL` if there is none. -/
theorem Hashed.find {inside : Addr → UInt32 → Prop} (hashed : Hashed cache inside bucket)
    (pageId : UInt32) :
    (∃ addr, inside addr pageId ∧ hashFind cache pageId = .ok (some addr)) ∨
      ((∀ addr, ¬inside addr pageId) ∧ hashFind cache pageId = .ok none) := by
  have linked := hashed.linked (hashPageId pageId cache.tableSize)
  have live : ∀ addr ∈ bucket (hashPageId pageId cache.tableSize), cache.heap.Live addr :=
    fun _ member => hashed.live member
  have walk := hashFindLoop_chain pageId linked.chain live (Heap.length_le_next linked.nodup live)
  rcases walk with ⟨addr, member, page, found, rfl, run⟩ | ⟨absent, run⟩
  · obtain ⟨other, within, -⟩ := (hashed.members _ _).mp member
    have number := hashed.numbered _ _ within
    rw [Numbered, found] at number
    cases number
    exact .inl ⟨addr, within, run⟩
  · refine .inr ⟨fun addr within => ?_, run⟩
    obtain ⟨page, found, same⟩ := numbered_iff.mp (hashed.numbered _ _ within)
    exact absent _ ((hashed.members _ _).mpr ⟨pageId, within, rfl⟩) _ found same

section

variable (sound : HashSound cache bucket)
include sound

/-- `hash_find` returns the live page with the number, and `NULL` if there is none. -/
theorem HashSound.find (pageId : UInt32) :
    (∃ addr page, coreOf cache.heap addr = some page ∧ page.id = pageId ∧
      hashFind cache pageId = .ok (some addr)) ∨
    ((∀ addr page, coreOf cache.heap addr = some page → page.id ≠ pageId) ∧
      hashFind cache pageId = .ok none) := by
  rcases (hashSound_iff.mp sound).find pageId with ⟨addr, number, run⟩ | ⟨absent, run⟩
  · obtain ⟨page, found, same⟩ := numbered_iff.mp number
    exact .inl ⟨addr, page, found, same, run⟩
  · exact .inr ⟨fun addr page found same => absent _ (numbered_iff.mpr ⟨page, found, same⟩), run⟩

theorem HashSound.find_some
    (search : hashFind cache pageId = .ok (some addr)) :
    ∃ page, coreOf cache.heap addr = some page ∧ page.id = pageId := by
  rcases sound.find pageId with ⟨other, page, found, same, run⟩ | ⟨-, run⟩
  · rw [search] at run
    cases (Except.ok.inj run)
    exact ⟨page, found, same⟩
  · rw [search] at run
    cases run

theorem HashSound.find_none
    (search : hashFind cache pageId = .ok none) :
    ∀ addr page, coreOf cache.heap addr = some page → page.id ≠ pageId := by
  rcases sound.find pageId with ⟨_, _, _, _, run⟩ | ⟨absent, -⟩
  · rw [search] at run
    cases run
  · exact absent

/-- The live pages are the pages the search can find. -/
theorem HashSound.live_iff_find :
    cache.heap.Live addr ↔ ∃ pageId, hashFind cache pageId = .ok (some addr) := by
  rw [live_iff_coreOf, isSome_iff_exists]
  constructor
  · rintro ⟨page, found⟩
    refine ⟨page.id, ?_⟩
    rcases sound.find page.id with ⟨other, read, foundOther, same, run⟩ | ⟨absent, -⟩
    · rw [sound.unique _ _ _ _ found foundOther same.symm, run]
    · exact absurd rfl (absent _ _ found)
  · rintro ⟨pageId, search⟩
    obtain ⟨page, found, -⟩ := sound.find_some search
    exact ⟨page, found⟩

end

/-! ### Entering and taking out -/

section Table

variable {inside : Addr → UInt32 → Prop} {pageId : UInt32}

/-- A page lies in one bucket only. -/
theorem Hashed.same_bucket (hashed : Hashed cache inside bucket) (member : addr ∈ bucket idx)
    (again : addr ∈ bucket other) : idx = other := by
  obtain ⟨pageId, within, rfl⟩ := (hashed.members idx _).mp member
  obtain ⟨number, withinAgain, rfl⟩ := (hashed.members _ _).mp again
  have same := (hashed.numbered _ _ within).symm.trans (hashed.numbered _ _ withinAgain)
  rw [Option.some.inj same]

/-- Entering a live page whose number is new. -/
theorem Hashed.insert (hashed : Hashed cache inside bucket)
    (number : Numbered cache.heap addr pageId) (fresh : ∀ other, ¬inside other pageId)
    (inserted : HashInserted cache next addr (hashPageId pageId cache.tableSize)) :
    Hashed next (fun other otherId => other = addr ∧ otherId = pageId ∨ inside other otherId)
      (Function.update bucket (hashPageId pageId cache.tableSize)
        (addr :: bucket (hashPageId pageId cache.tableSize))) := by
  have notMember : ∀ idx, addr ∉ bucket idx := fun idx member => by
    obtain ⟨other, within, -⟩ := (hashed.members idx _).mp member
    have same := (hashed.numbered _ _ within).symm.trans number
    exact fresh _ (Option.some.inj same ▸ within)
  have pages : next.pages = Function.update cache.pages (hashPageId pageId cache.tableSize)
      (some addr) := by
    rw [inserted.rest]
  have size : next.tableSize = cache.tableSize := by rw [inserted.rest]
  refine ⟨fun idx => ?_, fun idx other => ?_, ?_, ?_, size ▸ hashed.positive, size ▸ hashed.bounded⟩
  · rw [pages, inserted.hashNext, inserted.hashPrev]
    by_cases here : idx = hashPageId pageId cache.tableSize
    · subst here
      rw [update_self, update_self]
      exact ((hashed.linked _).pushed (notMember _)).last_eq
    · rw [update_of_ne here, update_of_ne here]
      refine (hashed.linked idx).congr (fun other member => ?_) fun other member => ?_
      · exact update_of_ne (fun same => notMember _ (same ▸ member)) _ _
      · rw [setAt_of_ne, update_of_ne fun same => notMember _ (same ▸ member)]
        intro head
        exact here (hashed.same_bucket member ((hashed.linked _).head_mem head))
  · rw [size]
    by_cases here : idx = hashPageId pageId cache.tableSize
    · subst here
      rw [update_self, mem_cons, hashed.members]
      simp [or_and_right, exists_or, and_assoc]
    · rw [update_of_ne here, hashed.members]
      simp [or_and_right, exists_or, and_assoc, Ne.symm here]
  · rintro other otherId (⟨rfl, rfl⟩ | within)
    · rw [Numbered, inserted.core]
      exact number
    · rw [Numbered, inserted.core]
      exact hashed.numbered _ _ within
  · rintro first second otherId (⟨isFirst, rfl⟩ | one) (⟨isSecond, same⟩ | two)
    · rw [isFirst, isSecond]
    · exact absurd two (fresh _)
    · exact absurd (same ▸ one) (fresh _)
    · exact hashed.unique _ _ _ one two

/-- Taking a page out. -/
theorem Hashed.remove (hashed : Hashed cache inside bucket) (within : inside addr pageId)
    (removed : HashRemoved cache next addr (hashPageId pageId cache.tableSize)) :
    Hashed next (fun other otherId => other ≠ addr ∧ inside other otherId)
      fun idx => (bucket idx).erase addr := by
  have size : next.tableSize = cache.tableSize := by rw [removed.rest]
  have pages : next.pages = if link Page.hashPrev cache.heap addr = none then
      Function.update cache.pages (hashPageId pageId cache.tableSize)
        (link Page.hashNext cache.heap addr)
      else cache.pages := by
    rw [removed.rest]
  have here := hashed.linked (hashPageId pageId cache.tableSize)
  have member := (hashed.members _ _).mpr ⟨pageId, within, rfl⟩
  refine ⟨fun idx => ?_, fun idx other => ?_, fun other otherId later => ?_,
    fun first second otherId one two => hashed.unique _ _ _ one.2 two.2,
    size ▸ hashed.positive, size ▸ hashed.bounded⟩
  · rw [pages, removed.hashNext, removed.hashPrev]
    by_cases same : idx = hashPageId pageId cache.tableSize
    · subst same
      have unlinked := (here.unlinked member).last_eq
      by_cases first : link Page.hashPrev cache.heap addr = none
      · simp only [first, if_true, update_self] at unlinked ⊢
        exact unlinked
      · simp only [first] at unlinked ⊢
        exact unlinked
    · have notMember : addr ∉ bucket idx := fun other => same (hashed.same_bucket other member)
      have pagesSame : next.pages idx = cache.pages idx := by
        rw [pages]
        split
        · exact update_of_ne same _ _
        · rfl
      rw [erase_of_not_mem notMember, ← pages, pagesSame]
      have apart : ∀ {other}, other ∈ bucket idx → other ≠ addr := by
        rintro other inside rfl
        exact notMember inside
      refine (hashed.linked idx).congr (fun other inside => ?_) fun other inside => ?_
      · exact unlink_of_ne (apart inside) fun prev =>
          same (hashed.same_bucket inside (here.prev_mem member prev))
      · exact unlink_of_ne (apart inside) fun next =>
          same (hashed.same_bucket inside (here.next_mem member next))
  · rw [(hashed.linked idx).nodup.mem_erase_iff, hashed.members, size]
    simp only [and_assoc, exists_and_left]
  · rw [Numbered, removed.core]
    exact hashed.numbered _ _ later.2

end Table

end Shapes

/-! ### The table as a map -/

/-- A call of the table's own operations. -/
inductive TableCall
  | insert (page : Addr)
  | remove (page : Addr)

/-- What the call does to the cache. -/
def TableCall.run (cache : PageCache) : TableCall → Except Fault PageCache
  | .insert page => hashInsert cache page
  | .remove page => hashRemove cache page

/-- The number of the page object at an address. -/
def numberOf (heap : Heap Page) (addr : Addr) : Option UInt32 := (coreOf heap addr).map Page.id

/-- What the call does to a map from numbers to pages. The page to enter has a number that is not
taken, and the page to take out is in the map. -/
def TableCall.apply (number : Addr → Option UInt32) (map : UInt32 → Option Addr) :
    TableCall → Option (UInt32 → Option Addr)
  | .insert page => do
    let pageId ← number page
    if map pageId = none then some (Function.update map pageId (some page)) else none
  | .remove page => do
    let pageId ← number page
    if map pageId = some page then some (Function.update map pageId none) else none

theorem growTable_bounds (maxPages : Int) (fuel tableSize : Nat) (positive : 0 < tableSize)
    (bounded : tableSize < 262144) (limit : maxPages ≤ pagerMaxPages) :
    0 < growTable maxPages fuel tableSize ∧ growTable maxPages fuel tableSize < 262144 := by
  induction fuel generalizing tableSize with
  | zero => exact ⟨positive, bounded⟩
  | succ fuel inductionHypothesis =>
    rw [growTable]
    split
    · rename_i less
      rw [pagerMaxPages] at limit
      exact inductionHypothesis _ (by omega) (by omega)
    · exact ⟨positive, bounded⟩

theorem clampMaxPages_le (defaultCacheSize maxPages : Int) :
    clampMaxPages defaultCacheSize maxPages ≤ pagerMaxPages := by
  unfold clampMaxPages
  generalize (if maxPages ≤ 0 then defaultCacheSize else maxPages) = size
  simp only
  split
  · exact Int.le_refl _
  · rename_i small
    exact Int.not_lt.mp small

/-- The table starts with sixteen buckets and is only ever doubled. -/
theorem growTable_power (maxPages : Int) (fuel exponent : Nat) :
    ∃ larger, growTable maxPages fuel (2 ^ exponent) = 2 ^ larger := by
  induction fuel generalizing exponent with
  | zero => exact ⟨exponent, rfl⟩
  | succ fuel inductionHypothesis =>
    rw [growTable]
    split
    · exact inductionHypothesis (exponent + 1)
    · exact ⟨exponent, rfl⟩

section Refinement

variable {cache : PageCache} {bucket : Nat → List Addr} {map after : UInt32 → Option Addr}

theorem Hashed.congr {inside now : Addr → UInt32 → Prop} (hashed : Hashed cache inside bucket)
    (same : ∀ addr pageId, now addr pageId ↔ inside addr pageId) : Hashed cache now bucket :=
  hashed.frame rfl rfl rfl rfl same fun _ _ within =>
    hashed.numbered _ _ ((same _ _).mp within)

/-- One call on the table does what it does on the map. -/
theorem TableCall.run_refines (call : TableCall)
    (hashed : Hashed cache (fun addr pageId => map pageId = some addr) bucket)
    (allowed : call.apply (numberOf cache.heap) map = some after) :
    ∃ next buckets, call.run cache = .ok next ∧
      Hashed next (fun addr pageId => after pageId = some addr) buckets ∧
      coreOf next.heap = coreOf cache.heap ∧ next.tableSize = cache.tableSize := by
  cases call with
  | insert page =>
    obtain ⟨pageId, number, entered⟩ := bind_eq_some_iff.mp allowed
    obtain ⟨free, ⟨⟩⟩ := ite_none_right_eq_some.mp entered
    obtain ⟨read, found, rfl⟩ := map_eq_some_iff.mp number
    obtain ⟨next, run, inserted⟩ : Ensures .must _ _ := hashInsert_ensures found
      fun _ addr head => hashed.live ((hashed.linked _).head_mem head)
    have fresh : ∀ other, ¬map read.id = some other := fun other taken => by
      rw [free] at taken
      cases taken
    have table := hashed.insert number fresh inserted
    have same : ∀ addr pageId, Function.update map read.id (some page) pageId = some addr ↔
        addr = page ∧ pageId = read.id ∨ map pageId = some addr := by
      intro addr pageId
      by_cases here : pageId = read.id
      · simp [here, free, eq_comm]
      · simp [here]
    exact ⟨next, _, run, table.congr same, inserted.core, by rw [inserted.rest]⟩
  | remove page =>
    obtain ⟨pageId, number, taken⟩ := bind_eq_some_iff.mp allowed
    obtain ⟨within, ⟨⟩⟩ := ite_none_right_eq_some.mp taken
    obtain ⟨read, found, rfl⟩ := map_eq_some_iff.mp number
    have chain := hashed.linked (hashPageId read.id cache.tableSize)
    have member := (hashed.members _ _).mpr ⟨read.id, within, rfl⟩
    obtain ⟨next, run, removed⟩ : Ensures .must _ _ := hashRemove_ensures found fun _ =>
      ⟨fun addr before => hashed.live (chain.prev_mem member before),
        fun addr behind => hashed.live (chain.next_mem member behind)⟩
    have table := hashed.remove within removed
    have same : ∀ addr pageId, Function.update map read.id none pageId = some addr ↔
        addr ≠ page ∧ map pageId = some addr := by
      intro addr pageId
      by_cases here : pageId = read.id
      · simp [here, within, eq_comm]
      · rw [update_of_ne here]
        refine ⟨fun later => ⟨?_, later⟩, And.right⟩
        rintro rfl
        have numberAgain := (hashed.numbered _ _ later).symm.trans number
        exact here (Option.some.inj numberAgain)
    exact ⟨next, _, run, table.congr same, removed.core, by rw [removed.rest]⟩

/-- A run of calls on the table does what it does on the map. -/
theorem runCalls_refines (calls : List TableCall)
    (hashed : Hashed cache (fun addr pageId => map pageId = some addr) bucket)
    (allowed : calls.foldlM (TableCall.apply (numberOf cache.heap)) map = some after) :
    ∃ next buckets, calls.foldlM TableCall.run cache = .ok next ∧
      Hashed next (fun addr pageId => after pageId = some addr) buckets ∧
      next.tableSize = cache.tableSize := by
  induction calls generalizing cache bucket map with
  | nil =>
    cases allowed
    exact ⟨cache, bucket, rfl, hashed, rfl⟩
  | cons call calls inductionHypothesis =>
    rw [foldlM_cons] at allowed
    obtain ⟨middle, first, others⟩ := bind_eq_some_iff.mp allowed
    obtain ⟨one, buckets, run, hashedOne, core, size⟩ := call.run_refines hashed first
    have numbers : numberOf one.heap = numberOf cache.heap := by
      funext addr
      rw [numberOf, numberOf, core]
    rw [← numbers] at others
    obtain ⟨next, last, runs, hashedNext, sizeNext⟩ := inductionHypothesis hashedOne others
    exact ⟨next, last, by rw [foldlM_cons, run, ok_bind, runs], hashedNext, sizeNext.trans size⟩

end Refinement

/-- The hash table is a finite map. Page objects with any links are entered and taken out in any
order, as long as the number of an entered page is not in the table and a page taken out is. -/
theorem hash_table_refines_map (defaultCacheSize maxPages : Int) (pager : Option Pager)
    (heap : Heap Page) (calls : List TableCall) {map : UInt32 → Option Addr}
    (allowed : calls.foldlM (TableCall.apply (numberOf heap)) (fun _ => none) = some map) :
    ∃ (cache : PageCache) (bucket : Nat → List Addr), calls.foldlM TableCall.run
        { pageCacheCreate defaultCacheSize maxPages pager with heap } = .ok cache ∧
      (∃ exponent, cache.tableSize = 2 ^ exponent) ∧
      (∀ pageId, hashPageId pageId cache.tableSize < cache.tableSize) ∧
      (∀ idx, Linked (link Page.hashNext cache.heap) (link Page.hashPrev cache.heap)
        (cache.pages idx) (bucket idx).getLast? (bucket idx)) ∧
      (∀ pageId addr, map pageId = some addr →
        ∀ idx, addr ∈ bucket idx ↔ idx = hashPageId pageId cache.tableSize) ∧
      (∀ idx addr, addr ∈ bucket idx → ∃ pageId, map pageId = some addr) ∧
      ∀ pageId, hashFind cache pageId = .ok (map pageId) := by
  have bounds := growTable_bounds (clampMaxPages defaultCacheSize maxPages) 31 16 (by decide)
    (by decide) (clampMaxPages_le _ _)
  have empty : Hashed { pageCacheCreate defaultCacheSize maxPages pager with heap }
      (fun addr _ => none = some addr) fun _ => [] :=
    ⟨fun _ => .nil, by simp, nofun, nofun, bounds.1, Nat.lt_trans bounds.2 (by decide)⟩
  obtain ⟨cache, bucket, run, hashed, size⟩ := runCalls_refines _ empty allowed
  refine ⟨cache, bucket, run, ?_, fun pageId => hashPageId_lt _ hashed.positive hashed.bounded,
    hashed.linked, fun pageId addr within idx => ⟨fun member => ?_, ?_⟩, fun idx addr member => ?_,
    fun pageId => ?_⟩
  · rw [size]
    exact growTable_power _ 31 4
  · exact hashed.same_bucket member ((hashed.members _ _).mpr ⟨pageId, within, rfl⟩)
  · rintro rfl
    exact (hashed.members _ _).mpr ⟨pageId, within, rfl⟩
  · obtain ⟨pageId, within, -⟩ := (hashed.members idx _).mp member
    exact ⟨pageId, within⟩
  · rcases hashed.find pageId with ⟨addr, within, search⟩ | ⟨absent, search⟩
    · rw [search, within]
    · rw [search, eq_none_iff_forall_ne_some.mpr absent]

/-- Two pages in one bucket: the first one entered, which is last on the chain, is taken out. -/
theorem hash_table_refines_map_colliding :
    ∃ cache, [TableCall.insert 0, .insert 1, .remove 0].foldlM TableCall.run
        { pageCacheCreate 256 4 none with
          heap := (Heap.empty.alloc (pageAlloc 1)).alloc (pageAlloc 17) } = .ok cache ∧
      hashFind cache 1 = .ok none ∧ hashFind cache 17 = .ok (some 1) := by
  obtain ⟨cache, bucket, run, -, -, -, -, -, find⟩ := hash_table_refines_map 256 4 _
    ((Heap.empty.alloc (pageAlloc 1)).alloc (pageAlloc 17))
    [TableCall.insert 0, .insert 1, .remove 0] rfl
  exact ⟨cache, run, find 1, find 17⟩

end TinyDb

/-
This file describes the bytes of a leaf and what the tree operations do to them.

A leaf is laid out when its header, its pointer array and its cells are where the
header and the pointers say, no two cells overlap, and the cells start above the
pointers. A cell is the size of the payload, the size of the key, the key and the
value. On a laid out page every read of the tree operations stays inside the page
and finds what was stored, and an insertion that fits leaves the page laid out,
with one cell more: its pointer goes behind the other pointers and its cell right
below the other cells, so that nothing that was there is touched.
-/

import TinyDb.BTree
import TinyDb.Lib.Ensures

namespace TinyDb

open Heaps Bytes List

variable {header : BTreeNodeHeader}

section Words

variable {data : PageData} {offset : Nat}

/-! ### Words in a page -/

theorem readU16_of_stands {value : UInt16} (stands : Stands data offset (bytes16 value)) :
    readU16 data offset = .ok value := by
  obtain ⟨high, low⟩ := stands_cons.mp stands
  rw [readU16, high.load, ok_bind, low.load, ok_bind]
  exact congrArg _ (join16 _)

theorem readU32_of_stands {value : UInt32} (stands : Stands data offset (bytes32 value)) :
    readU32 data offset = .ok value := by
  obtain ⟨first, rest⟩ := stands_cons.mp stands
  obtain ⟨second, rest⟩ := stands_cons.mp rest
  obtain ⟨third, fourth⟩ := stands_cons.mp rest
  rw [readU32, first.load, ok_bind, second.load, ok_bind, third.load, ok_bind, fourth.load, ok_bind]
  exact congrArg _ (join32 _)

theorem readKey_of_stands {key : UInt64} (stands : Stands data offset (native64 key)) :
    readKey data offset = .ok key := by
  have load : loadBytes data offset 8 = .ok (native64 key) := stands.loadBytes
  rw [readKey, load, ok_bind, pure_eq_ok, native64,
    littleEndianValue_littleEndian_of_lt key.toNat_lt, UInt64.ofNat_toNat]

theorem writeU16_eq (data : PageData) (offset : Nat) (value : UInt16) :
    writeU16 data offset value = storeBytes data offset (bytes16 value) := by
  rw [writeU16, bytes16_eq]

theorem writeU32_eq (data : PageData) (offset : Nat) (value : UInt32) :
    writeU32 data offset value = storeBytes data offset (bytes32 value) := by
  rw [writeU32, bytes32_eq]

/-- The first bytes of a node. -/
def BTreeNodeHeader.bytes (header : BTreeNodeHeader) : List UInt8 :=
  [header.pageType] ++ (bytes16 header.cellCount ++ (bytes16 header.contentStart ++
    [header.fragmentedBytes]))

@[simp] theorem BTreeNodeHeader.bytes_length (header : BTreeNodeHeader) :
    header.bytes.length = 6 :=
  rfl

theorem getNodeHeader_of_stands (stands : Stands data 0 header.bytes) :
    getNodeHeader data = .ok header := by
  obtain ⟨pageType, rest⟩ := stands_append.mp stands
  obtain ⟨cellCount, rest⟩ := stands_append.mp rest
  obtain ⟨contentStart, fragmentedBytes⟩ := stands_append.mp rest
  have count := readU16_of_stands cellCount
  have start := readU16_of_stands contentStart
  simp only [length_cons, length_nil, bytes16_length] at *
  rw [getNodeHeader, readU8, pageType.load, ok_bind, count, ok_bind, start, ok_bind, readU8,
    fragmentedBytes.load, ok_bind, pure_eq_ok]

theorem setNodeHeader_eq (data : PageData) (header : BTreeNodeHeader) :
    setNodeHeader data header = storeBytes data 0 header.bytes := by
  have last : ∀ data : PageData, (do
      let data ← storeBytes data 3 (bytes16 header.contentStart)
      storeBytes data 5 [header.fragmentedBytes]) =
        storeBytes data 3 (bytes16 header.contentStart ++ [header.fragmentedBytes]) :=
    fun data => storeBytes_append data 3 _ _
  have middle : ∀ data : PageData, (do
      let data ← storeBytes data 1 (bytes16 header.cellCount)
      storeBytes data 3 (bytes16 header.contentStart ++ [header.fragmentedBytes])) =
        storeBytes data 1 (bytes16 header.cellCount ++ (bytes16 header.contentStart ++
          [header.fragmentedBytes])) :=
    fun data => storeBytes_append data 1 _ _
  simp only [setNodeHeader, writeU8, writeU16_eq, last, middle]
  exact storeBytes_append data 0 [header.pageType] _

end Words

/-! ### The layout of a leaf -/

/-- A cell of a leaf and where it stands. -/
structure Cell where
  offset : Nat
  key : UInt64
  value : List UInt8

namespace Cell

/-- The key and the value of a cell. -/
def entry (cell : Cell) : UInt64 × List UInt8 := (cell.key, cell.value)

def size (cell : Cell) : Nat := 16 + cell.value.length

/-- The bytes of a cell. -/
def bytes (cell : Cell) : List UInt8 :=
  bytes32 (UInt32.ofNat cell.size) ++ (bytes32 8 ++ (native64 cell.key ++ cell.value))

theorem bytes_length (cell : Cell) : cell.bytes.length = cell.size := by
  simp only [bytes, length_append, bytes32_length, native64_length, size]
  omega

/-- Two cells share no byte. -/
def Apart (first second : Cell) : Prop :=
  first.offset + first.size ≤ second.offset ∨ second.offset + second.size ≤ first.offset

end Cell

/-- The header of a leaf. -/
def leafHeader (cells : List Cell) (start : Nat) (fragmentedBytes : UInt8) : BTreeNodeHeader where
  pageType := btreePageTypeLeaf
  cellCount := UInt16.ofNat cells.length
  contentStart := UInt16.ofNat start
  fragmentedBytes

/-- Where the pointer to a cell stands. -/
def pointerOffset (index : Nat) : Nat := btreeLeafHeaderSize + index * btreeCellPointerSize

/-- A page that is laid out as a leaf with some cells, in the order of their pointers. -/
structure LeafLayout (data : PageData) (start : Nat) (cells : List Cell) : Prop where
  header : ∃ fragmentedBytes, Stands data 0 (leafHeader cells start fragmentedBytes).bytes
  pointers : ∀ index cell, cells[index]? = some cell →
    Stands data (pointerOffset index) (bytes16 (UInt16.ofNat cell.offset))
  stored : ∀ cell ∈ cells, Stands data cell.offset cell.bytes
  room : pointerOffset cells.length ≤ start
  above : ∀ cell ∈ cells, start ≤ cell.offset
  lowest : cells = [] ∧ start = pageSize ∨ ∃ cell ∈ cells, cell.offset = start
  apart : cells.Pairwise Cell.Apart
  distinct : (cells.map Cell.key).Nodup

namespace LeafLayout

variable {data : PageData} {start : Nat} {cells : List Cell}

section

variable (layout : LeafLayout data start cells)
include layout

theorem inside {cell : Cell} (member : cell ∈ cells) :
    cell.offset + cell.size ≤ pageSize := by
  have inside := (layout.stored _ member).inside
  rwa [cell.bytes_length] at inside

theorem start_le : start ≤ pageSize := by
  rcases layout.lowest with ⟨-, same⟩ | ⟨cell, member, rfl⟩
  · exact Nat.le_of_eq same
  · exact Nat.le_of_add_right_le (layout.inside member)

theorem length_le : cells.length < 2048 := by
  have room := layout.room
  have bounded := layout.start_le
  simp only [pointerOffset, btreeLeafHeaderSize, btreeCellPointerSize, pageSize] at *
  omega

theorem getNodeHeader :
    ∃ header, TinyDb.getNodeHeader data = .ok header ∧ header.pageType = btreePageTypeLeaf ∧
      header.cellCount.toNat = cells.length ∧ header.contentStart.toNat = start := by
  obtain ⟨fragmentedBytes, stands⟩ := layout.header
  have bounded := layout.start_le
  have length := layout.length_le
  refine ⟨_, getNodeHeader_of_stands stands, rfl, ?_, ?_⟩
  · rw [leafHeader, UInt16.toNat_ofNat', Nat.mod_eq_of_lt (by omega)]
  · rw [leafHeader, UInt16.toNat_ofNat', Nat.mod_eq_of_lt (by rw [pageSize] at bounded; omega)]

end

/-! ### Reading a leaf -/

variable {index : Nat} {cell : Cell}

/-- What the words of a cell are. -/
theorem words (layout : LeafLayout data start cells) (found : cells[index]? = some cell) :
    ∃ pointer, getCellPointer data index = .ok pointer ∧ pointer.toNat = cell.offset ∧
      readU32 data cell.offset = .ok (UInt32.ofNat cell.size) ∧
      readU32 data (cell.offset + 4) = .ok 8 ∧
      readKey data (cell.offset + 8) = .ok cell.key ∧
      Stands data (cell.offset + 16) cell.value := by
  have member := mem_of_getElem? found
  have inside := layout.inside member
  obtain ⟨payload, rest⟩ := stands_append.mp (layout.stored _ member)
  obtain ⟨keySize, rest⟩ := stands_append.mp rest
  obtain ⟨key, value⟩ := stands_append.mp rest
  refine ⟨_, readU16_of_stands (layout.pointers _ _ found), ?_, readU32_of_stands payload,
    readU32_of_stands keySize, readKey_of_stands key, value⟩
  rw [UInt16.toNat_ofNat', Nat.mod_eq_of_lt (by rw [pageSize] at inside; omega)]

theorem leafCellHas (layout : LeafLayout data start cells) (found : cells[index]? = some cell)
    (key : UInt64) : TinyDb.leafCellHas data key index = .ok (cell.key == key) := by
  obtain ⟨pointer, read, same, -, keySize, cellKey, -⟩ := layout.words found
  rw [TinyDb.leafCellHas, read, ok_bind, same, keySize, ok_bind, if_pos rfl, cellKey, ok_bind,
    pure_eq_ok]

end LeafLayout

theorem valueLength_eq (length : Nat) :
    UInt32.ofNat (16 + length) - 8 - 8 = UInt32.ofNat length := by
  refine UInt32.toNat_inj.mp ?_
  simp only [UInt32.toNat_sub, UInt32.toNat_ofNat', UInt32.reduceToNat]
  omega

/-- A test that never faults finds the first cell that passes it. -/
theorem firstCell_eq {Item : Type} {test : Nat → Except Fault Bool} {passes : Item → Bool}
    (items : List Item) (index : Nat)
    (tests : ∀ skip item, items[skip]? = some item → test (index + skip) = .ok (passes item)) :
    firstCell test items.length index = .ok ((items.findIdx? passes).map (· + index)) := by
  induction items generalizing index with
  | nil => rfl
  | cons item rest inductionHypothesis =>
    have here : test index = .ok (passes item) := tests 0 _ rfl
    rw [length_cons, firstCell, here, findIdx?_cons]
    cases passes item with
    | true => simp
    | false =>
      rw [inductionHypothesis _ fun skip other found => by
        rw [Nat.add_assoc, Nat.add_comm 1 _]
        exact tests _ _ found]
      simp [Nat.add_comm 1]

namespace LeafLayout

variable {data : PageData} {start : Nat} {cells : List Cell}

section

variable (layout : LeafLayout data start cells)
include layout

theorem findVisit (key : UInt64) :
    TinyDb.findVisit key data = .ok (match cells.findIdx? (·.key == key) with
      | some found => .leaf found false 0
      | none => .leaf cells.length true 0) := by
  obtain ⟨header, read, leaf, count, -⟩ := layout.getNodeHeader
  have search : firstCell (TinyDb.leafCellHas data key) cells.length 0 =
      .ok (cells.findIdx? (·.key == key)) := by
    rw [firstCell_eq _ 0 fun skip cell found => by
      rw [Nat.zero_add]
      exact layout.leafCellHas found key]
    simp
  rw [TinyDb.findVisit, read, ok_bind, leaf]
  simp only [count, search]
  cases cells.findIdx? (·.key == key) <;> rfl

theorem cellCount_eq_zero
    (read : TinyDb.getNodeHeader data = .ok header) :
    (header.cellCount == 0) = cells.isEmpty := by
  obtain ⟨_, again, -, count, -⟩ := layout.getNodeHeader
  cases (again.symm.trans read)
  rw [Bool.eq_iff_iff, beq_iff_eq, List.isEmpty_iff, ← length_eq_zero_iff, ← count]
  exact UInt16.toNat_inj.symm

theorem firstVisit :
    TinyDb.firstVisit data = .ok (.leaf 0 cells.isEmpty 0) := by
  obtain ⟨header, read, leaf, -, -⟩ := layout.getNodeHeader
  rw [TinyDb.firstVisit, read, ok_bind, leaf, if_pos (by decide), pure_eq_ok,
    layout.cellCount_eq_zero read]

theorem lastVisit :
    TinyDb.lastVisit data = .ok (.leaf (cells.length - 1) cells.isEmpty (cells.length - 1)) := by
  obtain ⟨header, read, leaf, count, -⟩ := layout.getNodeHeader
  rw [TinyDb.lastVisit, read, ok_bind, leaf, if_pos (by decide), pure_eq_ok,
    layout.cellCount_eq_zero read, count]

theorem readCell (index : Nat) :
    TinyDb.readCell index data = .ok (cells[index]?.map Cell.entry) := by
  obtain ⟨header, read, -, count, -⟩ := layout.getNodeHeader
  rw [TinyDb.readCell, read, ok_bind, count]
  cases found : cells[index]? with
  | none => rw [if_pos (List.getElem?_eq_none_iff.mp found)]; rfl
  | some cell =>
    obtain ⟨pointer, point, same, payload, keySize, key, value⟩ := layout.words found
    have inside := layout.inside (mem_of_getElem? found)
    have small : cell.value.length < 4096 := by
      rw [Cell.size, pageSize] at inside
      omega
    rw [if_neg (Nat.not_le.mpr (List.getElem?_eq_some_iff.mp found).1), point, ok_bind, same,
      payload, ok_bind, keySize, ok_bind, key, ok_bind, Cell.size, valueLength_eq]
    by_cases empty : cell.value = []
    · simp [empty, Cell.entry]
    · have positive : UInt32.ofNat cell.value.length > 0 := by
        have length := length_pos_iff.mpr empty
        rw [gt_iff_lt, UInt32.lt_iff_toNat_lt, UInt32.toNat_ofNat', Nat.mod_eq_of_lt (by omega)]
        exact length
      have load : loadBytes data (cell.offset + 8 + (8 : UInt32).toNat) cell.value.length =
          .ok cell.value := value.loadBytes
      rw [if_pos positive, UInt32.toNat_ofNat', Nat.mod_eq_of_lt (by omega), load]
      rfl

end

/-! ### Inserting into a leaf -/

variable {first second third : PageData} {cell : Cell} {fragmentedBytes : UInt8}

/-- The three stores of an insertion leave the page laid out. -/
theorem extend (layout : LeafLayout data start cells) (absent : cell.key ∉ cells.map Cell.key)
    (below : cell.offset + cell.size = start) (fits : pointerOffset (cells.length + 1) ≤ cell.offset)
    (pointer : storeBytes data (pointerOffset cells.length) (bytes16 (UInt16.ofNat cell.offset)) =
      .ok first)
    (content : storeBytes first cell.offset cell.bytes = .ok second)
    (header : storeBytes second 0 (leafHeader (cells ++ [cell]) cell.offset fragmentedBytes).bytes =
      .ok third) : LeafLayout third cell.offset (cells ++ [cell]) := by
  have offsets : ∀ index, pointerOffset index = 10 + index * 2 := fun _ => rfl
  have size := cell.bytes_length
  -- what stands between the header and the new cell, or above it, stays
  have frame : ∀ offset bytes, Stands data offset bytes → 6 ≤ offset →
      (offset + bytes.length ≤ pointerOffset cells.length ∨ start ≤ offset) →
      Stands third offset bytes := by
    intro offset bytes stands behind outside
    rw [offsets] at outside fits
    refine ((stands.of_store pointer ?_).of_store content ?_).of_store header (Or.inr behind)
    · rw [offsets, bytes16_length]
      omega
    · omega
  have room := layout.room
  rw [offsets] at room fits
  refine ⟨⟨_, stands_of_store header⟩, fun index other found => ?_, fun other member => ?_, ?_,
    fun other member => ?_, Or.inr ⟨cell, by simp, rfl⟩, ?_, ?_⟩
  · by_cases old : index < cells.length
    · rw [getElem?_append_left old] at found
      refine frame _ _ (layout.pointers _ _ found) ?_ (Or.inl ?_) <;>
      · simp only [offsets, bytes16_length]
        omega
    · rw [getElem?_append_right (Nat.not_lt.mp old), getElem?_singleton] at found
      split at found
      · obtain rfl := Option.some.inj found
        obtain rfl : index = cells.length := by omega
        refine ((stands_of_store pointer).of_store content (Or.inl ?_)).of_store header (Or.inr ?_)
        · rw [offsets, bytes16_length]
          omega
        · rw [BTreeNodeHeader.bytes_length, offsets]
          omega
      · cases found
  · rcases mem_append.mp member with old | new
    · exact frame _ _ (layout.stored _ old) (by have := layout.above _ old; omega)
        (Or.inr (layout.above _ old))
    · obtain rfl := mem_singleton.mp new
      exact (stands_of_store content).of_store header (Or.inr (by
        rw [BTreeNodeHeader.bytes_length]
        omega))
  · rw [length_append, offsets]
    omega
  · rcases mem_append.mp member with old | new
    · have above := layout.above _ old
      omega
    · exact Nat.le_of_eq (congrArg _ (mem_singleton.mp new)).symm
  · refine pairwise_append.mpr ⟨layout.apart, pairwise_singleton .., ?_⟩
    rintro other old new member
    obtain rfl := mem_singleton.mp member
    exact Or.inr (below.trans_le (layout.above _ old))
  · rw [map_append]
    refine nodup_append.mpr ⟨layout.distinct, pairwise_singleton .., ?_⟩
    rintro key old _ member rfl
    exact absent ((mem_singleton.mp member) ▸ old)

end LeafLayout

theorem shiftPointers_self (count : Nat) (data : PageData) :
    shiftPointers count count data = .ok data := by
  cases count with
  | zero => rfl
  | succ count => rw [shiftPointers, if_neg (Nat.lt_irrefl _), pure_eq_ok]

/-- `btree_insert` writes the pointer, the cell and the header. -/
theorem leafInsert_eq (key : UInt64) (value : List UInt8) (data : PageData) {total : UInt32}
    (read : getNodeHeader data = .ok header) (payload : 8 + UInt32.ofNat value.length + 8 = total)
    (fits : ¬((2 + total).toUInt16.toNat : Int) >
      header.contentStart.toNat - (pointerOffset header.cellCount.toNat : Nat)) :
    leafInsert key value header.cellCount.toNat data = (do
      let offset := header.contentStart - total.toUInt16
      let data ← storeBytes data (pointerOffset header.cellCount.toNat) (bytes16 offset)
      let data ← storeBytes data offset.toNat
        (bytes32 total ++ (bytes32 8 ++ (native64 key ++ value)))
      let data ← storeBytes data 0
        { header with cellCount := header.cellCount + 1, contentStart := offset }.bytes
      return some data) := by
  have last : ∀ (data : PageData) (offset : Nat) (rest : PageData → Except Fault (Option PageData)),
      (do
        let data ← storeBytes data (offset + 8) (native64 key)
        let data ← storeBytes data (offset + 16) value
        rest data) = storeBytes data (offset + 8) (native64 key ++ value) >>= rest :=
    fun data offset rest => storeBytes_bind data (offset + 8) _ _ rest
  have middle : ∀ (data : PageData) (offset : Nat)
      (rest : PageData → Except Fault (Option PageData)), (do
        let data ← storeBytes data (offset + 4) (bytes32 8)
        let data ← storeBytes data (offset + 8) (native64 key ++ value)
        rest data) = storeBytes data (offset + 4) (bytes32 8 ++ (native64 key ++ value)) >>= rest :=
    fun data offset rest => storeBytes_bind data (offset + 4) _ _ rest
  have whole : ∀ (data : PageData) (offset : Nat)
      (rest : PageData → Except Fault (Option PageData)), (do
        let data ← storeBytes data offset (bytes32 total)
        let data ← storeBytes data (offset + 4) (bytes32 8 ++ (native64 key ++ value))
        rest data) =
          storeBytes data offset (bytes32 total ++ (bytes32 8 ++ (native64 key ++ value))) >>= rest :=
    fun data offset rest => storeBytes_bind data offset _ _ rest
  rw [leafInsert, read, payload]
  simp only [shiftPointers_self, ok_bind, setCellPointer, writeU16_eq, writeU32_eq,
    setNodeHeader_eq, last, middle, whole]
  exact if_neg fits

namespace LeafLayout

variable {data : PageData} {start : Nat} {cells : List Cell} {value : List UInt8} {key : UInt64}

/-- The space a cell with its pointer needs is there. -/
def Fits (start : Nat) (cells : List Cell) (value : List UInt8) : Prop :=
  pointerOffset (cells.length + 1) + (16 + value.length) ≤ start

instance (start : Nat) (cells : List Cell) (value : List UInt8) :
    Decidable (Fits start cells value) :=
  inferInstanceAs (Decidable (_ ≤ _))

/-- The size that `btree_insert` compares with the space that is left. -/
theorem cellSize_eq (length : Nat) :
    (2 + (8 + UInt32.ofNat length + 8)).toUInt16.toNat = (18 + length) % 65536 := by
  simp only [UInt32.toNat_toUInt16, UInt32.toNat_add, UInt32.toNat_ofNat', UInt32.reduceToNat]
  omega

section

variable (layout : LeafLayout data start cells)
include layout

/-- The check of the space, over the numbers it compares. -/
theorem leafInsert_checks
    (read : TinyDb.getNodeHeader data = .ok header) (value : List UInt8) :
    ((2 + (8 + UInt32.ofNat value.length + 8)).toUInt16.toNat : Int) >
        header.contentStart.toNat - (pointerOffset header.cellCount.toNat : Nat) ↔
      start - pointerOffset cells.length < (18 + value.length) % 65536 := by
  obtain ⟨_, again, -, count, content⟩ := layout.getNodeHeader
  cases (read.symm.trans again)
  have room := layout.room
  rw [cellSize_eq, count]
  omega

/-- A cell is refused when its size, as far as it is counted, is not left. -/
theorem leafInsert_refused
    (full : start - pointerOffset cells.length < (18 + value.length) % 65536) (key : UInt64) :
    leafInsert key value cells.length data = .ok none := by
  obtain ⟨header, read, -, count, -⟩ := layout.getNodeHeader
  rw [leafInsert, read]
  exact if_pos ((layout.leafInsert_checks read _).mpr full)

/-- A value that is longer than a page and passes the check is copied past the end of the page. -/
theorem leafInsert_overflows
    (passes : (18 + value.length) % 65536 ≤ start - pointerOffset cells.length)
    (large : pageSize < value.length) (key : UInt64) :
    leafInsert key value cells.length data = .error .outOfBounds := by
  obtain ⟨header, read, -, count, -⟩ := layout.getNodeHeader
  rw [← count, leafInsert_eq key _ _ read rfl fun refused =>
    absurd ((layout.leafInsert_checks read _).mp refused) (Nat.not_lt.mpr passes)]
  dsimp only
  generalize header.contentStart - (8 + UInt32.ofNat value.length + 8).toUInt16 = offset
  cases pointer : storeBytes data (pointerOffset header.cellCount.toNat) (bytes16 offset) with
  | error fault =>
    rw [storeBytes_error pointer]
    rfl
  | ok first =>
    rw [ok_bind, storeBytes_of_outside _ (by simp only [length_append]; omega)]
    rfl

/-- A cell that does not fit is refused. -/
theorem leafInsert_full (small : value.length ≤ pageSize)
    (full : ¬Fits start cells value) (key : UInt64) :
    leafInsert key value cells.length data = .ok none := by
  refine layout.leafInsert_refused ?_ key
  rw [Fits, pointerOffset, btreeLeafHeaderSize, btreeCellPointerSize] at full
  rw [pageSize] at small
  rw [pointerOffset, btreeLeafHeaderSize, btreeCellPointerSize]
  omega

/-- A value longer than a page is never stored. -/
theorem leafInsert_large (large : pageSize < value.length)
    {answer : Option PageData} (run : leafInsert key value cells.length data = .ok answer) :
    answer = none := by
  rcases Nat.lt_or_ge (start - pointerOffset cells.length) ((18 + value.length) % 65536) with
    full | passes
  · rw [layout.leafInsert_refused full] at run
    exact (Except.ok.inj run).symm
  · rw [layout.leafInsert_overflows passes large] at run
    cases run

/-- A cell that fits is put right below the others. -/
theorem leafInsert_fits (absent : key ∉ cells.map Cell.key)
    (fits : Fits start cells value) :
    ∃ next offset, leafInsert key value cells.length data = .ok (some next) ∧
      offset + (16 + value.length) = start ∧
      LeafLayout next offset (cells ++ [⟨offset, key, value⟩]) := by
  have bounded := layout.start_le
  have length := layout.length_le
  obtain ⟨fragmentedBytes, stands⟩ := layout.header
  have space : pointerOffset (cells.length + 1) + (16 + value.length) ≤ start := fits
  rw [pageSize] at bounded
  have count : (UInt16.ofNat cells.length).toNat = cells.length := by
    rw [UInt16.toNat_ofNat', Nat.mod_eq_of_lt (by omega)]
  have read := getNodeHeader_of_stands stands
  have insertion := leafInsert_eq key value _ read rfl fun refused => by
    have full := (layout.leafInsert_checks read _).mp refused
    rw [pointerOffset, btreeCellPointerSize] at full space
    omega
  simp only [leafHeader, count] at insertion
  let cell : Cell := { offset := start - (16 + value.length), key, value }
  have offset : UInt16.ofNat start - (8 + UInt32.ofNat value.length + 8).toUInt16 =
      UInt16.ofNat cell.offset := by
    refine UInt16.toNat_inj.mp ?_
    simp only [UInt16.toNat_sub, UInt16.toNat_ofNat', UInt32.toNat_toUInt16, UInt32.toNat_add,
      UInt32.toNat_ofNat', UInt32.reduceToNat, cell]
    omega
  have payload : 8 + UInt32.ofNat value.length + 8 = UInt32.ofNat cell.size := by
    refine UInt32.toNat_inj.mp ?_
    simp only [UInt32.toNat_add, UInt32.toNat_ofNat', UInt32.reduceToNat, Cell.size, cell]
    omega
  have counted : UInt16.ofNat cells.length + 1 = UInt16.ofNat (cells ++ [cell]).length := by
    rw [length_append, UInt16.ofNat_add]
    rfl
  have place : (UInt16.ofNat cell.offset).toNat = cell.offset := by
    rw [UInt16.toNat_ofNat', Nat.mod_eq_of_lt (by simp only [cell]; omega)]
  have below : cell.offset + cell.size = start := by
    simp only [cell, Cell.size]
    omega
  have above : pointerOffset (cells.length + 1) ≤ cell.offset := Nat.le_sub_of_add_le space
  have slot : pointerOffset cells.length + 2 = pointerOffset (cells.length + 1) := by
    simp only [pointerOffset, btreeCellPointerSize]
    omega
  obtain ⟨first, pointer⟩ := storeBytes_of_inside _
    (show pointerOffset cells.length + (bytes16 (UInt16.ofNat cell.offset)).length ≤ pageSize by
      rw [bytes16_length, pageSize]
      omega)
  obtain ⟨second, stored⟩ := storeBytes_of_inside _
    (show cell.offset + cell.bytes.length ≤ pageSize by
      rw [cell.bytes_length, pageSize]
      omega)
  obtain ⟨third, header⟩ := storeBytes_of_inside _
    (show 0 + (leafHeader (cells ++ [cell]) cell.offset fragmentedBytes).bytes.length ≤ pageSize by
      rw [BTreeNodeHeader.bytes_length]
      decide)
  refine ⟨third, cell.offset, ?_, below, layout.extend absent below above pointer stored header⟩
  rw [insertion, offset, payload, counted, place, pointer, ok_bind]
  rw [show bytes32 (UInt32.ofNat cell.size) ++ (bytes32 8 ++ (native64 key ++ value)) =
    cell.bytes from rfl, stored]
  exact congrArg (· >>= fun data => pure (some data)) header

theorem not_fits_of_large (large : pageSize < value.length) :
    ¬Fits start cells value := by
  have bounded := layout.start_le
  rw [Fits]
  omega

/-- What an insertion does to a leaf without the key. -/
theorem leafInsert {demand : Demand}
    (absent : key ∉ cells.map Cell.key) (small : demand = .must → value.length ≤ pageSize) :
    Ensures demand (TinyDb.leafInsert key value cells.length data) fun answer =>
      (answer = none ∧ ¬Fits start cells value) ∨ ∃ new offset, answer = some new ∧
        Fits start cells value ∧ offset + (16 + value.length) = start ∧
        LeafLayout new offset (cells ++ [⟨offset, key, value⟩]) := by
  by_cases short : value.length ≤ pageSize
  · by_cases fits : Fits start cells value
    · obtain ⟨new, offset, run, below, after⟩ := layout.leafInsert_fits absent fits
      rw [run]
      exact Ensures.ok (Or.inr ⟨new, offset, rfl, fits, below, after⟩)
    · rw [layout.leafInsert_full short fits key]
      exact Ensures.ok (Or.inl ⟨rfl, fits⟩)
  · have large := Nat.not_le.mp short
    cases demand with
    | must => exact absurd (small rfl) short
    | may =>
      exact fun answer run => Or.inl ⟨layout.leafInsert_large large run,
        layout.not_fits_of_large large⟩

end

end LeafLayout

/-- `btree_create` writes a leaf without cells. -/
theorem emptyLeaf_ok : ∃ data, emptyLeaf = .ok data ∧ LeafLayout data pageSize [] := by
  have header : emptyLeaf = storeBytes (fun _ => 0) 0 (leafHeader [] pageSize 0).bytes := by
    rw [← setNodeHeader_eq]
    rfl
  obtain ⟨data, run⟩ := storeBytes_of_inside _
    (show 0 + (leafHeader [] pageSize 0).bytes.length ≤ pageSize by decide)
  exact ⟨data, header.trans run, ⟨0, stands_of_store run⟩, nofun, nofun, by decide, nofun,
    Or.inl ⟨rfl, rfl⟩, List.Pairwise.nil, nodup_nil⟩

end TinyDb

/-
This file models the B+tree. A node is a page: a header, an array of 16-bit
pointers that grows upwards, and cells that grow down from the end of the page.
The words of a node are big-endian, the keys in its cells are native. The
offsets come from the page, so every access can leave it, which is a fault here.

A tree has no state of its own but the number of its root: every operation pins
pages of the cache, reads or changes them, and unpins them. The pager of a tree
is the pager of its cache.
-/

import TinyDb.Lib.Buffer
import TinyDb.PageCache

namespace TinyDb

open Heaps Bytes

/-! ### Helper functions -/

def btreeLeafHeaderSize : Nat := 10

def btreeCellPointerSize : Nat := 2

def btreeMaxDepth : Nat := 16

def btreePageTypeLeaf : UInt8 := 0x0D

def btreePageTypeInternal : UInt8 := 0x0A

/-- `read_u8`. -/
def readU8 (data : PageData) (offset : Nat) : Except Fault UInt8 := load data offset

/-- `write_u8`. -/
def writeU8 (data : PageData) (offset : Nat) (value : UInt8) : Except Fault PageData :=
  storeBytes data offset [value]

/-- `read_u16`. -/
def readU16 (data : PageData) (offset : Nat) : Except Fault UInt16 := do
  let high ← load data offset
  let low ← load data (offset + 1)
  return high.toUInt16 <<< 8 ||| low.toUInt16

/-- `write_u16`. -/
def writeU16 (data : PageData) (offset : Nat) (value : UInt16) : Except Fault PageData :=
  storeBytes data offset [(value >>> 8).toUInt8, (value &&& 0xFF).toUInt8]

/-- `read_u32`. -/
def readU32 (data : PageData) (offset : Nat) : Except Fault UInt32 := do
  let first ← load data offset
  let second ← load data (offset + 1)
  let third ← load data (offset + 2)
  let fourth ← load data (offset + 3)
  return first.toUInt32 <<< 24 ||| second.toUInt32 <<< 16 ||| third.toUInt32 <<< 8 |||
    fourth.toUInt32

/-- `write_u32`. -/
def writeU32 (data : PageData) (offset : Nat) (value : UInt32) : Except Fault PageData :=
  storeBytes data offset [(value >>> 24).toUInt8, (value >>> 16).toUInt8, (value >>> 8).toUInt8,
    (value &&& 0xFF).toUInt8]

/-- A key in a cell, read through a `uint64_t` pointer. -/
def readKey (data : PageData) (offset : Nat) : Except Fault UInt64 := do
  let bytes ← loadBytes data offset 8
  return UInt64.ofNat (littleEndianValue bytes)

/-- The header of a node. -/
structure BTreeNodeHeader where
  pageType : UInt8
  cellCount : UInt16
  contentStart : UInt16
  fragmentedBytes : UInt8
  deriving DecidableEq

/-- `get_node_header`. -/
def getNodeHeader (data : PageData) : Except Fault BTreeNodeHeader := do
  let pageType ← readU8 data 0
  let cellCount ← readU16 data 1
  let contentStart ← readU16 data 3
  let fragmentedBytes ← readU8 data 5
  return { pageType, cellCount, contentStart, fragmentedBytes }

theorem getNodeHeader_returns (data : PageData) : ∃ header, getNodeHeader data = .ok header :=
  ⟨_, rfl⟩

/-- `set_node_header`. -/
def setNodeHeader (data : PageData) (header : BTreeNodeHeader) : Except Fault PageData := do
  let data ← writeU8 data 0 header.pageType
  let data ← writeU16 data 1 header.cellCount
  let data ← writeU16 data 3 header.contentStart
  writeU8 data 5 header.fragmentedBytes

/-- `get_cell_pointer`. -/
def getCellPointer (data : PageData) (index : Nat) : Except Fault UInt16 :=
  readU16 data (btreeLeafHeaderSize + index * btreeCellPointerSize)

/-- `set_cell_pointer`. -/
def setCellPointer (data : PageData) (index : Nat) (value : UInt16) : Except Fault PageData :=
  writeU16 data (btreeLeafHeaderSize + index * btreeCellPointerSize) value

/-- `is_leaf_page`. -/
def isLeafPage (pageType : UInt8) : Bool := pageType == btreePageTypeLeaf

/-- `is_internal_page`. -/
def isInternalPage (pageType : UInt8) : Bool := pageType == btreePageTypeInternal

/-- `get_right_child`. -/
def getRightChild (data : PageData) : Except Fault UInt32 := readU32 data 6

/-! ### Pinned pages -/

/-- A page is pinned, read and unpinned; nothing when it cannot be pinned. -/
def pinRead {Result : Type} (cache : PageCache) (pageNum : UInt32)
    (body : PageData → Except Fault Result) : Except Fault (Option Result × PageCache) := do
  match ← pageCacheGet cache pageNum with
  | (none, cache) => return (none, cache)
  | (some page, cache) =>
    let read ← cache.heap.load page
    let result ← body read.data
    let cache ← pageUnpin cache page
    return (some result, cache)

/-- A page is pinned and unpinned, and in between changed and marked dirty if the body returns new
data: whether it did, and nothing when the page cannot be pinned. -/
def pinWrite (cache : PageCache) (pageNum : UInt32)
    (body : PageData → Except Fault (Option PageData)) :
    Except Fault (Option Bool × PageCache) := do
  match ← pageCacheGet cache pageNum with
  | (none, cache) => return (none, cache)
  | (some page, cache) =>
    let read ← cache.heap.load page
    match ← body read.data with
    | none =>
      let cache ← pageUnpin cache page
      return (some false, cache)
    | some data =>
      let cache ← cache.update page ({ · with data })
      let cache ← pageMarkDirty cache page
      let cache ← pageUnpin cache page
      return (some true, cache)

/-! ### Lifecycle -/

/-- A tree. -/
structure BTree where
  rootPage : UInt32
  isOpen : Bool
  deriving DecidableEq

/-- `btree_open`. -/
def btreeOpen (rootPage : UInt32) : BTree where
  rootPage
  isOpen := true

/-- The page `btree_create` writes. -/
def emptyLeaf : Except Fault PageData := do
  let data ← writeU8 (fun _ => 0) 0 btreePageTypeLeaf
  let data ← writeU16 data 1 0
  let data ← writeU16 data 3 (UInt16.ofNat pageSize)
  writeU8 data 5 0

/-- `btree_create`. -/
def btreeCreate (cache : PageCache) : Except Fault (Option BTree × PageCache) :=
  match cache.pager with
  | none => return (none, cache)
  | some pager =>
    match pagerAllocatePage pager with
    | (none, pager) => return (none, { cache with pager := some pager })
    | (some rootPage, pager) => do
      let (written, cache) ← pinWrite { cache with pager := some pager } rootPage fun _ => do
        let data ← emptyLeaf
        return some data
      return (if written.isSome then some (btreeOpen rootPage) else none, cache)

/-- `btree_close`. -/
def btreeClose (cache : PageCache) : Except Fault PageCache := do
  let (_, cache) ← pageCacheFlush cache
  return cache

/-! ### Search operations -/

/-- A position in a tree. -/
structure BTreeCursor where
  tree : BTree
  page : UInt32
  cell : Nat
  isEnd : Bool
  depth : Nat
  stack : List (UInt32 × Nat)
  isForward : Bool

/-- What a descent does at a node: stop at a leaf, with the cell, whether that is the end and the
cell on the stack; go to a child, with the cell on the stack; or give up. -/
inductive Descent
  | leaf (cell : Nat) (isEnd : Bool) (stackCell : Nat)
  | child (page : UInt32) (stackCell : Nat)
  | unknown

/-- The loop of `btree_find`, `btree_first` and `btree_last`. -/
def descend (tree : BTree) (isForward : Bool) (visit : PageData → Except Fault Descent) :
    Nat → UInt32 → List (UInt32 × Nat) → PageCache → Except Fault (Option BTreeCursor × PageCache)
  | 0, _, _, cache => return (none, cache)
  | depth + 1, page, stack, cache => do
    match ← pinRead cache page visit with
    | (some (.leaf cell isEnd stackCell), cache) =>
      let cursor : BTreeCursor :=
        { tree, page, cell, isEnd, isForward
          depth := stack.length + 1
          stack := stack ++ [(page, stackCell)] }
      return (some cursor, cache)
    | (some (.child next stackCell), cache) =>
      descend tree isForward visit depth next (stack ++ [(page, stackCell)]) cache
    | (_, cache) => return (none, cache)

/-- The first of some cells that passes a test. -/
def firstCell (test : Nat → Except Fault Bool) : Nat → Nat → Except Fault (Option Nat)
  | 0, _ => return none
  | remaining + 1, index => do
    if ← test index then return some index else firstCell test remaining (index + 1)

/-- The test of `btree_find` in a leaf. -/
def leafCellHas (data : PageData) (key : UInt64) (index : Nat) : Except Fault Bool := do
  let cellOffset ← getCellPointer data index
  let keySize ← readU32 data (cellOffset.toNat + 4)
  if keySize = 8 then
    let cellKey ← readKey data (cellOffset.toNat + 8)
    return cellKey == key
  else return false

/-- The test of `btree_find` in an internal node. -/
def internalCellReaches (data : PageData) (key : UInt64) (index : Nat) : Except Fault Bool := do
  let cellOffset ← getCellPointer data index
  let keySize ← readU16 data (cellOffset.toNat + 4)
  if keySize = 8 then
    let cellKey ← readKey data (cellOffset.toNat + 8)
    return cellKey ≥ key
  else return false

/-- What `btree_find` does at a node. -/
def findVisit (key : UInt64) (data : PageData) : Except Fault Descent := do
  let header ← getNodeHeader data
  let cellCount := header.cellCount.toNat
  if isLeafPage header.pageType then
    match ← firstCell (leafCellHas data key) cellCount 0 with
    | some found => return .leaf found false 0
    | none => return .leaf cellCount true 0
  else if isInternalPage header.pageType then
    let rightChild ← getRightChild data
    let found ← firstCell (internalCellReaches data key) cellCount 0
    let targetCell := found.getD cellCount
    if targetCell < cellCount then
      let childPage ← readU32 data (btreeLeafHeaderSize + targetCell * btreeCellPointerSize + 2)
      return .child childPage targetCell
    else return .child rightChild targetCell
  else return .unknown

/-- `btree_find`. -/
def btreeFind (cache : PageCache) (tree : BTree) (key : UInt64) :
    Except Fault (Option BTreeCursor × PageCache) :=
  if tree.isOpen then descend tree true (findVisit key) btreeMaxDepth tree.rootPage [] cache
  else return (none, cache)

/-- What `btree_first` does at a node. -/
def firstVisit (data : PageData) : Except Fault Descent := do
  let header ← getNodeHeader data
  if isLeafPage header.pageType then return .leaf 0 (header.cellCount == 0) 0
  else if isInternalPage header.pageType then
    let rightChild ← getRightChild data
    if header.cellCount > 0 then
      let cellOffset ← getCellPointer data 0
      let childPage ← readU32 data (cellOffset.toNat + 2)
      return .child childPage 0
    else return .child rightChild 0
  else return .unknown

/-- `btree_first`. -/
def btreeFirst (cache : PageCache) (tree : BTree) :
    Except Fault (Option BTreeCursor × PageCache) :=
  if tree.isOpen then descend tree true firstVisit btreeMaxDepth tree.rootPage [] cache
  else return (none, cache)

/-- What `btree_last` does at a node. -/
def lastVisit (data : PageData) : Except Fault Descent := do
  let header ← getNodeHeader data
  let cellCount := header.cellCount.toNat
  if isLeafPage header.pageType then
    return .leaf (cellCount - 1) (header.cellCount == 0) (cellCount - 1)
  else if isInternalPage header.pageType then
    let rightChild ← getRightChild data
    return .child rightChild cellCount
  else return .unknown

/-- `btree_last`. -/
def btreeLast (cache : PageCache) (tree : BTree) :
    Except Fault (Option BTreeCursor × PageCache) :=
  if tree.isOpen then descend tree false lastVisit btreeMaxDepth tree.rootPage [] cache
  else return (none, cache)

/-! ### Cursor operations -/

/-- `btree_cursor_next`. -/
def btreeCursorNext (cache : PageCache) (cursor : BTreeCursor) :
    Except Fault (BTreeCursor × PageCache) := do
  if cursor.isEnd then return (cursor, cache)
  else
    match ← pinRead cache cursor.page getNodeHeader with
    | (none, cache) => return (cursor, cache)
    | (some header, cache) =>
      if cursor.cell + 1 ≥ header.cellCount.toNat then
        return ({ cursor with isEnd := true, cell := header.cellCount.toNat }, cache)
      else return ({ cursor with cell := cursor.cell + 1 }, cache)

/-- `btree_cursor_prev`. -/
def btreeCursorPrev (cursor : BTreeCursor) : BTreeCursor :=
  if cursor.isEnd then cursor else { cursor with cell := cursor.cell - 1 }

/-- `btree_cursor_valid`. -/
def btreeCursorValid (cursor : BTreeCursor) : Bool := !cursor.isEnd

/-! ### Data access -/

/-- The key and the value of a cell, if the leaf has that cell. -/
def readCell (cell : Nat) (data : PageData) : Except Fault (Option (UInt64 × List UInt8)) := do
  let header ← getNodeHeader data
  if cell ≥ header.cellCount.toNat then return none
  else
    let cellOffset ← getCellPointer data cell
    let payloadSize ← readU32 data cellOffset.toNat
    let keySize ← readU32 data (cellOffset.toNat + 4)
    let key ← readKey data (cellOffset.toNat + 8)
    let valueLen := payloadSize - keySize - 8
    if valueLen > 0 then
      let value ← loadBytes data (cellOffset.toNat + 8 + keySize.toNat) valueLen.toNat
      return some (key, value)
    else return some (key, [])

/-- `btree_get`: the key and the bytes it copies out, and nothing when it returns `-1`. -/
def btreeGet (cache : PageCache) (cursor : BTreeCursor) :
    Except Fault (Option (UInt64 × List UInt8) × PageCache) := do
  if cursor.isEnd then return (none, cache)
  else
    let (result, cache) ← pinRead cache cursor.page (readCell cursor.cell)
    return (result.join, cache)

/-! ### Insertion -/

/-- The loop of `btree_insert` that makes room in the pointer array. -/
def shiftPointers (insertIdx : Nat) : Nat → PageData → Except Fault PageData
  | 0, data => return data
  | index + 1, data => do
    if index + 1 > insertIdx then
      let pointer ← getCellPointer data index
      let data ← setCellPointer data (index + 1) pointer
      shiftPointers insertIdx index data
    else return data

/-- What `btree_insert` does to a leaf without the key; nothing when the cell does not fit. -/
def leafInsert (key : UInt64) (value : List UInt8) (insertIdx : Nat) (data : PageData) :
    Except Fault (Option PageData) := do
  let header ← getNodeHeader data
  let totalPayload : UInt32 := 8 + UInt32.ofNat value.length + 8
  let cellSize : UInt16 := (2 + totalPayload).toUInt16
  let availableSpace : Int := header.contentStart.toNat -
    (btreeLeafHeaderSize + header.cellCount.toNat * btreeCellPointerSize : Nat)
  if (cellSize.toNat : Int) > availableSpace then return none
  else
    let data ← shiftPointers insertIdx header.cellCount.toNat data
    let cellOffset := header.contentStart - totalPayload.toUInt16
    let data ← setCellPointer data insertIdx cellOffset
    let data ← writeU32 data cellOffset.toNat totalPayload
    let data ← writeU32 data (cellOffset.toNat + 4) 8
    let data ← storeBytes data (cellOffset.toNat + 8) (native64 key)
    let data ← storeBytes data (cellOffset.toNat + 16) value
    let data ← setNodeHeader data
      { header with cellCount := header.cellCount + 1, contentStart := cellOffset }
    return some data

/-- `btree_insert`: whether it returned `0`. A key that is there already keeps its value. -/
def btreeInsert (cache : PageCache) (tree : BTree) (key : UInt64) (value : List UInt8) :
    Except Fault (Bool × PageCache) := do
  match ← btreeFind cache tree key with
  | (none, cache) => return (false, cache)
  | (some cursor, cache) =>
    if cursor.isEnd then
      let (written, cache) ← pinWrite cache cursor.page (leafInsert key value cursor.cell)
      return (written == some true, cache)
    else
      let (_, cache) ← pinRead cache cursor.page fun _ => return ()
      return (true, cache)

/-- `btree_update`. -/
def btreeUpdate (cache : PageCache) (tree : BTree) (key : UInt64) (value : List UInt8) :
    Except Fault (Bool × PageCache) :=
  btreeInsert cache tree key value

/-! ### Range scan -/

/-- The cursors of a range. -/
structure BTreeRange where
  tree : BTree
  start : Option BTreeCursor
  stop : Option BTreeCursor
  startKey : UInt64
  endKey : UInt64

/-- `btree_range_new`. -/
def btreeRangeNew (cache : PageCache) (tree : BTree) (startKey endKey : UInt64) :
    Except Fault (BTreeRange × PageCache) := do
  let (start, cache) ← btreeFind cache tree startKey
  let (stop, cache) ← btreeFind cache tree endKey
  return ({ tree, start, stop, startKey, endKey }, cache)

end TinyDb

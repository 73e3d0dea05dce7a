/-
This file models the pager: the database file seen as an array of 4096-byte
pages, with a 48-byte header at its start and a freelist threaded through the
freed pages.

The functions follow the source statement by statement, including the order in
which the in-memory fields and the file are changed, so that a call that gives
up half way leaves the same state behind. The mutex and the allocation of the
handle are left out; a path of the file system stands for what `open` finds.
-/

import TinyDb.FileIo

namespace TinyDb

open Bytes Posix List

variable {first second : UInt32} {size : Nat} {fd next : Descriptor}

/-! ### Constants and the database header -/

def pageSize : Nat := 4096

def headerSize : Nat := 48

def pagerMagic : UInt32 := 0x54494E59

def currentFormatVersion : UInt32 := 1

/-- The contents of one page. -/
abbrev PageData := Fin pageSize → UInt8

/-- The page a buffer of 4096 bytes holds. -/
def PageData.ofBytes (bytes : List UInt8) : PageData := fun index => bytes.getD index.val 0

/-- The 4096 bytes of a page. -/
def PageData.toBytes (data : PageData) : List UInt8 := List.ofFn data

/-- The little-endian word at a byte offset of a buffer. -/
def wordAt (bytes : List UInt8) (offset : Nat) : UInt32 :=
  UInt32.ofNat (littleEndianValue ((bytes.drop offset).take 4))

/-- The four bytes of a word in memory order. -/
def wordBytes (word : UInt32) : List UInt8 := littleEndian 4 word.toNat

/-- The packed database header. -/
structure DatabaseHeader where
  magic : UInt32
  version : UInt32
  formatVersion : UInt32
  reserved : UInt32
  pageCount : UInt32
  firstFreePage : UInt32
  freePageCount : UInt32
  schemaRoot : UInt32
  walFrameCount : UInt32
  walChecksum1 : UInt32
  walChecksum2 : UInt32
  databaseSize : UInt32
  deriving DecidableEq

namespace DatabaseHeader

/-- The words of the header in memory order. -/
def words (header : DatabaseHeader) : List UInt32 :=
  [header.magic, header.version, header.formatVersion, header.reserved, header.pageCount,
    header.firstFreePage, header.freePageCount, header.schemaRoot, header.walFrameCount,
    header.walChecksum1, header.walChecksum2, header.databaseSize]

/-- The header as it lies in memory and in the file. -/
def encode (header : DatabaseHeader) : List UInt8 := header.words.flatMap wordBytes

/-- The header a buffer of 48 bytes holds. -/
def decode (bytes : List UInt8) : DatabaseHeader where
  magic := wordAt bytes 0
  version := wordAt bytes 4
  formatVersion := wordAt bytes 8
  reserved := wordAt bytes 12
  pageCount := wordAt bytes 16
  firstFreePage := wordAt bytes 20
  freePageCount := wordAt bytes 24
  schemaRoot := wordAt bytes 28
  walFrameCount := wordAt bytes 32
  walChecksum1 := wordAt bytes 36
  walChecksum2 := wordAt bytes 40
  databaseSize := wordAt bytes 44

end DatabaseHeader

/-- `init_header`. -/
def initHeader : DatabaseHeader where
  magic := pagerMagic
  version := 1
  formatVersion := currentFormatVersion
  reserved := 0
  pageCount := 1
  firstFreePage := 0
  freePageCount := 0
  schemaRoot := 0
  walFrameCount := 0
  walChecksum1 := 0
  walChecksum2 := 0
  databaseSize := 1

/-! ### Paths and handles -/

/-- What the permissions of a path allow. -/
inductive Access
  | none
  | readOnly
  | readWrite
  deriving DecidableEq

/-- A path of the file system: the file there, if any, and the kernel's coming answers. -/
structure Path where
  file : Option File
  access : Access
  schedule : List Answer

/-- The pager handle. -/
structure Pager where
  fd : Descriptor
  path : Path
  pageCount : UInt32
  firstFreePage : UInt32
  freePageCount : UInt32
  fileSize : Nat
  isOpen : Bool

variable {pager : Pager}

/-- Whether a file with these permissions may be opened, for writing or for reading only. -/
def Access.allows : Access → Bool → Bool
  | .readWrite, _ => true
  | .readOnly, writable => !writable
  | .none, _ => false

/-- `open` of an existing file in one access mode. -/
def Path.open (path : Path) (writable : Bool) : Option Descriptor × Path :=
  match path.file, path.schedule with
  | none, schedule => (none, { path with schedule := schedule.tail })
  | some file, [] =>
    bif path.access.allows writable then
      (some { file, position := 0, writable, schedule := [] }, path)
    else (none, path)
  | some file, .transfer _ :: schedule =>
    bif path.access.allows writable then
      (some { file, position := 0, writable, schedule }, { path with schedule })
    else (none, { path with schedule })
  | some _, _ :: schedule => (none, { path with schedule })

/-- `open` with `O_CREAT | O_TRUNC`: the file is there and empty afterwards. -/
def Path.create (path : Path) : Option Descriptor × Path :=
  match Path.open { path with file := some File.empty } true with
  | (some fd, opened) => (some fd, opened)
  | (none, failed) => (none, { path with schedule := failed.schedule })

/-- A path where a database can be created. -/
def newPath : Path := { file := none, access := .readWrite, schedule := [] }

/-! ### Header input and output -/

/-- `get_page_offset`. -/
def getPageOffset (pageNum : UInt32) : Nat := pageNum.toNat * pageSize

/-- `read_header`. -/
def readHeader (fd : Descriptor) : Option DatabaseHeader × Descriptor :=
  match fd.lseek 0 with
  | (false, fd) => (none, fd)
  | (true, fd) =>
    match readExact fd headerSize with
    | (none, fd) => (none, fd)
    | (some bytes, fd) => (some (DatabaseHeader.decode bytes), fd)

/-- `write_header`. -/
def writeHeader (fd : Descriptor) (header : DatabaseHeader) : Bool × Descriptor :=
  match fd.lseek 0 with
  | (false, fd) => (false, fd)
  | (true, fd) => writeExact fd header.encode

/-- The read-modify-write of the header that every operation uses. -/
def updateHeader (fd : Descriptor) (change : DatabaseHeader → DatabaseHeader) : Bool × Descriptor :=
  match readHeader fd with
  | (none, fd) => (false, fd)
  | (some header, fd) => writeHeader fd (change header)

/-! ### Pager lifecycle -/

/-- The `open` calls of `pager_open`: read-write if possible, else read-only. -/
def Path.openAny (path : Path) : Option Descriptor × Path :=
  match path.open true with
  | (some fd, path) => (some fd, path)
  | (none, path) => path.open false

/-- `pager_open`. -/
def pagerOpen (path : Path) : Option Pager × Path :=
  match path.openAny with
  | (none, path) => (none, path)
  | (some fd, path) =>
    match fd.call with
    | (false, fd) => (none, { path with schedule := fd.schedule })
    | (true, fd) =>
      match readHeader fd with
      | (none, fd) => (none, { path with schedule := fd.schedule })
      | (some header, fd) =>
        if header.magic ≠ pagerMagic then (none, { path with schedule := fd.schedule })
        else
          (some {
            fd, path
            pageCount := header.pageCount
            firstFreePage := header.firstFreePage
            freePageCount := header.freePageCount
            fileSize := fd.file.size
            isOpen := true }, path)

/-- `pager_create`. -/
def pagerCreate (path : Path) : Option Pager × Path :=
  match path.create with
  | (none, path) => (none, path)
  | (some fd, path) =>
    match writeHeader fd initHeader with
    | (false, fd) => (none, { path with file := some fd.file, schedule := fd.schedule })
    | (true, fd) =>
      match fd.fsync with
      | (false, fd) => (none, { path with file := some fd.file, schedule := fd.schedule })
      | (true, fd) =>
        (some {
          fd, path
          pageCount := 1
          firstFreePage := 0
          freePageCount := 0
          fileSize := pageSize
          isOpen := true }, path)

/-- `pager_close`: the path as the closed handle leaves it. -/
def pagerClose (pager : Pager) : Path :=
  let fd := if pager.isOpen ∧ pager.fileSize > 0 then pager.fd.fsync.2 else pager.fd
  { pager.path with file := some fd.file, schedule := fd.schedule }

/-! ### Page input and output -/

/-- `pager_read_page`. -/
def pagerReadPage (pager : Pager) (pageNum : UInt32) : Option PageData × Pager :=
  if pageNum ≥ pager.pageCount ∧ pageNum ≠ 0 then (none, pager)
  else
    match pager.fd.lseek (getPageOffset pageNum) with
    | (false, fd) => (none, { pager with fd })
    | (true, fd) =>
      match readExact fd pageSize with
      | (none, fd) => (none, { pager with fd })
      | (some bytes, fd) => (some (PageData.ofBytes bytes), { pager with fd })

/-- `pager_write_page`. -/
def pagerWritePage (pager : Pager) (pageNum : UInt32) (data : PageData) : Bool × Pager :=
  let offset := getPageOffset pageNum
  match pager.fd.lseek offset with
  | (false, fd) => (false, { pager with fd })
  | (true, fd) =>
    match writeExact fd data.toBytes with
    | (false, fd) => (false, { pager with fd })
    | (true, fd) =>
      (true, { pager with fd, fileSize := max pager.fileSize (offset + pageSize) })

/-- `pager_allocate_page`: the page handed out, or nothing for `-1`. -/
def pagerAllocatePage (pager : Pager) : Option UInt32 × Pager :=
  if pager.firstFreePage ≠ 0 then
    let newPage := pager.firstFreePage
    match pager.fd.lseek (getPageOffset newPage) with
    | (false, fd) => (none, { pager with fd })
    | (true, fd) =>
      match readExact fd pageSize with
      | (none, fd) => (none, { pager with fd })
      | (some buf, fd) =>
        (some newPage, { pager with
          fd
          firstFreePage := wordAt buf 0
          freePageCount := pager.freePageCount - 1 })
  else
    let newPage := pager.pageCount
    let pager := { pager with pageCount := pager.pageCount + 1 }
    match updateHeader pager.fd fun header => { header with pageCount := pager.pageCount } with
    | (false, fd) => (none, { pager with fd })
    | (true, fd) =>
      let newSize := getPageOffset (newPage + 1)
      match fd.ftruncate newSize with
      | (false, fd) => (none, { pager with fd })
      | (true, fd) => (some newPage, { pager with fd, fileSize := newSize })

/-- The buffer `pager_free_page` writes: the next free page, then zeros. -/
def freePageBytes (next : UInt32) : List UInt8 :=
  wordBytes next ++ List.replicate (pageSize - 4) 0

/-- `pager_free_page`: whether it returned `0`. -/
def pagerFreePage (pager : Pager) (pageNum : UInt32) : Bool × Pager :=
  if pageNum = 0 then (false, pager)
  else
    match pager.fd.lseek (getPageOffset pageNum) with
    | (false, fd) => (false, { pager with fd })
    | (true, fd) =>
      match writeExact fd (freePageBytes pager.firstFreePage) with
      | (false, fd) => (false, { pager with fd })
      | (true, fd) =>
        let pager := { pager with
          fd
          firstFreePage := pageNum
          freePageCount := pager.freePageCount + 1 }
        match updateHeader pager.fd fun header => { header with
            firstFreePage := pager.firstFreePage
            freePageCount := pager.freePageCount } with
        | (false, fd) => (false, { pager with fd })
        | (true, fd) => (true, { pager with fd })

/-- `pager_sync`: whether it returned `0`. -/
def pagerSync (pager : Pager) : Bool × Pager :=
  let (synced, fd) := pager.fd.fsync
  (synced, { pager with fd })

/-! ### The fields of the header -/

/-- `pager_update_page_count`: whether it returned `0`. -/
def pagerUpdatePageCount (pager : Pager) (count : UInt32) : Bool × Pager :=
  match readHeader pager.fd with
  | (none, fd) => (false, { pager with fd })
  | (some header, fd) =>
    let pager := { pager with pageCount := count }
    let (written, fd) := writeHeader fd { header with pageCount := count }
    (written, { pager with fd })

/-- `pager_update_freelist`: whether it returned `0`. -/
def pagerUpdateFreelist (pager : Pager) (firstFree count : UInt32) : Bool × Pager :=
  match readHeader pager.fd with
  | (none, fd) => (false, { pager with fd })
  | (some header, fd) =>
    let pager := { pager with firstFreePage := firstFree, freePageCount := count }
    let (written, fd) := writeHeader fd
      { header with firstFreePage := firstFree, freePageCount := count }
    (written, { pager with fd })

/-- `pager_is_valid_page`. -/
def pagerIsValidPage (pager : Pager) (pageNum : UInt32) : Bool :=
  pageNum < pager.pageCount || pageNum == 0

@[simp] theorem PageData.toBytes_length (data : PageData) : data.toBytes.length = pageSize :=
  length_ofFn

theorem PageData.toBytes_ne_nil (data : PageData) : data.toBytes ≠ [] := by
  rw [← length_pos_iff, PageData.toBytes_length]
  decide

/-! ### Where pages lie -/

theorem getPageOffset_add_le (less : first < second) :
    getPageOffset first + pageSize ≤ getPageOffset second := by
  have step : (first.toNat + 1) * pageSize ≤ second.toNat * pageSize :=
    Nat.mul_le_mul_right _ (UInt32.lt_iff_toNat_lt.mp less)
  rw [Nat.add_mul] at step
  exact step

theorem headerSize_le_getPageOffset {pageNum : UInt32} (nonzero : pageNum ≠ 0) :
    headerSize ≤ getPageOffset pageNum := by
  have less : (0 : UInt32) < pageNum := UInt32.pos_iff_ne_zero.mpr nonzero
  have offset := getPageOffset_add_le less
  have sizes : headerSize ≤ pageSize := by decide
  omega

theorem getPageOffset_disjoint (different : first ≠ second) :
    getPageOffset first + pageSize ≤ getPageOffset second ∨
      getPageOffset second + pageSize ≤ getPageOffset first := by
  rcases UInt32.lt_or_lt_of_ne different with less | greater
  · exact Or.inl (getPageOffset_add_le less)
  · exact Or.inr (getPageOffset_add_le greater)

/-! ### The header of a file -/

/-- The header the first 48 bytes of a file hold. -/
def headerOf (file : File) : DatabaseHeader :=
  DatabaseHeader.decode (window file.byte 0 headerSize)

@[simp] theorem wordBytes_length (word : UInt32) : (wordBytes word).length = 4 :=
  littleEndian_length _ _

@[simp] theorem DatabaseHeader.encode_length (header : DatabaseHeader) :
    header.encode.length = headerSize := by
  simp [DatabaseHeader.encode, DatabaseHeader.words, headerSize]

theorem DatabaseHeader.encode_ne_nil (header : DatabaseHeader) : header.encode ≠ [] := by
  rw [← length_pos_iff, DatabaseHeader.encode_length]
  decide

theorem size_write_header (file : File) (header : DatabaseHeader) :
    (file.write 0 header.encode).size = max file.size headerSize := by
  rw [file.write_size header.encode_ne_nil, DatabaseHeader.encode_length, Nat.zero_add]

theorem ofNat_littleEndianValue_wordBytes (word : UInt32) :
    UInt32.ofNat (littleEndianValue (wordBytes word)) = word := by
  rw [wordBytes, littleEndianValue_littleEndian_of_lt word.toNat_lt, UInt32.ofNat_toNat]

/-- Reading a word back out of a buffer of words. -/
theorem wordAt_flatMap (words : List UInt32) (index : Nat) (inside : index < words.length) :
    wordAt (words.flatMap wordBytes) (4 * index) = words[index] := by
  induction words generalizing index with
  | nil => simp at inside
  | cons word rest inductionHypothesis =>
    rw [flatMap_cons]
    cases index with
    | zero =>
      rw [wordAt, drop_zero, take_left' (wordBytes_length _),
        ofNat_littleEndianValue_wordBytes]
      rfl
    | succ index =>
      have skip : (wordBytes word ++ rest.flatMap wordBytes).drop (4 * (index + 1)) =
          (rest.flatMap wordBytes).drop (4 * index) := by
        rw [drop_append, drop_eq_nil_of_le (by simp)]
        congr 1
      exact inductionHypothesis _ (by simpa using inside)

/-- A header read back from its own bytes. -/
@[simp] theorem DatabaseHeader.decode_encode (header : DatabaseHeader) :
    decode header.encode = header := by
  have word (index : Nat) (inside : index < 12) :=
    wordAt_flatMap header.words _ inside
  cases header
  simp only [decode, DatabaseHeader.mk.injEq]
  exact ⟨word 0 (by decide), word 1 (by decide), word 2 (by decide), word 3 (by decide),
    word 4 (by decide), word 5 (by decide), word 6 (by decide), word 7 (by decide),
    word 8 (by decide), word 9 (by decide), word 10 (by decide), word 11 (by decide)⟩

@[simp] theorem headerOf_write_encode (file : File) (header : DatabaseHeader) :
    headerOf (file.write 0 header.encode) = header := by
  have length := header.encode_length
  rw [headerOf, File.write_byte, ← length, window_overlay, DatabaseHeader.decode_encode]

theorem headerOf_write_page (file : File) {position : Nat} (bytes : List UInt8)
    (past : headerSize ≤ position) : headerOf (file.write position bytes) = headerOf file := by
  rw [headerOf, File.write_byte, window_overlay_disjoint (by omega), headerOf]

theorem headerOf_truncate (file : File) (keeps : headerSize ≤ size) :
    headerOf (file.truncate size) = headerOf file := by
  refine congrArg DatabaseHeader.decode (window_congr fun index inside => ?_)
  exact file.truncate_byte_of_lt (by omega)

/-- `read_header` leaves the file alone and returns its header. -/
theorem readHeader_spec {result : Option DatabaseHeader} (reading : readHeader fd = (result, next)) :
    next.file = fd.file ∧ next.writable = fd.writable ∧
      ∀ header, result = some header →
        header = headerOf fd.file ∧ headerSize ≤ fd.file.size := by
  unfold readHeader at reading
  split at reading
  · rename_i seek
    cases reading
    obtain ⟨file, writable, -⟩ := lseek_spec seek
    exact ⟨file, writable, nofun⟩
  · rename_i sought seek
    obtain ⟨file, writable, position⟩ := lseek_spec seek
    split at reading <;> rename_i exact <;> obtain ⟨rfl, rfl⟩ := Prod.mk.inj reading <;>
      obtain ⟨fileRead, writableRead, bytesRead⟩ := readExact_spec exact
    · exact ⟨fileRead.trans file, writableRead.trans writable, nofun⟩
    · rename_i bytes _
      refine ⟨fileRead.trans file, writableRead.trans writable, fun header same => ?_⟩
      obtain ⟨window, inside, -⟩ := bytesRead _ rfl
      rw [position rfl, file] at window inside
      rw [← Option.some.inj same, window]
      exact ⟨rfl, by simpa using inside (by decide)⟩

/-- A successful header update rewrites the header and nothing else. -/
theorem updateHeader_ok {change : DatabaseHeader → DatabaseHeader}
    (update : updateHeader fd change = (true, next)) :
    next.file = fd.file.write 0 (change (headerOf fd.file)).encode ∧
      next.writable = fd.writable ∧ headerSize ≤ fd.file.size := by
  unfold updateHeader at update
  split at update
  · cases update
  · rename_i header read reading
    obtain ⟨file, writable, decoded⟩ := readHeader_spec reading
    obtain ⟨rfl, size⟩ := decoded _ rfl
    unfold writeHeader at update
    split at update
    · cases update
    · rename_i sought seek
      obtain ⟨fileSeek, writableSeek, position⟩ := lseek_spec seek
      obtain ⟨fileWrite, writableWrite, -⟩ := writeExact_ok update
      rw [position rfl, fileSeek, file] at fileWrite
      exact ⟨fileWrite, (writableWrite.trans writableSeek).trans writable, size⟩

/-- Reading the header uses up no answer if there is none. -/
theorem readHeader_quiet (quiet : fd.schedule = []) :
    (readHeader fd).2.schedule = [] ∧ (readHeader fd).2.writable = fd.writable := by
  have kept := readExact_quiet { fd with position := 0 } headerSize quiet
  rw [readHeader, lseek_of_nil fd quiet]
  simp only
  split <;> rename_i reading <;> rw [reading] at kept <;> exact kept

theorem readHeader_of_nil (fd : Descriptor) (quiet : fd.schedule = [])
    (size : headerSize ≤ fd.file.size) :
    readHeader fd = (some (headerOf fd.file), { fd with position := headerSize }) := by
  have reading := readExact_of_nil { fd with position := 0 } headerSize quiet (by decide)
    (by simpa using size)
  simp only [readHeader, lseek_of_nil fd quiet, reading, Nat.zero_add, headerOf]

theorem updateHeader_of_nil (fd : Descriptor) (quiet : fd.schedule = [])
    (writable : fd.writable = true) (size : headerSize ≤ fd.file.size)
    (change : DatabaseHeader → DatabaseHeader) :
    updateHeader fd change = (true, { fd with
      file := fd.file.write 0 (change (headerOf fd.file)).encode
      position := headerSize }) := by
  have writing := writeExact_of_nil { fd with position := 0 } quiet writable
    (change (headerOf fd.file)).encode_ne_nil
  have seek := lseek_of_nil { fd with position := headerSize } quiet 0
  simp only [updateHeader, readHeader_of_nil fd quiet size, writeHeader, seek, writing, Nat.zero_add,
    DatabaseHeader.encode_length]

/-! ### What the page operations do when they succeed -/

/-- The page number in the first four bytes of a page. -/
def nextFree (file : File) (pageNum : UInt32) : UInt32 :=
  wordAt (window file.byte (getPageOffset pageNum) pageSize) 0

/-- The page a file holds under a number. -/
def diskPage (file : File) (pageNum : UInt32) : PageData :=
  PageData.ofBytes (window file.byte (getPageOffset pageNum) pageSize)

section PageOperations

variable {pageNum : UInt32} {pager next : Pager} {data : PageData}

theorem PageData.ofBytes_toBytes (data : PageData) : PageData.ofBytes data.toBytes = data := by
  funext index
  rw [ofBytes, toBytes, getD_eq_getElem?_getD]
  simp

theorem diskPage_write_self (file : File) (pageNum : UInt32) (data : PageData) :
    diskPage (file.write (getPageOffset pageNum) data.toBytes) pageNum = data := by
  have bytes := window_overlay file.byte (getPageOffset pageNum) data.toBytes
  rw [PageData.toBytes_length] at bytes
  rw [diskPage, File.write_byte, bytes, PageData.ofBytes_toBytes]

theorem diskPage_write_other (file : File) {other : UInt32} {bytes : List UInt8}
    (length : bytes.length = pageSize) (different : other ≠ pageNum) :
    diskPage (file.write (getPageOffset pageNum) bytes) other = diskPage file other := by
  rw [diskPage, File.write_byte, window_overlay_disjoint, diskPage]
  rw [length]
  exact getPageOffset_disjoint different

theorem diskPage_write_header (file : File) (header : DatabaseHeader) (nonzero : pageNum ≠ 0) :
    diskPage (file.write 0 header.encode) pageNum = diskPage file pageNum := by
  have past := headerSize_le_getPageOffset nonzero
  rw [diskPage, File.write_byte, window_overlay_disjoint, diskPage]
  rw [DatabaseHeader.encode_length]
  omega

theorem diskPage_truncate (file : File) (inside : getPageOffset pageNum + pageSize ≤ size) :
    diskPage (file.truncate size) pageNum = diskPage file pageNum := by
  refine congrArg PageData.ofBytes (window_congr fun index within => ?_)
  exact file.truncate_byte_of_lt (by omega)

/-- A read, successful or not, leaves the file and the handle's fields. -/
theorem pagerReadPage_keeps (pager : Pager) (pageNum : UInt32) :
    (pagerReadPage pager pageNum).2 =
        { pager with fd := (pagerReadPage pager pageNum).2.fd } ∧
      (pagerReadPage pager pageNum).2.fd.file = pager.fd.file := by
  unfold pagerReadPage
  split
  · exact ⟨rfl, rfl⟩
  · split
    · rename_i seek
      exact ⟨rfl, (lseek_spec seek).1⟩
    · rename_i seek
      have file := (lseek_spec seek).1
      split <;> rename_i reading <;> exact ⟨rfl, (readExact_spec reading).1.trans file⟩

/-- A successful read returns the page and leaves the file and the handle's fields. -/
theorem pagerReadPage_ok (read : pagerReadPage pager pageNum = (some data, next)) :
    data = diskPage pager.fd.file pageNum ∧ next.fd.file = pager.fd.file ∧
      next = { pager with fd := next.fd } := by
  unfold pagerReadPage at read
  split at read
  · cases read
  · split at read
    · cases read
    · rename_i sought seek
      obtain ⟨file, -, position⟩ := lseek_spec seek
      split at read
      · cases read
      · rename_i bytes done reading
        obtain ⟨fileRead, -, bytesRead⟩ := readExact_spec reading
        obtain ⟨same, rfl⟩ := Prod.mk.inj read
        have window := (bytesRead _ rfl).1
        rw [position rfl, file] at window
        exact ⟨by rw [← Option.some.inj same, window, diskPage], fileRead.trans file, rfl⟩

/-- Taking a page off the freelist changes the handle only. -/
theorem pagerAllocatePage_reuse (allocate : pagerAllocatePage pager = (some pageNum, next))
    (nonempty : pager.firstFreePage ≠ 0) :
    pageNum = pager.firstFreePage ∧ next.fd.file = pager.fd.file ∧
      next.pageCount = pager.pageCount ∧
      next.firstFreePage = nextFree pager.fd.file pager.firstFreePage ∧
      next.freePageCount = pager.freePageCount - 1 ∧ next.path = pager.path ∧
      getPageOffset pager.firstFreePage + pageSize ≤ pager.fd.file.size := by
  unfold pagerAllocatePage at allocate
  rw [if_pos nonempty] at allocate
  simp only at allocate
  split at allocate
  · cases allocate
  · rename_i sought seek
    obtain ⟨file, -, position⟩ := lseek_spec seek
    split at allocate
    · cases allocate
    · rename_i buf read reading
      obtain ⟨fileRead, -, bytesRead⟩ := readExact_spec reading
      obtain ⟨pageEq, rfl⟩ := Prod.mk.inj allocate
      obtain ⟨bytes, inside, -⟩ := bytesRead buf rfl
      rw [position rfl, file] at bytes inside
      refine ⟨(Option.some.inj pageEq).symm, fileRead.trans file, rfl, ?_, rfl, rfl,
        inside (by decide)⟩
      simp only [nextFree, bytes]

/-- Extending the file updates the page count in the handle and in the header. -/
theorem pagerAllocatePage_fresh (allocate : pagerAllocatePage pager = (some pageNum, next))
    (empty : pager.firstFreePage = 0) :
    pageNum = pager.pageCount ∧ next.pageCount = pager.pageCount + 1 ∧ next.firstFreePage = 0 ∧
      next.freePageCount = pager.freePageCount ∧ next.path = pager.path ∧
      headerSize ≤ pager.fd.file.size ∧
      next.fd.file = (pager.fd.file.write 0
        { headerOf pager.fd.file with pageCount := pager.pageCount + 1 }.encode).truncate
          (getPageOffset (pager.pageCount + 1)) := by
  unfold pagerAllocatePage at allocate
  rw [if_neg (by rw [empty]; exact fun absurd => absurd rfl)] at allocate
  simp only at allocate
  split at allocate
  · cases allocate
  · rename_i updated update
    obtain ⟨file, -, size⟩ := updateHeader_ok update
    split at allocate
    · cases allocate
    · rename_i cut truncate
      obtain ⟨pageEq, rfl⟩ := Prod.mk.inj allocate
      refine ⟨(Option.some.inj pageEq).symm, rfl, empty, rfl, rfl, size, ?_⟩
      rw [(ftruncate_ok truncate).1, file]

/-- Freeing a page writes the old list head into it and makes it the list head. -/
theorem pagerFreePage_ok (free : pagerFreePage pager pageNum = (true, next)) :
    pageNum ≠ 0 ∧ next.pageCount = pager.pageCount ∧ next.firstFreePage = pageNum ∧
      next.freePageCount = pager.freePageCount + 1 ∧ next.path = pager.path ∧
      next.fd.file = (pager.fd.file.write (getPageOffset pageNum)
        (freePageBytes pager.firstFreePage)).write 0
          { headerOf (pager.fd.file.write (getPageOffset pageNum)
              (freePageBytes pager.firstFreePage)) with
            firstFreePage := pageNum
            freePageCount := pager.freePageCount + 1 }.encode := by
  unfold pagerFreePage at free
  split at free
  · cases free
  · rename_i nonzero
    split at free
    · cases free
    · rename_i sought seek
      obtain ⟨file, -, position⟩ := lseek_spec seek
      split at free
      · cases free
      · rename_i written write
        obtain ⟨fileWrite, -⟩ := writeExact_ok write
        rw [position rfl, file] at fileWrite
        simp only at free
        split at free
        · cases free
        · rename_i updated update
          cases free
          obtain ⟨fileUpdate, -⟩ := updateHeader_ok update
          rw [fileWrite] at fileUpdate
          exact ⟨nonzero, rfl, rfl, rfl, rfl, fileUpdate⟩

/-- Writing a page changes that page of the file; a write that fails may have changed a part. -/
theorem pagerWritePage_spec {ok : Bool} (write : pagerWritePage pager pageNum data = (ok, next)) :
    next.pageCount = pager.pageCount ∧ next.firstFreePage = pager.firstFreePage ∧
      next.freePageCount = pager.freePageCount ∧ next.path = pager.path ∧
      ∃ bytes, bytes <+: data.toBytes ∧
        next.fd.file = pager.fd.file.write (getPageOffset pageNum) bytes ∧
        (ok = true → bytes = data.toBytes) := by
  unfold pagerWritePage at write
  simp only at write
  split at write
  · rename_i sought seek
    cases write
    obtain ⟨file, -, -⟩ := lseek_spec seek
    exact ⟨rfl, rfl, rfl, rfl, [], nil_prefix, by rw [File.write_nil]; exact file, nofun⟩
  · rename_i sought seek
    obtain ⟨file, -, position⟩ := lseek_spec seek
    split at write <;> rename_i written writing <;> obtain ⟨rfl, rfl⟩ := Prod.mk.inj write <;>
      obtain ⟨-, done, -, fileWrite, -, complete⟩ := writeExact_spec writing <;>
      rw [position rfl, file] at fileWrite
    · exact ⟨rfl, rfl, rfl, rfl, _, take_prefix _ _, fileWrite, nofun⟩
    · refine ⟨rfl, rfl, rfl, rfl, _, take_prefix _ _, fileWrite, fun _ => ?_⟩
      rw [complete rfl, take_length]

theorem pagerWritePage_ok (write : pagerWritePage pager pageNum data = (true, next)) :
    next.pageCount = pager.pageCount ∧ next.firstFreePage = pager.firstFreePage ∧
      next.freePageCount = pager.freePageCount ∧ next.path = pager.path ∧
      next.fd.file = pager.fd.file.write (getPageOffset pageNum) data.toBytes := by
  obtain ⟨pageCount, first, free, path, bytes, -, file, complete⟩ := pagerWritePage_spec write
  exact ⟨pageCount, first, free, path, complete rfl ▸ file⟩

end PageOperations

/-! ### Creating, closing and opening -/

section Creating

variable {path next : Path}

theorem Path.open_spec {writable : Bool} {result : Option Descriptor}
    (opened : path.open writable = (result, next)) :
    next.file = path.file ∧ next.access = path.access ∧
      ∀ fd, result = some fd → path.file = some fd.file ∧ fd.position = 0 ∧
        fd.writable = writable ∧ path.access.allows writable = true := by
  unfold Path.open at opened
  split at opened
  · obtain ⟨rfl, rfl⟩ := Prod.mk.inj opened
    exact ⟨rfl, rfl, nofun⟩
  · rename_i file someFile quiet
    cases allowed : path.access.allows writable <;> rw [allowed] at opened <;>
      cases opened
    · exact ⟨rfl, rfl, nofun⟩
    · exact ⟨rfl, rfl, fun fd same => by
        rw [← Option.some.inj same]
        exact ⟨someFile, rfl, rfl, rfl⟩⟩
  · rename_i file limit schedule someFile busy
    cases allowed : path.access.allows writable <;> rw [allowed] at opened <;>
      cases opened
    · exact ⟨rfl, rfl, nofun⟩
    · exact ⟨rfl, rfl, fun fd same => by
        rw [← Option.some.inj same]
        exact ⟨someFile, rfl, rfl, rfl⟩⟩
  · obtain ⟨rfl, rfl⟩ := Prod.mk.inj opened
    exact ⟨rfl, rfl, nofun⟩

theorem Access.allows_writing {access : Access} (allowed : access.allows true = true) :
    access = .readWrite := by
  cases access <;> first | rfl | cases allowed

theorem Path.openAny_spec (opened : path.openAny = (some fd, next)) :
    next.access = path.access ∧ path.file = some fd.file ∧
      (fd.writable = true → path.access = .readWrite) := by
  unfold Path.openAny at opened
  split at opened
  · rename_i first
    obtain ⟨same, rfl⟩ := Prod.mk.inj opened
    obtain ⟨-, access, descriptor⟩ := Path.open_spec first
    obtain ⟨file, -, -, allowed⟩ := descriptor fd same
    exact ⟨access, file, fun _ => Access.allows_writing allowed⟩
  · rename_i retry first
    obtain ⟨fileFirst, accessFirst, -⟩ := Path.open_spec first
    obtain ⟨-, access, descriptor⟩ := Path.open_spec opened
    obtain ⟨file, -, mode, -⟩ := descriptor fd rfl
    exact ⟨access.trans accessFirst, fileFirst ▸ file, fun writes => nomatch mode.symm.trans writes⟩

/-- A created file is empty. -/
theorem Path.create_ok (created : path.create = (some fd, next)) :
    fd.file = File.empty ∧ fd.position = 0 ∧ next.access = .readWrite := by
  unfold Path.create at created
  split at created
  · rename_i opened
    obtain ⟨same, rfl⟩ := Prod.mk.inj created
    obtain ⟨-, access, descriptor⟩ := Path.open_spec opened
    obtain ⟨found, position, -, allowed⟩ := descriptor fd same
    exact ⟨(Option.some.inj found).symm, position,
      access.trans (Access.allows_writing allowed)⟩
  · cases created

/-- A fresh database holds the initial header and no pages. -/
theorem pagerCreate_spec (created : pagerCreate path = (some pager, next)) :
    pager.pageCount = 1 ∧ pager.firstFreePage = 0 ∧ pager.freePageCount = 0 ∧
      pager.fd.file = File.empty.write 0 initHeader.encode ∧ pager.path.access = .readWrite := by
  unfold pagerCreate at created
  split at created
  · cases created
  · rename_i fd opened openPath
    obtain ⟨empty, -, access⟩ := Path.create_ok openPath
    split at created
    · cases created
    · rename_i written writing
      unfold writeHeader at writing
      split at writing
      · cases writing
      · rename_i sought seek
        obtain ⟨fileSeek, -, position⟩ := lseek_spec seek
        obtain ⟨fileWrite, -⟩ := writeExact_ok writing
        rw [position rfl, fileSeek, empty] at fileWrite
        split at created
        · cases created
        · rename_i synced sync
          obtain ⟨same, rfl⟩ := Prod.mk.inj created
          cases same
          have fileSync : synced.file = written.file := by
            rw [← call_file written, ← Descriptor.fsync, sync]
          exact ⟨rfl, rfl, rfl, fileSync.trans fileWrite, access⟩

theorem pagerClose_file (pager : Pager) : (pagerClose pager).file = some pager.fd.file := by
  unfold pagerClose
  split
  · exact congrArg _ (call_file _)
  · rfl

/-- An opened handle takes its fields from the header of the file. -/
theorem pagerOpen_spec (opened : pagerOpen path = (some pager, next)) :
    path.file = some pager.fd.file ∧ pager.pageCount = (headerOf pager.fd.file).pageCount ∧
      pager.firstFreePage = (headerOf pager.fd.file).firstFreePage ∧
      pager.freePageCount = (headerOf pager.fd.file).freePageCount ∧
      (headerOf pager.fd.file).magic = pagerMagic ∧ headerSize ≤ pager.fd.file.size ∧
      (pager.fd.writable = true → pager.path.access = .readWrite) := by
  unfold pagerOpen at opened
  split at opened
  · cases opened
  · rename_i fd after openAny
    obtain ⟨access, someFile, mode⟩ := Path.openAny_spec openAny
    split at opened
    · cases opened
    · rename_i stated stat
      have fileStat : stated.file = fd.file := by
        rw [← call_file fd, stat]
      have writableStat : stated.writable = fd.writable := by
        rw [← call_writable fd, stat]
      split at opened
      · cases opened
      · rename_i header read reading
        obtain ⟨fileRead, writableRead, decoded⟩ := readHeader_spec reading
        obtain ⟨rfl, size⟩ := decoded _ rfl
        split at opened
        · cases opened
        · rename_i magic
          obtain ⟨same, rfl⟩ := Prod.mk.inj opened
          cases same
          rw [← fileRead] at magic size ⊢
          refine ⟨by rw [fileRead, fileStat, someFile], rfl, rfl, rfl, not_not.mp magic, size,
            fun writes => ?_⟩
          exact access.trans (mode (by rw [← writableStat, ← writableRead]; exact writes))

end Creating

/-! ### Without input or output errors -/

/-- A handle on which every kernel call succeeds. -/
@[mk_iff]
structure Pager.Quiet (pager : Pager) : Prop where
  schedule : pager.fd.schedule = []
  writable : pager.fd.writable = true

instance (pager : Pager) : Decidable pager.Quiet :=
  decidable_of_iff _ pager.quiet_iff.symm

section Undisturbed

variable {path : Path} {pager next : Pager} {pageNum page : UInt32}

/-- The handle of a new database. -/
def newPager : Pager := (pagerCreate newPath).1.get (by decide +kernel)

theorem newPager_created : pagerCreate newPath = (some newPager, (pagerCreate newPath).2) :=
  Prod.fst_eq_iff.mp (Option.some_get _).symm

/-- The new database after its first allocation. -/
def onePage : Pager := (pagerAllocatePage newPager).2

theorem onePage_allocated : pagerAllocatePage newPager = (some 1, onePage) :=
  Prod.fst_eq_iff.mp (by decide +kernel)

/-- An empty freelist yields a fresh page. -/
theorem Pager.Quiet.allocate_fresh (quiet : pager.Quiet) (size : headerSize ≤ pager.fd.file.size)
    (empty : pager.firstFreePage = 0) :
    ∃ next, pagerAllocatePage pager = (some pager.pageCount, next) ∧ next.Quiet := by
  have update := updateHeader_of_nil _ quiet.schedule quiet.writable size
    fun header => { header with pageCount := pager.pageCount + 1 }
  have truncate := ftruncate_of_nil { pager.fd with
    file := pager.fd.file.write 0
      { headerOf pager.fd.file with pageCount := pager.pageCount + 1 }.encode
    position := headerSize } quiet.schedule quiet.writable (getPageOffset (pager.pageCount + 1))
  simp only [pagerAllocatePage, empty, update, truncate]
  exact ⟨_, rfl, quiet.schedule, quiet.writable⟩

/-- A free page inside the file is handed out. -/
theorem Pager.Quiet.allocate_reuse (quiet : pager.Quiet) (nonempty : pager.firstFreePage ≠ 0)
    (inside : getPageOffset pager.firstFreePage + pageSize ≤ pager.fd.file.size) :
    ∃ next, pagerAllocatePage pager = (some pager.firstFreePage, next) ∧ next.Quiet := by
  have seek := lseek_of_nil _ quiet.schedule (getPageOffset pager.firstFreePage)
  have reading := readExact_of_nil
    { pager.fd with position := getPageOffset pager.firstFreePage } pageSize
    quiet.schedule (by decide) inside
  simp only [pagerAllocatePage, nonempty, ne_eq, seek, reading]
  exact ⟨_, rfl, quiet.schedule, quiet.writable⟩

theorem freePageBytes_length (next : UInt32) : (freePageBytes next).length = pageSize := by
  rw [freePageBytes, length_append, length_replicate]
  rfl

theorem freePageBytes_ne_nil (next : UInt32) : freePageBytes next ≠ [] := by
  rw [← length_pos_iff, freePageBytes_length]
  decide

theorem size_write_freePage (file : File) (position : Nat) (next : UInt32) :
    (file.write position (freePageBytes next)).size = max file.size (position + pageSize) := by
  rw [file.write_size (freePageBytes_ne_nil next), freePageBytes_length]

/-- Every page but page 0 can be freed. -/
theorem Pager.Quiet.free (quiet : pager.Quiet) (nonzero : pageNum ≠ 0) :
    ∃ next, pagerFreePage pager pageNum = (true, next) ∧ next.Quiet := by
  have seek := lseek_of_nil _ quiet.schedule (getPageOffset pageNum)
  have writing := writeExact_of_nil { pager.fd with position := getPageOffset pageNum }
    quiet.schedule quiet.writable (freePageBytes_ne_nil pager.firstFreePage)
  have size : headerSize ≤ (pager.fd.file.write (getPageOffset pageNum)
      (freePageBytes pager.firstFreePage)).size := by
    rw [size_write_freePage]
    have sizes : headerSize ≤ pageSize := by decide
    omega
  have update := updateHeader_of_nil { pager.fd with
    file := pager.fd.file.write _ _
    position := getPageOffset pageNum + (freePageBytes pager.firstFreePage).length }
    quiet.schedule quiet.writable size
  simp only [pagerFreePage, nonzero, seek, writing, update]
  exact ⟨_, rfl, quiet.schedule, quiet.writable⟩

/-- The page is within the page count and within the file. -/
def Pager.Holds (pager : Pager) (pageNum : UInt32) : Prop :=
  (pageNum < pager.pageCount ∨ pageNum = 0) ∧
    getPageOffset pageNum + pageSize ≤ pager.fd.file.size

instance (pager : Pager) (pageNum : UInt32) : Decidable (pager.Holds pageNum) :=
  inferInstanceAs (Decidable (_ ∧ _))

/-- Only pages the file holds are read. -/
theorem pagerReadPage_holds {data : PageData}
    (read : pagerReadPage pager pageNum = (some data, next)) : pager.Holds pageNum := by
  unfold pagerReadPage at read
  split at read
  · cases read
  · rename_i inside
    split at read
    · cases read
    · rename_i sought seek
      obtain ⟨file, -, position⟩ := lseek_spec seek
      split at read
      · cases read
      · rename_i bytes done reading
        obtain ⟨-, -, bytesRead⟩ := readExact_spec reading
        have size := (bytesRead _ rfl).2.1 (by decide)
        rw [position rfl, file] at size
        refine ⟨?_, size⟩
        by_cases zero : pageNum = 0
        · exact Or.inr zero
        · exact Or.inl (UInt32.not_le.mp fun past => inside ⟨past, zero⟩)

/-- Allocating a page leaves the other pages as they are, as long as the page count does not
wrap. -/
theorem pagerAllocatePage_keeps (allocate : pagerAllocatePage pager = (some page, next))
    (room : pager.firstFreePage = 0 → pager.pageCount < next.pageCount)
    (holds : pager.Holds pageNum) (nonzero : pageNum ≠ 0) :
    next.Holds pageNum ∧ diskPage next.fd.file pageNum = diskPage pager.fd.file pageNum := by
  by_cases empty : pager.firstFreePage = 0
  · obtain ⟨-, pages, -, -, -, -, file⟩ := pagerAllocatePage_fresh allocate empty
    have less := UInt32.lt_trans (holds.1.resolve_right nonzero) (room empty)
    have inside := getPageOffset_add_le less
    rw [pages] at inside
    rw [Pager.Holds, file, diskPage_truncate _ inside, diskPage_write_header _ _ nonzero]
    exact ⟨⟨Or.inl less, inside⟩, rfl⟩
  · obtain ⟨-, file, pages, -⟩ := pagerAllocatePage_reuse allocate empty
    rw [Pager.Holds, file, pages]
    exact ⟨holds, rfl⟩

/-- Freeing a page keeps the other pages. -/
theorem pagerFreePage_keeps (free : pagerFreePage pager page = (true, next)) (nonzero : pageNum ≠ 0)
    (different : pageNum ≠ page) :
    next.pageCount = pager.pageCount ∧ (pager.Holds pageNum → next.Holds pageNum ∧
      diskPage next.fd.file pageNum = diskPage pager.fd.file pageNum) := by
  obtain ⟨-, count, -, -, -, file⟩ := pagerFreePage_ok free
  refine ⟨count, fun holds => ?_⟩
  rw [Pager.Holds, count, file, size_write_header,
    diskPage_write_header _ _ nonzero, diskPage_write_other _ (freePageBytes_length _) different]
  exact ⟨⟨holds.1, le_max_of_le_left (le_max_of_le_left holds.2)⟩, rfl⟩

theorem Pager.Quiet.of_allocate (quiet : pager.Quiet) (size : headerSize ≤ pager.fd.file.size)
    (allocate : pagerAllocatePage pager = (some page, next)) : next.Quiet := by
  by_cases empty : pager.firstFreePage = 0
  · obtain ⟨other, again, quietOther⟩ := quiet.allocate_fresh size empty
    cases (again.symm.trans allocate)
    exact quietOther
  · obtain ⟨-, -, -, -, -, -, inside⟩ := pagerAllocatePage_reuse allocate empty
    obtain ⟨other, again, quietOther⟩ := quiet.allocate_reuse empty inside
    cases (again.symm.trans allocate)
    exact quietOther

/-- Every page the file holds can be read. -/
theorem Pager.Quiet.read (quiet : pager.Quiet) (holds : pager.Holds pageNum) :
    ∃ next, pagerReadPage pager pageNum = (some (diskPage pager.fd.file pageNum), next) ∧
      next.Quiet := by
  have inside : ¬(pageNum ≥ pager.pageCount ∧ pageNum ≠ 0) := by
    rintro ⟨past, nonzero⟩
    rcases holds.1 with less | zero
    · exact absurd less (UInt32.not_lt.mpr past)
    · exact nonzero zero
  have seek := lseek_of_nil _ quiet.schedule (getPageOffset pageNum)
  have reading := readExact_of_nil { pager.fd with position := getPageOffset pageNum } pageSize
    quiet.schedule (by decide) holds.2
  simp only [pagerReadPage, if_neg inside, seek, reading]
  exact ⟨_, rfl, quiet.schedule, quiet.writable⟩

/-- Every page can be written. -/
theorem Pager.Quiet.write (quiet : pager.Quiet) (pageNum : UInt32) (data : PageData) :
    ∃ next, pagerWritePage pager pageNum data = (true, next) ∧ next.Quiet := by
  have seek := lseek_of_nil _ quiet.schedule (getPageOffset pageNum)
  have writing := writeExact_of_nil { pager.fd with position := getPageOffset pageNum }
    quiet.schedule quiet.writable data.toBytes_ne_nil
  simp only [pagerWritePage, seek, writing]
  exact ⟨_, rfl, quiet.schedule, quiet.writable⟩

/-- A readable file with the magic number in its header can be opened. -/
theorem pagerOpen_of_nil {file : File} (someFile : path.file = some file)
    (quiet : path.schedule = []) (access : path.access ≠ .none) (size : headerSize ≤ file.size)
    (magic : (headerOf file).magic = pagerMagic) :
    ∃ pager next, pagerOpen path = (some pager, next) ∧
      (path.access = .readWrite → pager.Quiet) := by
  have opened : ∃ writable next, path.openAny =
      (some { file, position := 0, writable, schedule := [] }, next) ∧
        (path.access = .readWrite → writable = true) := by
    rcases found : path.access with _ | _ | _
    · exact absurd found access
    · refine ⟨false, path, ?_, nofun⟩
      simp only [Path.openAny, Path.open, someFile, quiet, found, Access.allows, Bool.not_true,
        Bool.not_false, cond_false, cond_true]
    · refine ⟨true, path, ?_, fun _ => rfl⟩
      simp only [Path.openAny, Path.open, someFile, quiet, found, Access.allows, cond_true]
  obtain ⟨writable, next, openAny, mode⟩ := opened
  have reading := readHeader_of_nil { file, position := 0, writable, schedule := [] }
    rfl size
  simp only [pagerOpen, openAny]
  rw [call_of_nil rfl]
  simp only [reading, magic]
  exact ⟨_, _, rfl, fun full => ⟨rfl, mode full⟩⟩

end Undisturbed

end TinyDb

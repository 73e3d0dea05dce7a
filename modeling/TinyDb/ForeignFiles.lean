/-
This file proves what opening a database does to a file that is none.

A file is foreign when it is shorter than a header or does not start with the magic
number. The pager refuses to open it, and then the same path is created anew: the
file is truncated and gets a header. From that moment on the file starts with the
magic number, whatever fails later. So the bytes survive exactly when the system
does not let the file be opened for writing, or stops the write of the header just
when the file is again what it was.
-/

import TinyDb.LeafTree
import TinyDb.Storage

namespace TinyDb

open Heaps Bytes Posix List

variable {file : File} {header : DatabaseHeader} {fd next : Descriptor} {ok : Bool}
  {pageNum : UInt32} {path failed : Path} {result : Option Descriptor}

/-! ### Files with a header -/

/-- No database header can be read from the file. -/
def Foreign (file : File) : Prop := file.size < headerSize ∨ (headerOf file).magic ≠ pagerMagic

/-- The file has a header and starts with the magic number. -/
structure Marked (file : File) : Prop where
  size : headerSize ≤ file.size
  magic : window file.byte 0 4 = wordBytes pagerMagic

theorem Marked.header_magic (marked : Marked file) :
    (headerOf file).magic = pagerMagic := by
  rw [headerOf, DatabaseHeader.decode, wordAt, window_drop_take _ (by decide), marked.magic,
    ofNat_littleEndianValue_wordBytes]

theorem Marked.not_foreign (marked : Marked file) : ¬Foreign file := by
  rintro (short | wrong)
  · exact Nat.not_le.mpr short marked.size
  · exact wrong marked.header_magic

theorem DatabaseHeader.take_encode (header : DatabaseHeader) :
    header.encode.take 4 = wordBytes header.magic := by
  rw [encode, words, flatMap_cons, take_left' (wordBytes_length _)]

/-- Writing part of a header with the magic number keeps the mark. -/
theorem Marked.write_header (marked : Marked file) (magic : header.magic = pagerMagic) (done : Nat) :
    Marked (file.write 0 (header.encode.take done)) := by
  constructor
  · refine Nat.le_trans marked.size ?_
    rw [File.write]
    split
    · exact Nat.le_refl _
    · exact Nat.le_max_left _ _
  · rw [← marked.magic, File.write_byte]
    refine window_congr fun index inside => ?_
    by_cases written : index < (header.encode.take done).length
    · have old : (window file.byte 0 4).getD index 0 = file.byte (0 + index) :=
        window_getD _ inside
      rw [overlay_inside written, ← old, marked.magic, ← magic, ← header.take_encode]
      rw [length_take] at written
      simp only [getD_eq_getElem?_getD, getElem?_take]
      rw [if_pos (by omega), if_pos inside]
    · exact overlay_outside (by omega)

theorem Marked.truncate (marked : Marked file) {size : Nat} (keeps : headerSize ≤ size) :
    Marked (file.truncate size) := by
  refine ⟨keeps, ?_⟩
  rw [← marked.magic]
  refine window_congr fun index inside => file.truncate_byte_of_lt ?_
  rw [headerSize] at keeps
  omega

theorem marked_write (magic : header.magic = pagerMagic) (file : File) :
    Marked (file.write 0 header.encode) := by
  constructor
  · rw [size_write_header]
    exact Nat.le_max_right _ _
  · have whole := window_overlay file.byte 0 header.encode
    rw [DatabaseHeader.encode_length] at whole
    have start : ((window (overlay file.byte 0 header.encode) 0 headerSize).drop 0).take 4 =
        window (overlay file.byte 0 header.encode) 0 4 :=
      window_drop_take _ (by decide)
    rw [File.write_byte, ← start, whole, drop_zero, header.take_encode, magic]

/-! ### Calls that may fail -/

/-- `write_header` writes a part of the header, and all of it when it returns `0`. -/
theorem writeHeader_spec (writing : writeHeader fd header = (ok, next)) :
    ∃ done, next.file = fd.file.write 0 (header.encode.take done) ∧
      (ok = true → next.file = fd.file.write 0 header.encode) := by
  unfold writeHeader at writing
  split at writing
  · rename_i seek
    cases writing
    exact ⟨0, by rw [take_zero, File.write_nil, (lseek_spec seek).1], nofun⟩
  · rename_i sought seek
    obtain ⟨file, -, position⟩ := lseek_spec seek
    obtain ⟨-, done, -, written, -, complete⟩ := writeExact_spec writing
    rw [position rfl, file] at written
    refine ⟨done, written, fun all => ?_⟩
    rw [written, complete all, take_length]

theorem updateHeader_marked {change : DatabaseHeader → DatabaseHeader} (marked : Marked fd.file)
    (update : updateHeader fd change = (ok, next))
    (keeps : ∀ header, (change header).magic = header.magic) : Marked next.file := by
  unfold updateHeader at update
  split at update
  · rename_i reading
    cases update
    rw [(readHeader_spec reading).1]
    exact marked
  · rename_i header read reading
    obtain ⟨file, -, decoded⟩ := readHeader_spec reading
    obtain ⟨rfl, -⟩ := decoded _ rfl
    obtain ⟨done, written, -⟩ := writeHeader_spec update
    rw [written, file]
    exact marked.write_header ((keeps _).trans marked.header_magic) _

theorem ftruncate_file (fd : Descriptor) (size : Nat) :
    (fd.ftruncate size).2.file = fd.file ∨ (fd.ftruncate size).2.file = fd.file.truncate size := by
  have file := call_file fd
  unfold Descriptor.ftruncate
  split <;> rename_i called <;> rw [called] at file
  · split
    · exact Or.inr (congrArg (File.truncate · size) file)
    · exact Or.inl file
  · exact Or.inl file

/-- Extending a file keeps its mark, whatever fails. -/
theorem pagerAllocatePage_marked {pager next : Pager} {result : Option UInt32}
    (marked : Marked pager.fd.file) (empty : pager.firstFreePage = 0)
    (room : pager.pageCount + 1 ≠ 0) (allocate : pagerAllocatePage pager = (result, next)) :
    Marked next.fd.file := by
  unfold pagerAllocatePage at allocate
  rw [if_neg (not_not.mpr empty)] at allocate
  simp only at allocate
  split at allocate <;> rename_i updated update <;>
    have after := updateHeader_marked marked update fun _ => rfl
  · obtain ⟨-, rfl⟩ := Prod.mk.inj allocate
    exact after
  · have file := ftruncate_file updated (getPageOffset (pager.pageCount + 1))
    split at allocate <;> rename_i cut truncate <;> rw [truncate] at file <;>
      cases allocate <;> rcases file with same | shorter
    · exact same ▸ after
    · exact shorter ▸ after.truncate (headerSize_le_getPageOffset room)
    · exact same ▸ after
    · exact shorter ▸ after.truncate (headerSize_le_getPageOffset room)

/-! ### A new cache -/

section NewCache

variable {cache next : PageCache} {pager : Pager}

/-- With room for a page, pinning one changes nothing of the file. -/
theorem pageCacheGet_file {result : Option Addr} (attached : cache.pager = some pager)
    (room : cache.count < cache.maxPages) (run : pageCacheGet cache pageNum = .ok (result, next)) :
    ∃ after, next.pager = some after ∧ after.pageCount = pager.pageCount ∧
      after.fd.file = pager.fd.file ∧ (result = none → next.pages = cache.pages) := by
  rcases pageCacheGet_cases run with ⟨page, -, rfl, hit⟩ | ⟨-, absent, -⟩ |
    ⟨-, -, done, ready, making, finish⟩
  · have rest := (hitPage_spec hit).rest
    exact ⟨pager, by rw [rest]; exact attached, rfl, rfl, nofun⟩
  · rw [attached] at absent
    cases absent
  · obtain ⟨rfl, rfl⟩ := Prod.mk.inj (Except.ok.inj
      ((makeRoom_of_room _ (by exact room)).symm.trans making))
    obtain ⟨other, present, load⟩ := finish
    cases (attached.symm.trans present)
    obtain ⟨same, file⟩ := pagerReadPage_keeps _ _
    have count := congrArg Pager.pageCount same
    obtain ⟨after, reading, -, failed⟩ | ⟨data, after, reading, rfl, loaded⟩ := loadPage_cases load
    · rw [reading] at file count
      exact ⟨after, by rw [failed.rest], count, file, fun _ => by rw [failed.rest]⟩
    · rw [reading] at file count
      exact ⟨after, by rw [loaded.rest], count, file, nofun⟩

theorem pinWrite_file {body : PageData → Except Fault (Option PageData)} {result : Option Bool}
    (attached : cache.pager = some pager) (room : cache.count < cache.maxPages)
    (run : pinWrite cache pageNum body = .ok (result, next)) :
    ∃ after, next.pager = some after ∧ after.pageCount = pager.pageCount ∧
      after.fd.file = pager.fd.file ∧ (result = none → next.pages = cache.pages) := by
  simp only [pinWrite, bind_eq_ok] at run
  obtain ⟨⟨pinned, held⟩, get, run⟩ := run
  obtain ⟨after, present, count, file, pages⟩ := pageCacheGet_file attached room get
  cases pinned with
  | none =>
    cases run
    exact ⟨after, present, count, file, fun _ => pages rfl⟩
  | some page =>
    simp only [bind_eq_ok] at run
    obtain ⟨read, -, answer, -, run⟩ := run
    cases answer with
    | none =>
      simp only [bind_eq_ok] at run
      obtain ⟨unpinned, unpin, finish⟩ := run
      cases finish
      refine ⟨after, ?_, count, file, fun impossible => by cases impossible⟩
      rw [(update_rest unpin).2.1]
      exact present
    | some data =>
      simp only [bind_eq_ok] at run
      obtain ⟨written, write, marked, mark, unpinned, unpin, finish⟩ := run
      cases finish
      refine ⟨after, ?_, count, file, fun impossible => by cases impossible⟩
      rw [(update_rest unpin).2.1, (update_rest mark).2.1, (update_rest write).2.1]
      exact present

theorem pageCacheDestroy_empty (empty : ∀ idx, cache.pages idx = none) :
    pageCacheDestroy cache = .ok cache.pager := by
  have flush : ∀ indices flushed, flushBuckets indices cache flushed = .ok (flushed, cache) := by
    intro indices
    induction indices with
    | nil => exact fun flushed => rfl
    | cons idx rest inductionHypothesis =>
      intro flushed
      rw [flushBuckets, empty, flushChain]
      exact inductionHypothesis _
  have free : ∀ indices : List Nat, indices.foldlM
      (fun heap idx => freeChain cache.heap.next heap (cache.pages idx)) cache.heap =
        .ok cache.heap := by
    intro indices
    induction indices with
    | nil => rfl
    | cons idx rest inductionHypothesis =>
      rw [foldlM_cons, empty, freeChain]
      exact inductionHypothesis
  simp only [pageCacheDestroy, pageCacheFlush, flush, ok_bind, free, pure_eq_ok]

theorem btreeCreate_marked {result : Option BTree} (attached : cache.pager = some pager)
    (room : cache.count < cache.maxPages) (marked : Marked pager.fd.file)
    (empty : pager.firstFreePage = 0) (below : pager.pageCount + 1 ≠ 0)
    (run : btreeCreate cache = .ok (result, next)) :
    ∃ after, next.pager = some after ∧ Marked after.fd.file ∧
      (result = none → next.pages = cache.pages) := by
  cases allocate : pagerAllocatePage pager with
  | mk answer grown =>
    have markedGrown := pagerAllocatePage_marked marked empty below allocate
    simp only [btreeCreate, attached, allocate] at run
    cases answer with
    | none =>
      cases run
      exact ⟨grown, rfl, markedGrown, fun _ => rfl⟩
    | some root =>
      simp only [bind_eq_ok] at run
      obtain ⟨⟨written, last⟩, write, finish⟩ := run
      cases finish
      have withPager : ({ cache with pager := some grown }).pager = some grown := rfl
      obtain ⟨after, present, -, file, pages⟩ := pinWrite_file withPager room write
      refine ⟨after, present, file ▸ markedGrown, fun failed => pages ?_⟩
      cases written with
      | none => rfl
      | some done => cases failed

/-- Creating the catalog over a new file keeps the mark of the file, whatever fails. -/
theorem catalogOpen_marked {opened : Path} {result : Option Catalog}
    (created : pagerCreate path = (some pager, opened))
    (run : catalogOpen (storageCache pager) = .ok (result, next)) :
    ∃ after, next.pager = some after ∧ Marked after.fd.file ∧
      (result = none → ∀ idx, next.pages idx = none) := by
  obtain ⟨pages, first, -, file, -⟩ := pagerCreate_spec created
  simp only [catalogOpen, bind_eq_ok] at run
  obtain ⟨⟨tree, last⟩, create, finish⟩ := run
  obtain ⟨after, present, marked, kept⟩ := btreeCreate_marked
    (rfl : (storageCache pager).pager = some pager) (by decide : (0 : Int) < clampMaxPages 256 256) (file ▸ marked_write rfl _) first
    (by rw [pages]; decide) create
  cases tree with
  | none =>
    cases finish
    exact ⟨after, present, marked, fun _ idx => congrFun (kept rfl) idx⟩
  | some tree =>
    cases finish
    exact ⟨after, present, marked, nofun⟩

end NewCache

/-! ### Opening a foreign file -/

/-- `tinydb_open` of the path returns an error and leaves the file as it was. -/
def OpenKeeps (path : Path) (file : File) : Prop :=
  ∃ after, tinydbOpen (.named path) = .ok (none, after) ∧ after.file = some file

/-- The system does not let `pager_create` change the file: the file cannot be opened for writing,
or the write of the header to the truncated file fails when the file is again what it was. -/
def Spared (path : Path) (file : File) : Prop :=
  path.create.1 = none ∨ ∃ fd opened written, path.create = (some fd, opened) ∧
    writeHeader fd initHeader = (false, written) ∧ written.file = file

section Opening

variable {path next : Path} {file : File}

theorem Path.openAny_file (opened : path.openAny = (result, next)) :
    next.file = path.file ∧ next.access = path.access := by
  unfold Path.openAny at opened
  split at opened
  · rename_i first
    cases opened
    obtain ⟨file, access, -⟩ := Path.open_spec first
    exact ⟨file, access⟩
  · rename_i first
    obtain ⟨file, access, -⟩ := Path.open_spec first
    obtain ⟨fileNext, accessNext, -⟩ := Path.open_spec opened
    exact ⟨fileNext.trans file, accessNext.trans access⟩

theorem pagerOpen_failed (opened : pagerOpen path = (none, next)) :
    next.file = path.file ∧ next.access = path.access := by
  unfold pagerOpen at opened
  split at opened
  · rename_i openAny
    cases opened
    exact Path.openAny_file openAny
  · rename_i openAny
    have same := Path.openAny_file openAny
    split at opened
    · obtain ⟨-, rfl⟩ := Prod.mk.inj opened
      exact same
    · split at opened
      · obtain ⟨-, rfl⟩ := Prod.mk.inj opened
        exact same
      · split at opened
        · obtain ⟨-, rfl⟩ := Prod.mk.inj opened
          exact same
        · cases opened

/-- `pager_open` refuses a foreign file. -/
theorem pagerOpen_foreign (present : path.file = some file) (foreign : Foreign file) :
    ∃ failed, pagerOpen path = (none, failed) := by
  cases opening : pagerOpen path with
  | mk result next =>
    cases result with
    | none => exact ⟨next, rfl⟩
    | some pager =>
      obtain ⟨found, -, -, -, magic, size, -⟩ := pagerOpen_spec opening
      cases (present.symm.trans found)
      rcases foreign with short | wrong
      · exact absurd size (Nat.not_le.mpr short)
      · exact absurd magic wrong

theorem Path.create_failed (created : path.create = (none, next)) : next.file = path.file := by
  unfold Path.create at created
  split at created
  · cases created
  · obtain ⟨-, rfl⟩ := Prod.mk.inj created
    rfl

/-- Creating a database where a foreign file was. -/
theorem pagerCreate_keeps_iff (present : path.file = some file) (foreign : Foreign file) :
    (∃ after, pagerCreate path = (none, after) ∧ after.file = some file) ↔ Spared path file := by
  cases create : path.create with
  | mk result opened =>
    cases result with
    | none =>
      refine iff_of_true ⟨opened, ?_, (Path.create_failed create).trans present⟩
        (Or.inl (by rw [create]))
      simp only [pagerCreate, create]
    | some fd =>
      cases writing : writeHeader fd initHeader with
      | mk ok written =>
        cases ok with
        | false =>
          simp only [pagerCreate, Spared, create, writing, Prod.mk.injEq, reduceCtorEq, false_or,
            Option.some.injEq, true_and, exists_eq_left']
          constructor
          · exact fun kept => ⟨_, _, _, ⟨rfl, rfl⟩, writing, kept⟩
          · rintro ⟨_, _, _, ⟨rfl, rfl⟩, again, same⟩
            cases (writing.symm.trans again)
            exact same
        | true =>
          -- the header is written: the file starts with the magic number now
          obtain ⟨-, -, all⟩ := writeHeader_spec writing
          have marked : Marked written.file := by
            rw [all rfl]
            exact marked_write rfl _
          refine iff_of_false ?_ ?_
          · rintro ⟨after, failed, kept⟩
            have file := call_file written
            simp only [pagerCreate, create, writing] at failed
            split at failed
            · rename_i synced sync
              cases failed
              rw [show written.call = written.fsync from rfl, sync] at file
              cases kept
              exact (file ▸ marked).not_foreign foreign
            · cases failed
          · rintro (refused | ⟨_, _, _, same, again, -⟩)
            · rw [create] at refused
              cases refused
            · obtain ⟨sameFd, -⟩ := Prod.mk.inj (create.symm.trans same)
              cases sameFd
              cases writing.symm.trans again

theorem openKeeps_iff (present : path.file = some file) (foreign : Foreign file)
    (opening : pagerOpen path = (none, failed)) : OpenKeeps path file ↔ Spared failed file := by
  rw [← pagerCreate_keeps_iff ((pagerOpen_failed opening).1.trans present) foreign]
  cases create : pagerCreate failed with
  | mk result opened =>
    simp only [OpenKeeps, tinydbOpen, openPager, opening, create]
    cases result with
    | none => simp only [pure_eq_ok, Except.ok.injEq, Prod.mk.injEq]
    | some pager =>
      refine iff_of_false ?_ nofun
      rintro ⟨after, run, kept⟩
      simp only [bind_eq_ok] at run
      obtain ⟨⟨catalog, next⟩, opened, run⟩ := run
      obtain ⟨last, attached, marked, empty⟩ := catalogOpen_marked create opened
      cases catalog with
      | some catalog => cases run
      | none =>
        simp only [closePager, pageCacheDestroy_empty (empty rfl), attached, ok_bind, pure_eq_ok,
          Option.map_some, Option.getD_some] at run
        cases run
        rw [pagerClose_file] at kept
        exact (Option.some.inj kept ▸ marked).not_foreign foreign

end Opening

/-! ### Without input or output errors -/

theorem Path.openAny_quiet {next : Path} (quiet : path.schedule = [])
    (opened : path.openAny = (result, next)) :
    next.schedule = [] ∧ ∀ fd, result = some fd → fd.schedule = [] := by
  have first : ∀ {path next : Path} {writable : Bool} {result : Option Descriptor},
      path.schedule = [] → path.open writable = (result, next) →
      next.schedule = [] ∧ ∀ fd, result = some fd → fd.schedule = [] := by
    rintro ⟨file, access, _⟩ next writable result rfl opened
    cases file with
    | none =>
      cases opened
      exact ⟨rfl, nofun⟩
    | some file =>
      rw [Path.open] at opened
      cases allowed : access.allows writable <;>
        simp only [allowed] at opened <;>
        obtain ⟨rfl, rfl⟩ := opened
      · exact ⟨rfl, nofun⟩
      · exact ⟨rfl, fun fd same => Option.some.inj same ▸ rfl⟩
  unfold Path.openAny at opened
  split at opened
  · rename_i writing
    cases opened
    exact first quiet writing
  · rename_i refused
    exact first (first quiet refused).1 opened

theorem pagerOpen_quiet (quiet : path.schedule = []) (opening : pagerOpen path = (none, failed)) :
    failed.schedule = [] := by
  unfold pagerOpen at opening
  split at opening
  · rename_i opened
    cases opening
    exact (Path.openAny_quiet quiet opened).1
  · rename_i fd next opened
    have quietFd := (Path.openAny_quiet quiet opened).2 fd rfl
    have kept := (readHeader_quiet quietFd).1
    rw [call_of_nil quietFd] at opening
    dsimp only at opening
    split at opening <;> rename_i reading <;> rw [reading] at kept
    · obtain ⟨-, rfl⟩ := Prod.mk.inj opening
      exact kept
    · split at opening
      · obtain ⟨-, rfl⟩ := Prod.mk.inj opening
        exact kept
      · cases opening

theorem spared_quiet_iff (quiet : path.schedule = []) (file : File) :
    Spared path file ↔ path.access ≠ .readWrite := by
  cases access : path.access with
  | none => exact iff_of_true (Or.inl (by
      simp only [Path.create, Path.open, quiet, access, Access.allows, cond_false])) (by decide)
  | readOnly => exact iff_of_true (Or.inl (by
      simp only [Path.create, Path.open, quiet, access, Access.allows, Bool.not_true,
        cond_false])) (by decide)
  | readWrite =>
    let fd : Descriptor := { file := File.empty, position := 0, writable := true, schedule := [] }
    have create : path.create = (some fd, { path with file := some File.empty }) := by
      simp only [Path.create, Path.open, quiet, access, Access.allows, cond_true, fd]
    have seek := lseek_of_nil fd rfl 0
    have writing := writeExact_of_nil { fd with position := 0 } rfl rfl initHeader.encode_ne_nil
    refine iff_of_false ?_ fun different => different rfl
    rintro (refused | ⟨other, opened, written, same, failed, -⟩)
    · rw [create] at refused
      cases refused
    · obtain ⟨sameFd, -⟩ := Prod.mk.inj (create.symm.trans same)
      cases sameFd
      cases failed

/-- Opening a foreign file leaves it alone exactly when the system keeps the file from being
created anew; without input or output errors, when the file may not be written. -/
theorem foreign_file_kept_iff {path : Path} {file : File} (present : path.file = some file)
    (foreign : Foreign file) :
    ∃ failed, pagerOpen path = (none, failed) ∧ (OpenKeeps path file ↔ Spared failed file) ∧
      (path.schedule = [] → (OpenKeeps path file ↔ path.access ≠ .readWrite)) := by
  obtain ⟨failed, opening⟩ := pagerOpen_foreign present foreign
  have general := openKeeps_iff present foreign opening
  refine ⟨failed, opening, general, fun quiet => ?_⟩
  rw [general, spared_quiet_iff (pagerOpen_quiet quiet opening), (pagerOpen_failed opening).2]

/-! ### A text file -/

/-- A file with three bytes of text. -/
def textFile : File := File.empty.write 0 [97, 98, 99]

/-- A path to the text file, with some permissions. -/
def textPath (access : Access) : Path := { file := some textFile, access, schedule := [] }

theorem textFile_foreign : Foreign textFile := Or.inl (by decide)

theorem foreign_file_kept_read_only :
    Foreign textFile ∧ OpenKeeps (textPath .readOnly) textFile := by
  obtain ⟨failed, -, -, quiet⟩ :=
    foreign_file_kept_iff (rfl : (textPath .readOnly).file = some textFile) textFile_foreign
  exact ⟨textFile_foreign, (quiet rfl).mpr nofun⟩

/-- With the permission to write, a database takes the place of the text. -/
theorem text_file_overwritten : ∃ failed storage after pager,
    pagerOpen (textPath .readWrite) = (none, failed) ∧
      tinydbOpen (.named (textPath .readWrite)) = .ok (some storage, after) ∧
      storage.cache.pager = some pager ∧ pager.fd.file ≠ textFile := by
  obtain ⟨failed, opening⟩ := pagerOpen_foreign
    (rfl : (textPath .readWrite).file = some textFile) textFile_foreign
  obtain ⟨storage, after, opened, pager, attached, size⟩ : ∃ storage after,
      tinydbOpen (.named (textPath .readWrite)) = .ok (some storage, after) ∧
        ∃ pager ∈ storage.cache.pager, pager.fd.file.size ≠ textFile.size := by
    decide +kernel
  exact ⟨failed, storage, after, pager, opening, opened, attached, fun same => size (same ▸ rfl)⟩

end TinyDb

/-
This file is about catalog entries as they lie in memory: character arrays with a
string and whatever stands behind its terminator, a number for the kind, and a
flag that is any integer. Serialising such a record and reading it back gives a
record with the same strings, and serialising that one gives the same bytes again.

What the record stands for is an entry of the catalog, and the two functions act on
records as `serializeEntry` and `deserializeEntry` do on entries.
-/

import TinyDb.CatalogEntries

namespace TinyDb

open Bytes CStrings List

/-- `CatalogEntry` as it lies in memory. -/
structure CatalogRecord where
  type : UInt32
  name : CharArray 64
  tblName : CharArray 64
  sql : CharArray 512
  rootPage : UInt32
  isValid : Int32

namespace CatalogRecord

/-- `serialize_entry`: each array is cleared and then copied into. -/
def serialize (record : CatalogRecord) : List UInt8 :=
  wordBytes record.type ++ ((strncpy 63 record.name.bytes).array ++
    ((strncpy 63 record.tblName.bytes).array ++
      ((if record.sql.bytes.headD 0 ≠ 0 then (strncpy 511 record.sql.bytes).array
        else List.replicate 512 0) ++
      (wordBytes record.rootPage ++ wordBytes (if record.isValid ≠ 0 then 1 else 0)))))

/-- `deserialize_entry`. -/
def deserialize (buf : List UInt8) : CatalogRecord where
  type := wordAt buf 0
  name := .ofString (strncpy 63 (buf.drop 4))
  tblName := .ofString (strncpy 63 (buf.drop 68))
  sql := .ofString (strncpy 511 (buf.drop 132))
  rootPage := wordAt buf 644
  isValid := if wordAt buf 648 ≠ 0 then 1 else 0

/-- The entry a record stands for. -/
def entry (record : CatalogRecord) : CatalogEntry where
  type := .ofCode record.type
  name := strncpy 63 record.name.bytes
  tblName := strncpy 63 record.tblName.bytes
  sql := strncpy 511 record.sql.bytes
  rootPage := record.rootPage
  isValid := record.isValid != 0

/-- The strings of a record end within their arrays. -/
structure Terminated (record : CatalogRecord) : Prop where
  name : record.name.Terminated
  tblName : record.tblName.Terminated
  sql : record.sql.Terminated

/-- Two records hold the same: only what stands behind the terminators may differ. -/
structure Same (first second : CatalogRecord) : Prop where
  type : first.type = second.type
  rootPage : first.rootPage = second.rootPage
  name : first.name.string = second.name.string
  tblName : first.tblName.string = second.tblName.string
  sql : first.sql.string = second.sql.string

end CatalogRecord

theorem CatalogEntryType.code_ofCode (code : UInt32) : (ofCode code).code = code := by
  unfold ofCode
  split
  · next same => exact same.symm
  · split
    · next same => exact same.symm
    · rfl

/-- Copying the empty string gives zeros. -/
theorem strncpy_array_of_headD {room : Nat} {source : List UInt8} (empty : source.headD 0 = 0) :
    (strncpy room source).array = List.replicate (room + 1) 0 := by
  have none : (strncpy room source).bytes = [] := by
    cases source with
    | nil => exact take_nil
    | cons byte rest =>
      obtain rfl : byte = 0 := empty
      exact take_nil
  rw [CString.array, none]
  rfl

namespace CatalogRecord

theorem serialize_eq (record : CatalogRecord) : record.serialize = serializeEntry record.entry := by
  have sql : (if record.sql.bytes.headD 0 ≠ 0 then (strncpy 511 record.sql.bytes).array
      else List.replicate 512 0) = (strncpy 511 record.sql.bytes).array := by
    split
    · rfl
    · next empty => exact (strncpy_array_of_headD (not_not.mp empty)).symm
  rw [serialize, sql, serializeEntry]
  simp only [entry, CString.strncpy_self, CatalogEntryType.code_ofCode, bne_iff_ne]

theorem deserialize_entry (buf : List UInt8) : (deserialize buf).entry = deserializeEntry buf := by
  have array : ∀ {room : Nat} (string : CString room),
      strncpy room (CharArray.ofString string).bytes = string := by
    intro room string
    have whole := string.strncpy_array_append []
    rwa [append_nil] at whole
  have flag : ((if wordAt buf 648 ≠ 0 then 1 else 0 : Int32) != 0) = (wordAt buf 648 != 0) := by
    by_cases zero : wordAt buf 648 = 0 <;> simp [zero]
  simp only [entry, deserialize, deserializeEntry, array, flag]

/-- Reading a record back, field by field. -/
theorem deserialize_fields (record : CatalogRecord) :
    deserialize record.serialize = {
      type := record.type
      name := .ofString (strncpy 63 record.name.bytes)
      tblName := .ofString (strncpy 63 record.tblName.bytes)
      sql := .ofString (strncpy 511 record.sql.bytes)
      rootPage := record.rootPage
      isValid := if record.isValid ≠ 0 then 1 else 0 } := by
  have back := deserializeEntry_serializeEntry record.entry
  rw [← serialize_eq, deserializeEntry, entry, CatalogEntry.mk.injEq] at back
  obtain ⟨type, name, tblName, sql, rootPage, isValid⟩ := back
  have code : wordAt record.serialize 0 = record.type := by
    rw [← CatalogEntryType.code_ofCode (wordAt _ _), type, CatalogEntryType.code_ofCode]
  have flag : wordAt record.serialize 648 ≠ 0 ↔ record.isValid ≠ 0 := by
    have same := Bool.eq_iff_iff.mp isValid
    rwa [bne_iff_ne, bne_iff_ne] at same
  rw [deserialize, code, name, tblName, sql, rootPage]
  simp only [flag]

/-- A record that is serialised and read back holds the same strings and numbers, its flag is a
truth value, and it has the same bytes again. -/
theorem codec_sound (record : CatalogRecord) (terminated : record.Terminated) :
    (deserialize record.serialize).Same record ∧
      ((deserialize record.serialize).isValid = 1 ↔ record.isValid ≠ 0) ∧
      (deserialize record.serialize).serialize = record.serialize ∧
      record.serialize.length = catalogEntrySize := by
  obtain ⟨name, tblName, sql⟩ := terminated
  refine ⟨?_, ?_, ?_, ?_⟩
  · rw [deserialize_fields]
    refine ⟨rfl, rfl, ?_, ?_, ?_⟩
    · rw [CharArray.string_ofString, name.strncpy_bytes]
    · rw [CharArray.string_ofString, tblName.strncpy_bytes]
    · rw [CharArray.string_ofString, sql.strncpy_bytes]
  · rw [deserialize_fields]
    by_cases zero : record.isValid = 0 <;> simp [zero]
  · rw [serialize_eq _, deserialize_entry, serialize_eq _,
      deserializeEntry_serializeEntry]
  · rw [serialize_eq, serializeEntry_length]

/-- The record of a table `t` with something behind its strings, and a flag of 2. -/
def untidy : CatalogRecord where
  type := 1
  name := ⟨116 :: 0 :: List.replicate 62 7, by simp⟩
  tblName := ⟨116 :: 0 :: List.replicate 62 7, by simp⟩
  sql := ⟨0 :: List.replicate 511 7, by rw [List.length_cons, List.length_replicate]⟩
  rootPage := 2
  isValid := 2

theorem codec_sound_untidy :
    (deserialize untidy.serialize).Same untidy ∧ (deserialize untidy.serialize).isValid = 1 ∧
      (deserialize untidy.serialize).serialize = untidy.serialize := by
  have terminated : untidy.Terminated := by
    refine ⟨?_, ?_, ?_⟩
    · exact mem_cons_of_mem _ mem_cons_self
    · exact mem_cons_of_mem _ mem_cons_self
    · exact mem_cons_self
  obtain ⟨same, flag, again, -⟩ := codec_sound _ terminated
  exact ⟨same, flag.mpr (by decide), again⟩

end CatalogRecord

end TinyDb

/-
This file is about the binary form of a schema: whether it can be read back, whether
it fits the buffer of 8192 bytes its interface asks for, and whether the reader stays
inside the bytes it is given.

A schema of up to 64 columns is read back, but 24 columns are all that fit. The reader
checks that there are 148 bytes, which is less than the header and a single column
take, and relies on the number of columns it has read for the rest.
-/

import Mathlib.Data.List.Forall2
import TinyDb.CatalogRecord
import TinyDb.Schema

namespace TinyDb

open Bytes Heaps CStrings List

variable {capacity : Nat} {columns : List Column} {col : Column} {word size : UInt32}
  {schema : Schema}

/-! ### The parts of the binary form -/

/-- A default value that is empty is written as zeros, which is what copying it would write. -/
theorem columnFields_flatten (col : Column) : (columnFields col).flatten =
    (strncpy 63 col.name.bytes).array ++ (wordBytes col.type ++ (flagBytes col.notNull ++
      (flagBytes col.primaryKey ++ (flagBytes col.autoIncrement ++
        (strncpy 255 col.defaultValue.bytes).array)))) := by
  have sameDefault : (if col.defaultValue.bytes.headD 0 ≠ 0
      then (strncpy 255 col.defaultValue.bytes).array else List.replicate 256 0) =
        (strncpy 255 col.defaultValue.bytes).array := by
    split
    · rfl
    · next empty => exact (strncpy_array_of_headD (not_not.mp empty)).symm
  rw [columnFields, sameDefault]
  simp

theorem schemaFields_flatten (schema : Schema) : (schemaFields schema).flatten =
    wordBytes schemaMagic ++ (wordBytes schemaVersion ++ ((strncpy 63 schema.tableName.bytes).array ++
      (wordBytes (UInt32.ofNat schema.columns.length) ++
        (wordBytes (schema.autoIncrement >>> 32).toUInt32 ++
          (wordBytes (schema.autoIncrement &&& 0xFFFFFFFF).toUInt32 ++
            (schema.columns.flatMap columnFields).flatten))))) := by
  simp [schemaFields]

/-! ### Lengths -/

/-- The length of the binary form of a schema with a number of columns. -/
def schemaLength (count : Nat) : Nat := 84 + columnSize * count

@[simp] theorem flagBytes_length (flag : Int32) : (flagBytes flag).length = 4 :=
  wordBytes_length _

theorem columnFields_length (col : Column) : (columnFields col).flatten.length = columnSize := by
  simp only [columnFields_flatten, length_append, CString.array_length, wordBytes_length,
    flagBytes_length]
  rfl

theorem columns_length (columns : List Column) :
    (columns.flatMap columnFields).flatten.length = columnSize * columns.length := by
  induction columns with
  | nil => rfl
  | cons col columns inductionHypothesis =>
    rw [flatMap_cons, flatten_append, length_append, columnFields_length,
      inductionHypothesis, length_cons, Nat.mul_succ, Nat.add_comm]

theorem schemaFields_length (schema : Schema) :
    (schemaFields schema).flatten.length = schemaLength schema.columns.length := by
  simp only [schemaFields_flatten, length_append, CString.array_length, wordBytes_length,
    columns_length, schemaLength]
  omega

/-! ### The buffer of the interface -/

theorem schemaSerialize_ok_iff (schema : Schema) (buf : Buffer capacity) :
    (∃ result, schemaSerialize schema buf = .ok result) ↔
      schemaLength schema.columns.length ≤ capacity := by
  have fits := storeFields_ok_iff buf 0 (wordBytes schemaMagic) (schemaFields schema).tail
  rw [Nat.zero_add] at fits
  refine Iff.trans ?_ (fits.trans (by rw [← schemaFields_length _]; rfl))
  constructor
  · rintro ⟨result, run⟩
    obtain ⟨stored, store, -⟩ := bind_eq_ok.mp run
    exact ⟨stored, store⟩
  · rintro ⟨stored, store⟩
    exact ⟨_, bind_eq_ok.mpr ⟨stored, store, rfl⟩⟩

/-- A schema that `schema_create` accepts can be serialised into 8192 bytes exactly if it has 24
columns at most. -/
theorem schema_fits_iff {tableName : List UInt8} {columns : List Column} {schema : Schema}
    (created : schemaCreate tableName columns = some schema) (buf : Buffer schemaMaxSize) :
    (∃ result, schemaSerialize schema buf = .ok result) ↔ columns.length ≤ 24 := by
  have same : schema.columns = columns := by
    unfold schemaCreate at created
    split at created
    · cases created
    · exact Option.some.inj created ▸ rfl
  rw [schemaSerialize_ok_iff, same, schemaLength, schemaMaxSize, columnSize]
  omega

/-- A column that must not be `NULL`, with a name and a default value. -/
def sampleColumn (name : List UInt8) : Column where
  name := .ofString (strncpy 63 name)
  type := 2
  notNull := 1
  primaryKey := 0
  autoIncrement := 0
  defaultValue := .ofString (strncpy 255 [48])

theorem schema_fits_24 : ∃ schema,
    schemaCreate [116] (List.replicate 24 (sampleColumn [97])) = some schema ∧
      ∀ buf : Buffer schemaMaxSize, ∃ result, schemaSerialize schema buf = .ok result :=
  ⟨_, rfl, fun buf => (@schema_fits_iff [116] (List.replicate 24 (sampleColumn [97])) _ rfl buf).mpr
    (by decide)⟩

/-- With 25 columns the writer leaves the buffer. -/
theorem schema_of_25_columns_overflows : ∃ schema,
    schemaCreate [116] (List.replicate 25 (sampleColumn [97])) = some schema ∧
      ∀ buf : Buffer schemaMaxSize, ¬∃ result, schemaSerialize schema buf = .ok result := by
  refine ⟨_, rfl, fun buf => ?_⟩
  rw [schemaSerialize_ok_iff]
  decide

/-! ### Reading inside the buffer -/

section Reading

variable {size : Nat} {data : Buffer size} {offset count : Nat}

/-- The word at an offset. -/
def wordOf (data : Buffer size) (offset : Nat) : UInt32 := wordAt (window (memory data) offset 4) 0

theorem loadWord_of_inside (inside : offset + 4 ≤ size) :
    loadWord data offset = .ok (wordOf data offset) := by
  rw [loadWord, loadBytes, if_pos inside]
  rfl

theorem deserializeColumn_of_inside (inside : offset + columnSize ≤ size) :
    ∃ col, deserializeColumn data offset = .ok col := by
  rw [columnSize] at inside
  obtain ⟨name, nameRead⟩ := loadString_of_inside _ (by omega : offset + 63 ≤ size)
  obtain ⟨defaultValue, defaultRead⟩ :=
    loadString_of_inside _ (by omega : offset + 80 + 255 ≤ size)
  rw [deserializeColumn, nameRead, loadWord_of_inside (by omega), loadWord_of_inside (by omega),
    loadWord_of_inside (by omega), loadWord_of_inside (by omega), defaultRead]
  exact ⟨_, rfl⟩

/-- Columns that lie in the buffer are read without a fault. -/
theorem deserializeColumns_of_inside (inside : offset + columnSize * count ≤ size) :
    ∃ columns, deserializeColumns data count offset = .ok columns := by
  induction count generalizing offset with
  | zero => exact ⟨[], rfl⟩
  | succ count inductionHypothesis =>
    rw [Nat.mul_succ] at inside
    obtain ⟨col, first⟩ : ∃ col, deserializeColumn data offset = .ok col :=
      deserializeColumn_of_inside (by omega)
    obtain ⟨cols, rest⟩ := @inductionHypothesis (offset + columnSize) (by omega)
    rw [deserializeColumns, first, rest]
    exact ⟨col :: cols, rfl⟩

theorem deserializeColumns_length (run : deserializeColumns data count offset = .ok columns) :
    columns.length = count := by
  induction count generalizing offset columns with
  | zero =>
    cases run
    rfl
  | succ count inductionHypothesis =>
    obtain ⟨col, -, run⟩ := bind_eq_ok.mp run
    obtain ⟨cols, rest, same⟩ := bind_eq_ok.mp run
    cases same
    rw [length_cons, inductionHypothesis rest]

end Reading

section Input

variable {size : UInt32}

theorem not_short_iff : ¬size < 148 ↔ 148 ≤ size.toNat := by
  rw [UInt32.lt_iff_toNat_lt, Nat.not_lt]
  rfl

/-- The number of columns that the header declares. -/
def declaredColumns (data : Buffer size.toNat) : Nat := (wordOf data 72).toNat

/-- What the checks of `schema_deserialize` turn away. -/
def Rejected (data : Buffer size.toNat) : Prop :=
  size < 148 ∨ wordOf data 0 ≠ schemaMagic ∨ wordOf data 4 ≠ schemaVersion ∨
    maxColumns < declaredColumns data

instance (data : Buffer size.toNat) : Decidable (Rejected data) :=
  inferInstanceAs (Decidable (_ ∨ _))

/-- A buffer that passes the checks: only the columns are left to be read. -/
theorem schemaDeserialize_of_accepted {data : Buffer size.toNat} (accepted : ¬Rejected data) :
    ∃ tableName : CString 63, loadString 63 data 8 = .ok tableName ∧
      schemaDeserialize data = (do
        let columns ← deserializeColumns data (declaredColumns data) 84
        return (schemaCreate tableName.bytes columns).map fun schema =>
          { schema with
            autoIncrement := (wordOf data 76).toUInt64 <<< 32 ||| (wordOf data 80).toUInt64 }) := by
  simp only [Rejected, not_or, not_not] at accepted
  obtain ⟨long, magic, version, few⟩ := accepted
  rw [declaredColumns] at few ⊢
  have enough := not_short_iff.mp long
  obtain ⟨tableName, read⟩ := loadString_of_inside _ (by omega : 8 + 63 ≤ size.toNat)
  refine ⟨tableName, read, ?_⟩
  rw [schemaDeserialize, if_neg long, loadWord_of_inside (by omega), ok_bind, magic,
    if_neg (not_not.mpr rfl), loadWord_of_inside (by omega), ok_bind, version,
    if_neg (not_not.mpr rfl), read, ok_bind, loadWord_of_inside (by omega), ok_bind,
    if_neg few, loadWord_of_inside (by omega), ok_bind, loadWord_of_inside (by omega), ok_bind]

theorem schemaDeserialize_of_rejected {data : Buffer size.toNat} (rejected : Rejected data) :
    schemaDeserialize data = .ok none := by
  by_cases long : size < 148
  · rw [schemaDeserialize, if_pos long]
    rfl
  have enough := not_short_iff.mp long
  rw [schemaDeserialize, if_neg long, loadWord_of_inside (by omega), ok_bind]
  by_cases magic : wordOf data 0 = schemaMagic
  swap
  · rw [if_pos magic]
    rfl
  rw [if_neg (not_not.mpr magic), loadWord_of_inside (by omega), ok_bind]
  by_cases version : wordOf data 4 = schemaVersion
  swap
  · rw [if_pos version]
    rfl
  obtain ⟨tableName, read⟩ := loadString_of_inside _ (by omega : 8 + 63 ≤ size.toNat)
  have many : maxColumns < declaredColumns data := by
    rcases rejected with short | other | other | many
    · exact absurd short long
    · exact absurd magic other
    · exact absurd version other
    · exact many
  rw [declaredColumns] at many
  rw [if_neg (not_not.mpr version), read, ok_bind, loadWord_of_inside (by omega), ok_bind,
    if_pos many]
  rfl

/-- The reader stays inside its input, and returns `NULL` if the columns it should read are not all
there, exactly if the input is turned away or holds all the columns. -/
theorem schemaDeserialize_inside_iff (data : Buffer size.toNat) :
    ((∃ result, schemaDeserialize data = .ok result) ∧
        (size.toNat < schemaLength (declaredColumns data) → schemaDeserialize data = .ok none)) ↔
      Rejected data ∨ schemaLength (declaredColumns data) ≤ size.toNat := by
  by_cases rejected : Rejected data
  · have none := schemaDeserialize_of_rejected rejected
    exact iff_of_true ⟨⟨_, none⟩, fun _ => none⟩ (Or.inl rejected)
  obtain ⟨tableName, -, course⟩ := schemaDeserialize_of_accepted rejected
  constructor
  · rintro ⟨-, refused⟩
    refine Or.inr (Nat.not_lt.mp fun short => ?_)
    have none := refused short
    rw [course] at none
    obtain ⟨columns, read, nothing⟩ := bind_eq_ok.mp none
    have empty : columns = [] := by
      have missing := Option.map_eq_none_iff.mp (Except.ok.inj nothing)
      unfold schemaCreate at missing
      split at missing
      · exact List.isEmpty_iff.mp ‹_›
      · cases missing
    have count := deserializeColumns_length read
    rw [empty, length_nil] at count
    have enough := not_short_iff.mp fun short => rejected (Or.inl short)
    rw [← count, schemaLength] at short
    omega
  · rintro (refused | inside)
    · exact absurd refused rejected
    · refine ⟨?_, fun short => absurd inside (Nat.not_le.mpr short)⟩
      obtain ⟨columns, read⟩ : ∃ columns,
          deserializeColumns data (declaredColumns data) 84 = .ok columns :=
        deserializeColumns_of_inside inside
      rw [course, read]
      exact ⟨_, rfl⟩

end Input

/-- A header that declares one column, and the beginning of the column. -/
def cutColumn : Buffer (148 : UInt32).toNat := fun index =>
  (wordBytes schemaMagic ++ wordBytes schemaVersion ++ List.replicate 64 116 ++ wordBytes 1 ++
    wordBytes 0 ++ wordBytes 0 ++ List.replicate 64 99).getD index 0

/-- The type of the column is read from behind the input. -/
theorem cut_column_read_past_end : schemaDeserialize cutColumn = .error .outOfBounds := by
  have accepted : ¬Rejected cutColumn := by decide +kernel
  have declared : declaredColumns cutColumn = 1 := by decide +kernel
  obtain ⟨tableName, -, course⟩ := schemaDeserialize_of_accepted accepted
  obtain ⟨name, read⟩ := loadString_of_inside _ (by decide : 84 + 63 ≤ (148 : UInt32).toNat)
  rw [course, declared, deserializeColumns, deserializeColumn, read]
  rfl

/-! ### Reading back -/

/-- The strings of a column end within their arrays. -/
structure Column.Terminated (col : Column) : Prop where
  name : col.name.Terminated
  defaultValue : col.defaultValue.Terminated

/-- The columns have the same strings, the same type and the same truth values. -/
structure Column.Same (first second : Column) : Prop where
  name : first.name.string = second.name.string
  type : first.type = second.type
  notNull : first.notNull ≠ 0 ↔ second.notNull ≠ 0
  primaryKey : first.primaryKey ≠ 0 ↔ second.primaryKey ≠ 0
  autoIncrement : first.autoIncrement ≠ 0 ↔ second.autoIncrement ≠ 0
  defaultValue : first.defaultValue.string = second.defaultValue.string

/-- The schemas agree in everything that is serialised, column by column. -/
structure Schema.Same (first second : Schema) : Prop where
  tableName : first.tableName.string = second.tableName.string
  autoIncrement : first.autoIncrement = second.autoIncrement
  count : first.columns.length = second.columns.length
  columns : List.Forall₂ Column.Same first.columns second.columns

/-- A column as it is read back. -/
def Column.readBack (col : Column) : Column where
  name := .ofString (strncpy 63 col.name.bytes)
  type := col.type
  notNull := flagOf (if col.notNull ≠ 0 then 1 else 0)
  primaryKey := flagOf (if col.primaryKey ≠ 0 then 1 else 0)
  autoIncrement := flagOf (if col.autoIncrement ≠ 0 then 1 else 0)
  defaultValue := .ofString (strncpy 255 col.defaultValue.bytes)

theorem flagOf_ne_zero_iff (flag : Int32) :
    flagOf (if flag ≠ 0 then 1 else 0) ≠ 0 ↔ flag ≠ 0 := by
  by_cases zero : flag = 0 <;> simp [flagOf]

theorem Column.Terminated.readBack_same (terminated : col.Terminated) :
    col.readBack.Same col where
  name := by
    rw [readBack, CharArray.string_ofString, terminated.name.strncpy_bytes]
  type := rfl
  notNull := flagOf_ne_zero_iff _
  primaryKey := flagOf_ne_zero_iff _
  autoIncrement := flagOf_ne_zero_iff _
  defaultValue := by
    rw [readBack, CharArray.string_ofString, terminated.defaultValue.strncpy_bytes]

/-- The two halves of a 64-bit number put together. -/
theorem join_halves (number : UInt64) :
    (number >>> 32).toUInt32.toUInt64 <<< 32 ||| (number &&& 0xFFFFFFFF).toUInt32.toUInt64 =
      number := by
  have small := number.toNat_lt
  have shift : (32 : UInt64).toNat % 64 = 32 := rfl
  have high : ((number >>> 32).toUInt32.toUInt64 <<< 32).toNat =
      number.toNat / 2 ^ 32 * 2 ^ 32 := by
    rw [UInt64.toNat_shiftLeft, UInt32.toNat_toUInt64, UInt64.toNat_toUInt32,
      UInt64.toNat_shiftRight, shift]
    omega
  have low : (number &&& 0xFFFFFFFF).toUInt32.toUInt64.toNat = number.toNat % 2 ^ 32 := by
    exact (congrArg (· % 2 ^ 32) (Nat.and_two_pow_sub_one_eq_mod _ 32)).trans (Nat.mod_mod ..)
  refine UInt64.toNat_inj.mp ?_
  rw [UInt64.toNat_or, high, low, or_eq_add _ 32 (Nat.mod_lt _ (by decide))]
  omega

section Stored

variable {size : Nat} {data : Buffer size} {offset : Nat}

theorem wordOf_of_stands (stands : Stands data offset (wordBytes word)) :
    wordOf data offset = word := by
  have same := stands.same
  rw [wordBytes_length] at same
  rw [wordOf, same, wordAt, drop_zero, take_of_length_le (wordBytes_length _).le,
    ofNat_littleEndianValue_wordBytes]

theorem loadWord_of_stands (stands : Stands data offset (wordBytes word)) :
    loadWord data offset = .ok word := by
  rw [loadWord_of_inside (wordBytes_length _ ▸ stands.inside), wordOf_of_stands stands]

theorem deserializeColumn_of_stands (stands : Stands data offset (columnFields col).flatten) :
    deserializeColumn data offset = .ok col.readBack := by
  rw [columnFields_flatten] at stands
  simp only [stands_append, CString.array_length, wordBytes_length, flagBytes_length] at stands
  obtain ⟨name, type, notNull, primaryKey, autoIncrement, defaultValue⟩ := stands
  rw [deserializeColumn, loadString_of_stands name, loadWord_of_stands type,
    loadWord_of_stands notNull, loadWord_of_stands primaryKey,
    loadWord_of_stands autoIncrement, loadString_of_stands defaultValue]
  rfl

theorem deserializeColumns_of_stands
    (stands : Stands data offset (columns.flatMap columnFields).flatten) :
    deserializeColumns data columns.length offset = .ok (columns.map Column.readBack) := by
  induction columns generalizing offset with
  | nil => rfl
  | cons col columns inductionHypothesis =>
    rw [flatMap_cons, flatten_append, stands_append, columnFields_length] at stands
    obtain ⟨first, rest⟩ := stands
    rw [length_cons, deserializeColumns, deserializeColumn_of_stands first,
      inductionHypothesis rest]
    rfl

end Stored

/-- The first bytes of a buffer, as they are handed to the reader. -/
def handed {capacity : Nat} (buf : Buffer capacity) (size : UInt32) : Buffer size.toNat :=
  fun index => memory buf index

theorem stands_handed {buf : Buffer capacity} {bytes : List UInt8} (stands : Stands buf 0 bytes)
    (length : bytes.length = size.toNat) :
    Stands (handed buf size) 0 bytes := by
  refine ⟨(Nat.zero_add _).trans_le length.le, ?_⟩
  rw [← stands.same, window_length]
  refine window_congr fun index inside => ?_
  rw [memory, dif_pos (by omega)]
  rfl

/-- What the writer leaves in the buffer, and the size it reports. -/
theorem schemaSerialize_stands {buf stored : Buffer capacity}
    (run : schemaSerialize schema buf = .ok (stored, size)) :
    Stands stored 0 (schemaFields schema).flatten ∧
      size = UInt32.ofNat (schemaLength schema.columns.length) := by
  obtain ⟨⟨filled, offset⟩, store, same⟩ := bind_eq_ok.mp run
  cases same
  obtain ⟨stands, last⟩ := storeFields_stands store
  rw [Nat.zero_add] at last
  rw [← schemaFields_length, last]
  exact ⟨stands, rfl⟩

/-- A schema as it is read back. -/
theorem schemaDeserialize_of_stands {data : Buffer size.toNat}
    (stands : Stands data 0 (schemaFields schema).flatten) (some_columns : schema.columns ≠ [])
    (few : schema.columns.length ≤ maxColumns) :
    ∃ decoded, schemaDeserialize data = .ok (some decoded) ∧
      decoded.tableName = .ofString (strncpy 63 schema.tableName.bytes) ∧
      decoded.autoIncrement = schema.autoIncrement ∧
      decoded.columns = schema.columns.map Column.readBack := by
  have inside := stands.inside
  rw [schemaFields_length, schemaLength, columnSize] at inside
  have positive := length_pos_iff.mpr some_columns
  have enough : 148 ≤ size.toNat := Nat.le_trans (by omega) inside
  have count : (UInt32.ofNat schema.columns.length).toNat = schema.columns.length :=
    UInt32.toNat_ofNat_of_lt (Nat.lt_of_le_of_lt few (by decide))
  rw [schemaFields_flatten] at stands
  simp only [stands_append, CString.array_length, wordBytes_length] at stands
  obtain ⟨magic, version, tableName, colCount, high, low, columns⟩ := stands
  have declared : declaredColumns data = schema.columns.length := by
    rw [declaredColumns, wordOf_of_stands colCount, count]
  have accepted : ¬Rejected data := by
    rw [Rejected, declared]
    rintro (short | other | other | many)
    · exact not_short_iff.mpr enough short
    · exact other (wordOf_of_stands magic)
    · exact other (wordOf_of_stands version)
    · exact Nat.not_lt.mpr few many
  obtain ⟨name, nameRead, course⟩ := schemaDeserialize_of_accepted accepted
  cases (nameRead.symm.trans (loadString_of_stands tableName))
  have created : schemaCreate (strncpy 63 schema.tableName.bytes).bytes
      (schema.columns.map Column.readBack) = some {
        tableName := .ofString (strncpy 63 schema.tableName.bytes)
        columns := schema.columns.map Column.readBack
        rootPage := 0
        autoIncrement := 1
        isOpen := true } := by
    rw [schemaCreate, if_neg, CString.strncpy_self]
    rw [List.isEmpty_iff, map_eq_nil_iff]
    exact some_columns
  refine ⟨{
    tableName := .ofString _
    columns := schema.columns.map _
    rootPage := 0
    autoIncrement := schema.autoIncrement
    isOpen := true }, ?_, rfl, rfl, rfl⟩
  rw [course, declared, deserializeColumns_of_stands columns, ok_bind, created,
    wordOf_of_stands high, wordOf_of_stands low, join_halves]
  rfl

/-- A schema with 1 to 64 columns is read back from its binary form. -/
theorem schema_codec {capacity : Nat} {schema : Schema} (buf : Buffer capacity)
    (some_columns : 1 ≤ schema.columns.length) (few : schema.columns.length ≤ maxColumns)
    (tableName : schema.tableName.Terminated) (columns : ∀ col ∈ schema.columns, col.Terminated)
    (large : schemaLength schema.columns.length ≤ capacity) :
    ∃ stored size decoded, schemaSerialize schema buf = .ok (stored, size) ∧
      schemaDeserialize (handed stored size) = .ok (some decoded) ∧ decoded.Same schema := by
  obtain ⟨⟨stored, size⟩, run⟩ := (schemaSerialize_ok_iff _ buf).mpr large
  obtain ⟨stands, rfl⟩ := schemaSerialize_stands run
  have small : schemaLength schema.columns.length < 2 ^ 32 :=
    Nat.lt_of_le_of_lt (Nat.add_le_add_left (Nat.mul_le_mul_left _ few) 84) (by decide)
  have length : (schemaFields schema).flatten.length =
      (UInt32.ofNat (schemaLength schema.columns.length)).toNat := by
    rw [schemaFields_length, UInt32.toNat_ofNat', Nat.mod_eq_of_lt small]
  obtain ⟨decoded, read, sameName, sameNumber, sameColumns⟩ := schemaDeserialize_of_stands
    (stands_handed stands length) (ne_nil_of_length_pos some_columns) few
  refine ⟨stored, _, decoded, run, read, ?_, sameNumber, ?_, ?_⟩
  · rw [sameName, CharArray.string_ofString, tableName.strncpy_bytes]
  · rw [sameColumns, length_map]
  · rw [sameColumns, forall₂_map_left_iff]
    exact forall₂_same.mpr fun col member => (columns col member).readBack_same

/-- A schema with two columns. -/
theorem schema_codec_two : ∃ schema stored size decoded,
    schemaCreate [116] [sampleColumn [97], sampleColumn [98, 99]] = some schema ∧
      schemaSerialize schema (fun _ => 0 : Buffer schemaMaxSize) = .ok (stored, size) ∧
      schemaDeserialize (handed stored size) = .ok (some decoded) ∧ decoded.Same schema := by
  let schema : Schema := {
    tableName := .ofString (strncpy 63 [116])
    columns := [sampleColumn [97], sampleColumn [98, 99]]
    rootPage := 0
    autoIncrement := 1
    isOpen := true }
  have terminated : ∀ column ∈ schema.columns, column.Terminated :=
    forall_mem_cons.mpr ⟨⟨by decide, by decide⟩, forall_mem_singleton.mpr ⟨by decide, by decide⟩⟩
  obtain ⟨stored, size, decoded, run, read, same⟩ := @schema_codec schemaMaxSize schema (fun _ => 0)
    (by decide) (by decide) (by decide) terminated (by decide)
  exact ⟨schema, stored, size, decoded, rfl, run, read, same⟩

end TinyDb

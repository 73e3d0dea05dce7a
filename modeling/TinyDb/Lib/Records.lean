/-
This file is a small theory of byte streams made of records. A reader takes one
record off the front of the bytes; reading a stream repeats it until nothing is
left. If the reader undoes an encoding on some entries, and on the others never
returns what was encoded, then a stream of encoded entries reads back as those
entries exactly if they are all of the first kind.
-/

import Mathlib.Data.List.Basic

namespace Records

open List

variable {fuel : Nat}

variable {Record Entry : Type}

/-- Takes a record off the front of the bytes. -/
abbrev Reader (Record : Type) := List UInt8 → Option (Record × List UInt8)

/-- At most some number of records, up to the end of the bytes. -/
def readAll (read : Reader Record) : Nat → List UInt8 → Option (List Record)
  | _, [] => some []
  | 0, _ :: _ => none
  | fuel + 1, byte :: bytes =>
    (read (byte :: bytes)).bind fun (record, rest) => (readAll read fuel rest).map (record :: ·)

/-- The records of a stream. No record is empty, so there are no more of them than bytes. -/
def readStream (read : Reader Record) (bytes : List UInt8) : Option (List Record) :=
  readAll read bytes.length bytes

theorem readAll_cons {read : Reader Record} {bytes : List UInt8} (nonempty : bytes ≠ []) :
    readAll read (fuel + 1) bytes = (read bytes).bind fun (record, rest) =>
      (readAll read fuel rest).map (record :: ·) := by
  obtain ⟨byte, bytes, rfl⟩ := exists_cons_of_ne_nil nonempty
  rfl

/-- How a reader and an encoding go together: the `good` entries are read back, and what is read in
place of another one differs from it. -/
structure Decodes (read : Reader Record) (encode : Entry → List UInt8) (content : Entry → Record)
    (good : Entry → Prop) : Prop where
  nonempty : ∀ entry, encode entry ≠ []
  reads : ∀ entry rest, good entry → read (encode entry ++ rest) = some (content entry, rest)
  misreads : ∀ entry rest record after, ¬good entry →
    read (encode entry ++ rest) = some (record, after) → record ≠ content entry

variable {read : Reader Record} {encode : Entry → List UInt8} {content : Entry → Record}
  {good : Entry → Prop}

theorem Decodes.readAll_iff (decodes : Decodes read encode content good) (entries : List Entry)
    (enough : (entries.flatMap encode).length ≤ fuel) :
    readAll read fuel (entries.flatMap encode) = some (entries.map content) ↔
      ∀ entry ∈ entries, good entry := by
  induction entries generalizing fuel with
  | nil => simp [readAll]
  | cons entry entries inductionHypothesis =>
    have positive := length_pos_iff.mpr (decodes.nonempty entry)
    rw [flatMap_cons, length_append] at enough
    obtain ⟨fuel, rfl⟩ : ∃ less, fuel = less + 1 :=
      Nat.exists_eq_add_one_of_ne_zero (by omega)
    have nonempty : encode entry ++ entries.flatMap encode ≠ [] :=
      append_ne_nil_of_left_ne_nil (decodes.nonempty _) _
    rw [flatMap_cons, readAll_cons nonempty, forall_mem_cons]
    by_cases isGood : good entry
    · have rest := inductionHypothesis (show (entries.flatMap encode).length ≤ fuel by omega)
      rw [decodes.reads _ _ isGood, and_iff_right isGood, ← rest]
      simp
    · refine iff_of_false (fun same => ?_) fun both => isGood both.1
      obtain ⟨⟨record, after⟩, reading, mapped⟩ := Option.bind_eq_some_iff.mp same
      obtain ⟨records, -, cons⟩ := Option.map_eq_some_iff.mp mapped
      exact decodes.misreads _ _ _ _ isGood reading (List.cons.inj cons).1

/-- A stream of encoded entries reads back exactly if all of them are good. -/
theorem Decodes.readStream_iff (decodes : Decodes read encode content good) (entries : List Entry) :
    readStream read (entries.flatMap encode) = some (entries.map content) ↔
      ∀ entry ∈ entries, good entry :=
  decodes.readAll_iff _ (Nat.le_refl _)

end Records

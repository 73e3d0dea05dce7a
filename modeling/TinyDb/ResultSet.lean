/-
This file models the rows that a query collects, and the two steps of `SELECT` that drop
some of them. Both work on the array of rows in place: `DISTINCT` moves the rows it keeps to
the front while it reads on, and `OFFSET` moves the rows behind it to the front. A row that
is read has not been written over, since the place written is never behind the place read.

The numbers of `LIMIT` and `OFFSET` are evaluated as 64-bit integers and used as 32-bit
ones. A cast drops the upper bits, and a sum outside of the range is undefined.
-/

import TinyDb.ValueOrder
import TinyDb.Lib.Distinct

namespace TinyDb

open Distinct List

variable {rows : List (List Value)} {readIdx writeIdx : Nat} {row : List Value} {offsetVal : Int}

attribute [local instance] lexOrd

/-- `ResultSet`, with the slots of its array of rows. -/
structure ResultSet where
  rows : List (List Value)
  rowCount : Int
  columnCount : Int

variable {rs : ResultSet}

namespace ResultSet

/-- The rows of a result set. -/
def content (rs : ResultSet) : List (List Value) := rs.rows.take rs.rowCount.toNat

/-- The array has the rows. -/
structure WellFormed (rs : ResultSet) : Prop where
  notNegative : 0 ≤ rs.rowCount
  allocated : rs.rowCount ≤ rs.rows.length
  isInt : rs.rowCount < 2 ^ 31

end ResultSet

/-! ### The steps of the query -/

/-- The comparison of two rows in `select_apply_distinct`. -/
def sameRow (columnCount : Int) (row other : List Value) : Bool :=
  (List.range columnCount.toNat).all fun colIdx =>
    (row.getD colIdx .null).valueCompare (other.getD colIdx .null) = .eq

/-- The comparison of a row with the rows kept so far. -/
def isDuplicate (columnCount : Int) (rows : List (List Value)) (readIdx writeIdx : Nat) : Bool :=
  (List.range writeIdx).any fun cmpIdx =>
    sameRow columnCount (rows.getD readIdx []) (rows.getD cmpIdx [])

/-- The loop of `select_apply_distinct`, by the number of turns left. -/
def distinctLoop (columnCount : Int) :
    Nat → Nat → Nat → List (List Value) → List (List Value) × Nat
  | 0, _, writeIdx, rows => (rows, writeIdx)
  | turns + 1, readIdx, writeIdx, rows =>
    if isDuplicate columnCount rows readIdx writeIdx then
      distinctLoop columnCount turns (readIdx + 1) writeIdx rows
    else
      let rows := if writeIdx ≠ readIdx then rows.set writeIdx (rows.getD readIdx []) else rows
      distinctLoop columnCount turns (readIdx + 1) (writeIdx + 1) rows

/-- `select_apply_distinct`. -/
def selectApplyDistinct (rs : ResultSet) : ResultSet :=
  if rs.rowCount = 0 then rs
  else
    let (rows, writeIdx) := distinctLoop rs.columnCount rs.rowCount.toNat 0 0 rs.rows
    { rs with rows, rowCount := writeIdx }

/-- The cast of an `int64_t` to `int`. -/
def castInt (asInt : Int64) : Int := asInt.toInt.bmod (2 ^ 32)

/-- An `int` of a signed operation, which is undefined outside its range. -/
def checkedInt32 (result : Int) : Except Halt Int :=
  if -2 ^ 31 ≤ result ∧ result < 2 ^ 31 then .ok result else .error .undefined

/-- The number of a `LIMIT` or an `OFFSET`; without an integer it stays as it is. -/
noncomputable def limitNumber (machine : Machine) (expr : Option Expression) (number : Int) :
    Except Halt Int :=
  match expr with
  | none => .ok number
  | some expr => do
    match ← exprEval machine ⟨none, 0, none⟩ expr with
    | .integer asInt => .ok (castInt asInt)
    | _ => .ok number

/-- The loop of `select_apply_limit` that moves rows to the front, by the number of turns left. -/
def shiftLoop (offsetVal : Nat) : Nat → Nat → List (List Value) → List (List Value)
  | 0, _, rows => rows
  | turns + 1, i, rows =>
    shiftLoop offsetVal turns (i + 1) (rows.set (i - offsetVal) (rows.getD i []))

/-- The rows behind the offset, moved to the front. -/
def dropRows (rs : ResultSet) (offsetVal : Int) : ResultSet :=
  if offsetVal > 0 then
    { rs with
      rows := shiftLoop offsetVal.toNat (rs.rowCount - offsetVal).toNat offsetVal.toNat rs.rows
      rowCount := rs.rowCount - offsetVal }
  else rs

/-- The limit, cut to the rows behind the offset. -/
def clampLimit (rowCount offsetVal limitVal : Int) : Except Halt Int := do
  let sum ← checkedInt32 (offsetVal + limitVal)
  if sum > rowCount then checkedInt32 (rowCount - offsetVal) else .ok limitVal

/-- The rows in front of the limit. -/
def limitRows (rs : ResultSet) (limitVal : Int) : ResultSet :=
  if limitVal < rs.rowCount then { rs with rowCount := limitVal } else rs

/-- `select_apply_limit`. -/
noncomputable def selectApplyLimit (machine : Machine) (rs : ResultSet)
    (limit offset : Option Expression) : Except Halt ResultSet :=
  if rs.rowCount = 0 then .ok rs
  else do
    let offsetVal ← limitNumber machine offset 0
    let limitVal ← limitNumber machine limit rs.rowCount
    if offsetVal ≥ rs.rowCount then .ok { rs with rowCount := 0 }
    else
      let limitVal ← clampLimit rs.rowCount offsetVal limitVal
      .ok (limitRows (dropRows rs offsetVal) limitVal)

/-! ### Writing in front of what is read -/

section

variable {α : Type} {items : List α} {writeIdx readIdx : Nat}

theorem take_set_snoc (item : α) (inside : writeIdx < items.length) :
    (items.set writeIdx item).take (writeIdx + 1) = items.take writeIdx ++ [item] := by
  rw [take_set, take_succ_eq_append_getElem inside, set_append]
  simp [Nat.min_eq_left inside.le]

theorem drop_set_behind (item : α) (front : writeIdx ≤ readIdx) :
    (items.set writeIdx item).drop (readIdx + 1) = items.drop (readIdx + 1) :=
  drop_set_of_lt (Nat.lt_succ_of_le front)

theorem take_drop_succ (default : α) (turns : Nat) (inside : readIdx < items.length) :
    (items.drop readIdx).take (turns + 1) =
      items.getD readIdx default :: (items.drop (readIdx + 1)).take turns := by
  rw [drop_eq_getElem_cons inside, take_succ_cons, getD_eq_getElem _ _ _]

end

/-! ### `DISTINCT` -/

theorem isDuplicate_eq (columnCount : Int) (inside : writeIdx ≤ rows.length) :
    isDuplicate columnCount rows readIdx writeIdx =
      (rows.take writeIdx).any (sameRow columnCount (rows.getD readIdx [])) := by
  have slots : rows.take writeIdx = (List.range writeIdx).map fun i => rows.getD i [] := by
    refine ext_getElem (by simp [inside]) fun i left right => ?_
    have below : i < rows.length := left.trans_le (length_take_le' ..)
    rw [getElem_take, getElem_map, getElem_range, getD_eq_getElem _ _ _]
  rw [slots, any_map]
  rfl

/-- The rows kept behind the loop are those kept before it and those it adds. -/
theorem distinctLoop_spec (columnCount : Int) (turns : Nat) (front : writeIdx ≤ readIdx)
    (inside : readIdx + turns ≤ rows.length) :
    (distinctLoop columnCount turns readIdx writeIdx rows).1.length = rows.length ∧
    (distinctLoop columnCount turns readIdx writeIdx rows).2 ≤ readIdx + turns ∧
    (distinctLoop columnCount turns readIdx writeIdx rows).1.take
        (distinctLoop columnCount turns readIdx writeIdx rows).2 =
      ((rows.drop readIdx).take turns).foldl (keep (sameRow columnCount))
        (rows.take writeIdx) := by
  induction turns generalizing readIdx writeIdx rows with
  | zero => exact ⟨rfl, front, rfl⟩
  | succ turns inductionHypothesis =>
    have below : readIdx < rows.length := by omega
    rw [distinctLoop, isDuplicate_eq _ (by omega),
      take_drop_succ [] turns below, foldl_cons, keep]
    split
    next =>
      obtain ⟨length, bound, kept⟩ :=
        @inductionHypothesis rows (readIdx + 1) writeIdx (by omega) (by omega)
      exact ⟨length, by omega, kept⟩
    next =>
      -- A row that stays in its place is written there.
      have written :
          (if writeIdx ≠ readIdx then rows.set writeIdx (rows.getD readIdx []) else rows) =
            rows.set writeIdx (rows.getD readIdx []) := by
        split
        next => rfl
        next same =>
          obtain rfl := not_not.mp same
          rw [getD_eq_getElem _ _ below, set_getElem_self]
      obtain ⟨length, bound, kept⟩ :=
        @inductionHypothesis (rows.set writeIdx (rows.getD _ [])) (readIdx + 1)
          (writeIdx + 1) (by omega) (by rw [length_set]; omega)
      rw [take_set_snoc _ (by omega), drop_set_behind _ front] at kept
      rw [written]
      exact ⟨length.trans (length_set ..), bound.trans (by omega), kept⟩

theorem selectApplyDistinct_content (wellFormed : rs.WellFormed) :
    (selectApplyDistinct rs).content = distinct (sameRow rs.columnCount) rs.content := by
  have allocated := wellFormed.allocated
  unfold selectApplyDistinct
  split
  next empty =>
    rw [ResultSet.content, empty]
    rfl
  next =>
    obtain ⟨-, -, kept⟩ := distinctLoop_spec _ _ (Nat.le_refl 0)
      (by omega : 0 + rs.rowCount.toNat ≤ rs.rows.length)
    exact kept

/-! ### Equal rows -/

/-- The keys of the values of a row. -/
def rowKey (columnCount : Int) (row : List Value) :
    List (Nat × Int × FloatOrder.Place × List UInt8) :=
  (List.range columnCount.toNat).map fun colIdx => (row.getD colIdx .null).key

theorem getD_isOrdered (ordered : ∀ value ∈ row, value.isOrdered = true) (colIdx : Nat) :
    (row.getD colIdx .null).isOrdered = true := by
  rcases Nat.lt_or_ge colIdx row.length with inside | outside
  · rw [getD_eq_getElem _ _ inside]
    exact ordered _ (getElem_mem _)
  · rw [getD_eq_default _ _ outside]
    rfl

/-- Without NaNs, rows are equal if their values have the same keys. -/
theorem sameRow_iff (columnCount : Int) {other : List Value}
    (rowOrdered : ∀ value ∈ row, value.isOrdered = true)
    (otherOrdered : ∀ value ∈ other, value.isOrdered = true) :
    sameRow columnCount row other = true ↔ rowKey columnCount row = rowKey columnCount other := by
  unfold sameRow rowKey
  rw [all_eq_true, map_inj_left]
  refine forall₂_congr fun colIdx _ => ?_
  rw [decide_eq_true_iff, Value.valueCompare_eq (getD_isOrdered rowOrdered _)
    (getD_isOrdered otherOrdered _), Std.compare_eq_iff_eq]

/-- A result set without NaNs. -/
def ResultSet.Ordered (rs : ResultSet) : Prop :=
  ∀ row ∈ rs.content, ∀ value ∈ row, value.isOrdered = true

theorem ResultSet.Ordered.keyed (ordered : rs.Ordered) :
    Keyed (sameRow rs.columnCount) (rowKey rs.columnCount) rs.content :=
  fun _ member _ otherMember => sameRow_iff _ (ordered _ member) (ordered _ otherMember)

/-- A second run finds no duplicates and writes nothing. -/
theorem distinctLoop_of_pairwise (columnCount : Int) (turns : Nat)
    (inside : readIdx + turns ≤ rows.length) (apart : (rows.take (readIdx + turns)).Pairwise
      fun a b => sameRow columnCount b a = false) :
    distinctLoop columnCount turns readIdx readIdx rows = (rows, readIdx + turns) := by
  induction turns generalizing readIdx with
  | zero => rfl
  | succ turns inductionHypothesis =>
    have below : readIdx < rows.length := by omega
    have new : isDuplicate columnCount rows readIdx readIdx = false := by
      rw [take_add, take_drop_succ [] turns below] at apart
      obtain ⟨-, -, behind⟩ := pairwise_append.mp apart
      rw [isDuplicate_eq _ below.le, any_eq_false]
      exact fun a member => Bool.eq_false_iff.mp (behind a member _ mem_cons_self)
    rw [distinctLoop, new, ite_not, if_pos rfl]
    have step := @inductionHypothesis (readIdx + 1) (by omega)
      (by rwa [show readIdx + 1 + turns = readIdx + (turns + 1) by omega])
    exact step.trans (by rw [show readIdx + 1 + turns = readIdx + (turns + 1) by omega])

theorem selectApplyDistinct_twice (wellFormed : rs.WellFormed) :
    selectApplyDistinct (selectApplyDistinct rs) = selectApplyDistinct rs := by
  have allocated := wellFormed.allocated
  have content := selectApplyDistinct_content wellFormed
  by_cases empty : rs.rowCount = 0
  · have unchanged : selectApplyDistinct rs = rs := if_pos empty
    rw [unchanged, unchanged]
  · obtain ⟨length, bound, -⟩ := distinctLoop_spec _ _ (Nat.le_refl 0)
      (by omega : 0 + rs.rowCount.toNat ≤ rs.rows.length)
    have result : selectApplyDistinct rs =
        ⟨(distinctLoop rs.columnCount rs.rowCount.toNat 0 0 rs.rows).1,
          (distinctLoop rs.columnCount rs.rowCount.toNat 0 0 rs.rows).2, rs.columnCount⟩ :=
      if_neg empty
    rw [result] at content ⊢
    generalize distinctLoop rs.columnCount rs.rowCount.toNat 0 0 rs.rows = kept at *
    obtain ⟨rows, writeIdx⟩ := kept
    dsimp only at length bound
    have taken : rows.take writeIdx = distinct (sameRow rs.columnCount) rs.content := content
    have apart : (rows.take (0 + writeIdx)).Pairwise
        fun a b => sameRow rs.columnCount b a = false := by
      rw [Nat.zero_add, taken]
      exact distinct_pairwise _
    have again := distinctLoop_of_pairwise _ _ (by omega) apart
    unfold selectApplyDistinct
    split
    · rfl
    · rw [Int.toNat_natCast, again, Nat.zero_add]

/-- `select_apply_distinct` leaves the first occurrence of each row in the order of the rows: no two
rows left are equal, every row equals one that is left, the rows left are some of the rows in their
order, and a second run changes nothing. -/
theorem select_apply_distinct_first_occurrences (rs : ResultSet) (wellFormed : rs.WellFormed)
    (ordered : rs.Ordered) :
    (selectApplyDistinct rs).content = firsts (sameRow rs.columnCount) rs.content ∧
    (selectApplyDistinct rs).content.Pairwise
      (fun a b => sameRow rs.columnCount a b = false ∧ sameRow rs.columnCount b a = false) ∧
    (∀ row ∈ rs.content, ∃ kept ∈ (selectApplyDistinct rs).content,
      sameRow rs.columnCount row kept = true) ∧
    (selectApplyDistinct rs).content.Sublist rs.content ∧
    selectApplyDistinct (selectApplyDistinct rs) = selectApplyDistinct rs := by
  have keyed := ordered.keyed
  have apart : (distinct (sameRow rs.columnCount) rs.content).Pairwise _ :=
    distinct_pairwise _
  have sublist : (distinct (sameRow rs.columnCount) rs.content).Sublist rs.content :=
    distinct_sublist _
  refine ⟨?_, ?_, ?_, ?_, selectApplyDistinct_twice wellFormed⟩
  · rw [selectApplyDistinct_content wellFormed]
    exact distinct_eq_firsts keyed
  · rw [selectApplyDistinct_content wellFormed]
    refine apart.imp_of_mem fun {a b} aMember bMember differ => ⟨?_, differ⟩
    have aRow := sublist.subset aMember
    have bRow := sublist.subset bMember
    rw [← Bool.not_eq_true, keyed b bRow a aRow] at differ
    rw [← Bool.not_eq_true, keyed a aRow b bRow]
    exact fun same => differ same.symm
  · rw [selectApplyDistinct_content wellFormed]
    intro row member
    obtain ⟨kept, keptMember, sameKey⟩ := distinct_covers keyed row member
    exact ⟨kept, keptMember, (keyed row member _ (sublist.subset keptMember)).mpr sameKey.symm⟩
  · rw [selectApplyDistinct_content wellFormed]
    exact sublist

/-- Of three rows the first and the last are equal. -/
theorem select_apply_distinct_three_rows :
    (selectApplyDistinct ⟨[[.integer 1], [.null], [.integer 1]], 3, 1⟩).content.Sublist
      [[.integer 1], [.null], [.integer 1]] ∧
    (selectApplyDistinct ⟨[[.integer 1], [.null], [.integer 1]], 3, 1⟩).rowCount = 2 := by
  have wellFormed : (ResultSet.mk [[.integer 1], [.null], [.integer 1]] 3 1).WellFormed :=
    ⟨by decide, by decide, by decide⟩
  have ordered : (ResultSet.mk [[.integer 1], [.null], [.integer 1]] 3 1).Ordered := by
    simp [ResultSet.Ordered, ResultSet.content, Value.isOrdered]
  obtain ⟨-, -, -, sublist, -⟩ := select_apply_distinct_first_occurrences _ wellFormed ordered
  exact ⟨sublist, rfl⟩

/-! ### `LIMIT` and `OFFSET` -/

/-- Every row is read before its place is written. -/
theorem shiftLoop_spec {offsetVal : Nat} (turns : Nat) {i : Nat} (front : offsetVal ≤ i)
    (inside : i + turns ≤ rows.length) :
    (shiftLoop offsetVal turns i rows).take (i - offsetVal + turns) =
      rows.take (i - offsetVal) ++ (rows.drop i).take turns := by
  induction turns generalizing i rows with
  | zero => simp [shiftLoop]
  | succ turns inductionHypothesis =>
    have step := @inductionHypothesis (rows.set (i - offsetVal) (rows.getD i [])) (i + 1) (by omega)
      (by rw [length_set]; omega)
    rw [show i + 1 - offsetVal = i - offsetVal + 1 by omega, take_set_snoc _ (by omega),
      drop_set_behind _ (Nat.sub_le i _)] at step
    rw [shiftLoop, show i - offsetVal + (turns + 1) = i - offsetVal + 1 + turns by omega, step,
      take_drop_succ [] turns (by omega), append_assoc]
    rfl

theorem dropRows_rowCount (rs : ResultSet) (offsetVal : Int) :
    (dropRows rs offsetVal).rowCount = rs.rowCount - max offsetVal 0 := by
  unfold dropRows
  split
  · rw [max_eq_left (by omega)]
  · rw [max_eq_right (by omega), sub_zero]

theorem dropRows_content (wellFormed : rs.WellFormed) (inside : offsetVal < rs.rowCount) :
    (dropRows rs offsetVal).content = rs.content.drop (max offsetVal 0).toNat := by
  have allocated := wellFormed.allocated
  unfold dropRows
  split
  next positive =>
    have moved := shiftLoop_spec (rs.rowCount - offsetVal).toNat (Nat.le_refl _)
      (by omega : offsetVal.toNat + (rs.rowCount - offsetVal).toNat ≤ rs.rows.length)
    rw [Nat.sub_self, Nat.zero_add, take_zero, nil_append] at moved
    rw [ResultSet.content, ResultSet.content, moved, max_eq_left positive.le, drop_take]
    congr 1
    omega
  next => rw [max_eq_right (by omega)]; rfl

theorem castInt_bounds (value : Int64) : -2 ^ 31 ≤ castInt value ∧ castInt value < 2 ^ 31 := by
  have lower := Int.le_bmod (x := value.toInt) (m := 2 ^ 32) (by decide)
  have upper := Int.bmod_lt (x := value.toInt) (m := 2 ^ 32) (by decide)
  unfold castInt
  omega

theorem castInt_of_lt {value : Int64} (notNegative : 0 ≤ value.toInt)
    (small : value.toInt < 2 ^ 31) : castInt value = value.toInt :=
  Int.bmod_eq_of_le (by omega) (by omega)

theorem limitRows_eq (rs : ResultSet) (limitVal : Int) :
    limitRows rs limitVal = { rs with rowCount := min limitVal rs.rowCount } := by
  unfold limitRows
  split
  · rw [min_eq_left (by omega)]
  · rw [min_eq_right (by omega)]

/-- `select_apply_limit` on two integers. -/
theorem selectApplyLimit_literals (machine : Machine) (rs : ResultSet) (n m : Int64)
    (nonempty : rs.rowCount ≠ 0) :
    selectApplyLimit machine rs (some (.literalInt n)) (some (.literalInt m)) =
      if castInt m ≥ rs.rowCount then .ok { rs with rowCount := 0 }
      else clampLimit rs.rowCount (castInt m) (castInt n) >>= fun limitVal =>
        .ok (limitRows (dropRows rs (castInt m)) limitVal) := by
  rw [selectApplyLimit, if_neg nonempty]
  rfl

/-- The limit is cut to the rows behind the offset, unless its sum with the offset overflows. -/
theorem clampLimit_eq {rowCount limitVal : Int} (inside : offsetVal < rowCount)
    (limitInt : limitVal < 2 ^ 31)
    (defined : -2 ^ 31 ≤ offsetVal + limitVal ∧ offsetVal + limitVal < 2 ^ 31) :
    clampLimit rowCount offsetVal limitVal = .ok (min limitVal (rowCount - offsetVal)) := by
  have sum : checkedInt32 (offsetVal + limitVal) = .ok (offsetVal + limitVal) := if_pos defined
  rw [clampLimit, sum]
  show (if offsetVal + limitVal > rowCount then _ else _) = _
  split
  · rw [min_eq_right (by omega)]
    exact if_pos (by omega)
  · rw [min_eq_left (by omega)]

/-- The rows behind the offset, as many as the limit. -/
def LimitsRight (result : Except Halt ResultSet) (rows : List (List Value)) (n m : Int) : Prop :=
  ∃ rs, result = .ok rs ∧ 0 ≤ rs.rowCount ∧ rs.content = (rows.drop m.toNat).take n.toNat

theorem limitsRight_ok {n m : Int} :
    LimitsRight (.ok rs) rows n m ↔
      0 ≤ rs.rowCount ∧ rs.content = (rows.drop m.toNat).take n.toNat := by
  constructor
  · rintro ⟨_, ⟨⟩, right⟩
    exact right
  · exact fun right => ⟨rs, rfl, right⟩

/-- Without an overflow, the result has the rows behind the offset in front of the limit. -/
theorem limitsRight_iff_of_defined (machine : Machine) (wellFormed : rs.WellFormed) {n m : Int64}
    (nonempty : rs.rowCount ≠ 0) (inside : castInt m < rs.rowCount)
    (defined : -2 ^ 31 ≤ castInt m + castInt n ∧ castInt m + castInt n < 2 ^ 31) :
    LimitsRight (selectApplyLimit machine rs (some (.literalInt n)) (some (.literalInt m)))
        rs.content n.toInt m.toInt ↔
      0 ≤ castInt n ∧
        (rs.content.drop (max (castInt m) 0).toNat).take (castInt n).toNat =
          (rs.content.drop m.toInt.toNat).take n.toInt.toNat := by
  have notNegative := wellFormed.notNegative
  rw [selectApplyLimit_literals _ rs n m nonempty, if_neg inside.not_ge,
    clampLimit_eq inside (castInt_bounds n).2 defined, ← dropRows_content wellFormed inside]
  show LimitsRight (.ok (limitRows _ _)) _ _ _ ↔ _
  rw [limitRows_eq, limitsRight_ok]
  have rowCount := dropRows_rowCount rs (castInt m)
  have sign : 0 ≤ min (min (castInt n) (rs.rowCount - castInt m))
      (dropRows rs (castInt m)).rowCount ↔ 0 ≤ castInt n := by omega
  show 0 ≤ min _ _ ∧ (dropRows rs (castInt m)).rows.take (Int.toNat (min _ _)) = _ ↔ _
  rw [sign]
  have taken : (min (min (castInt n) (rs.rowCount - castInt m))
      (dropRows rs (castInt m)).rowCount).toNat =
        min (castInt n).toNat (dropRows rs (castInt m)).rowCount.toNat := by omega
  rw [taken, ← take_take]
  rfl

theorem ResultSet.WellFormed.content_length (wellFormed : rs.WellFormed) :
    rs.content.length = rs.rowCount.toNat := by
  have allocated := wellFormed.allocated
  rw [ResultSet.content, length_take]
  omega

/-- The numbers for which `select_apply_limit` is right: there are no rows, or the offset is beyond
them as an `int`; the offset is an `int`, and the limit as one is not negative, does not overflow
with the offset and cuts the same rows; or the offset is no `int`, and the limit as one is zero. -/
def LimitFits (rowCount : Int) (n m : Int64) : Prop :=
  rowCount = 0 ∨ rowCount ≤ castInt m ∨
  (m.toInt < 2 ^ 31 ∧ 0 ≤ castInt n ∧ m.toInt + castInt n < 2 ^ 31 ∧
    min (castInt n) (rowCount - m.toInt) = min n.toInt (rowCount - m.toInt)) ∨
  (2 ^ 31 ≤ m.toInt ∧ castInt n = 0)

/-- For all integers that are not negative, `select_apply_limit` leaves the rows behind the offset,
as many as the limit, exactly if the numbers fit. -/
theorem select_apply_limit_right_iff (machine : Machine) (rs : ResultSet)
    (wellFormed : rs.WellFormed) (n m : Int64) (limitNotNegative : 0 ≤ n.toInt)
    (offsetNotNegative : 0 ≤ m.toInt) :
    LimitsRight (selectApplyLimit machine rs (some (.literalInt n)) (some (.literalInt m)))
        rs.content n.toInt m.toInt ↔
      LimitFits rs.rowCount n m := by
  have length := wellFormed.content_length
  have notNegative := wellFormed.notNegative
  have isInt := wellFormed.isInt
  have offsetInt : m.toInt < 2 ^ 31 → castInt m = m.toInt := castInt_of_lt offsetNotNegative
  have offsetBounds := castInt_bounds m
  by_cases empty : rs.rowCount = 0
  · have unchanged : selectApplyLimit machine rs (some (.literalInt n)) (some (.literalInt m)) =
        .ok rs := if_pos empty
    have noRows : rs.content = [] := length_eq_zero_iff.mp (by omega)
    rw [unchanged, limitsRight_ok, noRows]
    exact iff_of_true ⟨by omega, by simp⟩ (.inl empty)
  by_cases beyond : rs.rowCount ≤ castInt m
  · rw [selectApplyLimit_literals machine rs n m empty, if_pos beyond, limitsRight_ok,
      drop_eq_nil_of_le (by omega)]
    exact iff_of_true ⟨le_rfl, by simp [ResultSet.content]⟩ (.inr (.inl beyond))
  rw [not_le] at beyond
  by_cases defined : -2 ^ 31 ≤ castInt m + castInt n ∧ castInt m + castInt n < 2 ^ 31
  · rw [limitsRight_iff_of_defined machine wellFormed empty beyond defined, LimitFits]
    rcases lt_or_ge m.toInt (2 ^ 31) with small | large
    · have same := offsetInt small
      rw [same, max_eq_left offsetNotNegative, take_eq_take_iff, length_drop]
      omega
    · rw [drop_eq_nil_of_le (show rs.content.length ≤ m.toInt.toNat by omega), take_nil,
        take_eq_nil_iff, drop_eq_nil_iff]
      omega
  · have undefined : clampLimit rs.rowCount (castInt m) (castInt n) = .error .undefined := by
      have sum : checkedInt32 (castInt m + castInt n) = .error .undefined := if_neg defined
      rw [clampLimit, sum]
      rfl
    rw [selectApplyLimit_literals _ rs n m empty, if_neg beyond.not_ge, undefined]
    refine iff_of_false ?_ ?_
    · rintro ⟨_, ⟨⟩, -⟩
    · unfold LimitFits
      omega

/-- Two rows behind the first one of three. -/
theorem select_apply_limit_two_rows :
    LimitsRight (selectApplyLimit default ⟨[[.integer 1], [.integer 2], [.integer 3]], 3, 1⟩
        (some (.literalInt 2)) (some (.literalInt 1)))
      [[.integer 1], [.integer 2], [.integer 3]] 2 1 := by
  have wellFormed : (ResultSet.mk [[.integer 1], [.integer 2], [.integer 3]] 3 1).WellFormed :=
    ⟨by decide, by decide, by decide⟩
  refine (select_apply_limit_right_iff _ _ wellFormed 2 1 (by decide) (by decide)).mpr ?_
  exact .inr (.inr (.inl (by decide)))

/-- `LIMIT 4294967296` leaves no row, and `LIMIT 2147483648` a negative number of rows. -/
theorem select_apply_limit_truncates :
    selectApplyLimit default ⟨[[.integer 1]], 1, 1⟩ (some (.literalInt 4294967296))
        (some (.literalInt 0)) = .ok ⟨[[.integer 1]], 0, 1⟩ ∧
      selectApplyLimit default ⟨[[.integer 1]], 1, 1⟩ (some (.literalInt 2147483648))
        (some (.literalInt 0)) = .ok ⟨[[.integer 1]], -2147483648, 1⟩ :=
  ⟨rfl, rfl⟩

end TinyDb

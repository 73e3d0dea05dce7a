/-
This file names the places at which a statement hangs, and those at which it fails.

A statement is a list of parts, which its first tokens tell. The parser hangs or fails at a
part if it has read all parts in front of it without an error. What stands at such a place
is said in terms of the tokens: a token that is missing, or an expression with an error.
-/

import TinyDb.StatementCourse

namespace TinyDb

open TokenType Course Relation

/-! ### Loops -/

/-- A way to go wrong, other than to give `NULL`. -/
structure Defect (Bad : Course → Prop) : Prop where
  clean : ∀ rest, ¬Bad (goes false rest)
  noNull : ¬Bad null

/-- An item is read without an error, and another one follows. -/
def NextItem (more : List Token → Option (List Token)) (item : List Token → Course)
    (tokens next : List Token) : Prop :=
  ∃ rest, item tokens = goes false rest ∧ more rest = some next

section Loops

variable {Bad : Course → Prop} {item : List Token → Course}
  {more : List Token → Option (List Token)} {steps : Nat} {course : Course}
  {next : List Token → Course} {tokens : List Token}

theorem bad_andThen_iff (fault : Defect Bad) :
    Bad (course.andThen next) ↔
      Bad course ∨ ∃ rest, course = goes false rest ∧ Bad (next rest) := by
  cases course with
  | hangs | null => simp [andThen]
  | goes failed rest => cases failed <;> simp [andThen, fault.clean]

/-- A loop over items goes wrong at an item, behind items without an error. -/
theorem bad_loop_iff (fault : Defect Bad)
    (shorter : ∀ tokens next, NextItem more item tokens next → next.length < tokens.length)
    (enough : tokens.length < steps) :
    Bad (loopCourse more item steps tokens) ↔
      ∃ place, ReflTransGen (NextItem more item) tokens place ∧ Bad (item place) := by
  induction steps generalizing tokens with
  | zero => exact absurd enough (Nat.not_lt_zero _)
  | succ steps inductionHypothesis =>
    have later := fun next (follows : NextItem more item tokens next) =>
      @inductionHypothesis next
        (Nat.lt_of_lt_of_le (shorter _ _ follows) (Nat.le_of_lt_succ enough))
    rw [loopCourse, bad_andThen_iff fault]
    constructor
    · rintro (bad | ⟨rest, read, bad⟩)
      · exact ⟨tokens, .refl, bad⟩
      · cases follows : more rest with
        | none =>
          rw [follows] at bad
          exact absurd bad (fault.clean _)
        | some next =>
          rw [follows] at bad
          obtain ⟨place, path, bad⟩ := (later next ⟨rest, read, follows⟩).mp bad
          exact ⟨place, .head ⟨rest, read, follows⟩ path, bad⟩
    · rintro ⟨place, path, bad⟩
      obtain rfl | ⟨next, ⟨rest, read, follows⟩, path⟩ := path.cases_head
      · exact .inl bad
      · refine .inr ⟨rest, read, ?_⟩
        rw [follows]
        exact (later next ⟨rest, read, follows⟩).mpr ⟨place, path, bad⟩

/-- A list of parts goes wrong at a part, behind parts without an error. -/
theorem bad_readParts_iff (fault : Defect Bad) (parts : List Part) :
    Bad (readParts parts tokens) ↔ ∃ front part back rest, parts = front ++ part :: back ∧
      readParts front tokens = goes false rest ∧ Bad (part.course rest) := by
  induction parts generalizing tokens with
  | nil =>
    refine iff_of_false (fault.clean _) ?_
    rintro ⟨front, _, _, _, none, -⟩
    cases front <;> cases none
  | cons part parts inductionHypothesis =>
    rw [readParts_cons, bad_andThen_iff fault]
    constructor
    · rintro (bad | ⟨rest, read, bad⟩)
      · exact ⟨[], part, parts, tokens, rfl, rfl, bad⟩
      · obtain ⟨front, later, back, place, rfl, readFront, bad⟩ := inductionHypothesis.mp bad
        exact ⟨part :: front, later, back, place, rfl,
          by rw [readParts_cons, read, goes_andThen, readFront], bad⟩
    · rintro ⟨front, later, back, place, split, readFront, bad⟩
      cases front with
      | nil =>
        cases split
        cases readFront
        exact .inl bad
      | cons head front =>
        cases split
        rw [readParts_cons] at readFront
        obtain ⟨rest, read, readFront⟩ := andThen_eq_goes readFront
        exact .inr ⟨rest, read, inductionHypothesis.mpr ⟨_, _, _, _, rfl, readFront, bad⟩⟩

end Loops

/-! ### Places -/

/-- The course of a text hangs. -/
def Course.isHangs : Course → Bool
  | hangs => true
  | _ => false

/-- The course of a text goes on to its end, with an error recorded on the way. -/
def Course.isFaulty : Course → Bool
  | goes true _ => true
  | _ => false

/-- The beginnings of the items of a list. -/
def ItemAt (item : List Token → Course) : List Token → List Token → Prop :=
  ReflTransGen (NextItem behindComma item)

/-- A default value with an error, and whether a constraint begins where the value ends. -/
def BadDefault (again : Bool) (tokens : List Token) : Prop :=
  ∃ column place, ItemAt columnCourse tokens column ∧ firstType column = tokenIdentifier ∧
    ReflTransGen (NextItem atConstraint constraintCourse) (afterType column.tail) place ∧
    firstType place = tokenDefault ∧ (readExpression place.tail).failed = true ∧
    startsConstraint (firstType (readExpression place.tail).rest) = again

/-- An expression with an error that is returned nevertheless. -/
def Reading.Faulty {α : Type} (reading : Reading α) : Prop :=
  reading.value.isSome = true ∧ reading.failed = true

/-- A value list with an error, which is not closed, or in whose place another value begins. -/
def BadValues (tokens : List Token) : Prop :=
  (firstType tokens = tokenLparen ∧ firstType tokens.tail ≠ tokenRparen ∧
    (readExpressions tokens.tail).value.isSome = true ∧
    ((readExpressions tokens.tail).failed = true ∨
      firstType (readExpressions tokens.tail).rest ≠ tokenRparen)) ∨
  (firstType tokens ≠ tokenLparen ∧ nests (firstType tokens) = false ∧
    startsLiteral (firstType tokens) = true)

/-- An expression with an error behind `WHERE`, `LIMIT` or `OFFSET`, in front of none of the clauses
that may follow it. -/
def BadClause (tokens : List Token) : Prop :=
  (firstType tokens = tokenWhere ∧ (readExpression tokens.tail).Faulty ∧
    firstType (readExpression tokens.tail).rest ≠ tokenLimit ∧
    firstType (readExpression tokens.tail).rest ≠ tokenOffset) ∨
  (∃ place, (clauseCourse (goes false tokens) tokenWhere).andThen orderCourse = goes false place ∧
    firstType place = tokenLimit ∧ (readExpression place.tail).Faulty ∧
    firstType (readExpression place.tail).rest ≠ tokenOffset) ∨
  ∃ place, clauseCourse ((clauseCourse (goes false tokens) tokenWhere).andThen orderCourse)
    tokenLimit = goes false place ∧ firstType place = tokenOffset ∧
    (readExpression place.tail).Faulty

/-- The places at which a part hangs. -/
def Part.Hangs : Part → List Token → Prop
  | columns, tokens => BadDefault true tokens
  | values, tokens => firstType tokens = tokenValues ∧ ∃ place,
    ItemAt valueListCourse tokens.tail place ∧ firstType place ≠ tokenLparen ∧
      nests (firstType place) = true
  | setClauses, tokens => firstType tokens = tokenSet ∧ ∃ place,
    ItemAt setClauseCourse tokens.tail place ∧ firstType place = tokenIdentifier ∧
      nests (firstType place.tail) = true
  | _, _ => False

/-- The places at which a part fails. -/
def Part.Fails : Part → List Token → Prop
  | token type, tokens => firstType tokens ≠ type
  | opening type, tokens => firstType tokens ≠ type ∧ firstType tokens = tokenIdentifier
  | columns, tokens => BadDefault false tokens
  | columnList, tokens => firstType tokens = tokenLparen ∧ ∃ place,
    itemsCourse insertColumnCourse tokens.tail = goes false place ∧ firstType place ≠ tokenRparen
  | values, tokens => firstType tokens ≠ tokenValues ∨ ∃ place,
    ItemAt valueListCourse tokens.tail place ∧ BadValues place
  | whereClause, tokens => firstType tokens = tokenWhere ∧ (readExpression tokens.tail).Faulty
  | clauses, tokens => BadClause tokens
  | _, _ => False

section Places

variable {Bad : Course → Prop} {item : List Token → Course} {course : Course} {tokens : List Token}

section

variable (fault : Defect Bad)
include fault

theorem bad_items_iff
    (within : ∀ tokens, (item tokens).Within tokens.length) :
    Bad (itemsCourse item tokens) ↔ ∃ place, ItemAt item tokens place ∧ Bad (item place) := by
  refine bad_loop_iff fault ?_ (Nat.lt_succ_self _)
  rintro tokens next ⟨rest, read, follows⟩
  have shorter := within _ _ _ read
  unfold behindComma at follows
  split at follows <;> cases follows
  have more := Parser.length_tail_of_type (by rw [‹firstType rest = _›]; decide)
  omega

theorem bad_constraints_iff :
    Bad (constraintsCourse tokens) ↔ ∃ place,
      ReflTransGen (NextItem atConstraint constraintCourse) tokens place ∧
        Bad (constraintCourse place) := by
  refine bad_loop_iff fault ?_ (Nat.lt_succ_self _)
  rintro tokens next ⟨rest, read, follows⟩
  unfold atConstraint at follows
  split at follows <;> cases follows
  rename_i starts
  have two := @List.length_tail _ tokens.tail
  unfold constraintCourse at read
  split at read
  · next is =>
    have more := Parser.length_tail_of_type (by rw [is]; decide)
    cases read
    omega
  · next is =>
    have more := Parser.length_tail_of_type (by rw [is]; decide)
    cases read
    split <;> omega
  · next is =>
    have more := Parser.length_tail_of_type (by rw [is]; decide)
    cases read
    omega
  · next is =>
    have more := Parser.length_tail_of_type (by rw [is]; decide)
    have value := (readExpression_complete tokens.tail).length
    dsimp only at read
    split at read
    · split at read <;> cases read
    · cases read
      omega
  · next noNot noPrimary noAutoincrement noDefault =>
    cases read
    rw [startsConstraint] at starts
    · cases starts
    all_goals assumption

/-- A list of columns goes wrong at a default value. -/
theorem bad_columns_iff {again : Bool}
    (atDefault : ∀ place, Bad (constraintCourse place) ↔ firstType place = tokenDefault ∧
      (readExpression place.tail).failed = true ∧
      startsConstraint (firstType (readExpression place.tail).rest) = again) :
    Bad (itemsCourse columnCourse tokens) ↔ BadDefault again tokens := by
  have atColumn column : Bad (columnCourse column) ↔ firstType column = tokenIdentifier ∧
      Bad (constraintsCourse (afterType column.tail)) := by
    unfold columnCourse nameCourse
    by_cases isName : firstType column = tokenIdentifier
    · simp [isName, goes_andThen]
    · split <;> simp [isName, fault.clean, fault.noNull, null_andThen]
  simp only [bad_items_iff fault columnCourse_within, atColumn, bad_constraints_iff fault, atDefault,
    BadDefault, exists_and_left]

theorem not_bad_name :
    ¬Bad (nameCourse tokens) := by
  unfold nameCourse
  split
  · exact fault.clean _
  · exact fault.noNull

theorem not_bad_insertColumns :
    ¬Bad (itemsCourse insertColumnCourse tokens) := by
  rw [bad_items_iff fault insertColumnCourse_within]
  rintro ⟨place, _, bad⟩
  unfold insertColumnCourse at bad
  split at bad
  · exact fault.clean _ bad
  · exact not_bad_name fault bad

theorem not_bad_order :
    ¬Bad (orderCourse tokens) := by
  unfold orderCourse
  split
  · split
    · rw [bad_items_iff fault orderItemCourse_within]
      rintro ⟨place, _, bad⟩
      rw [orderItemCourse, bad_andThen_iff fault] at bad
      obtain bad | ⟨rest, _, bad⟩ := bad
      · exact not_bad_name fault bad
      · exact fault.clean _ bad
    · exact fault.clean _
  · exact fault.clean _

end

end Places

section Parts

variable {tokens rest : List Token} {type : TokenType} {course : Course} {α : Type}
  {reading : Reading α}

attribute [local simp] isHangs.eq_1 isHangs.eq_2 isFaulty.eq_1 isFaulty.eq_2 goes_andThen
  fails_andThen null_andThen

theorem isHangs_fault : Defect (isHangs · = true) := ⟨by simp, by simp⟩

theorem isFaulty_fault : Defect (isFaulty · = true) := ⟨by simp, by simp⟩

@[local simp]
theorem isHangs_ofReading : (ofReading reading).isHangs = false := by
  rcases reading with ⟨_ | _, _, _⟩ <;> rfl

@[local simp]
theorem isFaulty_ofReading : (ofReading reading).isFaulty = true ↔ reading.Faulty := by
  rcases reading with ⟨_ | _, _ | _, _⟩ <;> simp [ofReading, Reading.Faulty]

@[local simp]
theorem isHangs_orNull : course.orNull.isHangs = course.isHangs := by
  rcases course with _ | _ | ⟨_ | _, _⟩ <;> rfl

@[local simp]
theorem isFaulty_orNull : course.orNull.isFaulty = false := by
  rcases course with _ | _ | ⟨_ | _, _⟩ <;> rfl

@[local simp]
theorem isHangs_expect : (course.andThen (tokenCourse type)).isHangs = course.isHangs := by
  rcases course with _ | _ | ⟨_ | _, rest⟩
  · rfl
  · rfl
  · by_cases follows : firstType rest = type <;> simp [tokenCourse, follows]
  · rfl

@[local simp]
theorem isFaulty_expect : (course.andThen (tokenCourse type)).isFaulty = true ↔
    course.isFaulty = true ∨ ∃ rest, course = goes false rest ∧ firstType rest ≠ type := by
  rcases course with _ | _ | ⟨_ | _, rest⟩
  · simp [andThen]
  · simp
  · by_cases follows : firstType rest = type <;> simp [tokenCourse, follows]
  · simp

theorem selectColumnsCourse_isHangs (steps : Nat) (tokens : List Token) :
    (selectColumnsCourse steps tokens).isHangs = false := by
  induction steps generalizing tokens with
  | zero => rfl
  | succ steps inductionHypothesis =>
    unfold selectColumnsCourse nameCourse aliasCourse
    grind [andThen, isHangs]

theorem isHangs_clauseCourse : (clauseCourse course type).isHangs = course.isHangs := by
  rcases course with _ | _ | ⟨_ | _, rest⟩
  · rfl
  · rfl
  all_goals by_cases follows : firstType rest = type <;> simp [clauseCourse, follows]

theorem clauseCourse_fails_iff : clauseCourse course type = goes true rest ↔
    (course = goes true rest ∧ firstType rest ≠ type) ∨
    ∃ place, course = goes false place ∧ firstType place = type ∧
      (readExpression place.tail).Faulty ∧ (readExpression place.tail).rest = rest := by
  rcases course with _ | _ | ⟨_ | _, place⟩
  · simp [clauseCourse]
  · simp [clauseCourse]
  · rcases reading : readExpression place.tail with ⟨_ | _, _ | _, _⟩ <;>
      by_cases follows : firstType place = type <;>
      simp [clauseCourse, follows, reading, ofReading, Reading.Faulty]
  · by_cases follows : firstType place = type <;> simp [clauseCourse, follows]
    · rintro rfl
      exact follows
    · rintro rfl
      exact follows

theorem isFaulty_iff : course.isFaulty = true ↔ ∃ rest, course = goes true rest := by
  rcases course with _ | _ | ⟨_ | _, _⟩ <;> simp

theorem Part.hangs_iff (part : Part) (tokens : List Token) :
    (part.course tokens).isHangs = true ↔ part.Hangs tokens := by
  cases part with
  | columns =>
    refine bad_columns_iff isHangs_fault fun place => ?_
    unfold constraintCourse
    grind [isHangs]
  | values =>
    have atList place : (valueListCourse place).isHangs = true ↔
        firstType place ≠ tokenLparen ∧ nests (firstType place) = true := by
      have closing : nests tokenRparen = false := rfl
      unfold valueListCourse strayCourse
      split_ifs <;> simp [*]
    simp only [← atList, Part.Hangs, Part.course]
    split
    · next isValues => simp [isValues, ← bad_items_iff isHangs_fault valueListCourse_within]
    · next noValues => simp [noValues]
  | setClauses =>
    have atClause place : (setClauseCourse place).isHangs = true ↔
        firstType place = tokenIdentifier ∧ nests (firstType place.tail) = true := by
      have equals : nests tokenEq = false := rfl
      unfold setClauseCourse strayCourse nameCourse
      split_ifs <;> simp [*]
      split_ifs <;> simp [*]
    simp only [← atClause, Part.Hangs, Part.course]
    split
    · next isSet => simp [isSet, ← bad_items_iff isHangs_fault setClauseCourse_within]
    · next noSet => simp [noSet]
  | columnList =>
    have stays := @not_bad_insertColumns _ tokens.tail isHangs_fault
    simp only [Part.course, columnListCourse, Part.Hangs]
    split <;> simp_all
  | selectColumns => simp [Part.course, selectColumnsCourse_isHangs, Part.Hangs]
  | clauses =>
    have stays := fun rest => @not_bad_order _ rest isHangs_fault
    simp only [Part.course, isHangs_clauseCourse, Part.Hangs]
    rw [bad_andThen_iff isHangs_fault, isHangs_clauseCourse]
    simp_all
  | name | ifNotExists | ifExists | whereClause =>
    simp only [Part.course, nameCourse, ifNotExistsCourse, ifExistsCourse, whereCourse, Part.Hangs]
    split_ifs <;> simp
  | word | token | opening =>
    simp only [Part.course, wordCourse, tokenCourse, Part.Hangs]
    split_ifs <;> simp
  | unique | unknown => simp [Part.course, Part.Hangs]

theorem Part.fails_iff (part : Part) (tokens : List Token) :
    (part.course tokens).isFaulty = true ↔ part.Fails tokens := by
  cases part with
  | columns =>
    refine bad_columns_iff isFaulty_fault fun place => ?_
    unfold constraintCourse
    grind [isFaulty]
  | values =>
    have atList place : (valueListCourse place).isFaulty = true ↔ BadValues place := by
      have closing : startsLiteral tokenRparen = false := rfl
      unfold valueListCourse strayCourse BadValues
      split_ifs <;> simp [*, Reading.Faulty]
      rcases readExpressions place.tail with ⟨_ | _, _ | _, _⟩ <;> simp [ofReading]
    simp only [← atList, Part.Fails, Part.course]
    split
    · next isValues => simp [isValues, ← bad_items_iff isFaulty_fault valueListCourse_within]
    · next noValues => simp [noValues]
  | columnList =>
    have stays := @not_bad_insertColumns _ tokens.tail isFaulty_fault
    simp only [Part.course, columnListCourse, Part.Fails]
    split <;> simp_all
  | clauses =>
    simp only [Part.course, Part.Fails, isFaulty_iff, clauseCourse_fails_iff]
    have stays (rest place : List Token) : orderCourse place ≠ goes true rest :=
      @not_bad_order (· = goes true rest) place ⟨by simp, by simp⟩
    have atWhere rest := @bad_andThen_iff (· = goes true rest)
      (clauseCourse (goes false tokens) tokenWhere) orderCourse ⟨by simp, by simp⟩
    simp only [atWhere, stays, clauseCourse_fails_iff, BadClause]
    grind
  | name | ifNotExists | ifExists | whereClause =>
    simp only [Part.course, nameCourse, ifNotExistsCourse, ifExistsCourse, whereCourse, Part.Fails]
    split_ifs <;> simp [*]
  | word | token | opening | setClauses =>
    simp only [Part.course, wordCourse, tokenCourse, Part.Fails]
    split_ifs <;> simp_all
  | unique | selectColumns | unknown => simp [Part.course, Part.Fails]

end Parts

/-! ### Statements -/

/-- The parser hangs at a part of the statement, behind parts without an error. -/
def Hanging (tokens : List Token) : Prop :=
  ∃ front part back rest, statementParts tokens = front ++ part :: back ∧
    readParts front tokens = goes false rest ∧ part.Hangs rest

/-- The parser fails at a part of the statement, behind parts without an error. -/
def Faulty (tokens : List Token) : Prop :=
  ∃ front part back rest, statementParts tokens = front ++ part :: back ∧
    readParts front tokens = goes false rest ∧ part.Fails rest

theorem statementCourse_isHangs (tokens : List Token) :
    (statementCourse tokens).isHangs = true ↔ Hanging tokens := by
  simp only [statementCourse, bad_readParts_iff isHangs_fault, Part.hangs_iff, Hanging]

theorem statementCourse_isFaulty (tokens : List Token) :
    (statementCourse tokens).isFaulty = true ↔ Faulty tokens := by
  simp only [statementCourse, bad_readParts_iff isFaulty_fault, Part.fails_iff, Faulty]

end TinyDb

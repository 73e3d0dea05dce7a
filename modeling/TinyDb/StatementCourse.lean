/-
This file follows the parser of statements on a list of tokens. Each part of a statement
has a course: it never ends, or it gives `NULL`, or it goes on in front of the rest of
the tokens, with an error recorded or without. The course says what the tokens are and
names none of the calls of the parser.

Three loops of the parser can run for ever after an error: the loop over the clauses of
`SET`, the one over the lists of `VALUES`, and the one over the constraints of a column.
Everywhere else an error that was recorded leads to `NULL` or to a statement that is
returned nevertheless.
-/
import TinyDb.Reader

namespace TinyDb

open TokenType

variable {failed : Bool} {tokens : List Token} {bound : Nat}

/-! ### Courses -/

/-- How a part of a statement goes on a list of tokens. -/
inductive Course
  | hangs
  | null
  | goes (failed : Bool) (rest : List Token)

namespace Course

/-- Going on behind a part, unless an error was recorded. -/
def andThen (course : Course) (next : List Token → Course) : Course :=
  match course with
  | goes false rest => next rest
  | course => course

/-- An error that ends in `NULL` later on. -/
def orNull : Course → Course
  | goes true _ => null
  | course => course

/-- Reading an expression. -/
def ofReading {α : Type} (reading : Reading α) : Course :=
  match reading with
  | ⟨none, _, _⟩ => null
  | ⟨some _, failed, rest⟩ => goes failed rest

end Course

open Course

/-- A token without which an error is recorded. -/
def tokenCourse (type : TokenType) (tokens : List Token) : Course :=
  if firstType tokens = type then goes false tokens.tail else goes true tokens

/-- A word without which there is `NULL`. -/
def wordCourse (type : TokenType) (tokens : List Token) : Course :=
  if firstType tokens = type then goes false tokens.tail else null

/-- A name. -/
def nameCourse (tokens : List Token) : Course :=
  if firstType tokens = tokenIdentifier then goes false tokens.tail else null

/-- A loop over items: behind each of them the tokens tell whether there is another one, and where
it begins. -/
def loopCourse (more : List Token → Option (List Token)) (item : List Token → Course) :
    Nat → List Token → Course
  | 0, _ => null
  | steps + 1, tokens =>
    (item tokens).andThen fun rest => (more rest).elim (goes false rest) (loopCourse more item steps)

/-- Another item begins behind a comma. -/
def behindComma (tokens : List Token) : Option (List Token) :=
  if firstType tokens = tokenComma then some tokens.tail else none

/-- Items with commas between them. -/
def itemsCourse (item : List Token → Course) (tokens : List Token) : Course :=
  loopCourse behindComma item (tokens.length + 1) tokens

/-! ### Tables and indexes -/

/-- The tokens with which a constraint of a column begins. -/
def startsConstraint : TokenType → Bool
  | tokenNot | tokenPrimary | tokenAutoincrement | tokenDefault => true
  | _ => false

/-- Another constraint begins where one ends. -/
def atConstraint (tokens : List Token) : Option (List Token) :=
  if startsConstraint (firstType tokens) then some tokens else none

/-- A constraint of a column, if there is one. An error in a default value is recorded in front of
the token where the value ends; if a constraint begins there, it is looked at for ever. -/
def constraintCourse (tokens : List Token) : Course :=
  match firstType tokens with
  | tokenNot => goes false tokens.tail.tail
  | tokenPrimary =>
    goes false (if firstType tokens.tail = tokenKey then tokens.tail.tail else tokens.tail)
  | tokenAutoincrement => goes false tokens.tail
  | tokenDefault =>
    let value := readExpression tokens.tail
    if value.failed then
      if startsConstraint (firstType value.rest) then hangs else goes true value.rest
    else goes false value.rest
  | _ => goes false tokens

def constraintsCourse (tokens : List Token) : Course :=
  loopCourse atConstraint constraintCourse (tokens.length + 1) tokens

/-- Whether a token is the type of a column. -/
def startsType (token : Token) : Bool :=
  token.type = tokenIntegerKw ||
    (token.type = tokenRealKw || Parser.isKeyword token "REAL") ||
    (token.type = tokenTextKw || Parser.isKeyword token "TEXT") ||
    (token.type = tokenBlobKw || Parser.isKeyword token "BLOB")

/-- The tokens behind the type of a column. -/
def afterType : List Token → List Token
  | [] => []
  | token :: rest => if startsType token then rest else token :: rest

/-- A column of a table, if there is one. -/
def columnCourse (tokens : List Token) : Course :=
  if firstType tokens = tokenRparen then goes false tokens
  else (nameCourse tokens).andThen fun tokens => constraintsCourse (afterType tokens)

def ifNotExistsCourse (tokens : List Token) : Course :=
  if firstType tokens = tokenIf then
    if firstType tokens.tail = tokenNot ∧ firstType tokens.tail.tail = tokenExists then
      goes false tokens.tail.tail.tail
    else null
  else goes false tokens

def ifExistsCourse (tokens : List Token) : Course :=
  if firstType tokens = tokenIf then
    if firstType tokens.tail = tokenExists then goes false tokens.tail.tail else null
  else goes false tokens

/-! ### Rows -/

/-- An expression that is looked for after an error. -/
def strayCourse (tokens : List Token) : Course :=
  if nests (firstType tokens) then hangs
  else if startsLiteral (firstType tokens) then goes true tokens
  else null

/-- The name of a column of `INSERT`, if there is one. -/
def insertColumnCourse (tokens : List Token) : Course :=
  if firstType tokens = tokenRparen then goes false tokens else nameCourse tokens

def columnListCourse (tokens : List Token) : Course :=
  if firstType tokens = tokenLparen then
    (itemsCourse insertColumnCourse tokens.tail).andThen (tokenCourse tokenRparen)
  else goes false tokens

/-- A value list of `INSERT`; an empty list gives `NULL`. -/
def valueListCourse (tokens : List Token) : Course :=
  if firstType tokens = tokenLparen then
    if firstType tokens.tail = tokenRparen then null
    else (ofReading (readExpressions tokens.tail)).andThen (tokenCourse tokenRparen)
  else if firstType tokens = tokenRparen then null
  else strayCourse tokens

/-- A clause of `SET`. -/
def setClauseCourse (tokens : List Token) : Course :=
  (nameCourse tokens).andThen fun tokens =>
    if firstType tokens = tokenEq then ofReading (readExpression tokens.tail)
    else strayCourse tokens

/-- The `WHERE` that has to be there. -/
def whereCourse (tokens : List Token) : Course :=
  if firstType tokens = tokenWhere then ofReading (readExpression tokens.tail) else null

/-! ### Queries -/

/-- The alias of a column. -/
def aliasCourse (tokens : List Token) : Course :=
  if firstType tokens = tokenAs then
    if firstType tokens.tail = tokenIdentifier then goes false tokens.tail.tail
    else if firstType tokens.tail = tokenComma then null
    else goes true tokens.tail
  else goes false tokens

/-- The columns of `SELECT`. -/
def selectColumnsCourse : Nat → List Token → Course
  | 0, _ => null
  | steps + 1, tokens =>
    if firstType tokens = tokenStar then goes false tokens.tail
    else (nameCourse tokens).andThen fun tokens =>
      (aliasCourse tokens).andThen fun tokens =>
        if firstType tokens = tokenComma then selectColumnsCourse steps tokens.tail
        else goes false tokens

/-- A clause that may be missing. After an error the clause gives `NULL`. -/
def clauseCourse (course : Course) (type : TokenType) : Course :=
  match course with
  | goes false tokens =>
    if firstType tokens = type then ofReading (readExpression tokens.tail) else goes false tokens
  | goes true tokens => if firstType tokens = type then null else goes true tokens
  | course => course

/-- An item of `ORDER BY`. -/
def orderItemCourse (tokens : List Token) : Course :=
  (nameCourse tokens).andThen fun tokens =>
    goes false
      (if firstType tokens = tokenDesc ∨ firstType tokens = tokenAsc then tokens.tail else tokens)

def orderCourse (tokens : List Token) : Course :=
  if firstType tokens = tokenOrder then
    if firstType tokens.tail = tokenBy then itemsCourse orderItemCourse tokens.tail.tail
    else goes false tokens.tail
  else goes false tokens

/-! ### Statements -/

/-- A part of a statement. -/
inductive Part
  | word (type : TokenType)
  | token (type : TokenType)
  | opening (type : TokenType)
  | name
  | ifNotExists
  | ifExists
  | unique
  | columns
  | columnList
  | values
  | setClauses
  | selectColumns
  | whereClause
  | clauses
  | unknown

/-- The course of a part. A missing word gives `NULL`, a missing token an error; a name in the place
of an opening token gives an error as well. -/
def Part.course : Part → List Token → Course
  | word type => wordCourse type
  | token type => tokenCourse type
  | opening type => fun tokens =>
    if firstType tokens = type then goes false tokens.tail
    else if firstType tokens = tokenIdentifier then goes true tokens
    else null
  | name => nameCourse
  | ifNotExists => ifNotExistsCourse
  | ifExists => ifExistsCourse
  | unique => fun tokens =>
    goes false (if firstType tokens = tokenUnique then tokens.tail else tokens)
  | columns => itemsCourse columnCourse
  | columnList => columnListCourse
  | values => fun tokens =>
    if firstType tokens = tokenValues then itemsCourse valueListCourse tokens.tail
    else goes true tokens
  | setClauses => fun tokens =>
    if firstType tokens = tokenSet then (itemsCourse setClauseCourse tokens.tail).orNull else null
  | selectColumns => fun tokens => (selectColumnsCourse (tokens.length + 1) tokens).orNull
  | whereClause => whereCourse
  | clauses => fun tokens =>
    clauseCourse (clauseCourse ((clauseCourse (goes false tokens) tokenWhere).andThen orderCourse)
      tokenLimit) tokenOffset
  | unknown => fun _ => null

def createTableParts : List Part :=
  [.ifNotExists, .name, .token tokenLparen, .columns, .token tokenRparen, .token tokenSemicolon]

/-- The column of an index. Without the parenthesis, a name is taken for the column all the same. -/
def indexColumnParts : List Part :=
  [.opening tokenLparen, .name, .token tokenRparen, .token tokenSemicolon]

/-- `INSERT`. Without `INTO` or `VALUES`, no value is looked for. -/
def insertParts : List Part :=
  [.opening tokenInto, .name, .columnList, .values, .token tokenSemicolon]

/-- `UPDATE`. An error in front of the `WHERE` gives `NULL` there. -/
def updateParts : List Part := [.name, .setClauses, .whereClause, .token tokenSemicolon]

def deleteParts : List Part := [.word tokenFrom, .name, .whereClause, .token tokenSemicolon]

/-- `SELECT`. An error among the columns gives `NULL` at the `FROM`. -/
def selectParts : List Part :=
  [.selectColumns, .word tokenFrom, .name, .clauses, .token tokenSemicolon]

/-- The parts of the statement that tokens begin. -/
def statementParts (tokens : List Token) : List Part :=
  match firstType tokens with
  | tokenCreate =>
    if firstType tokens.tail = tokenTable then
      .word tokenCreate :: .word tokenTable :: createTableParts
    else if firstType tokens.tail = tokenIndex then
      .word tokenCreate :: .word tokenIndex :: .unique :: .name :: .word tokenOn :: .name ::
        indexColumnParts
    else [.unknown]
  | tokenDrop =>
    if firstType tokens.tail = tokenTable then
      [.word tokenDrop, .word tokenTable, .ifExists, .name, .token tokenSemicolon]
    else if firstType tokens.tail = tokenIndex then
      [.word tokenDrop, .word tokenIndex, .name, .token tokenSemicolon]
    else [.unknown]
  | tokenInsert => .word tokenInsert :: insertParts
  | tokenUpdate => .word tokenUpdate :: updateParts
  | tokenDelete => .word tokenDelete :: deleteParts
  | tokenSelect => .word tokenSelect :: selectParts
  | tokenBegin => [.word tokenBegin, .token tokenSemicolon]
  | tokenCommit => [.word tokenCommit, .token tokenSemicolon]
  | tokenRollback => [.word tokenRollback, .token tokenSemicolon]
  | _ => [.unknown]

/-- Reading parts one after the other. -/
def readParts : List Part → List Token → Course
  | [] => goes false
  | [part] => part.course
  | part :: next :: parts => fun tokens => (part.course tokens).andThen (readParts (next :: parts))

/-- The course of a statement. -/
def statementCourse (tokens : List Token) : Course := readParts (statementParts tokens) tokens

/-! ### Composing courses -/

variable {course : Course} {next : List Token → Course}

namespace Course

section AndThen

variable (next : List Token → Course) (rest : List Token)

theorem goes_andThen : (goes false rest).andThen next = next rest := rfl

theorem fails_andThen : (goes true rest).andThen next = goes true rest := rfl

theorem null_andThen : null.andThen next = null := rfl

end AndThen

theorem andThen_assoc (course : Course) (next later : List Token → Course) :
    (course.andThen next).andThen later = course.andThen fun tokens => (next tokens).andThen later := by
  cases course with
  | hangs => rfl
  | null => rfl
  | goes failed rest => cases failed <;> rfl

theorem andThen_goes (course : Course) :
    (course.andThen fun tokens => goes false tokens) = course := by
  cases course with
  | hangs => rfl
  | null => rfl
  | goes failed rest => cases failed <;> rfl

theorem andThen_eq_goes {rest : List Token} (goesOn : course.andThen next = goes false rest) :
    ∃ middle, course = goes false middle ∧ next middle = goes false rest := by
  cases course with
  | hangs => cases goesOn
  | null => cases goesOn
  | goes failed middle =>
    cases failed with
    | true => cases goesOn
    | false => exact ⟨middle, rfl, goesOn⟩

end Course

theorem readParts_cons (part : Part) (parts : List Part) (tokens : List Token) :
    readParts (part :: parts) tokens = (part.course tokens).andThen (readParts parts) := by
  cases parts with
  | nil => exact (andThen_goes _).symm
  | cons next parts => rfl

theorem readParts_word {type : TokenType} (is : firstType tokens = type) (parts : List Part) :
    readParts (.word type :: parts) tokens = readParts parts tokens.tail := by
  rw [readParts_cons, Part.course, wordCourse, if_pos is, goes_andThen]

/-! ### How far a course goes -/

/-- A course that goes on in front of at most so many tokens. -/
def Course.Within (course : Course) (bound : Nat) : Prop :=
  ∀ failed rest, course = goes failed rest → rest.length ≤ bound

namespace Course

theorem Within.goes (length : tokens.length ≤ bound) : (goes failed tokens).Within bound := by
  rintro _ _ ⟨⟩
  exact length

theorem Within.mono (within : course.Within bound) {larger : Nat} (le : bound ≤ larger) :
    course.Within larger :=
  fun _ _ goes => (within _ _ goes).trans le

theorem Within.andThen (within : course.Within bound)
    (later : ∀ rest, rest.length ≤ bound → (next rest).Within bound) :
    (course.andThen next).Within bound := by
  cases course with
  | hangs => exact nofun
  | null => exact nofun
  | goes failed rest =>
    cases failed with
    | true => exact within
    | false => exact later _ (within _ _ rfl)

theorem Within.ofReading {α : Type} {reading : Reading α} (complete : reading.Complete bound) :
    (ofReading reading).Within bound := by
  obtain ⟨value, failed, rest⟩ := reading
  cases value with
  | none => exact nofun
  | some value => exact .goes complete.length

end Course

theorem tokenCourse_within (type : TokenType) (tokens : List Token) :
    (tokenCourse type tokens).Within tokens.length := by
  unfold tokenCourse
  split
  · exact .goes (by rw [List.length_tail]; omega)
  · exact .goes le_rfl

theorem nameCourse_within (tokens : List Token) : (nameCourse tokens).Within tokens.length := by
  unfold nameCourse
  split
  · exact .goes (by rw [List.length_tail]; omega)
  · exact nofun

theorem length_afterType (tokens : List Token) : (afterType tokens).length ≤ tokens.length := by
  cases tokens with
  | nil => exact le_rfl
  | cons token rest =>
    rw [afterType]
    split
    · exact Nat.le_succ _
    · exact le_rfl

theorem constraintCourse_within (tokens : List Token) :
    (constraintCourse tokens).Within tokens.length := by
  have one : tokens.tail.length ≤ tokens.length := by simp
  have two : tokens.tail.tail.length ≤ tokens.length := by simp; omega
  unfold constraintCourse
  split
  · exact .goes two
  · refine .goes ?_
    split
    · exact two
    · exact one
  · exact .goes one
  · have value := (readExpression_complete _).length.trans one
    dsimp only
    split
    · split
      · exact nofun
      · exact .goes value
    · exact .goes value
  · exact .goes le_rfl

theorem loopCourse_within {more : List Token → Option (List Token)} {item : List Token → Course}
    (shorter : ∀ rest next, more rest = some next → next.length ≤ rest.length)
    (within : ∀ tokens, (item tokens).Within tokens.length) (steps : Nat) (tokens : List Token) :
    (loopCourse more item steps tokens).Within tokens.length := by
  induction steps generalizing tokens with
  | zero => exact nofun
  | succ steps inductionHypothesis =>
    refine (within tokens).andThen fun rest length => ?_
    cases follows : more rest with
    | none => exact .goes length
    | some next => exact (inductionHypothesis _).mono ((shorter _ _ follows).trans length)

theorem constraintsCourse_within (tokens : List Token) :
    (constraintsCourse tokens).Within tokens.length :=
  loopCourse_within (fun rest next follows => by
    unfold atConstraint at follows
    split at follows <;> cases follows
    exact le_rfl) constraintCourse_within _ _

theorem columnCourse_within (tokens : List Token) : (columnCourse tokens).Within tokens.length := by
  unfold columnCourse
  split
  · exact .goes le_rfl
  · exact (nameCourse_within _).andThen fun rest length =>
      (constraintsCourse_within _).mono ((length_afterType _).trans length)

theorem insertColumnCourse_within (tokens : List Token) :
    (insertColumnCourse tokens).Within tokens.length := by
  unfold insertColumnCourse
  split
  · exact .goes le_rfl
  · exact nameCourse_within _

theorem strayCourse_within (tokens : List Token) : (strayCourse tokens).Within tokens.length := by
  unfold strayCourse
  split
  · exact nofun
  · split
    · exact .goes le_rfl
    · exact nofun

theorem valueListCourse_within (tokens : List Token) :
    (valueListCourse tokens).Within tokens.length := by
  have one : tokens.tail.length ≤ tokens.length := by simp
  unfold valueListCourse
  split
  · split
    · exact nofun
    · exact ((Within.ofReading (readExpressions_complete _)).mono one).andThen fun rest shorter =>
        (tokenCourse_within _ _).mono shorter
  · split
    · exact nofun
    · exact strayCourse_within _

theorem setClauseCourse_within (tokens : List Token) :
    (setClauseCourse tokens).Within tokens.length := by
  refine (nameCourse_within _).andThen fun rest length => ?_
  split
  · refine (Within.ofReading (readExpression_complete _)).mono ?_
    rw [List.length_tail]
    omega
  · exact (strayCourse_within _).mono length

theorem orderItemCourse_within (tokens : List Token) :
    (orderItemCourse tokens).Within tokens.length := by
  refine (nameCourse_within _).andThen fun rest length => .goes ?_
  split
  · rw [List.length_tail]
    omega
  · exact length

end TinyDb

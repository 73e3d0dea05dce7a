/-
This file finds the tree of a `WHERE` clause in the tokens of a statement. For a
statement that is parsed without an error, the tree is what the reader reads behind the
first `WHERE`, and the tokens in front of it hold no other `WHERE` and no semicolon.

The words of the tree are then those of the clause exactly if a parenthesis follows
every `IN` of the clause.
-/
import Mathlib.Data.List.TakeWhile
import TinyDb.SyntaxErrors
import TinyDb.Words

namespace TinyDb

open TokenType Course List

variable {tokens middle rest : List Token} {type : TokenType} {next : List Token → Course}
  {clause : Option Expression} {course : Course} {msg : String} {tree : Expression}
  {sql : List UInt8}

/-! ### The clause in the tokens -/

/-- The keywords with which the clauses behind a `WHERE` begin. -/
def startsClause : TokenType → Bool
  | tokenOrder | tokenLimit | tokenOffset => true
  | _ => false

/-- The tokens between the `WHERE` of the first statement and the next clause or the semicolon. -/
def whereTokens (tokens : List Token) : List Token :=
  ((tokens.takeWhile (·.type ≠ tokenSemicolon)).dropWhile (·.type ≠ tokenWhere)).tail.takeWhile
    (!startsClause ·.type)

/-- The `WHERE` clause of a `SELECT`, an `UPDATE` or a `DELETE`. -/
def whereClauseOf : AstNode → Option (Option Expression)
  | .select statement => some statement.whereClause
  | .update statement => some statement.whereClause
  | .delete statement => some statement.whereClause
  | _ => none

/-- The words of a clause that may be missing. -/
def clauseWords : Option Expression → List Word
  | none => []
  | some tree => tree.words

/-! ### Tokens in front of the clause -/

/-- Tokens are passed that are neither a `WHERE` nor a semicolon. -/
def Passed (tokens rest : List Token) : Prop :=
  ∃ used, tokens = used ++ rest ∧
    ∀ token ∈ used, token.type ≠ tokenWhere ∧ token.type ≠ tokenSemicolon

namespace Passed

theorem refl (tokens : List Token) : Passed tokens tokens := ⟨[], rfl, by simp⟩

theorem trans (one : Passed tokens middle) (two : Passed middle rest) : Passed tokens rest := by
  obtain ⟨used, rfl, plain⟩ := one
  obtain ⟨others, rfl, othersPlain⟩ := two
  exact ⟨used ++ others, by rw [append_assoc], forall_mem_append.mpr ⟨plain, othersPlain⟩⟩

theorem tail (is : firstType tokens = type) (plain : type ≠ tokenWhere ∧ type ≠ tokenSemicolon) :
    Passed tokens tokens.tail := by
  cases tokens with
  | nil => exact .refl []
  | cons token rest =>
    exact ⟨[token], rfl, forall_mem_singleton.mpr (by rw [show token.type = type from is]; exact plain)⟩

theorem of_spelled {words : List Word} (spelled : Spelled words tokens rest) :
    Passed tokens rest := by
  obtain ⟨used, rfl, spells⟩ := spelled
  refine ⟨used, rfl, fun token isUsed => ?_⟩
  have known := spells.types _ isUsed
  constructor <;> (intro is; rw [is] at known; cases known)

end Passed

namespace Course

variable {course : Course} {rest : List Token}

/-- A course that goes on without an error passes tokens. -/
def Passes (course : Course) (tokens : List Token) : Prop :=
  ∀ rest, course = goes false rest → Passed tokens rest

theorem expect_eq_goes (goesOn : course.andThen (tokenCourse type) = goes false rest) :
    ∃ middle, course = goes false middle ∧ firstType middle = type := by
  obtain ⟨middle, before, expected⟩ := andThen_eq_goes goesOn
  unfold tokenCourse at expected
  split at expected
  · exact ⟨middle, before, ‹_›⟩
  · cases expected

theorem word_eq_goes (goesOn : (wordCourse type tokens).andThen next = goes false rest) :
    firstType tokens = type ∧ next tokens.tail = goes false rest := by
  unfold wordCourse at goesOn
  split at goesOn
  · exact ⟨‹_›, goesOn⟩
  · cases goesOn

theorem orNull_eq_goes (goesOn : course.orNull = goes false rest) : course = goes false rest := by
  cases course with
  | hangs => cases goesOn
  | null => cases goesOn
  | goes failed middle =>
    cases failed with
    | true => cases goesOn
    | false => exact goesOn

theorem ofReading_eq_goes {α : Type} {reading : Reading α}
    (goesOn : ofReading reading = goes false rest) :
    ∃ value, reading = ⟨some value, false, rest⟩ := by
  obtain ⟨_ | value, failed, middle⟩ := reading
  · cases goesOn
  · cases goesOn
    exact ⟨value, rfl⟩

theorem Passes.goes (tokens : List Token) : (Course.goes false tokens).Passes tokens := by
  rintro _ ⟨⟩
  exact .refl _

theorem Passes.andThen (passes : course.Passes tokens) (later : ∀ rest, (next rest).Passes rest) :
    (course.andThen next).Passes tokens := by
  intro rest goesOn
  obtain ⟨middle, before, after⟩ := andThen_eq_goes goesOn
  exact (passes _ before).trans (later _ _ after)

theorem Passes.of_passed (passed : Passed tokens middle) (passes : course.Passes middle) :
    course.Passes tokens :=
  fun _ goesOn => passed.trans (passes _ goesOn)

end Course

theorem nameCourse_passes (tokens : List Token) : (nameCourse tokens).Passes tokens := by
  unfold nameCourse
  split
  · next identifier => exact .of_passed (.tail identifier (by decide)) (.goes _)
  · exact nofun

theorem readExpression_passes (tokens : List Token) :
    (ofReading (readExpression tokens)).Passes tokens := by
  intro rest goesOn
  obtain ⟨tree, read⟩ := ofReading_eq_goes goesOn
  exact .of_spelled (readExpression_words read)

theorem itemsCourse_passes {item : List Token → Course}
    (passes : ∀ tokens, (item tokens).Passes tokens) (tokens : List Token) :
    (itemsCourse item tokens).Passes tokens := by
  rw [itemsCourse]
  generalize tokens.length + 1 = steps
  induction steps generalizing tokens with
  | zero =>
    intro _ goesOn
    cases goesOn
  | succ steps inductionHypothesis =>
    refine (passes tokens).andThen fun rest => ?_
    unfold behindComma
    split
    · next comma => exact .of_passed (.tail comma (by decide)) (inductionHypothesis _)
    · exact .goes _

theorem setClauseCourse_passes (tokens : List Token) : (setClauseCourse tokens).Passes tokens := by
  refine (nameCourse_passes _).andThen fun rest => ?_
  split
  · next equals => exact .of_passed (.tail equals (by decide)) (readExpression_passes _)
  · intro others goesOn
    unfold strayCourse at goesOn
    split at goesOn
    · cases goesOn
    · split at goesOn <;> cases goesOn

theorem aliasCourse_passes (tokens : List Token) : (aliasCourse tokens).Passes tokens := by
  unfold aliasCourse
  split
  · next isAs =>
    split
    · next identifier =>
      exact .of_passed ((Passed.tail isAs (by decide)).trans (.tail identifier (by decide))) (.goes _)
    · split <;> exact nofun
  · exact .goes _

theorem selectColumnsCourse_passes (steps : Nat) (tokens : List Token) :
    (selectColumnsCourse steps tokens).Passes tokens := by
  induction steps generalizing tokens with
  | zero => exact nofun
  | succ steps inductionHypothesis =>
    rw [selectColumnsCourse]
    split
    · next star => exact .of_passed (.tail star (by decide)) (.goes _)
    · refine (nameCourse_passes _).andThen fun rest =>
        (aliasCourse_passes _).andThen fun rest => ?_
      split
      · next comma => exact .of_passed (.tail comma (by decide)) (inductionHypothesis _)
      · exact .goes _

theorem orderItemCourse_passes (tokens : List Token) : (orderItemCourse tokens).Passes tokens := by
  refine (nameCourse_passes _).andThen fun rest => .of_passed ?_ (.goes _)
  split
  · next direction =>
    obtain isDesc | isAsc := direction
    · exact .tail isDesc (by decide)
    · exact .tail isAsc (by decide)
  · exact .refl _

theorem orderCourse_passes (tokens : List Token) : (orderCourse tokens).Passes tokens := by
  unfold orderCourse
  split
  · next isOrder =>
    split
    · next isBy =>
      exact .of_passed ((Passed.tail isOrder (by decide)).trans (.tail isBy (by decide)))
        (itemsCourse_passes orderItemCourse_passes _)
    · exact .of_passed (.tail isOrder (by decide)) (.goes _)
  · exact .goes _

theorem clauseCourse_passes (plain : type ≠ tokenWhere ∧ type ≠ tokenSemicolon)
    (tokens : List Token) : (clauseCourse (goes false tokens) type).Passes tokens := by
  rw [clauseCourse]
  split
  · next is => exact .of_passed (.tail is plain) (readExpression_passes _)
  · exact .goes _

/-! ### The tree of the clause -/

/-- Where the tree of a clause comes from: it is read behind the first `WHERE`, or there is no
`WHERE` in front of the semicolon. -/
def WhereRead (tokens : List Token) (clause : Option Expression) : Prop :=
  ∃ behind, Passed tokens behind ∧
    ((clause = none ∧ firstType behind = tokenSemicolon) ∨
      ∃ tree rest, clause = some tree ∧ firstType behind = tokenWhere ∧
        readExpression behind.tail = ⟨some tree, false, rest⟩ ∧
        (firstType rest = tokenSemicolon ∨ startsClause (firstType rest) = true))

section Tree

variable {tokens rest : List Token}

theorem WhereRead.of_passed (passed : Passed tokens middle) (read : WhereRead middle clause) :
    WhereRead tokens clause := by
  obtain ⟨behind, passedMiddle, found⟩ := read
  exact ⟨behind, passed.trans passedMiddle, found⟩

theorem whereCourse_eq_goes (goesOn : whereCourse tokens = goes false rest) :
    firstType tokens = tokenWhere ∧ ∃ tree, readExpression tokens.tail = ⟨some tree, false, rest⟩ := by
  unfold whereCourse at goesOn
  split at goesOn
  · exact ⟨‹_›, ofReading_eq_goes goesOn⟩
  · cases goesOn

theorem clauseCourse_eq_goes (goesOn : clauseCourse course type = goes false rest) :
    ∃ middle, course = goes false middle ∧ clauseCourse (goes false middle) type = goes false rest ∧
      (firstType middle = type ∨ rest = middle) := by
  cases course with
  | hangs => cases goesOn
  | null => cases goesOn
  | goes failed middle =>
    cases failed with
    | true =>
      rw [clauseCourse] at goesOn
      split at goesOn <;> cases goesOn
    | false =>
      refine ⟨middle, rfl, goesOn, ?_⟩
      rw [clauseCourse] at goesOn
      split at goesOn
      · exact .inl ‹_›
      · cases goesOn
        exact .inr rfl

theorem orderCourse_eq_goes (goesOn : orderCourse tokens = goes false rest) :
    firstType tokens = tokenOrder ∨ rest = tokens := by
  unfold orderCourse at goesOn
  split at goesOn
  · exact .inl ‹_›
  · cases goesOn
    exact .inr rfl

/-- The clauses of a query without an error. -/
theorem clauses_whereRead {final : List Token}
    (goesOn : readParts [.clauses, .token tokenSemicolon] tokens = goes false final) :
    WhereRead tokens
      (if firstType tokens = tokenWhere then (readExpression tokens.tail).value else none) := by
  obtain ⟨last, atOffset, semicolon⟩ := expect_eq_goes goesOn
  obtain ⟨third, atLimit, offset, isOffset⟩ := clauseCourse_eq_goes atOffset
  obtain ⟨second, atOrder, limit, isLimit⟩ := clauseCourse_eq_goes atLimit
  obtain ⟨first, atWhere, order⟩ := andThen_eq_goes atOrder
  have behind : firstType first = tokenSemicolon ∨ startsClause (firstType first) = true := by
    obtain isOrder | rfl := orderCourse_eq_goes order
    · exact .inr (by rw [isOrder]; rfl)
    obtain isLimit | rfl := isLimit
    · exact .inr (by rw [isLimit]; rfl)
    obtain isOffset | rfl := isOffset
    · exact .inr (by rw [isOffset]; rfl)
    · exact .inl semicolon
  rw [clauseCourse] at atWhere
  split at atWhere
  · next isWhere =>
    obtain ⟨tree, read⟩ := ofReading_eq_goes atWhere
    exact ⟨tokens, .refl _, .inr ⟨tree, first, by rw [if_pos isWhere, read], isWhere, read, behind⟩⟩
  · next noWhere =>
    cases atWhere
    have passed := ((orderCourse_passes _ _ order).trans
      (clauseCourse_passes (by decide) _ _ limit)).trans
      (clauseCourse_passes (by decide) _ _ offset)
    exact ⟨last, passed, .inl ⟨if_neg noWhere, semicolon⟩⟩

end Tree

namespace Parser

variable {parser after : Parser} {tokens rest : List Token} {α β : Type}
  {call : Option (Option α × Parser)}

theorem orNull_eq_some {next : α → Parser → Option (Option β × Parser)} {value : β}
    (returned : orNull call next = some (some value, after)) :
    ∃ first parser, call = some (some first, parser) ∧ next first parser = some (some value, after) := by
  rcases call with _ | ⟨_ | first, parser⟩
  · cases returned
  · cases returned
  · exact ⟨first, parser, rfl, returned⟩

theorem Follows.stands {failed : Bool} (follows : Follows call (goes failed rest)) {value : α}
    (returned : call = some (some value, after)) : after.At failed rest := by
  obtain ⟨_, _, same, stands⟩ := follows
  rw [returned] at same
  cases same
  exact stands

/-- A call that returns without an error. -/
theorem Follows.clean (follows : Follows call course) {value : α}
    (returned : call = some (some value, after)) (noError : after.hasError = false) :
    ∃ rest, course = goes false rest := by
  cases course with
  | hangs => rw [show call = none from follows] at returned; cases returned
  | null =>
    obtain ⟨_, same⟩ := follows
    rw [returned] at same
    cases same
  | goes failed rest =>
    obtain rfl : failed = false := (follows.stands returned).failed.symm.trans noError
    exact ⟨rest, rfl⟩

section

variable (stands : parser.At false tokens)
include stands

theorem At.parseWhere_value
    (returned : parser.parseWhere msg = some (some tree, after))
    (goesOn : whereCourse tokens = goes false rest) :
    firstType tokens = tokenWhere ∧ readExpression tokens.tail = ⟨some tree, false, rest⟩ := by
  obtain ⟨isWhere, other, read⟩ := whereCourse_eq_goes goesOn
  have atWhere : parser.checkKeyword "WHERE" = true :=
    (stands.checkKeyword rfl (by decide)).trans (decide_eq_true isWhere)
  obtain ⟨_, parsed, -⟩ := stands.advance.parseExpression
  rw [parseWhere, atWhere, parsed, read] at returned
  cases returned
  exact ⟨isWhere, read⟩

theorem At.parseClause_value
    (returned : parser.parseClause "WHERE" = some (some clause, after)) :
    clause = if firstType tokens = tokenWhere then (readExpression tokens.tail).value else none := by
  have atWhere : parser.checkKeyword "WHERE" = decide (firstType tokens = tokenWhere) :=
    stands.checkKeyword rfl (by decide)
  rw [parseClause, atWhere] at returned
  simp only [decide_eq_true_eq] at returned
  split at returned
  · next isWhere =>
    obtain ⟨tree, _, parsed, built⟩ := orNull_eq_some returned
    obtain ⟨_, agrees, -⟩ := stands.advance.parseExpression
    rw [agrees] at parsed
    obtain ⟨same, -⟩ := Prod.mk.inj (Option.some.inj parsed)
    cases built
    rw [if_pos isWhere, same]
  · next noWhere =>
    cases returned
    rw [if_neg noWhere]

theorem At.name {name : List UInt8}
    (returned : some parser.parseIdentifier = some (some name, after))
    (goesOn : nameCourse tokens = goes false rest) : after.At false rest := by
  unfold nameCourse at goesOn
  split at goesOn
  · next identifier =>
    cases goesOn
    cases tokens with
    | nil => cases identifier
    | cons token rest =>
      rw [stands.parseIdentifier identifier] at returned
      cases returned
      exact stands.advance
  · cases goesOn

/-- The required `WHERE` and the semicolon behind it. -/
theorem At.whereRead
    (returned : parser.parseWhere msg = some (some tree, after))
    (goesOn : whereCourse tokens = goes false rest) (semicolon : firstType rest = tokenSemicolon) :
    WhereRead tokens (some tree) := by
  obtain ⟨isWhere, read⟩ := stands.parseWhere_value returned goesOn
  exact ⟨tokens, .refl _, .inr ⟨tree, rest, rfl, isWhere, read, .inl semicolon⟩⟩

theorem At.delete_whereRead
    (isDelete : firstType tokens = tokenDelete)
    {node : AstNode} (returned : parser.parseDelete = some (some node, after))
    (noError : after.hasError = false) :
    ∃ clause, whereClauseOf node = some clause ∧ WhereRead tokens clause := by
  obtain ⟨final, goesOn⟩ := stands.delete.clean returned noError
  obtain ⟨isFrom, goesOn⟩ := word_eq_goes goesOn
  obtain ⟨middle, named, goesOn⟩ := andThen_eq_goes goesOn
  obtain ⟨last, whereGoes, semicolon⟩ := expect_eq_goes goesOn
  have atFrom : parser.advance.checkKeyword "FROM" = true :=
    (stands.advance.checkKeyword rfl (by decide)).trans (decide_eq_true isFrom)
  rw [parseDelete, expectKeyword, atFrom] at returned
  obtain ⟨tableName, atName, parsedName, returned⟩ := orNull_eq_some returned
  obtain ⟨tree, atEnd, parsedWhere, returned⟩ := orNull_eq_some returned
  cases returned
  refine ⟨some _, rfl, ?_⟩
  have passed := ((Passed.tail isDelete (by decide)).trans (.tail isFrom (by decide))).trans
    (nameCourse_passes _ _ named)
  exact .of_passed passed
    ((stands.advance.advance.name parsedName named).whereRead parsedWhere whereGoes semicolon)

theorem At.update_whereRead
    (isUpdate : firstType tokens = tokenUpdate)
    {node : AstNode} (returned : parser.parseUpdate = some (some node, after))
    (noError : after.hasError = false) :
    ∃ clause, whereClauseOf node = some clause ∧ WhereRead tokens clause := by
  obtain ⟨final, goesOn⟩ := stands.update.clean returned noError
  obtain ⟨second, named, goesOn⟩ := andThen_eq_goes goesOn
  obtain ⟨fourth, set, goesOn⟩ := andThen_eq_goes goesOn
  obtain ⟨last, whereGoes, semicolon⟩ := expect_eq_goes goesOn
  dsimp only [Part.course] at set
  split at set
  · next isSet =>
    have set := orNull_eq_goes set
    obtain ⟨tableName, atName, parsedName, returned⟩ := orNull_eq_some returned
    have nameStands := stands.advance.name parsedName named
    have atSet : atName.checkKeyword "SET" = true :=
      (nameStands.checkKeyword rfl (by decide)).trans (decide_eq_true isSet)
    rw [expectKeyword, atSet] at returned
    obtain ⟨setClauses, atWhere, parsedSet, returned⟩ := orNull_eq_some returned
    obtain ⟨tree, atEnd, parsedWhere, returned⟩ := orNull_eq_some returned
    cases returned
    refine ⟨some _, rfl, ?_⟩
    have follows := nameStands.advance.setClauses
    rw [set] at follows
    have passed := ((Passed.tail isUpdate (by decide)).trans (nameCourse_passes _ _ named)).trans
      ((Passed.tail isSet (by decide)).trans (itemsCourse_passes setClauseCourse_passes _ _ set))
    exact .of_passed passed ((follows.stands parsedSet).whereRead parsedWhere whereGoes semicolon)
  · cases set

theorem At.select_whereRead
    (isSelect : firstType tokens = tokenSelect)
    {node : AstNode} (returned : parser.parseSelect = some (some node, after))
    (noError : after.hasError = false) :
    ∃ clause, whereClauseOf node = some clause ∧ WhereRead tokens clause := by
  obtain ⟨final, goesOn⟩ := stands.select.clean returned noError
  obtain ⟨second, columns, goesOn⟩ := andThen_eq_goes goesOn
  have columns := orNull_eq_goes columns
  obtain ⟨isFrom, goesOn⟩ := word_eq_goes goesOn
  obtain ⟨third, named, clauses⟩ := andThen_eq_goes goesOn
  have noDistinct : parser.advance.checkKeyword "DISTINCT" = false :=
    stands.advance.checkKeyword_none rfl (by decide)
  unfold parseSelect at returned
  simp only [noDistinct] at returned
  obtain ⟨columnList, atFrom, parsedColumns, returned⟩ := orNull_eq_some returned
  have follows := columnList_follow _ _ _ (Nat.lt_succ_self _) stands.advance
  rw [columns] at follows
  have fromStands := follows.stands parsedColumns
  rw [fromStands.type_eq, if_neg (not_not_intro isFrom)] at returned
  obtain ⟨tableName, atWhere, parsedName, returned⟩ := orNull_eq_some returned
  obtain ⟨clause, _, parsedWhere, returned⟩ := orNull_eq_some returned
  obtain ⟨orderBy, _, _, returned⟩ := orNull_eq_some returned
  obtain ⟨limit, _, _, returned⟩ := orNull_eq_some returned
  obtain ⟨offset, _, _, returned⟩ := orNull_eq_some returned
  cases returned
  refine ⟨clause, rfl, ?_⟩
  have passed := ((Passed.tail isSelect (by decide)).trans
    (selectColumnsCourse_passes _ _ _ columns)).trans
    ((Passed.tail isFrom (by decide)).trans (nameCourse_passes _ _ named))
  rw [(fromStands.advance.name parsedName named).parseClause_value parsedWhere]
  exact .of_passed passed (clauses_whereRead clauses)

end

/-! ### Statements without the clause -/

/-- A call that only returns statements of other kinds. -/
def GivesOther (call : Option (Option AstNode × Parser)) : Prop :=
  ∀ node after, call = some (some node, after) → whereClauseOf node = none

theorem GivesOther.node {node : AstNode} (other : whereClauseOf node = none) (parser : Parser) :
    GivesOther (some (some node, parser)) := by
  rintro _ _ ⟨⟩
  exact other

theorem GivesOther.null (parser : Parser) : GivesOther (some (none, parser)) := by
  rintro _ _ ⟨⟩

theorem GivesOther.orNull {call : Option (Option α × Parser)}
    {next : α → Parser → Option (Option AstNode × Parser)}
    (other : ∀ value parser, GivesOther (next value parser)) : GivesOther (orNull call next) := by
  intro node after returned
  obtain ⟨value, middle, -, returned⟩ := orNull_eq_some returned
  exact other _ _ _ _ returned

theorem parseCreateTable_other (parser : Parser) : GivesOther parser.parseCreateTable :=
  .orNull fun _ _ => .orNull fun _ _ => .orNull fun _ _ => .node rfl _

theorem parseDropTable_other (parser : Parser) : GivesOther parser.parseDropTable :=
  .orNull fun _ _ => .orNull fun _ _ => .node rfl _

theorem parseCreateIndex_other (parser : Parser) : GivesOther parser.parseCreateIndex := by
  refine .orNull fun _ next => ?_
  split
  · exact .orNull fun _ _ => .orNull fun _ _ => .node rfl _
  · exact .null _

theorem parseDropIndex_other (parser : Parser) : GivesOther parser.parseDropIndex :=
  .orNull fun _ _ => .node rfl _

theorem parseInsert_other (parser : Parser) : GivesOther parser.parseInsert :=
  .orNull fun _ _ => .orNull fun _ _ => .orNull fun _ _ => .node rfl _

theorem parseTransaction_other (parser : Parser) : GivesOther parser.parseTransaction := by
  unfold parseTransaction
  split
  · exact .node rfl _
  · exact .node rfl _
  · exact .node rfl _
  · exact .null _

/-- The clause of every statement that is parsed without an error. -/
theorem At.statement_whereRead (stands : parser.At false tokens) {node : AstNode}
    (returned : parser.parseStatement = some (some node, after)) (noError : after.hasError = false)
    (isClause : whereClauseOf node = some clause) :
    WhereRead tokens clause := by
  have other {call : Option (Option AstNode × Parser)} (gives : GivesOther call)
      (returned : call = some (some node, after)) : WhereRead tokens clause := by
    rw [gives _ _ returned] at isClause
    cases isClause
  have found (read : ∃ clause, whereClauseOf node = some clause ∧ WhereRead tokens clause) :
      WhereRead tokens clause := by
    obtain ⟨_, same, read⟩ := read
    rw [isClause] at same
    cases same
    exact read
  have current := stands.type_eq
  unfold parseStatement at returned
  split at returned
  · dsimp only at returned
    split at returned
    · exact other (parseCreateTable_other _) returned
    split at returned
    · exact other (parseCreateIndex_other _) returned
    · exact other (.null _) returned
  · dsimp only at returned
    split at returned
    · exact other (parseDropTable_other _) returned
    split at returned
    · exact other (parseDropIndex_other _) returned
    · exact other (.null _) returned
  · exact other (parseInsert_other _) returned
  · next isUpdate => exact found (stands.update_whereRead (current ▸ isUpdate) returned noError)
  · next isDelete => exact found (stands.delete_whereRead (current ▸ isDelete) returned noError)
  · next isSelect => exact found (stands.select_whereRead (current ▸ isSelect) returned noError)
  · exact other (parseTransaction_other _) returned
  · exact other (parseTransaction_other _) returned
  · exact other (parseTransaction_other _) returned
  · exact other (.null _) returned

end Parser

/-! ### The words of the clause -/

/-- Tokens of an expression are in no other part of a statement. -/
theorem Spells.inside {words : List Word} (spells : Spells tokens words) :
    ∀ token ∈ tokens, token.type ≠ tokenSemicolon ∧ startsClause token.type = false := by
  intro token isToken
  have known := spells.types _ isToken
  constructor
  · intro is
    rw [is] at known
    cases known
  · rw [Bool.eq_false_iff]
    intro starts
    unfold startsClause at starts
    split at starts
    case h_1 is | h_2 is | h_3 is => rw [is] at known; cases known
    case h_4 => cases starts

/-- The clause ends at the semicolon or in front of the next keyword. -/
theorem takeWhile_clause {used : List Token} {words : List Word} (spells : Spells used words)
    (ends : firstType rest = tokenSemicolon ∨ startsClause (firstType rest) = true) :
    (used ++ rest.takeWhile (·.type ≠ tokenSemicolon)).takeWhile (!startsClause ·.type) = used := by
  rw [takeWhile_append_of_pos fun token isToken => by simp [(spells.inside _ isToken).2]]
  cases rest with
  | nil => simp
  | cons token rest =>
    rw [firstType_cons] at ends
    obtain semicolon | starts := ends
    · simp [semicolon]
    · rw [takeWhile_cons]
      split <;> simp [starts]

theorem WhereRead.words (read : WhereRead tokens clause) :
    clauseWords clause = keptWords (whereTokens tokens) := by
  obtain ⟨behind, ⟨used, rfl, plain⟩, ⟨rfl, semicolon⟩ | ⟨tree, rest, rfl, isWhere, read, ends⟩⟩ := read
  · have taken : (used ++ behind).takeWhile (·.type ≠ tokenSemicolon) = used := by
      obtain ⟨token, cut, isToken⟩ := cons_of_firstType semicolon (by decide)
      rw [takeWhile_append_of_pos fun token isUsed => by simp [(plain _ isUsed).2], cut]
      simp [isToken]
    have dropped : used.dropWhile (·.type ≠ tokenWhere) = [] :=
      dropWhile_eq_nil_iff.mpr fun token isUsed => by simp [(plain _ isUsed).1]
    rw [whereTokens, taken, dropped]
    rfl
  · obtain ⟨mark, cut, isMark⟩ := cons_of_firstType isWhere (by decide)
    obtain ⟨inside, tail, spells⟩ := readExpression_words read
    rw [cut, tail, whereTokens,
      takeWhile_append_of_pos fun token isUsed => by simp [(plain _ isUsed).2],
      takeWhile_cons_of_pos (by simp [isMark]),
      takeWhile_append_of_pos fun token isInside => by simp [(spells.inside _ isInside).1],
      dropWhile_append_of_pos fun token isUsed => by simp [(plain _ isUsed).1],
      dropWhile_cons_of_neg (by simp [isMark]), tail_cons, takeWhile_clause spells ends,
      spells.kept]
    rfl

/-- The clause of every text that is parsed without an error. -/
theorem parseText_whereRead {node : AstNode} {parser : Parser}
    (parsed : parseText sql = some (some node, some parser)) (clean : parserError parser = none)
    (isClause : whereClauseOf node = some clause) :
    WhereRead (tokensOf sql) clause := by
  have noError := (parserError_eq_none _).mp clean
  cases created : parserCreate sql with
  | none =>
    rw [parseText, created] at parsed
    cases parsed
  | some start =>
    rw [parseText_eq created] at parsed
    obtain ⟨⟨result, after⟩, returned, same⟩ := Option.map_eq_some_iff.mp parsed
    cases same
    exact (parserCreate_at created).statement_whereRead returned noError isClause

/-- For every text that is parsed to a `SELECT`, an `UPDATE` or a `DELETE` without an error, the
tree of the `WHERE` clause has the words of the clause exactly if a parenthesis follows every `IN`. -/
theorem where_words_kept_iff (sql : List UInt8) (node : AstNode) (parser : Parser)
    (parsed : parseText sql = some (some node, some parser)) (clean : parserError parser = none)
    (clause : Option Expression) (isClause : whereClauseOf node = some clause) :
    clauseWords clause = sourceWords (whereTokens (tokensOf sql)) ↔
      everyInHasList (whereTokens (tokensOf sql)) = true := by
  rw [(parseText_whereRead parsed clean isClause).words, keptWords_eq_sourceWords_iff]

/-- A text with the tokens of a correct `DELETE`. -/
theorem delete_parsed (goesOn : statementCourse (tokensOf sql) = goes false rest)
    (isDelete : firstType (tokensOf sql) = tokenDelete) :
    ∃ node parser clause, parseText sql = some (some node, some parser) ∧ parserError parser = none ∧
      whereClauseOf node = some clause ∧ WhereRead (tokensOf sql) clause := by
  cases created : parserCreate sql with
  | none =>
    rw [tokensOf_of_none created] at isDelete
    cases isDelete
  | some parser =>
    have stands := parserCreate_at created
    have follows := stands.statement
    rw [goesOn] at follows
    obtain ⟨node, after, returned, afterStands⟩ := follows
    have statement : parser.parseStatement = parser.parseDelete := by
      rw [Parser.parseStatement, stands.type_eq, isDelete]
    obtain ⟨clause, isClause, read⟩ :=
      stands.delete_whereRead isDelete (statement ▸ returned) afterStands.failed
    exact ⟨node, after, clause, by rw [parseText_eq created, returned]; rfl,
      (parserError_eq_none _).mpr afterStands.failed, isClause, read⟩

theorem where_words_kept_equality :
    ∃ node parser clause,
      parseText (ascii "DELETE FROM t WHERE a = 1;") = some (some node, some parser) ∧
      whereClauseOf node = some clause ∧
      clauseWords clause = sourceWords (whereTokens (tokensOf (ascii "DELETE FROM t WHERE a = 1;"))) := by
  obtain ⟨node, parser, clause, parsed, clean, isClause, -⟩ :=
    delete_parsed (show statementCourse (tokensOf (ascii "DELETE FROM t WHERE a = 1;")) =
      goes _ [] from rfl) rfl
  exact ⟨node, parser, clause, parsed, isClause,
    (where_words_kept_iff _ _ _ parsed clean _ isClause).mpr (by decide +kernel)⟩

/-- `a IN` is read as `a`, without an error. -/
theorem where_drops_in :
    ∃ node parser clause,
      parseText (ascii "DELETE FROM t WHERE a IN;") = some (some node, some parser) ∧
      parserError parser = none ∧ whereClauseOf node = some clause ∧
      clauseWords clause = [.name (ascii "a")] ∧
      sourceWords (whereTokens (tokensOf (ascii "DELETE FROM t WHERE a IN;"))) =
        [.name (ascii "a"), .symbol tokenIn.code] := by
  obtain ⟨node, parser, clause, parsed, clean, isClause, read⟩ :=
    delete_parsed (show statementCourse (tokensOf (ascii "DELETE FROM t WHERE a IN;")) =
      goes _ [] from rfl) rfl
  exact ⟨node, parser, clause, parsed, clean, isClause, read.words, rfl⟩

end TinyDb

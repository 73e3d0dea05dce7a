/-
This file shows that the parser of statements follows the course of its tokens. A call
follows a course if it never returns where the course hangs, returns `NULL` where the
course says so, and otherwise returns a value in front of the rest of the tokens.

The rules at the beginning compose courses the way the parser composes its calls: what
is parsed behind a call either has no error to deal with, or meets the error that was
recorded and the token in front of which it was recorded.
-/
import TinyDb.StatementCourse

namespace TinyDb

open TokenType Course Recursion List

variable {onward : List Token → Course}

/-! ### Following a course -/

namespace Parser

/-- A call follows a course: it never returns, or it returns `NULL`, or it returns a value and
stands in front of the rest. -/
def Follows {α : Type} (call : Option (Option α × Parser)) : Course → Prop
  | hangs => call = none
  | null => ∃ parser, call = some (none, parser)
  | goes failed rest => ∃ value parser, call = some (some value, parser) ∧ parser.At failed rest

variable {parser : Parser} {failed : Bool} {tokens : List Token} {α β : Type}
  {call : Option (Option α × Parser)} {course : Course}
  {next : α → Parser → Option (Option β × Parser)} {onward : List Token → Course}

theorem At.follows (stands : parser.At failed tokens) (value : α) :
    Follows (some (some value, parser)) (goes failed tokens) :=
  ⟨value, parser, rfl, stands⟩

theorem Agrees.follows {reading : Reading α} (agrees : Agrees call reading) :
    Follows call (ofReading reading) := by
  obtain ⟨parser, rfl, stands⟩ := agrees
  obtain ⟨value, failed, rest⟩ := reading
  cases value with
  | none => exact ⟨parser, rfl⟩
  | some value => exact ⟨value, parser, rfl, stands⟩

theorem Follows.orNull_null (follows : Follows call null)
    (next : α → Parser → Option (Option β × Parser)) : Follows (orNull call next) null := by
  obtain ⟨parser, rfl⟩ := follows
  exact ⟨parser, rfl⟩

/-- Going on behind a call, after an error or without one. -/
theorem Follows.tail (follows : Follows call course) (onward : Course → Course)
    (hung : onward hangs = hangs) (nothing : onward null = null)
    (goesOn : ∀ value parser failed rest, course = goes failed rest → parser.At failed rest →
      Follows (next value parser) (onward (goes failed rest))) :
    Follows (orNull call next) (onward course) := by
  cases course with
  | hangs => rw [show call = none from follows, hung]; rfl
  | null =>
    obtain ⟨parser, rfl⟩ := follows
    rw [nothing]
    exact ⟨parser, rfl⟩
  | goes failed rest =>
    obtain ⟨value, parser, rfl, stands⟩ := follows
    exact goesOn _ _ _ _ rfl stands

/-- Going on behind a call; an error stays in front of its token. -/
theorem Follows.andThen (follows : Follows call course)
    (goesOn : ∀ value parser rest, course = goes false rest → parser.At false rest →
      Follows (next value parser) (onward rest)) (stays : ∀ value parser rest, parser.At true rest →
      Follows (next value parser) (goes true rest)) :
    Follows (orNull call next) (course.andThen onward) := by
  refine follows.tail (Course.andThen · onward) rfl rfl fun value parser failed rest is stands => ?_
  cases failed with
  | false => exact goesOn _ _ _ is stands
  | true => exact stays _ _ _ stands

/-- Going on behind a call whose error gives `NULL`. -/
theorem Follows.andThen_null (follows : Follows call course)
    (goesOn : ∀ value parser rest, parser.At false rest → Follows (next value parser) (onward rest))
    (fails : ∀ value parser rest, parser.At true rest → Follows (next value parser) null) :
    Follows (orNull call next) (course.orNull.andThen onward) := by
  refine follows.tail (fun course => course.orNull.andThen _) rfl rfl
    fun value parser failed rest _ stands => ?_
  cases failed with
  | false => exact goesOn _ _ _ stands
  | true => exact fails _ _ _ stands

theorem At.expectToken_failed (stands : parser.At true tokens) (type : TokenType) (msg : String) :
    (parser.expectToken type msg).At true tokens := by
  unfold Parser.expectToken
  split
  · exact stands.setError msg
  · rw [stands.advance_failed]
    exact stands

section

variable (stands : parser.At failed tokens) (type : TokenType) (msg : String)
include stands type msg

theorem At.expectToken :
    ∃ failed' rest, (goes failed tokens).andThen (tokenCourse type) = goes failed' rest ∧
      (parser.expectToken type msg).At failed' rest := by
  cases failed with
  | true => exact ⟨true, tokens, rfl, stands.expectToken_failed _ msg⟩
  | false =>
    unfold Parser.expectToken
    rw [stands.type_eq]
    by_cases expected : firstType tokens = type
    · rw [if_neg (not_not_intro expected)]
      exact ⟨false, tokens.tail, if_pos expected, stands.advance⟩
    · rw [if_pos expected]
      exact ⟨true, tokens, if_neg expected, stands.setError msg⟩

/-- Going on behind a token that has to follow. -/
theorem At.expect
    (next : Parser → Option (Option β × Parser))
    (goesOn : ∀ parser rest, parser.At false rest → Follows (next parser) (onward rest))
    (stays : ∀ parser rest, parser.At true rest → Follows (next parser) (goes true rest)) :
    Follows (next (parser.expectToken type msg))
      ((goes failed tokens).andThen fun tokens => (tokenCourse type tokens).andThen onward) := by
  obtain ⟨failed, rest, expected, stands⟩ := stands.expectToken _ msg
  rw [← Course.andThen_assoc, expected]
  cases failed with
  | false => exact goesOn _ _ stands
  | true => exact stays _ _ stands

/-- A statement that ends with one token, and one that ends with two. -/
theorem At.expect_last
    (value : α) : Follows (some (some value, parser.expectToken type msg))
      ((goes failed tokens).andThen (tokenCourse type)) := by
  obtain ⟨failed, rest, expected, stands⟩ := stands.expectToken _ msg
  rw [expected]
  exact stands.follows _

end

theorem At.expect_last_two (stands : parser.At failed tokens) (type last : TokenType)
    (msg lastMsg : String) (value : α) :
    Follows (some (some value, (parser.expectToken type msg).expectToken last lastMsg))
      ((goes failed tokens).andThen fun tokens =>
        (tokenCourse type tokens).andThen (tokenCourse last)) :=
  stands.expect type msg (fun parser => some (some value, parser.expectToken last lastMsg))
    (fun _ _ stands => stands.expect_last _ _ _) fun _ _ stands => stands.expect_last _ _ _

/-- The last token behind a call. -/
theorem Follows.expect_last (follows : Follows call course) (type : TokenType) (msg : String)
    (build : α → β) :
    Follows (orNull call fun value parser =>
        some (some (build value), parser.expectToken type msg))
      (course.andThen (tokenCourse type)) :=
  follows.tail (Course.andThen · (tokenCourse type)) rfl rfl fun _ _ _ _ _ stands =>
    stands.expect_last _ _ _

/-- A call whose value is only built into another one. -/
theorem Follows.build (follows : Follows call course) (build : α → β) :
    Follows (orNull call fun value parser => some (some (build value), parser)) course :=
  follows.tail id rfl rfl fun _ _ _ _ _ stands => stands.follows _

/-- Going on behind a name, which is there or gives `NULL`. -/
theorem At.andThen_name (stands : parser.At false tokens)
    {next : List UInt8 → Parser → Option (Option β × Parser)}
    (goesOn : ∀ name parser, parser.At false tokens.tail →
      tokens.tail.length + 1 = tokens.length → Follows (next name parser) (onward tokens.tail)) :
    Follows (orNull (some parser.parseIdentifier) next) ((nameCourse tokens).andThen onward) := by
  unfold nameCourse
  split
  · next identifier =>
    cases tokens with
    | nil => cases identifier
    | cons token rest =>
      rw [stands.parseIdentifier identifier]
      exact goesOn _ _ stands.advance rfl
  · next noIdentifier =>
    rw [stands.parseIdentifier_none noIdentifier]
    exact ⟨_, rfl⟩

theorem Follows.map (follows : Follows call course) (build : α → β) :
    Follows (do let (value, parser) ← call; return (value.map build, parser)) course := by
  cases course with
  | hangs => rw [show call = none from follows]; rfl
  | null =>
    obtain ⟨parser, rfl⟩ := follows
    exact ⟨parser, rfl⟩
  | goes failed rest =>
    obtain ⟨value, parser, rfl, stands⟩ := follows
    exact ⟨build _, parser, rfl, stands⟩

/-- Behind an item of a list there is a comma and another item, or the list ends. -/
theorem At.listItem (stands : parser.At failed tokens) (item : α)
    {parseItems : Parser → Option (Option (List α) × Parser)}
    (again : firstType tokens = tokenComma → Follows (parseItems parser.advance) course) :
    Follows (Parser.listItem parseItems item parser)
      (if firstType tokens = tokenComma then course else goes failed tokens) := by
  rw [Parser.listItem, stands.type_eq]
  split
  · next comma => exact (again comma).map _
  · exact stands.follows _

/-- After an error a loop that looks at the error ends behind the item. -/
theorem At.listItem_failed (stands : parser.At true tokens) (item : α)
    {parseItems : Parser → Option (Option (List α) × Parser)}
    (ends : ∀ parser, parser.hasError = true → parseItems parser = some (some [], parser)) :
    Follows (Parser.listItem parseItems item parser) (goes true tokens) := by
  have stopped : Follows (parseItems parser.advance) (goes true tokens) := by
    rw [stands.advance_failed, ends _ stands.failed]
    exact stands.follows []
  have item := stands.listItem item fun _ => stopped
  rwa [ite_self] at item

/-- A loop follows the loop of the courses of its items, if each item follows its course or the loop
ends in front of it. -/
theorem items_follow {ends : Parser → Prop} [DecidablePred ends]
    {parseItem : Parser → Option (Option α × Parser)} {item : List Token → Course}
    (errors : ∀ parser, parser.hasError = true → ends parser)
    (within : ∀ tokens, (item tokens).Within tokens.length)
    (each : ∀ {parser : Parser} {tokens : List Token}, parser.At false tokens →
      (ends parser ∧ item tokens = goes false tokens ∧ firstType tokens ≠ tokenComma) ∨
        (¬ends parser ∧ Follows (parseItem parser) (item tokens)))
    (stands : parser.At false tokens) :
    Follows (parseItems ends parseItem parser) (itemsCourse item tokens) := by
  rw [itemsCourse]
  generalize enough : tokens.length + 1 = steps
  replace enough : tokens.length < steps := by omega
  induction steps generalizing parser tokens with
  | zero => omega
  | succ steps inductionHypothesis =>
    rw [parseItems_eq, loopCourse]
    obtain ⟨atEnd, nothing, noComma⟩ | ⟨goesOn, follows⟩ := each stands
    · rw [if_pos atEnd, nothing, Course.andThen, behindComma, if_neg noComma]
      exact stands.follows []
    · rw [if_neg goesOn]
      refine follows.andThen (fun value parser rest goes stands => ?_) fun value parser rest stands =>
        stands.listItem_failed _ fun parser failed => by
          rw [parseItems_eq, if_pos (errors _ failed)]
      have shorter := within _ _ _ goes
      have comma : (behindComma rest).elim (.goes false rest) (loopCourse behindComma item steps) =
          if firstType rest = tokenComma then loopCourse behindComma item steps rest.tail
          else .goes false rest := by
        unfold behindComma
        split <;> rfl
      rw [comma]
      refine stands.listItem _ fun isComma => inductionHypothesis stands.advance ?_
      have more := length_tail_of_type (by rw [isComma]; decide)
      omega

/-! ### Tables and indexes -/

section Keywords

variable (stands : parser.At failed tokens)
include stands

theorem At.atPrimary : parser.checkKeyword "PRIMARY" = decide (firstType tokens = tokenPrimary) :=
  stands.checkKeyword rfl (by decide)

theorem At.atKey : parser.checkKeyword "KEY" = decide (firstType tokens = tokenKey) :=
  stands.checkKeyword rfl (by decide)

theorem At.atAutoincrement :
    parser.checkKeyword "AUTOINCREMENT" = decide (firstType tokens = tokenAutoincrement) :=
  stands.checkKeyword rfl (by decide)

theorem At.atDefault : parser.checkKeyword "DEFAULT" = decide (firstType tokens = tokenDefault) :=
  stands.checkKeyword rfl (by decide)

end Keywords

/-- The loop over the constraints, with the types of the tokens. -/
theorem At.parseConstraints_eq (stands : parser.At failed tokens) (col : ColumnDef) :
    parseConstraints col parser =
      if firstType tokens = tokenNot then
        parseConstraints { col with notNull := true } parser.advance.advance
      else if firstType tokens = tokenPrimary then
        if parser.advance.checkKeyword "KEY" then
          parseConstraints { col with primaryKey := true } parser.advance.advance
        else parseConstraints col parser.advance
      else if firstType tokens = tokenAutoincrement then
        parseConstraints { col with autoincrement := true } parser.advance
      else if firstType tokens = tokenDefault then
        parser.advance.parseExpression.bind fun (defaultValue, parser) =>
          parseConstraints { col with defaultValue } parser
      else some (col, parser) := by
  rw [parseConstraints, fix_eq]
  simp only [constraintsBody, stands.atNot, stands.atPrimary, stands.atAutoincrement,
    stands.atDefault, decide_eq_true_eq, apply_ite (Calls.answer _), Calls.answer_bind,
    Calls.answer_ofOption, Calls.answer_ask]
  rfl

/-- After an error, a constraint is looked at for ever. -/
theorem parseConstraints_stuck (col : ColumnDef) (parser : Parser) (result : ColumnDef × Parser)
    (returned : parseConstraints col parser = some result) :
    ∀ tokens, parser.At true tokens → startsConstraint (firstType tokens) = false := by
  refine fix_induction (fun call _ => ∀ tokens, call.2.At true tokens →
    startsConstraint (firstType tokens) = false) ?_ returned
  rintro constraints again ⟨col, parser⟩ result returned tokens stands
  have stays := stands.advance_failed
  simp only [constraintsBody] at returned
  rw [stands.atNot, stands.atPrimary, stands.atAutoincrement, stands.atDefault] at returned
  simp only [decide_eq_true_eq, stays, apply_ite (Calls.answer _), Calls.answer_bind, Calls.answer_ask] at returned
  split at returned
  · exact again _ _ returned _ stands
  split at returned
  · split at returned
    · exact again _ _ returned _ stands
    · exact again _ _ returned _ stands
  split at returned
  · exact again _ _ returned _ stands
  split at returned
  · next isDefault =>
    obtain ⟨value, next, expression, nextStands, _⟩ :=
      stands.parseExpression_failed.2 (by rw [isDefault]; rfl)
    rw [expression] at returned
    exact again _ _ returned _ nextStands
  · rw [startsConstraint] <;> assumption

/-- The loop over the constraints ends where none begins. -/
theorem At.constraints_end (stands : parser.At failed tokens)
    (ends : startsConstraint (firstType tokens) = false) (col : ColumnDef) :
    parseConstraints col parser = some (col, parser) := by
  rw [stands.parseConstraints_eq]
  unfold startsConstraint at ends
  split at ends
  case h_5 notNot notPrimary notAutoincrement notDefault =>
    rw [if_neg notNot, if_neg notPrimary, if_neg notAutoincrement, if_neg notDefault]
  all_goals cases ends

theorem At.constraints_failed (stands : parser.At true tokens) (col : ColumnDef) :
    parseConstraints col parser =
      if startsConstraint (firstType tokens) then none else some (col, parser) := by
  split
  · next starts =>
    cases returned : parseConstraints col parser with
    | none => rfl
    | some result =>
      have ends := parseConstraints_stuck col _ _ returned _ stands
      rw [starts] at ends
      cases ends
  · next ends => exact stands.constraints_end (Bool.eq_false_of_not_eq_true ends) col

theorem constraints_follow (steps : Nat) (col : ColumnDef) (parser : Parser) (tokens : List Token)
    (enough : tokens.length < steps) (stands : parser.At false tokens) :
    Follows ((parseConstraints col parser).map fun (col, parser) => (some col, parser))
      (loopCourse atConstraint constraintCourse steps tokens) := by
  induction steps generalizing col parser tokens with
  | zero => omega
  | succ steps inductionHypothesis =>
    have again : ∀ col parser rest, rest.length < steps → parser.At false rest →
        Follows ((parseConstraints col parser).map fun (col, parser) => (some col, parser))
          ((atConstraint rest).elim (goes false rest)
            (loopCourse atConstraint constraintCourse steps)) := by
      intro col parser rest shorter stands
      unfold atConstraint
      split
      · exact inductionHypothesis _ _ _ shorter stands
      · next ends =>
        rw [stands.constraints_end (Bool.eq_false_of_not_eq_true ends)]
        exact stands.follows col
    have unfolded := stands.parseConstraints_eq col
    rw [loopCourse, constraintCourse]
    have two := @List.length_tail _ tokens.tail
    split
    · next isNot =>
      have more := length_tail_of_type (by rw [isNot]; decide)
      rw [unfolded, if_pos isNot]
      exact again _ _ _ (by omega) stands.advance.advance
    · next isPrimary =>
      have more := length_tail_of_type (by rw [isPrimary]; decide)
      rw [unfolded, if_neg (by rw [isPrimary]; decide), if_pos isPrimary, stands.advance.atKey]
      simp only [decide_eq_true_eq]
      split
      · exact again _ _ _ (by omega) stands.advance.advance
      · exact again _ _ _ (by omega) stands.advance
    · next isAutoincrement =>
      have more := length_tail_of_type (by rw [isAutoincrement]; decide)
      rw [unfolded, if_neg (by rw [isAutoincrement]; decide),
        if_neg (by rw [isAutoincrement]; decide), if_pos isAutoincrement]
      exact again _ _ _ (by omega) stands.advance
    · next isDefault =>
      have more := length_tail_of_type (by rw [isDefault]; decide)
      rw [unfolded, if_neg (by rw [isDefault]; decide), if_neg (by rw [isDefault]; decide),
        if_neg (by rw [isDefault]; decide), if_pos isDefault]
      obtain ⟨next, expression, nextStands⟩ := stands.advance.parseExpression
      have shorter := (readExpression_complete tokens.tail).length
      rw [expression]
      generalize readExpression tokens.tail = value at nextStands shorter
      obtain ⟨value, failed, rest⟩ := value
      cases failed with
      | true =>
        simp only [Option.bind_some, nextStands.constraints_failed]
        split
        · exact rfl
        · exact nextStands.follows _
      | false => exact again _ _ rest (by simp only at shorter; omega) nextStands
    · next notNot notPrimary notAutoincrement notDefault =>
      have ends : startsConstraint (firstType tokens) = false := by
        rw [startsConstraint] <;> assumption
      rw [stands.constraints_end ends, Course.andThen, atConstraint, ends]
      exact stands.follows col

theorem parseColumnType_keeps (parser : Parser) :
    parser.parseColumnType.2 = if startsType parser.currentToken then parser.advance else parser := by
  unfold parseColumnType startsType Parser.type Parser.checkKeyword
  split_ifs <;> simp_all

theorem At.columnType (stands : parser.At false tokens) :
    parser.parseColumnType.2.At false (afterType tokens) := by
  rw [parseColumnType_keeps]
  cases tokens with
  | nil =>
    have eof : parser.currentToken.type = tokenEof := stands.type_eq
    have noType : startsType parser.currentToken = false := by
      rw [startsType]
      simp only [isKeyword_of_ne (by rw [eof]; decide),
        eof]
      rfl
    rw [noType]
    exact stands
  | cons token rest =>
    rw [stands.current, afterType]
    split
    · exact stands.advance
    · exact stands

theorem At.columnDef (stands : parser.At false tokens) :
    Follows parser.parseColumnDef ((nameCourse tokens).andThen fun tokens =>
      constraintsCourse (afterType tokens)) := by
  refine stands.andThen_name fun name parser stands _ => ?_
  have follows := constraints_follow _
    ⟨name, parser.parseColumnType.1, false, false, false, none⟩ _ _ (Nat.lt_succ_self _)
    stands.columnType
  rw [constraintsCourse]
  dsimp only
  generalize parseConstraints _ _ = call at follows ⊢
  cases call <;> exact follows

theorem columnDefs_failed (parser : Parser) (failed : parser.hasError = true) :
    parser.parseColumnDefs = some (some [], parser) := by
  rw [parseColumnDefs, parseItems_eq, if_pos (.inr failed)]

section

variable (stands : parser.At false tokens)
include stands

theorem At.columnDefs :
    Follows parser.parseColumnDefs (itemsCourse columnCourse tokens) := by
  refine items_follow (fun _ => .inr) columnCourse_within (fun {parser tokens} stands => ?_) stands
  rw [columnCourse, stands.type_eq, stands.failed]
  by_cases closed : firstType tokens = tokenRparen
  · exact .inl ⟨.inl closed, if_pos closed, by rw [closed]; decide⟩
  · rw [if_neg closed]
    exact .inr ⟨by simp [closed], stands.columnDef⟩

theorem At.ifNotExists
    {next : Bool → Parser → Option (Option β × Parser)}
    (goesOn : ∀ value parser rest, parser.At false rest → Follows (next value parser) (onward rest)) :
    Follows (orNull (some parser.parseIfNotExists) next)
      ((ifNotExistsCourse tokens).andThen onward) := by
  unfold parseIfNotExists ifNotExistsCourse
  simp only [stands.type_eq, stands.advance.type_eq, stands.advance.advance.type_eq]
  split
  · by_cases isNot : firstType tokens.tail = tokenNot
    · by_cases isExists : firstType tokens.tail.tail = tokenExists
      · rw [if_pos isNot, if_pos isExists, if_pos ⟨isNot, isExists⟩]
        exact goesOn _ _ _ stands.advance.advance.advance
      · rw [if_pos isNot, if_neg isExists, if_neg (fun both => isExists both.2)]
        exact ⟨_, rfl⟩
    · rw [if_neg isNot, if_neg (fun both => isNot both.1)]
      exact ⟨_, rfl⟩
  · exact goesOn _ _ _ stands

theorem At.createTable :
    Follows parser.parseCreateTable (readParts createTableParts tokens) := by
  refine stands.ifNotExists fun ifNotExists parser tokens stands => ?_
  refine stands.andThen_name fun tableName parser stands _ => ?_
  refine stands.expect _ _ (fun parser => orNull _ _)
    (fun parser rest stands => ?_) (fun parser rest stands => ?_)
  · exact stands.columnDefs.tail (Course.andThen · _) rfl rfl
      fun columns parser failed rest _ stands => stands.expect_last_two _ _ _ _ _
  · rw [columnDefs_failed _ stands.failed]
    exact stands.expect_last_two _ _ _ _ _

theorem At.ifExists
    {next : Bool → Parser → Option (Option β × Parser)}
    (goesOn : ∀ value parser rest, parser.At false rest → Follows (next value parser) (onward rest)) :
    Follows (orNull (some parser.parseIfExists) next) ((ifExistsCourse tokens).andThen onward) := by
  unfold parseIfExists ifExistsCourse
  simp only [stands.type_eq, stands.advance.type_eq]
  split
  · split
    · exact goesOn _ _ _ stands.advance.advance
    · exact ⟨_, rfl⟩
  · exact goesOn _ _ _ stands

/-- A statement that ends behind a name. -/
theorem At.name_last (type : TokenType) (msg : String)
    (build : List UInt8 → α) :
    Follows (orNull (some parser.parseIdentifier) fun name parser =>
        some (some (build name), parser.expectToken type msg))
      (readParts [.name, .token type] tokens) :=
  stands.andThen_name fun _ _ stands _ => stands.expect_last _ msg _

theorem At.dropTable :
    Follows parser.parseDropTable
      (readParts [.ifExists, .name, .token tokenSemicolon] tokens) :=
  stands.ifExists fun _ _ _ stands => stands.name_last _ _ _

theorem At.dropIndex :
    Follows parser.parseDropIndex (readParts [.name, .token tokenSemicolon] tokens) :=
  stands.name_last _ _ _

end

theorem At.parseIdentifier_failed (stands : parser.At true tokens)
    (identifier : firstType tokens = tokenIdentifier) :
    parser.parseIdentifier = (some (tokenGetText parser.currentToken), parser) := by
  rw [Parser.parseIdentifier, stands.type_eq, if_neg (not_not_intro identifier),
    stands.advance_failed]

theorem At.indexColumn (stands : parser.At false tokens) (build : List UInt8 → α) :
    Follows
      (orNull (some (parser.expectToken tokenLparen "Expected '(' in CREATE INDEX").parseIdentifier)
        fun columnName parser => some (some (build columnName),
          (parser.expectToken tokenRparen "Expected ')' after column name").expectToken
            tokenSemicolon "Expected ';' after CREATE INDEX"))
      (readParts indexColumnParts tokens) := by
  simp only [indexColumnParts, readParts, Part.course]
  by_cases opened : firstType tokens = tokenLparen
  · have moved : parser.expectToken tokenLparen "Expected '(' in CREATE INDEX" = parser.advance := by
      rw [Parser.expectToken, stands.type_eq, if_neg (not_not_intro opened)]
    rw [moved, if_pos opened]
    exact stands.advance.andThen_name fun name parser stands _ => stands.expect_last_two _ _ _ _ _
  · have failed := stands.setError "Expected '(' in CREATE INDEX"
    rw [Parser.expectToken, stands.type_eq, if_pos opened, if_neg opened]
    split
    · next identifier =>
      rw [failed.parseIdentifier_failed identifier]
      exact failed.expect_last_two _ _ _ _ _
    · next noIdentifier =>
      rw [failed.parseIdentifier_none noIdentifier]
      exact ⟨_, rfl⟩

theorem At.createIndex (stands : parser.At false tokens) :
    Follows parser.parseCreateIndex
      (readParts (.unique :: .name :: .word tokenOn :: .name :: indexColumnParts) tokens) := by
  unfold parseCreateIndex
  simp only [readParts, Part.course, goes_andThen, wordCourse]
  rw [stands.checkKeyword rfl (by decide)]
  have next : (if decide (firstType tokens = tokenUnique) = true then parser.advance else parser).At
      false (if firstType tokens = tokenUnique then tokens.tail else tokens) := by
    simp only [decide_eq_true_eq]
    split
    · exact stands.advance
    · exact stands
  generalize (if firstType tokens = tokenUnique then tokens.tail else tokens) = tokens at next ⊢
  refine next.andThen_name fun indexName parser stands _ => ?_
  rw [stands.checkKeyword rfl (by decide)]
  simp only [decide_eq_true_eq]
  split
  · exact stands.advance.andThen_name fun tableName parser stands _ => stands.indexColumn _
  · exact ⟨_, rfl⟩

/-! ### Rows -/

/-- After an error, an expression is read in front of the token that is there. -/
theorem At.stray (stands : parser.At true tokens) :
    Follows parser.parseExpression (strayCourse tokens) := by
  unfold strayCourse
  cases nested : nests (firstType tokens) with
  | true => exact stands.parseExpression_failed.1 nested
  | false =>
    obtain ⟨value, next, returned, nextStands, isValue⟩ := stands.parseExpression_failed.2 nested
    rw [← isValue, returned]
    cases value with
    | none => exact ⟨next, rfl⟩
    | some value => exact nextStands.follows _

theorem strayCourse_goes {rest : List Token} (goesOn : strayCourse tokens = goes failed rest) :
    failed = true ∧ rest = tokens ∧ startsLiteral (firstType tokens) = true := by
  unfold strayCourse at goesOn
  split at goesOn
  · cases goesOn
  split at goesOn
  · next starts =>
    cases goesOn
    exact ⟨rfl, rfl, starts⟩
  · cases goesOn

theorem At.stray_list (stands : parser.At true tokens) :
    Follows parser.parseExpressions (strayCourse tokens) := by
  rw [parseExpressions_eq]
  refine stands.stray.tail id rfl rfl fun first next failed rest goesOn nextStands => ?_
  obtain ⟨rfl, rfl, starts⟩ := strayCourse_goes goesOn
  have noComma : firstType rest ≠ tokenComma := fun comma => by
    rw [comma] at starts
    cases starts
  rw [Parser.listItem, nextStands.type_eq, if_neg noComma]
  exact nextStands.follows [first]

theorem At.insertColumns (stands : parser.At false tokens) :
    Follows parser.parseInsertColumns (itemsCourse insertColumnCourse tokens) := by
  refine items_follow (fun _ => .inr) insertColumnCourse_within (fun {parser tokens} stands => ?_)
    stands
  rw [insertColumnCourse, stands.type_eq, stands.failed]
  by_cases closed : firstType tokens = tokenRparen
  · exact .inl ⟨.inl closed, if_pos closed, by rw [closed]; decide⟩
  · rw [if_neg closed, ← Course.andThen_goes (nameCourse _)]
    exact .inr ⟨by simp [closed],
      stands.andThen_name fun name parser stands _ => stands.follows _⟩

theorem At.insertColumnList (stands : parser.At false tokens) :
    Follows parser.parseInsertColumnList (columnListCourse tokens) := by
  unfold parseInsertColumnList columnListCourse
  rw [stands.type_eq]
  split
  · exact stands.advance.insertColumns.expect_last _ _ _
  · exact stands.follows []

theorem valueLists_failed (parser : Parser) (failed : parser.hasError = true) :
    parser.parseValueLists = some (some [], parser) := by
  rw [parseValueLists, parseItems_eq, if_pos failed]

theorem At.valueList (stands : parser.At false tokens) :
    Follows parser.parseValueList (valueListCourse tokens) := by
  unfold parseValueList valueListCourse
  by_cases opened : firstType tokens = tokenLparen
  · have moved : parser.expectToken tokenLparen "Expected '(' before VALUES" = parser.advance := by
      rw [Parser.expectToken, stands.type_eq, if_neg (not_not_intro opened)]
    rw [moved, if_pos opened, parseExpressionList, stands.advance.type_eq]
    split
    · exact ⟨_, rfl⟩
    · exact stands.advance.parseExpressions.follows.expect_last _ _ _
  · have failed := stands.setError "Expected '(' before VALUES"
    rw [Parser.expectToken, stands.type_eq, if_pos opened, if_neg opened, parseExpressionList,
      failed.type_eq]
    split
    · exact ⟨_, rfl⟩
    · refine failed.stray_list.tail id rfl rfl fun exprs next failed rest goesOn nextStands => ?_
      obtain ⟨rfl, rfl, starts⟩ := strayCourse_goes goesOn
      exact (nextStands.expectToken_failed _ _).follows _

theorem At.valueLists (stands : parser.At false tokens) :
    Follows parser.parseValueLists (itemsCourse valueListCourse tokens) :=
  items_follow (fun _ => id) valueListCourse_within
    (fun stands => .inr ⟨by simp [stands.failed], stands.valueList⟩) stands

theorem At.expectKeyword_failed (stands : parser.At true tokens) (kw msg : String) :
    (parser.expectKeyword kw msg).At true tokens := by
  unfold expectKeyword
  split
  · rw [stands.advance_failed]
    exact stands
  · exact stands.setError msg

/-- The end of an `INSERT` in which an error was recorded in front of the values. -/
theorem At.insert_failed (stands : parser.At true tokens) (build : List (List Expression) → α) :
    Follows (orNull (parser.expectKeyword "VALUES" "Expected VALUES after INSERT").parseValueLists
        fun values parser => some (some (build values),
          parser.expectToken tokenSemicolon "Expected ';' after INSERT"))
      (goes true tokens) := by
  have expected := stands.expectKeyword_failed "VALUES" "Expected VALUES after INSERT"
  rw [valueLists_failed _ expected.failed]
  exact expected.expect_last _ _ _

theorem At.insert (stands : parser.At false tokens) :
    Follows parser.parseInsert (readParts insertParts tokens.tail) := by
  have next := stands.advance
  unfold parseInsert
  simp only [insertParts, readParts, Part.course]
  rw [expectKeyword, next.checkKeyword rfl (by decide)]
  simp only [decide_eq_true_eq]
  split
  · refine next.advance.andThen_name fun tableName parser stands _ => ?_
    refine stands.insertColumnList.andThen (fun columns parser rest _ stands => ?_)
      fun columns parser rest stands => stands.insert_failed _
    rw [expectKeyword, stands.checkKeyword rfl (by decide)]
    simp only [decide_eq_true_eq]
    split
    · exact stands.advance.valueLists.expect_last _ _ _
    · have failed := stands.setError "Expected VALUES after INSERT"
      rw [valueLists_failed _ failed.failed]
      exact failed.expect_last _ _ _
  · have failed := next.setError "Expected INTO after INSERT"
    split
    · next identifier =>
      rw [failed.parseIdentifier_failed identifier]
      have noList : (parser.advance.setError "Expected INTO after INSERT").parseInsertColumnList =
          some (some [], parser.advance.setError "Expected INTO after INSERT") := by
        rw [parseInsertColumnList, failed.type_eq, if_neg (by rw [identifier]; decide)]
      rw [orNull_some, noList]
      exact failed.insert_failed _
    · next noIdentifier =>
      rw [failed.parseIdentifier_none noIdentifier]
      exact ⟨_, rfl⟩

theorem setClauses_failed (parser : Parser) (failed : parser.hasError = true) :
    parser.parseSetClauses = some (some [], parser) := by
  rw [parseSetClauses, parseItems_eq, if_pos failed]

theorem At.setClause (stands : parser.At false tokens) :
    Follows parser.parseSetClause (setClauseCourse tokens) := by
  refine stands.andThen_name fun columnName parser stands _ => ?_
  unfold Parser.expectToken
  rw [stands.type_eq]
  by_cases equals : firstType tokens.tail = tokenEq
  · rw [if_neg (not_not_intro equals), if_pos equals]
    exact stands.advance.parseExpression.follows.build _
  · rw [if_pos equals, if_neg equals]
    exact (stands.setError _).stray.build _

theorem At.setClauses (stands : parser.At false tokens) :
    Follows parser.parseSetClauses (itemsCourse setClauseCourse tokens) :=
  items_follow (fun _ => id) setClauseCourse_within
    (fun stands => .inr ⟨by simp [stands.failed], stands.setClause⟩) stands

theorem At.whereClause (stands : parser.At false tokens) (msg : String) :
    Follows (parser.parseWhere msg) (whereCourse tokens) := by
  unfold parseWhere whereCourse
  rw [stands.checkKeyword rfl (by decide)]
  simp only [decide_eq_true_eq]
  split
  · exact stands.advance.parseExpression.follows
  · exact ⟨_, rfl⟩

/-- After an error, what has to be a `WHERE` is `NULL`. -/
theorem At.whereClause_failed (stands : parser.At true tokens) (msg : String) :
    Follows (parser.parseWhere msg) null := by
  unfold parseWhere
  rw [stands.checkKeyword rfl (by decide), stands.advance_failed]
  simp only [decide_eq_true_eq]
  split
  · next isWhere =>
    have stray := stands.stray
    rw [strayCourse, isWhere] at stray
    exact stray
  · exact ⟨_, rfl⟩

theorem At.update (stands : parser.At false tokens) :
    Follows parser.parseUpdate (readParts updateParts tokens.tail) := by
  unfold parseUpdate
  simp only [updateParts, readParts, Part.course]
  refine stands.advance.andThen_name fun tableName parser stands _ => ?_
  generalize tokens.tail.tail = tokens at stands
  rw [expectKeyword, stands.checkKeyword rfl (by decide)]
  simp only [decide_eq_true_eq]
  split
  · refine stands.advance.setClauses.andThen_null (fun clauses parser rest stands => ?_)
      fun clauses parser rest stands => ?_
    · exact (stands.whereClause _).expect_last _ _ _
    · exact (stands.whereClause_failed _).orNull_null _
  · have failed := stands.setError "Expected SET after UPDATE table name"
    rw [setClauses_failed _ failed.failed]
    exact (failed.whereClause_failed _).orNull_null _

theorem At.delete (stands : parser.At false tokens) :
    Follows parser.parseDelete (readParts deleteParts tokens.tail) := by
  have next := stands.advance
  unfold parseDelete
  simp only [deleteParts, readParts, Part.course, wordCourse]
  rw [expectKeyword, next.checkKeyword rfl (by decide)]
  simp only [decide_eq_true_eq]
  split
  · exact next.advance.andThen_name fun tableName parser stands _ =>
      (stands.whereClause _).expect_last _ _ _
  · have failed := next.setError "Expected FROM after DELETE"
    by_cases identifier : firstType tokens.tail = tokenIdentifier
    · rw [failed.parseIdentifier_failed identifier]
      exact (failed.whereClause_failed _).orNull_null _
    · rw [failed.parseIdentifier_none identifier]
      exact ⟨_, rfl⟩

/-! ### Queries -/

/-- An alias that is missing is an error, which the loop meets again at a comma only. -/
theorem At.columnAlias (stands : parser.At false tokens) :
    ∃ failed rest, parser.parseAlias.2.At failed rest ∧ rest.length ≤ tokens.length ∧
      aliasCourse tokens =
        if failed = true ∧ firstType rest = tokenComma then null else goes failed rest := by
  have one := @List.length_tail _ tokens
  unfold parseAlias aliasCourse
  rw [stands.checkKeyword rfl (by decide), stands.type_eq]
  simp only [decide_eq_true_eq, or_self]
  split
  · by_cases identifier : firstType tokens.tail = tokenIdentifier
    · rw [if_pos identifier]
      obtain ⟨token, rest, tail⟩ : ∃ token rest, tokens.tail = token :: rest := by
        cases rest : tokens.tail with
        | nil => rw [rest] at identifier; cases identifier
        | cons token others => exact ⟨token, others, rfl⟩
      have next := stands.advance
      rw [tail] at next identifier
      rw [next.parseIdentifier identifier]
      exact ⟨false, rest, next.advance, by rw [tail, length_cons] at one; omega, by simp [tail]⟩
    · rw [if_neg identifier, stands.advance.parseIdentifier_none identifier]
      exact ⟨true, tokens.tail, stands.advance.setError _, by omega, by simp⟩
  · exact ⟨false, tokens, stands, le_rfl, by simp⟩

theorem columnList_follow (steps : Nat) (parser : Parser) (tokens : List Token)
    (enough : tokens.length < steps) (stands : parser.At false tokens) :
    Follows parser.parseColumnList (selectColumnsCourse steps tokens) := by
  induction steps generalizing parser tokens with
  | zero => omega
  | succ steps inductionHypothesis =>
    rw [parseColumnList_eq, selectColumnsCourse, stands.type_eq]
    split
    · exact stands.advance.follows _
    · refine stands.andThen_name fun name named stands more => ?_
      obtain ⟨failed, rest, stands, shorter, course⟩ := stands.columnAlias
      cases failed with
      | false =>
        rw [course.trans (if_neg (by simp))]
        exact stands.listItem _ fun _ =>
          inductionHypothesis _ _ (by rw [length_tail]; omega) stands.advance
      | true =>
        have again : firstType rest = tokenComma →
            Follows named.parseAlias.2.advance.parseColumnList null := by
          intro comma
          rw [stands.advance_failed, parseColumnList_eq, stands.type_eq,
            if_neg (by rw [comma]; decide), stands.parseIdentifier_none (by rw [comma]; decide)]
          exact ⟨_, rfl⟩
        have item := stands.listItem ⟨name, named.parseAlias.1⟩ again
        by_cases comma : firstType rest = tokenComma
        · rw [course.trans (if_pos ⟨rfl, comma⟩)]
          rwa [if_pos comma] at item
        · rw [course.trans (if_neg fun both => comma both.2)]
          rwa [if_neg comma] at item

theorem At.direction (stands : parser.At false tokens) :
    parser.parseDirection.2.At false
      (if firstType tokens = tokenDesc ∨ firstType tokens = tokenAsc then tokens.tail else tokens) := by
  unfold parseDirection
  rw [stands.checkKeyword rfl (by decide), stands.checkKeyword rfl (by decide)]
  simp only [decide_eq_true_eq]
  by_cases isDesc : firstType tokens = tokenDesc
  · rw [if_pos isDesc, if_pos (.inl isDesc)]
    exact stands.advance
  · rw [if_neg isDesc]
    by_cases isAsc : firstType tokens = tokenAsc
    · rw [if_pos isAsc, if_pos (.inr isAsc)]
      exact stands.advance
    · rw [if_neg isAsc, if_neg (by simp [isDesc, isAsc])]
      exact stands

theorem At.orderBy (stands : parser.At false tokens) :
    Follows parser.parseOrderBy (itemsCourse orderItemCourse tokens) := by
  refine items_follow (fun _ => id) orderItemCourse_within
    (fun stands => .inr ⟨by simp [stands.failed], ?_⟩) stands
  exact stands.andThen_name fun name parser stands _ => stands.direction.follows _

theorem parseOrderBy_nonempty (noError : parser.hasError = false) {items : List OrderByItem}
    {next : Parser} (returned : parser.parseOrderBy = some (some items, next)) :
    items.isEmpty = false := by
  rw [parseOrderBy, parseItems_eq, noError, if_neg Bool.false_ne_true, parseOrderByItem] at returned
  generalize parser.parseIdentifier = identifier at returned
  rcases identifier with ⟨_ | name, named⟩
  · cases returned
  · rw [orNull_some, orNull_some, listItem] at returned
    split at returned
    · obtain ⟨⟨others, last⟩, _, mapped⟩ := Option.bind_eq_some_iff.mp returned
      cases others with
      | none => cases mapped
      | some others => cases mapped; rfl
    · cases returned
      rfl

theorem At.orderClause (stands : parser.At false tokens) :
    Follows parser.parseOrderClause (orderCourse tokens) := by
  have atOrder : parser.checkKeyword "ORDER" = decide (firstType tokens = tokenOrder) :=
    stands.checkKeyword rfl (by decide)
  have atBy : parser.advance.checkKeyword "BY" = decide (firstType tokens.tail = tokenBy) :=
    stands.advance.checkKeyword rfl (by decide)
  unfold parseOrderClause orderCourse
  simp only [atOrder, atBy, decide_eq_true_eq]
  split
  · split
    · have same : (orNull parser.advance.advance.parseOrderBy fun items next =>
            if items.isEmpty then some (none, next) else some (some items, next)) =
          orNull parser.advance.advance.parseOrderBy fun items next => some (some items, next) :=
        orNull_congr fun items next returned => by
          rw [parseOrderBy_nonempty stands.advance.advance.failed returned]
          rfl
      rw [same]
      exact stands.advance.advance.orderBy.build id
    · exact stands.advance.follows []
  · exact stands.follows []

theorem At.orderClause_failed (stands : parser.At true tokens) :
    parser.parseOrderClause = some (some [], parser) := by
  have atOrder : parser.checkKeyword "ORDER" = decide (firstType tokens = tokenOrder) :=
    stands.checkKeyword rfl (by decide)
  have atBy : parser.checkKeyword "BY" = decide (firstType tokens = tokenBy) :=
    stands.checkKeyword rfl (by decide)
  unfold parseOrderClause
  simp only [atOrder, stands.advance_failed, atBy]
  by_cases isOrder : firstType tokens = tokenOrder
  · simp [isOrder]
  · simp [isOrder]

theorem At.clause (stands : parser.At failed tokens) {kw : String} {type : TokenType}
    (token : keywordToTokenType kw = some type) (known : lookupKeyword (ascii kw) ≠ tokenIdentifier)
    (simple : nests type = false) (noLiteral : startsLiteral type = false) :
    Follows (parser.parseClause kw) (clauseCourse (goes failed tokens) type) := by
  unfold parseClause
  rw [stands.checkKeyword token known]
  simp only [decide_eq_true_eq]
  by_cases isKeyword : firstType tokens = type
  · rw [if_pos isKeyword]
    cases failed with
    | false =>
      simp only [clauseCourse, isKeyword]
      exact stands.advance.parseExpression.follows.build _
    | true =>
      have stray := stands.stray
      rw [strayCourse, isKeyword, simple, noLiteral] at stray
      simp only [clauseCourse, isKeyword, stands.advance_failed]
      exact Follows.orNull_null stray _
  · rw [if_neg isKeyword]
    cases failed with
    | false =>
      simp only [clauseCourse, isKeyword]
      exact stands.follows _
    | true =>
      simp only [clauseCourse, isKeyword]
      exact stands.follows _

/-- The clauses behind the table of a query. -/
theorem At.clauses (stands : parser.At false tokens)
    (build : Option Expression → List OrderByItem → Option Expression → Option Expression → α) :
    Follows
      (orNull (parser.parseClause "WHERE") fun whereClause parser =>
        orNull parser.parseOrderClause fun orderBy parser =>
        orNull (parser.parseClause "LIMIT") fun limit parser =>
        orNull (parser.parseClause "OFFSET") fun offset parser =>
        some (some (build whereClause orderBy limit offset),
          parser.expectToken tokenSemicolon "Expected ';' after SELECT"))
      (readParts [.clauses, .token tokenSemicolon] tokens) := by
  have whereClause : Follows (parser.parseClause "WHERE")
      (clauseCourse (goes false tokens) tokenWhere) := stands.clause rfl (by decide) rfl rfl
  refine whereClause.tail (fun course => (clauseCourse (clauseCourse (course.andThen _)
    _) _).andThen _) rfl rfl fun whereClause parser failed rest _ stands => ?_
  have order : Follows parser.parseOrderClause ((goes failed rest).andThen orderCourse) := by
    cases failed with
    | false => exact stands.orderClause
    | true =>
      rw [stands.orderClause_failed]
      exact stands.follows []
  refine order.tail (fun course => (clauseCourse (clauseCourse course _) _).andThen
    _) rfl rfl fun orderBy parser failed rest _ stands => ?_
  refine (stands.clause rfl (by decide) rfl rfl).tail
    (fun course => (clauseCourse course _).andThen _) rfl rfl
    fun limit parser failed rest _ stands => ?_
  exact (stands.clause rfl (by decide) rfl rfl).expect_last _ _ _

theorem At.select (stands : parser.At false tokens) :
    Follows parser.parseSelect (readParts selectParts tokens.tail) := by
  have next := stands.advance
  unfold parseSelect
  have noDistinct : parser.advance.checkKeyword "DISTINCT" = false :=
    next.checkKeyword_none rfl (by decide)
  simp only [noDistinct]
  have columns := columnList_follow _ _ _ (Nat.lt_succ_self _) next
  refine columns.andThen_null (fun columns parser rest stands => ?_)
    fun columns parser rest stands => ?_
  · rw [stands.type_eq, readParts_cons, Part.course, wordCourse]
    by_cases isFrom : firstType rest = tokenFrom
    · rw [if_neg (not_not_intro isFrom), if_pos isFrom]
      exact stands.advance.andThen_name fun tableName parser stands _ => stands.clauses _
    · rw [if_pos isFrom, if_neg isFrom]
      exact ⟨_, rfl⟩
  · rw [stands.type_eq, stands.advance_failed]
    by_cases isFrom : firstType rest = tokenFrom
    · rw [if_neg (not_not_intro isFrom), stands.parseIdentifier_none (by rw [isFrom]; decide)]
      exact ⟨_, rfl⟩
    · rw [if_pos isFrom]
      exact ⟨_, rfl⟩

/-! ### Statements -/

theorem At.transaction (stands : parser.At false tokens)
    (kind : firstType tokens = tokenBegin ∨ firstType tokens = tokenCommit ∨
      firstType tokens = tokenRollback) :
    Follows parser.parseTransaction (tokenCourse tokenSemicolon tokens.tail) := by
  unfold parseTransaction
  rw [stands.type_eq]
  obtain isBegin | isCommit | isRollback := kind
  · have noWord : parser.advance.checkKeyword "TRANSACTION" = false :=
      stands.advance.checkKeyword_none rfl (by decide)
    simp only [isBegin, noWord]
    exact stands.advance.expect_last _ _ _
  · simp only [isCommit]
    exact stands.advance.expect_last _ _ _
  · simp only [isRollback]
    exact stands.advance.expect_last _ _ _

/-- The parser of statements follows the course of its tokens. -/
theorem At.statement (stands : parser.At false tokens) :
    Follows parser.parseStatement (statementCourse tokens) := by
  have next := stands.advance
  unfold statementCourse statementParts
  split
  case h_1 isCreate =>
    rw [parseStatement, stands.type_eq, isCreate]
    simp only [next.type_eq]
    split
    · next isTable =>
      rw [readParts_word isCreate, readParts_word isTable]
      exact next.advance.createTable
    split
    · next isIndex =>
      rw [readParts_word isCreate, readParts_word isIndex]
      exact next.advance.createIndex
    · exact ⟨_, rfl⟩
  case h_2 isDrop =>
    rw [parseStatement, stands.type_eq, isDrop]
    simp only [next.type_eq]
    split
    · next isTable =>
      rw [readParts_word isDrop, readParts_word isTable]
      exact next.advance.dropTable
    split
    · next isIndex =>
      rw [readParts_word isDrop, readParts_word isIndex]
      exact next.advance.dropIndex
    · exact ⟨_, rfl⟩
  case h_3 isInsert =>
    rw [parseStatement, stands.type_eq, isInsert, readParts_word isInsert]
    exact stands.insert
  case h_4 isUpdate =>
    rw [parseStatement, stands.type_eq, isUpdate, readParts_word isUpdate]
    exact stands.update
  case h_5 isDelete =>
    rw [parseStatement, stands.type_eq, isDelete, readParts_word isDelete]
    exact stands.delete
  case h_6 isSelect =>
    rw [parseStatement, stands.type_eq, isSelect, readParts_word isSelect]
    exact stands.select
  case h_7 isBegin =>
    rw [parseStatement, stands.type_eq, isBegin, readParts_word isBegin]
    exact stands.transaction (.inl isBegin)
  case h_8 isCommit =>
    rw [parseStatement, stands.type_eq, isCommit, readParts_word isCommit]
    exact stands.transaction (.inr (.inl isCommit))
  case h_9 isRollback =>
    rw [parseStatement, stands.type_eq, isRollback, readParts_word isRollback]
    exact stands.transaction (.inr (.inr isRollback))
  case h_10 =>
    refine ⟨parser.setError "Unexpected token at start of statement", ?_⟩
    rw [parseStatement, stands.type_eq]
    split
    case h_10 => rfl
    all_goals contradiction

end Parser

end TinyDb

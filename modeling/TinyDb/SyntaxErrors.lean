/-
This file says for which texts the parser returns, and for which it returns a statement
although it recorded an error. Both are read off the course of the tokens of the text.

The parser does not return if, after an error, it stands in front of a token that makes
it look for the same thing again. It returns a statement with an error if the error is
one of those that no function turns into `NULL`, among them every missing semicolon. The
server looks at the statement only, and answers such a text as if it were correct.
-/
import TinyDb.ParserCourse
import TinyDb.StatementParts

namespace TinyDb

open TokenType

variable {sql : List UInt8}

/-! ### Parsing a text -/

/-- `parser_create` and then `parser_parse`: the statement and the parser, which is `NULL` for an
empty text. Nothing is left of a call that never returns. -/
noncomputable def parseText (sql : List UInt8) : Option (Option AstNode × Option Parser) :=
  match parserCreate sql with
  | none => some (none, none)
  | some parser => do
    let (node, parser) ← parserParse parser
    return (node, some parser)

theorem tokensOf_of_none (none : parserCreate sql = none) :
    tokensOf sql = [] := by
  unfold parserCreate at none
  unfold tokensOf
  cases made : lexerCreate sql with
  | none => rfl
  | some lexer =>
    rw [made] at none
    cases none

/-- Parsing a text is parsing its statement. -/
theorem parseText_eq {parser : Parser} (created : parserCreate sql = some parser) :
    parseText sql = parser.parseStatement.map fun (node, parser) => (node, some parser) := by
  rw [parseText, created]
  simp only [parserParse, (parserCreate_at created).failed]
  cases parser.parseStatement <;> rfl

/-- What the course of a text says about parsing it. -/
def Course.Tells (course : Course) (result : Option (Option AstNode × Option Parser)) : Prop :=
  match course with
  | hangs => result = none
  | null => ∃ parser, result = some (none, parser)
  | goes failed _ => ∃ node parser, result = some (some node, some parser) ∧ parser.hasError = failed

theorem parseText_course (sql : List UInt8) :
    (statementCourse (tokensOf sql)).Tells (parseText sql) := by
  cases created : parserCreate sql with
  | none =>
    rw [tokensOf_of_none created]
    exact ⟨none, by rw [parseText, created]⟩
  | some parser =>
    have follows := (parserCreate_at created).statement
    rw [parseText_eq created]
    cases course : statementCourse (tokensOf sql) with
    | hangs =>
      rw [course] at follows
      rw [show parser.parseStatement = none from follows]
      rfl
    | null =>
      rw [course] at follows
      obtain ⟨next, returned⟩ := follows
      exact ⟨next, by rw [returned]; rfl⟩
    | goes failed rest =>
      rw [course] at follows
      obtain ⟨node, next, returned, stands⟩ := follows
      exact ⟨node, next, by rw [returned]; rfl, stands.failed⟩

/-! ### Texts on which the parser returns -/

theorem parseText_isSome (sql : List UInt8) :
    (parseText sql).isSome = !(statementCourse (tokensOf sql)).isHangs := by
  have tells := parseText_course sql
  cases course : statementCourse (tokensOf sql) with
  | hangs =>
    rw [course] at tells
    rw [show parseText sql = none from tells]
    rfl
  | null =>
    rw [course] at tells
    obtain ⟨parser, result⟩ := tells
    rw [result]
    rfl
  | goes failed rest =>
    rw [course] at tells
    obtain ⟨node, parser, result, _⟩ := tells
    rw [result]
    rfl

/-- For every text, `parser_create` followed by `parser_parse` returns exactly if the tokens of the
text do not hang. -/
theorem parser_returns_iff (sql : List UInt8) :
    (∃ result, parseText sql = some result) ↔ ¬Hanging (tokensOf sql) := by
  rw [← Option.isSome_iff_exists, parseText_isSome, Bool.not_eq_true', ← statementCourse_isHangs,
    Bool.not_eq_true]

/-- A minus sign where the equals sign of a `SET` clause belongs. -/
theorem parser_hangs_on_set : parseText (ascii "UPDATE t SET a -") = none := by
  have hangs : (statementCourse (tokensOf (ascii "UPDATE t SET a -"))).isHangs = true := by
    decide +kernel
  have returns := parseText_isSome (ascii "UPDATE t SET a -")
  rw [hangs] at returns
  simpa using returns

/-! ### Statements with an error -/

/-- The statement that is returned has an error exactly on a faulty text. -/
theorem parseText_faulty (sql : List UInt8) :
    (∃ node parser, parseText sql = some (some node, some parser) ∧ parser.hasError = true) ↔
      (statementCourse (tokensOf sql)).isFaulty = true := by
  have tells := parseText_course sql
  cases course : statementCourse (tokensOf sql) with
  | hangs =>
    rw [course] at tells
    rw [show parseText sql = none from tells]
    simp [Course.isFaulty]
  | null =>
    rw [course] at tells
    obtain ⟨parser, result⟩ := tells
    rw [result]
    simp [Course.isFaulty]
  | goes failed rest =>
    rw [course] at tells
    obtain ⟨node, parser, result, recorded⟩ := tells
    rw [result]
    cases failed with
    | false => simp [Course.isFaulty, recorded]
    | true => exact iff_of_true ⟨node, parser, rfl, recorded⟩ rfl

/-- What `server_handle_client` answers to the text of a query. -/
inductive QueryReply
  | emptyQuery
  | noParser
  | parseError (message : Option String)
  | queryOk
  | okRows
  deriving DecidableEq

/-- The replies that report success. -/
def QueryReply.isOk : QueryReply → Bool
  | queryOk | okRows => true
  | _ => false

/-- The trailing bytes that the server cuts off. -/
def trimQuery (sql : List UInt8) : List UInt8 :=
  (sql.reverse.dropWhile fun c => c == char '\n' || c == char '\r' || c == char ' ').reverse

/-- Whether a statement changes the tables or indexes. -/
def isDdl : AstNode → Bool
  | .createTable _ | .dropTable _ | .createIndex _ | .dropIndex _ => true
  | _ => false

/-- The part of `server_handle_client` behind `QUERY:`. -/
noncomputable def queryReply (sql : List UInt8) : Option QueryReply :=
  let sql := trimQuery sql
  if sql.isEmpty then some .emptyQuery
  else do
    match ← parseText sql with
    | (_, none) => return .noParser
    | (none, some parser) => return .parseError (parserError parser)
    | (some node, some _) => return if isDdl node then .queryOk else .okRows

/-- The server reports success exactly if the parser returns a statement. -/
theorem queryReply_isOk (sql : List UInt8) :
    (∃ reply, queryReply sql = some reply ∧ reply.isOk = true) ↔
      ∃ node parser, parseText (trimQuery sql) = some (some node, some parser) := by
  unfold queryReply
  by_cases empty : (trimQuery sql).isEmpty = true
  · have noParser : parseText (trimQuery sql) = some (none, none) := by
      rw [List.isEmpty_iff.mp empty]
      rfl
    simp [empty, noParser, QueryReply.isOk]
  · rcases result : parseText (trimQuery sql) with _ | ⟨_ | node, _ | parser⟩
    · simp [empty, result]
    · simp [empty, result, QueryReply.isOk]
    · simp [empty, result, QueryReply.isOk]
    · simp [empty, result, QueryReply.isOk]
    · cases ddl : isDdl node <;> simp [empty, result, QueryReply.isOk, ddl]

theorem parserError_eq_none (parser : Parser) :
    parserError parser = none ↔ parser.hasError = false := by
  unfold parserError
  cases parser.hasError <;> simp

/-- A faulty text is parsed with an error. -/
theorem parseText_records (faulty : (statementCourse (tokensOf sql)).isFaulty = true) :
    ∃ node parser, parseText sql = some (some node, some parser) ∧ parserError parser ≠ none := by
  obtain ⟨node, parser, result, recorded⟩ := (parseText_faulty sql).mpr faulty
  refine ⟨node, parser, result, ?_⟩
  rw [ne_eq, parserError_eq_none, recorded]
  exact Bool.noConfusion

theorem statements_clean_iff (sql : List UInt8) :
    (∀ node parser, parseText sql = some (some node, some parser) → parserError parser = none) ↔
      ¬Faulty (tokensOf sql) := by
  rw [← statementCourse_isFaulty, ← parseText_faulty]
  simp only [parserError_eq_none, not_exists, not_and, Bool.not_eq_true]

/-- For every text, a statement that the parser returns comes without an error exactly if the tokens
of the text are not faulty; and for every text of a query, the server reports success only for
statements without an error exactly if the tokens of the trimmed text are not faulty. -/
theorem syntax_errors_reported_iff (sql : List UInt8) :
    ((∀ node parser, parseText sql = some (some node, some parser) → parserError parser = none) ↔
      ¬Faulty (tokensOf sql)) ∧
    (((∃ reply, queryReply sql = some reply ∧ reply.isOk = true) →
        ∃ node parser, parseText (trimQuery sql) = some (some node, some parser) ∧
          parserError parser = none) ↔
      ¬Faulty (tokensOf (trimQuery sql))) := by
  refine ⟨statements_clean_iff sql, ?_⟩
  rw [queryReply_isOk, ← statements_clean_iff]
  constructor
  · intro clean node parser result
    obtain ⟨_, _, same, noError⟩ := clean ⟨node, parser, result⟩
    rw [result] at same
    cases same
    exact noError
  · rintro clean ⟨node, parser, result⟩
    exact ⟨node, parser, result, clean _ _ result⟩

/-- A missing semicolon: the parser returns a statement with an error, and the server answers that
the query is fine. -/
theorem syntax_error_reported_as_success :
    (∃ node parser, parseText (ascii "DROP TABLE t") = some (some node, some parser) ∧
      parserError parser ≠ none) ∧
    ∃ reply, queryReply (ascii "DROP TABLE t") = some reply ∧ reply.isOk = true := by
  have faulty : (statementCourse (tokensOf (ascii "DROP TABLE t"))).isFaulty = true := by
    decide +kernel
  obtain ⟨node, parser, result, recorded⟩ := parseText_records faulty
  refine ⟨⟨node, parser, result, recorded⟩, ?_⟩
  have untrimmed : trimQuery (ascii "DROP TABLE t") = ascii "DROP TABLE t" := by decide +kernel
  rw [queryReply_isOk]
  exact ⟨node, parser, result⟩

end TinyDb

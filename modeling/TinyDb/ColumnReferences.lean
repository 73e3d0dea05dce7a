/-
This file compares how the parser writes down columns with how they are looked up. A column
in an expression has an index, which an analyzer is to fill in, and a name; the evaluator
gives up on the index that the parser leaves. The star of a query is a column with the name
`*`, and the projection takes only a missing list for all columns.
-/

import TinyDb.Evaluator
import TinyDb.StatementRoundTrip

namespace TinyDb

open TokenType List

/-! ### Columns in expressions -/

/-- The value in the first column of a name, and `NULL` without one. -/
def namedValue (row : List Value) (names : List (List UInt8)) (name : List UInt8) : Value :=
  match names.findIdx? fun other => other = name with
  | some index => row.getD index .null
  | none => .null

/-- A row with its column names. -/
def rowContext (row : List Value) (names : List (List UInt8)) : RowContext :=
  ⟨some row, names.length, some (names.map some)⟩

theorem evalColumn_unresolved (context : RowContext) (name : List UInt8) :
    evalColumn context (-1) name = .null := by
  unfold evalColumn
  split
  · exact if_pos (.inl (by decide))
  · rfl

/-- The first column is looked at before the name is searched, and stays if there is none. -/
theorem evalColumn_zero (row : List Value) (names : List (List UInt8)) (name : List UInt8)
    (nonempty : names ≠ []) :
    evalColumn (rowContext row names) 0 name =
      row.getD ((names.findIdx? fun other => other = name).getD 0) .null := by
  obtain ⟨first, rest, rfl⟩ := exists_cons_of_ne_nil nonempty
  have inside : ¬((0 : Int) < 0 ∨ (0 : Int) ≥ ((first :: rest).length : Nat)) := by simp
  have all : ((first :: rest).map some).take (((first :: rest).length : Nat) : Int).toNat =
      (first :: rest).map some := by
    exact take_of_length_le (by simp)
  have searched : ((first :: rest).map some).findIdx? (fun other => other = some name) =
      (first :: rest).findIdx? fun other => other = name := by
    rw [findIdx?_map]
    simp only [Function.comp_def, Option.some_inj]
  rw [evalColumn, rowContext]
  simp only [all, searched]
  by_cases isFirst : first = name
  · simp [isFirst, findIdx?_cons]
  · simp [isFirst]

/-- A name without a table gives the value of its column only if that is `NULL`. -/
theorem column_unresolved_iff (machine : Machine) (row : List Value) (names : List (List UInt8))
    (name : List UInt8) :
    exprEval machine (rowContext row names) (.column (-1) name) = .ok (namedValue row names name) ↔
      namedValue row names name = .null := by
  rw [exprEval, Except.ok.injEq]
  exact eq_comm

/-- A name behind a table gives the value of its column, and the first value without one. -/
theorem column_qualified_iff (machine : Machine) {row : List Value} {names : List (List UInt8)}
    (sameLength : names.length = row.length) (name : List UInt8) :
    exprEval machine (rowContext row names) (.column 0 name) = .ok (namedValue row names name) ↔
      name ∈ names ∨ row.getD 0 .null = .null := by
  rw [exprEval, Except.ok.injEq]
  rcases eq_or_ne names [] with rfl | nonempty
  · obtain rfl := length_eq_zero_iff.mp sameLength.symm
    exact iff_of_true rfl (.inr rfl)
  · rw [evalColumn_zero row _ _ nonempty, namedValue]
    cases found : names.findIdx? fun other => other = name with
    | some index =>
      obtain ⟨inside, isName, -⟩ := findIdx?_eq_some_iff_getElem.mp found
      refine iff_of_true rfl (.inl ?_)
      rw [← of_decide_eq_true isName]
      exact getElem_mem _
    | none =>
      have absent : name ∉ names := by
        intro member
        simpa using findIdx?_eq_none_iff.mp found _ member
      exact (or_iff_right absent).symm

/-- The qualified column of `parse_literal`. -/
theorem Parser.At.qualifiedColumn {parser : Parser} {table dot token : Token} {rest : List Token}
    (isTable : table.type = tokenIdentifier) (isDot : dot.type = tokenDot)
    (isName : token.type = tokenIdentifier)
    (stands : parser.At false (table :: dot :: token :: rest)) :
    ∃ after, parser.parseLiteral = some (some (.column 0 (tokenGetText token)), after) := by
  have current : parser.type = tokenIdentifier := stands.type_eq.trans isTable
  have behind : parser.advance.type = tokenDot := stands.advance.type_eq.trans isDot
  have atName := stands.advance.advance
  refine ⟨parser.advance.advance.advance, ?_⟩
  rw [Parser.parseLiteral_eq, Parser.literalBody]
  simp only [current]
  rw [Parser.parseColumn, stands.parseIdentifier isTable]
  simp only [behind]
  rw [atName.parseIdentifier isName]
  rfl

/-- The column that the parser builds for a name evaluates to the first value of that name only if
the value is `NULL` or missing; the one that it builds for a name behind a table does so exactly if
a column has the name, or if the first value is `NULL`. -/
theorem column_reference_iff (machine : Machine) (row : List Value) (names : List (List UInt8))
    (sameLength : names.length = row.length) :
    (∀ (parser : Parser) (token : Token) (rest : List Token), token.type = tokenIdentifier →
      firstType rest ≠ tokenDot → parser.At false (token :: rest) →
      ∃ tree after, parser.parseLiteral = some (some tree, after) ∧
        (exprEval machine (rowContext row names) tree =
            .ok (namedValue row names (tokenGetText token)) ↔
          namedValue row names (tokenGetText token) = .null)) ∧
    (∀ (parser : Parser) (table dot token : Token) (rest : List Token),
      table.type = tokenIdentifier → dot.type = tokenDot → token.type = tokenIdentifier →
      parser.At false (table :: dot :: token :: rest) →
      ∃ tree after, parser.parseLiteral = some (some tree, after) ∧
        (exprEval machine (rowContext row names) tree =
            .ok (namedValue row names (tokenGetText token)) ↔
          tokenGetText token ∈ names ∨ row.getD 0 .null = .null)) := by
  constructor
  · intro parser token rest isName noDot stands
    obtain ⟨after, returned, -⟩ := (ReadTo.column isName).literal rfl parser _ noDot stands
    exact ⟨_, after, returned, column_unresolved_iff _ row _ _⟩
  · intro parser table dot token rest isTable isDot isName stands
    obtain ⟨after, returned⟩ := stands.qualifiedColumn isTable isDot isName
    exact ⟨_, after, returned, column_qualified_iff _ sameLength _⟩

/-- The text `a` is one name. -/
theorem tokensOf_name : ∃ token : Token, tokensOf (ascii "a") = [token] ∧
    token.type = tokenIdentifier ∧ tokenGetText token = ascii "a" := by
  have types : (tokensOf (ascii "a")).map (·.type) = [tokenIdentifier] := by decide +kernel
  have texts : (tokensOf (ascii "a")).map tokenGetText = [ascii "a"] := by decide +kernel
  obtain ⟨token, rest, tokens, isName, noTypes⟩ := map_eq_cons_iff.mp types
  obtain rfl := map_eq_nil_iff.mp noTypes
  rw [tokens] at texts
  exact ⟨token, tokens, isName, singleton_inj.mp texts⟩

/-- The column `a` of a row with `NULL` in it, between two others. -/
theorem column_reference_of_null :
    ∃ parser tree after, parserCreate (ascii "a") = some parser ∧
      parser.parseLiteral = some (some tree, after) ∧
      exprEval default (rowContext [.integer 7, .null, .text (ascii "x")]
        [ascii "b", ascii "a", ascii "c"]) tree = .ok .null := by
  obtain ⟨parser, created⟩ : ∃ parser, parserCreate (ascii "a") = some parser := ⟨_, rfl⟩
  obtain ⟨token, tokens, isName, text⟩ := tokensOf_name
  have stands := parserCreate_at created
  rw [tokens] at stands
  obtain ⟨plain, -⟩ := column_reference_iff _ [.integer 7, .null, .text (ascii "x")]
    [ascii "b", ascii "a", ascii "c"] rfl
  obtain ⟨tree, after, returned, evaluates⟩ := plain _ _ [] isName (by decide) stands
  have isNull : namedValue [.integer 7, .null, .text (ascii "x")] [ascii "b", ascii "a", ascii "c"]
      (tokenGetText token) = .null := by
    rw [text]
    rfl
  rw [isNull] at evaluates
  exact ⟨parser, tree, after, created, returned, evaluates.mpr rfl⟩

/-- The column `a` of a row with the value one in it is `NULL`. -/
theorem column_reference_lost :
    ∃ parser tree after, parserCreate (ascii "a") = some parser ∧
      parser.parseLiteral = some (some tree, after) ∧
      namedValue [.integer 1] [ascii "a"] (ascii "a") = .integer 1 ∧
      exprEval default (rowContext [.integer 1] [ascii "a"]) tree = .ok .null := by
  obtain ⟨parser, created⟩ : ∃ parser, parserCreate (ascii "a") = some parser := ⟨_, rfl⟩
  obtain ⟨token, tokens, isName, -⟩ := tokensOf_name
  have stands := parserCreate_at created
  rw [tokens] at stands
  obtain ⟨after, returned, -⟩ := (ReadTo.column isName).literal rfl parser [] (by decide) stands
  refine ⟨parser, _, after, created, returned, rfl, ?_⟩
  rw [exprEval, evalColumn_unresolved]

/-! ### Columns of a query -/

/-- A column that `select_project_columns` returns. Its name and type are missing where the function
leaves them as they are. -/
structure ProjectedColumn where
  value : Value
  name : Option (Option (List UInt8))
  type : Option ColumnType

/-- The column of a name. -/
def projectColumn (rowData : List Value) (srcColumnNames : List (Option (List UInt8)))
    (col : ColumnItem) : ProjectedColumn :=
  match srcColumnNames.findIdx? fun name => name = some col.name with
  | some srcIdx =>
    { value := rowData.getD srcIdx .null
      name := some (srcColumnNames.getD srcIdx none)
      type := some .text }
  | none => { value := .null, name := none, type := none }

/-- `select_project_columns` on a row with as many values as names. -/
def selectProjectColumns (rowData : List Value) (columns : Option (List ColumnItem))
    (srcColumnNames : List (Option (List UInt8))) : List ProjectedColumn :=
  match columns with
  | none =>
    (rowData.zip srcColumnNames).map fun (value, name) =>
      { value, name := some name, type := some .text }
  | some columns => columns.map (projectColumn rowData srcColumnNames)

/-- The columns of a row, with their names. -/
def ProjectsAll (projected : List ProjectedColumn) (row : List Value)
    (names : List (List UInt8)) : Prop :=
  projected.map (·.value) = row ∧
    projected.map (·.name) = names.map fun name => some (some name)

/-- The list that the parser builds for `*` projects all columns only if there is one, with the name
`*`. -/
theorem star_projects_all_iff (row : List Value) (names : List (List UInt8))
    (sameLength : names.length = row.length) (parser : Parser) (star : Token) (rest : List Token)
    (isStar : star.type = tokenStar) (stands : parser.At false (star :: rest)) :
    ∃ columns after, parser.parseColumnList = some (some columns, after) ∧
      (ProjectsAll (selectProjectColumns row (some columns) (names.map some)) row names ↔
        names = [ascii "*"]) := by
  have atStar : parser.type = tokenStar := stands.type_eq.trans isStar
  refine ⟨[⟨ascii "*", none⟩], parser.advance, ?_, ?_⟩
  · rw [Parser.parseColumnList_eq, if_pos atStar]
  · constructor
    · rintro ⟨values, projectedNames⟩
      obtain ⟨name, rfl⟩ : ∃ name, names = [name] := by
        refine length_eq_one_iff.mp ?_
        rw [sameLength, ← values]
        rfl
      have projected : (projectColumn row [some name] ⟨ascii "*", none⟩).name = some (some name) :=
        singleton_inj.mp projectedNames
      by_cases isName : name = ascii "*"
      · rw [isName]
      · have missing : projectColumn row [some name] ⟨ascii "*", none⟩ = ⟨.null, none, none⟩ := by
          simp [projectColumn, isName]
        rw [missing] at projected
        cases projected
    · rintro rfl
      obtain ⟨value, rfl⟩ := length_eq_one_iff.mp sameLength.symm
      exact ⟨rfl, rfl⟩

/-- The text `*` is one star. -/
theorem tokensOf_star : ∃ token : Token, tokensOf (ascii "*") = [token] ∧
    token.type = tokenStar := by
  have types : (tokensOf (ascii "*")).map (·.type) = [tokenStar] := by decide +kernel
  obtain ⟨token, rest, tokens, isStar, noTypes⟩ := map_eq_cons_iff.mp types
  obtain rfl := map_eq_nil_iff.mp noTypes
  exact ⟨token, tokens, isStar⟩

/-- A table whose only column has the name `*`. -/
theorem star_projects_column_star :
    ∃ parser columns after, parserCreate (ascii "*") = some parser ∧
      parser.parseColumnList = some (some columns, after) ∧
      ProjectsAll (selectProjectColumns [.integer 1] (some columns) [some (ascii "*")])
        [.integer 1] [ascii "*"] := by
  obtain ⟨parser, created⟩ : ∃ parser, parserCreate (ascii "*") = some parser := ⟨_, rfl⟩
  obtain ⟨token, tokens, isStar⟩ := tokensOf_star
  have stands := parserCreate_at created
  rw [tokens] at stands
  obtain ⟨columns, after, returned, all⟩ := star_projects_all_iff [.integer 1] [ascii "*"] rfl
    parser _ [] isStar stands
  exact ⟨parser, columns, after, created, returned, all.mpr rfl⟩

/-- Two columns are projected to one `NULL`. -/
theorem star_projects_null :
    ∃ parser columns after, parserCreate (ascii "*") = some parser ∧
      parser.parseColumnList = some (some columns, after) ∧
      selectProjectColumns [.integer 1, .integer 2] (some columns)
        [some (ascii "a"), some (ascii "b")] = [⟨.null, none, none⟩] := by
  obtain ⟨parser, created⟩ : ∃ parser, parserCreate (ascii "*") = some parser := ⟨_, rfl⟩
  obtain ⟨token, tokens, isStar⟩ := tokensOf_star
  have stands := parserCreate_at created
  rw [tokens] at stands
  have atStar : parser.type = tokenStar := stands.type_eq.trans isStar
  refine ⟨parser, [⟨ascii "*", none⟩], parser.advance, created, ?_, rfl⟩
  rw [Parser.parseColumnList_eq, if_pos atStar]

end TinyDb

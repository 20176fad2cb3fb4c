import SchemaDelta.Dump.Skip
import SchemaDelta.Schema.Basic
import SchemaDelta.Sql.Token

/-!
# Clauses of a table definition

A clause declares a column, an index or a constraint. It is a column if it opens like
`name type` with a name that is not one of the words that open other clauses, or is quoted;
otherwise the key words in it decide, in a fixed order: `PRIMARY KEY`, `UNIQUE KEY`,
`FOREIGN KEY`, `KEY`. Of what a clause says only the name, and the columns of a primary key, are
taken apart.
-/

namespace SchemaDelta.Dump

open SchemaDelta.Sql
open Reader

/-- What a clause declares. -/
inductive Clause where
  | column (column : Column)
  | index (index : Index)
  | constraint (constraint : Constraint)
  deriving DecidableEq

/-- The words that open a clause which is not a column, unless they are quoted. -/
def openingWords : List Text :=
  ["PRIMARY", "UNIQUE", "KEY", "INDEX", "CONSTRAINT", "FOREIGN", "FULLTEXT", "SPATIAL", "CHECK"]

/-- The front of a clause that reads like a column: a name, whether a quotation mark stands
before it, and the text behind the name and its closing mark. -/
structure ColumnHead where
  marked : Bool
  name : Text
  rest : Text
  deriving DecidableEq

/-- Takes the name in front of a clause and refuses unless a blank and a word follow. -/
def columnHead : Reader ColumnHead := do
  let marked ← mark nameMarks
  let name ← word
  let _ ← mark nameMarks
  let rest ← get
  gap
  let _ ← satisfy Text.isWord
  pure ⟨marked, name, rest⟩

/-- The column front of a clause, unless an unquoted word in front opens another kind. -/
def columnHead? (clause : Text) : Option ColumnHead :=
  match columnHead.run clause with
  | none => none
  | some (head, _) =>
    if !head.marked && openingWords.any (Text.sameCaseless · head.name) then none else some head

/-- The words `PRIMARY KEY`. -/
def primaryKeyWords : Reader Unit := do
  keyword "PRIMARY"; gap; keyword "KEY"

/-- The words `FOREIGN KEY`. -/
def foreignKeyWords : Reader Unit := do
  keyword "FOREIGN"; gap; keyword "KEY"

/-- The word `KEY` or the word `INDEX`. -/
def keyWord : Reader Unit := keyword "KEY" <|> keyword "INDEX"

/-- The words `UNIQUE KEY` or `UNIQUE INDEX`. -/
def uniqueKeyWords : Reader Unit := do
  keyword "UNIQUE"; gap; keyWord

/-- The name behind key words. -/
def nameAfter (words : Reader Unit) : Reader Text := do
  words; gap
  let _ ← mark nameMarks
  word

/-- The text between the parentheses of a primary key. -/
def keyColumnList : Reader Text := do
  primaryKeyWords; blanks; char '('
  let list ← many1 (· ≠ ')')
  char ')'
  pure list

/-- Whether the words `FOREIGN KEY` follow before the line ends. -/
def foreignKeyAhead : Text → Bool
  | [] => false
  | c :: rest =>
    (foreignKeyWords.run (c :: rest)).isSome || (c ≠ '\n' && foreignKeyAhead rest)

/-- The longest start of a word behind which the words `FOREIGN KEY` follow before the line
ends. It is the whole word unless these words begin inside it. -/
def nameBeforeForeignKey : Text → Option Text
  | [] => none
  | c :: rest =>
    if Text.isWord c then
      match nameBeforeForeignKey rest with
      | some name => some (c :: name)
      | none => if foreignKeyAhead rest then some [c] else none
    else none

/-- The name of a foreign key: the one behind the word `CONSTRAINT`. -/
def foreignKeyName : Reader Text := do
  keyword "CONSTRAINT"; gap
  let _ ← mark nameMarks
  fun t => (nameBeforeForeignKey t).map fun name => (name, [])

/-- Whether these words stand in a clause, apart from other words. -/
def mentions (clause : Text) (words : Reader Unit) : Bool :=
  hasAtWord (do words; wordEnd) clause

/-- The column that a clause with this front declares. Its definition has the name in name
marks, however the clause wrote it. -/
def ColumnHead.column (head : ColumnHead) (clause : Text) : Column :=
  ⟨head.name, quoteName head.name ++ head.rest, mentions clause primaryKeyWords⟩

/-- The names in the list of a primary key. -/
def keyColumns (list : Text) : List Text := (Text.pieces (· == ',') list).map bareName

/-- What a clause without a column front declares. -/
def Clause.ofKey (clause : Text) : Except SkipReason Clause :=
  let found (name : Option Text) (subject : Subject) (declare : Text → Clause) :
      Except SkipReason Clause :=
    match name with
    | some name => .ok (declare name)
    | none => .error (.missingName subject)
  if mentions clause primaryKeyWords then
    match first keyColumnList clause with
    | some list => .ok (.constraint (.primaryKey (keyColumns list) clause))
    | none => .error .missingKeyColumns
  else if mentions clause uniqueKeyWords then
    found (first (nameAfter uniqueKeyWords) clause) .uniqueKey
      fun name => .constraint (.named name .uniqueKey clause)
  else if mentions clause foreignKeyWords then
    found (first foreignKeyName clause) .foreignKey
      fun name => .constraint (.named name .foreignKey clause)
  else if mentions clause keyWord then
    found (firstAtWord (nameAfter keyWord) false clause) .index
      fun name => .index ⟨name, clause⟩
  else .error .unrecognizedClause

/-- What a clause declares, or why it is left out. -/
def Clause.ofText (clause : Text) : Except SkipReason Clause :=
  match columnHead? clause with
  | some head => .ok (.column (head.column clause))
  | none => Clause.ofKey clause

/-- The table with what a clause declares. -/
def Clause.addTo (table : Table) : Clause → Table
  | .column c => table.addColumn c
  | .index i => table.addIndex i
  | .constraint c => table.addConstraint c

end SchemaDelta.Dump

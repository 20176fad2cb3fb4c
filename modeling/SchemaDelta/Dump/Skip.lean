import SchemaDelta.Text.Basic

/-!
# What a dump loses

A statement or clause that cannot be read is left out of the schema and reported, never an
error. This module names the reasons and says what is reported.
-/

namespace SchemaDelta.Dump

/-- What a name was looked for. -/
inductive Subject where
  | view
  | uniqueKey
  | foreignKey
  | index
  deriving DecidableEq

/-- The words for the subject of a missing name. -/
def Subject.label : Subject → Text
  | .view => "view"
  | .uniqueKey => "unique key"
  | .foreignKey => "foreign key"
  | .index => "index"

/-- Why a statement or clause is left out. -/
inductive SkipReason where
  /-- The statement is of no known kind. -/
  | unclassified
  /-- A statement or clause of a known kind gives no name. -/
  | missingName (subject : Subject)
  /-- A table definition has no body. -/
  | missingBody
  /-- A primary key has no list of columns. -/
  | missingKeyColumns
  /-- A clause is of no known kind. -/
  | unrecognizedClause
  deriving DecidableEq

/-- The reason in words. -/
def SkipReason.message : SkipReason → Text
  | .unclassified => "statement does not match any known DDL form"
  | .missingName subject => "could not find the " ++ subject.label ++ " name"
  | .missingBody => "could not find the table body"
  | .missingKeyColumns => "could not find the primary key column list"
  | .unrecognizedClause => "table clause is not a column, key or constraint"

/-- What is reported of a statement or clause that is left out: the table it belongs to if it is
a clause, the start of its text, and why. -/
structure Skipped where
  table : Option Text
  fragment : Text
  reason : SkipReason
  deriving DecidableEq

end SchemaDelta.Dump

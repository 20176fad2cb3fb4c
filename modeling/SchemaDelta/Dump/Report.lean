import SchemaDelta.Dump.Entry
import SchemaDelta.Dump.Statements

/-!
# Reports

What reading a dump gives: the schema, how many statements there were, and what was left out.
-/

namespace SchemaDelta.Dump

open SchemaDelta.Sql

/-- The result of reading a dump. -/
structure Report where
  schema : Schema
  /-- How many statements the dump has. -/
  statements : Nat
  /-- What was left out, in order. -/
  skipped : List Skipped
  deriving DecidableEq

/-- The schema that statements build from nothing. -/
def schemaOfStatements (statements : List Text) : Schema :=
  (statements.filterMap fun statement => (Entry.ofStatement statement).toOption).foldl
    Entry.record ∅

/-- The report on a list of statements. -/
def Report.ofStatements (statements : List Text) : Report :=
  ⟨schemaOfStatements statements, statements.length, statements.flatMap skippedIn⟩

/-- The report on a dump. -/
def Report.ofText (text : Text) : Report := Report.ofStatements (Dump.statements text)

/-- The schema of a dump. -/
def schemaOfText (text : Text) : Schema := (Report.ofText text).schema

end SchemaDelta.Dump

import SchemaDelta.Dump.Clause
import SchemaDelta.Sql.Body
import SchemaDelta.Sql.Header

/-!
# Entries

Each statement of a dump is read on its own into an entry, and the entries are recorded in a
schema one after another. A table definition replaces what was known of the table; a table
change is kept with the table; of a view the last definition and the last drop are kept.
-/

namespace SchemaDelta.Dump

open SchemaDelta.Sql

/-- What a statement has to record. -/
inductive Entry where
  /-- A view and the statement that creates it. -/
  | view (name definition : Text)
  /-- A view and the statement that drops it. -/
  | viewDrop (name statement : Text)
  /-- A table as its definition gives it, with the clauses that were left out. -/
  | table (table : Table) (skipped : List Skipped)
  /-- A table and the statement that alters it. -/
  | alter (table statement : Text)
  deriving DecidableEq

/-- The table that the clauses of a body declare. -/
def tableOfClauses (name statement : Text) (clauses : List Text) : Table :=
  (clauses.filterMap fun clause => (Clause.ofText clause).toOption).foldl Clause.addTo
    { Table.shell name with definition := some statement }

/-- The clause of a table, if it is left out. -/
def skippedClause? (table clause : Text) : Option Skipped :=
  match Clause.ofText clause with
  | .ok _ => none
  | .error reason => some ⟨some table, Text.preview clause, reason⟩

/-- What a statement has to record, or why it is left out. -/
def Entry.ofStatement (statement : Text) : Except SkipReason Entry :=
  match Header.ofStatement? statement with
  | none => .error .unclassified
  | some (.createView name) => .ok (.view name (Text.trim statement))
  | some (.dropView none) => .error (.missingName .view)
  | some (.dropView (some name)) => .ok (.viewDrop name (Text.trim statement))
  | some (.createTable name) =>
    match tableBody statement with
    | none => .error .missingBody
    | some body =>
      .ok (.table (tableOfClauses name statement (clauses body))
        ((clauses body).filterMap (skippedClause? name)))
  | some (.alterTable name) => .ok (.alter name statement)

/-- The schema with an entry recorded. -/
def Entry.record (schema : Schema) : Entry → Schema
  | .view name definition =>
    schema.modifyView name fun view => { view with definition := some definition }
  | .viewDrop name statement =>
    schema.modifyView name fun view => { view with dropStatement := some statement }
  | .table defined _ => schema.addTable defined
  | .alter name statement => schema.modifyTable name (·.addAlter statement)

/-- What is left out of a statement: the statement, or clauses of it. -/
def skippedIn (statement : Text) : List Skipped :=
  match Entry.ofStatement statement with
  | .error reason => [⟨none, Text.preview statement, reason⟩]
  | .ok (.table _ skipped) => skipped
  | .ok _ => []

end SchemaDelta.Dump

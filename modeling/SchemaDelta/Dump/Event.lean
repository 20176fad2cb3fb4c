import SchemaDelta.Dump.Report

/-!
# Events

What there is to say while a dump is read: first what the walk over the fragments meets, then
what each statement turns out to be, and last the counts.
-/

namespace SchemaDelta.Dump

open SchemaDelta.Sql

/-- Something to say about the reading of a dump. -/
inductive Event where
  | fragmentIgnored (fragment : Text)
  | tableUnterminated (table : OpenTable)
  | statementClassified (kind : StatementKind) (statement : Text)
  | clauseSkipped (table fragment : Text) (reason : SkipReason)
  | tableRead (table : Table)
  | statementSkipped (statement : Text) (reason : SkipReason)
  | schemaRead (report : Report)
  deriving DecidableEq

/-- What the walk over the fragments has to say. Of statements it says nothing. -/
def Outcome.event? : Outcome → Option Event
  | .statement _ => none
  | .ignored fragment => some (.fragmentIgnored fragment)
  | .unterminated table => some (.tableUnterminated table)

/-- What is to say of a clause that is left out. -/
def Skipped.clauseEvent? (skipped : Skipped) : Option Event :=
  skipped.table.map fun table => .clauseSkipped table skipped.fragment skipped.reason

/-- What is to say of a statement: its kind, then what is left out of it, then the table it
defines. -/
def statementEvents (statement : Text) : List Event :=
  ((StatementKind.ofStatement? statement).map (Event.statementClassified · statement)).toList ++
    match Entry.ofStatement statement with
    | .error reason => [.statementSkipped statement reason]
    | .ok (.table table skipped) => skipped.filterMap Skipped.clauseEvent? ++ [.tableRead table]
    | .ok _ => []

/-- Everything to say about the reading of a dump, in order. -/
def events (text : Text) : List Event :=
  (outcomes text).filterMap Outcome.event? ++ (statements text).flatMap statementEvents ++
    [.schemaRead (Report.ofText text)]

end SchemaDelta.Dump

import SchemaDelta.Dump.Event
import SchemaDelta.Log.Record

/-!
# Events as log records

The log record of each event. Statements and fragments are quoted by their previews.
-/

namespace SchemaDelta.Dump

open SchemaDelta.Sql
open SchemaDelta.Log

/-- The name of a kind of statement in log records. -/
def kindName : StatementKind → Text
  | .createView => "CreateView"
  | .dropView => "DropView"
  | .createTable => "CreateTable"
  | .alterTable => "AlterTable"

/-- The part of the program that cuts a dump into statements. -/
def cuttingTarget : Text := "schema_diff::schema::segmenter"

/-- The part of the program that reads statements. -/
def readingTarget : Text := "schema_diff::schema::extractor"

/-- A number of things as the value of a field. -/
def count (n : Nat) : FieldValue := .number n

/-- The start of a text as the value of a field. -/
def quoted (t : Text) : FieldValue := .text (Text.preview t)

/-- The log record of an event. -/
def Event.record : Event → Record
  | .fragmentIgnored fragment =>
    ⟨.trace, cuttingTarget, "Ignoring unrecognized fragment", [("fragment", quoted fragment)]⟩
  | .tableUnterminated table =>
    ⟨.warn, cuttingTarget, "Unterminated CREATE TABLE discarded",
      [("statement", quoted table.statement), ("balance", .number table.balance)]⟩
  | .statementClassified kind statement =>
    ⟨.trace, readingTarget, "Classified statement",
      [("kind", .text (kindName kind)), ("statement", quoted statement)]⟩
  | .clauseSkipped table fragment reason =>
    ⟨.warn, readingTarget, "Skipping table clause",
      [("table", .text table), ("clause", quoted fragment), ("reason", .text reason.message)]⟩
  | .tableRead table =>
    ⟨.trace, readingTarget, "Parsed table",
      [("table", .text table.name), ("columns", count table.columns.size),
        ("indexes", count table.indexes.size), ("constraints", count table.constraints.size)]⟩
  | .statementSkipped statement reason =>
    ⟨.warn, readingTarget, "Skipping statement",
      [("statement", quoted statement), ("reason", .text reason.message)]⟩
  | .schemaRead report =>
    ⟨.debug, readingTarget, "Extracted schema",
      [("statements", count report.statements), ("tables", count report.schema.tables.size),
        ("views", count report.schema.views.size), ("skipped", count report.skipped.length)]⟩

/-- The log records of the reading of a dump. -/
def records (text : Text) : List Record := (events text).map Event.record

end SchemaDelta.Dump

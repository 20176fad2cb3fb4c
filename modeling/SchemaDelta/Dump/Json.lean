import SchemaDelta.Dump.Report
import SchemaDelta.Schema.Json

/-!
# Reports as JSON

A report as a JSON value. A reason is a word, or an object with one key where it has more to
say.
-/

namespace SchemaDelta.Dump

open SchemaDelta.Json

/-- A reason as a word or as an object with one key. -/
def SkipReason.toJson : SkipReason → Value
  | .unclassified => .string "Unclassified"
  | .missingName subject => .object [("MissingName", .string subject.label)]
  | .missingBody => .string "MissingBody"
  | .missingKeyColumns => .string "MissingKeyColumns"
  | .unrecognizedClause => .string "UnrecognizedClause"

/-- What was left out, as a record. -/
def Skipped.toJson (skipped : Skipped) : Value :=
  .object [("table", .ofText? skipped.table), ("fragment", .string skipped.fragment),
    ("reason", skipped.reason.toJson)]

/-- A report as a record. -/
def Report.toJson (report : Report) : Value :=
  .object [("schema", report.schema.toJson), ("statements", .ofNat report.statements),
    ("skipped", .array (report.skipped.map Skipped.toJson))]

end SchemaDelta.Dump

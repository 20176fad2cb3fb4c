import SchemaDelta.Change.Delta
import SchemaDelta.Dump.Report
import SchemaDelta.Script.Line

/-!
# Scripts

The script of a delta has a header, four stages and a summary. Every stage is always there, and
one with nothing in it says so, so that all scripts have the same shape. Whatever a script only
suggests stands in a comment.
-/

namespace SchemaDelta

open Sql

namespace Script

/-- The line above and below a title. -/
def divider : Line := .comment (List.replicate 40 '=')

/-- The title of a stage with the lines around it. -/
def title (words : Text) : List Line := [divider, .comment words, divider]

/-- The lines at the top of every script. -/
def header : List Line :=
  [.comment "Migration script generated automatically",
    .comment "WARNING: Review this script before running it in production",
    .comment "Run each command carefully and take a backup first!",
    .comment "Running it in a test environment first is recommended",
    .blank]

/-- A stage: its title, then its lines, or a note that it has none. -/
def stage (words nothing : Text) (lines : List Line) : List Line :=
  title words ++ .blank :: if lines.isEmpty then [.comment nothing, .blank] else lines

/-- The lines that create a table. A table without a definition of its own is built by the
statements that alter it. -/
def newTable (table : Table) : List Line :=
  match table.definition with
  | some sql =>
    [.comment ("Creating table '" ++ table.name ++ "' which does not exist in current"),
      .statement sql, .blank]
  | none =>
    .comment ("Table '" ++ table.name ++
      "' has no CREATE TABLE in target; replaying its ALTER statements") ::
      table.alters.map .statement ++ [.blank]

/-- The lines that suggest to drop a table. -/
def droppableTable (name : Text) : List Line :=
  [.comment ("WARNING: Table '" ++ name ++ "' exists in current but not in target"),
    .comment "Uncomment the line below only if you are sure:",
    .comment ("DROP TABLE IF EXISTS " ++ quoteName name ++ ";"),
    .blank]

/-- The numbers of columns, indexes and constraints of a table. -/
def sizes (table : Table) : Text :=
  Text.ofNat table.columns.size ++ " columns, " ++ Text.ofNat table.indexes.size ++
    " indexes, " ++ Text.ofNat table.constraints.size ++ " constraints"

/-- The lines that change a table. -/
def tableChange (change : TableChange) : List Line :=
  [.comment ("Changes to table '" ++ change.name ++ "'"),
    .comment ("Current: " ++ sizes change.current),
    .comment ("Target: " ++ sizes change.target)] ++
    (if change.columns.isEmpty then []
      else [.comment ("Current columns: " ++ Text.join ", " change.current.columns.keys),
        .comment ("Target columns: " ++ Text.join ", " change.target.columns.keys)]) ++
    .blank :: change.ordered.map (Edit.line change.name) ++
    change.replayed.flatMap (fun sql => [.comment "ALTER found in target:", .statement sql]) ++
    [.blank]

/-- The lines that announce what happens to a view. -/
def viewNotes : ViewChange → List Line
  | .create name _ =>
    [.comment ("Creating view '" ++ name ++ "' which does not exist in current")]
  | .remove name =>
    [.comment ("WARNING: View '" ++ name ++ "' exists in current but not in target"),
      .comment "Removing view that no longer exists in target:"]
  | .replace name _ => [.comment ("Updating view '" ++ name ++ "' which was modified")]

/-- The lines that change a view. -/
def viewChange (change : ViewChange) : List Line :=
  viewNotes change ++ change.statements ++ [.blank]

/-- The lines that change all views, with the numbers of views in front, or none. -/
def viewChanges (delta : Delta) : List Line :=
  if delta.viewChanges.isEmpty then []
  else
    [.comment "View changes:",
      .comment ("Current: " ++ Text.ofNat delta.current.views.size ++ " views"),
      .comment ("Target: " ++ Text.ofNat delta.target.views.size ++ " views"),
      .blank] ++ delta.viewChanges.flatMap viewChange

/-- The last line of a script of schemas that do not differ. -/
def synchronizedLine : Line := .comment "The schemas are synchronized!"

/-- The last line of a script that has something to run. -/
def reviewLine : Line := .comment "REMEMBER: Test this script in a development environment first!"

/-- The lines of the summary. -/
def summary (summary : Summary) : List Line :=
  title "SCRIPT SUMMARY" ++
    [.comment ("Tables to create: " ++ Text.ofNat summary.newTables),
      .comment ("Tables to remove: " ++ Text.ofNat summary.droppedTables),
      .comment ("Tables to modify: " ++ Text.ofNat summary.modifiedTables),
      .comment ("Views to create: " ++ Text.ofNat summary.newViews),
      .comment ("Views to remove: " ++ Text.ofNat summary.droppedViews),
      .comment ("Views to modify: " ++ Text.ofNat summary.modifiedViews),
      .blank,
      if summary.isSynchronized then synchronizedLine else reviewLine]

/-- The lines of the script of a delta. -/
def lines (delta : Delta) : List Line :=
  header ++
    stage "STAGE 1: NEW TABLES" "No new tables found" (delta.created.flatMap newTable) ++
    stage "STAGE 2: TABLES THAT CAN BE REMOVED" "No tables to remove found"
      (delta.dropped.flatMap droppableTable) ++
    stage "STAGE 3: CHANGES TO EXISTING TABLES" "No changes to existing tables found"
      (delta.altered.flatMap tableChange) ++
    stage "STAGE 4: VIEW MANAGEMENT" "No view changes found" (viewChanges delta) ++
    summary delta.summary

/-- The script of a delta: its lines with line feeds between them. -/
def ofDelta (delta : Delta) : Text := Text.join "\n" ((lines delta).map Line.text)

/-- The script that takes the schema of one dump to the schema of another. -/
def ofTexts (current target : Text) : Text :=
  ofDelta ⟨Dump.schemaOfText current, Dump.schemaOfText target⟩

end Script

end SchemaDelta

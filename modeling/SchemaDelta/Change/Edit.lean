import SchemaDelta.OrderedMap.Compare
import SchemaDelta.Schema.Basic
import SchemaDelta.Script.Line
import SchemaDelta.Text.Caseless

/-!
# Edits of a table

An edit is one step that takes a table from its current form towards its target form. The edits
of columns, indexes and constraints are computed apart, each in the same order: what only the
target has is added, what only the current form has is dropped, and then what both have but
differs is changed. A column is never dropped, its drop is only suggested in a comment; an index
or constraint is changed by dropping it and adding it again.
-/

namespace SchemaDelta

open Sql

/-- One step towards the target form of a table. -/
inductive Edit where
  | addColumn (name type : Text)
  | suggestDropColumn (name : Text)
  | modifyColumn (name type : Text)
  /-- Adds the index of this key by its definition. -/
  | addIndex (key definition : Text)
  | dropIndex (key : Text)
  | addConstraint (constraint : Constraint)
  | dropConstraint (constraint : Constraint)
  deriving DecidableEq

namespace Edit

/-- The sort of thing an edit does. -/
inductive Action where
  | add
  | drop
  | modify
  /-- A drop that is written as a comment only. -/
  | suggest
  deriving DecidableEq

/-- What an edit does. -/
def action : Edit → Action
  | .addColumn .. => .add
  | .suggestDropColumn .. => .suggest
  | .modifyColumn .. => .modify
  | .addIndex .. => .add
  | .dropIndex .. => .drop
  | .addConstraint .. => .add
  | .dropConstraint .. => .drop

end Edit

/-- Whether a definition opens with the word `CONSTRAINT`, and so names itself. -/
def opensWithConstraint (definition : Text) : Bool :=
  Text.sameCaseless (definition.take 10) "CONSTRAINT"

/-- A constraint as it stands behind the word `ADD`. A primary key is written from its columns,
any other constraint as the dump wrote it, with a name if it has none. -/
def Constraint.clause (constraint : Constraint) : Text :=
  match constraint.kind with
  | .primaryKey =>
    "PRIMARY KEY (" ++ Text.join ", " (constraint.columns.map quoteName) ++ ")"
  | .uniqueKey => constraint.definition
  | .foreignKey =>
    if opensWithConstraint constraint.definition then constraint.definition
    else "CONSTRAINT " ++ quoteName constraint.name ++ " " ++ constraint.definition

/-- A constraint as it stands behind the word `DROP`. -/
def Constraint.handle (constraint : Constraint) : Text :=
  match constraint.kind with
  | .primaryKey => "PRIMARY KEY"
  | .uniqueKey => "INDEX " ++ quoteName constraint.name
  | .foreignKey => "FOREIGN KEY " ++ quoteName constraint.name

/-- The line that a script has for an edit of a table. -/
def Edit.line (table : Text) (edit : Edit) : Line :=
  let alter : Text := "ALTER TABLE " ++ quoteName table
  match edit with
  | .addColumn name type => .statement (alter ++ " ADD COLUMN " ++ quoteName name ++ " " ++ type)
  | .suggestDropColumn name =>
    .comment (alter ++ " DROP COLUMN " ++ quoteName name ++ "; -- WARNING: may cause data loss")
  | .modifyColumn name type =>
    .statement (alter ++ " MODIFY COLUMN " ++ quoteName name ++ " " ++ type)
  | .addIndex _ definition => .statement (alter ++ " ADD " ++ definition)
  | .dropIndex key => .statement (alter ++ " DROP INDEX " ++ quoteName key)
  | .addConstraint constraint => .statement (alter ++ " ADD " ++ constraint.clause)
  | .dropConstraint constraint => .statement (alter ++ " DROP " ++ constraint.handle)

/-- The edits that take the columns of one form of a table to those of another. -/
def columnEdits (current target : OrderedMap Column) : List Edit :=
  (OrderedMap.added current target).map (fun entry => .addColumn entry.1 entry.2.typeDefinition) ++
    (OrderedMap.removed current target).map (fun entry => .suggestDropColumn entry.1) ++
    (OrderedMap.changed (fun old new => old.definition ≠ new.definition) current target).map
      fun change => .modifyColumn change.1 change.2.2.typeDefinition

/-- The edits that take the indexes of one form of a table to those of another. -/
def indexEdits (current target : OrderedMap Index) : List Edit :=
  (OrderedMap.added current target).map (fun entry => .addIndex entry.1 entry.2.definition) ++
    (OrderedMap.removed current target).map (fun entry => .dropIndex entry.1) ++
    (OrderedMap.changed (fun old new => old.definition ≠ new.definition) current target).flatMap
      fun change => [.dropIndex change.1, .addIndex change.1 change.2.2.definition]

/-- The edits that take the constraints of one form of a table to those of another. -/
def constraintEdits (current target : OrderedMap Constraint) : List Edit :=
  (OrderedMap.added current target).map (fun entry => .addConstraint entry.2) ++
    (OrderedMap.removed current target).map (fun entry => .dropConstraint entry.2) ++
    (OrderedMap.changed (fun old new => old.definition ≠ new.definition) current target).flatMap
      fun change => [.dropConstraint change.2.1, .addConstraint change.2.2]

end SchemaDelta

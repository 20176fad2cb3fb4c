import SchemaDelta.Change.Edit

/-!
# Changes of a table

A table that both schemas have, with all the edits that take its current form to its target
form. The edits are put in the order in which they can be run: constraints go first and come
back last, so that the columns and indexes between are free to change.
-/

namespace SchemaDelta

/-- A table in two forms. -/
structure TableChange where
  name : Text
  current : Table
  target : Table
  deriving DecidableEq

namespace TableChange

/-- The edits of the columns. -/
def columns (change : TableChange) : List Edit :=
  columnEdits change.current.columns change.target.columns

/-- The edits of the indexes. -/
def indexes (change : TableChange) : List Edit :=
  indexEdits change.current.indexes change.target.indexes

/-- The edits of the constraints. -/
def constraints (change : TableChange) : List Edit :=
  constraintEdits change.current.constraints change.target.constraints

/-- The edits in the order in which they are run. -/
def ordered (change : TableChange) : List Edit :=
  change.constraints.filter (·.action = .drop) ++ change.columns ++ change.indexes ++
    change.constraints.filter (·.action = .add)

/-- The statements of the target that alter the table. They are run as they are. -/
def replayed (change : TableChange) : List Text := change.target.alters

/-- Whether there is anything to run or to suggest. -/
def hasChanges (change : TableChange) : Bool :=
  !change.columns.isEmpty || !change.indexes.isEmpty || !change.constraints.isEmpty ||
    !change.replayed.isEmpty

end TableChange

end SchemaDelta

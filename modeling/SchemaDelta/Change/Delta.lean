import SchemaDelta.Change.Table
import SchemaDelta.Change.View

/-!
# The delta of two schemas

A delta is a current schema with a target schema. What it takes to get from one to the other is
computed from the two: the tables to create, the tables that could be dropped, the tables to
alter and the changes of the views, with a summary that counts them.
-/

namespace SchemaDelta

/-- A current schema and the schema it is to become. -/
structure Delta where
  current : Schema
  target : Schema
  deriving DecidableEq

/-- How many tables and views are new, gone and different. -/
structure Summary where
  newTables : Nat
  droppedTables : Nat
  modifiedTables : Nat
  newViews : Nat
  droppedViews : Nat
  modifiedViews : Nat
  deriving DecidableEq

/-- The summary of a delta without any difference. -/
def Summary.zero : Summary := ⟨0, 0, 0, 0, 0, 0⟩

/-- Whether no table and no view differs. -/
def Summary.isSynchronized (summary : Summary) : Bool := summary = .zero

namespace Delta

/-- The tables to create: those of the target whose own name is no key of the current schema. -/
def created (delta : Delta) : List Table :=
  delta.target.tables.values.filter fun table => !delta.current.tables.contains table.name

/-- The tables that could be dropped, by their keys. -/
def dropped (delta : Delta) : List Text :=
  delta.current.tables.keys.filter fun key => !delta.target.tables.contains key

/-- The tables of both schemas, in the order of the target. -/
def common (delta : Delta) : List TableChange :=
  delta.target.tables.entries.filterMap fun entry =>
    (delta.current.tables.get? entry.1).map fun table => ⟨entry.1, table, entry.2⟩

/-- The tables to alter: those of both schemas that have changes. -/
def altered (delta : Delta) : List TableChange := delta.common.filter TableChange.hasChanges

/-- What happens to the views. -/
def viewChanges (delta : Delta) : List ViewChange :=
  SchemaDelta.viewChanges delta.current.views delta.target.views

/-- The counts of a delta. Views are counted by their keys and definitions, also where there is
no statement to run. -/
def summary (delta : Delta) : Summary where
  newTables := delta.created.length
  droppedTables := delta.dropped.length
  modifiedTables := delta.altered.length
  newViews := (OrderedMap.added delta.current.views delta.target.views).length
  droppedViews := (OrderedMap.removed delta.current.views delta.target.views).length
  modifiedViews :=
    (OrderedMap.changed View.differs delta.current.views delta.target.views).length

/-- Whether the two schemas need nothing done. -/
def isEmpty (delta : Delta) : Bool := delta.summary.isSynchronized

end Delta

end SchemaDelta

import SchemaDelta.OrderedMap.Basic
import SchemaDelta.Sql.Name

/-!
# Schemas

What a dump says about a database: its tables with their columns, indexes and constraints, and
its views. All but the names is kept as the text of the dump, so that what a script does not
touch stays as it was written. Maps keep the order of the dump.
-/

namespace SchemaDelta

/-- A column. Its definition is its clause with the name in name marks in front. -/
structure Column where
  name : Text
  definition : Text
  isPrimaryKey : Bool
  deriving DecidableEq

/-- The definition without the name in front. -/
def Column.typeDefinition (column : Column) : Text :=
  Text.trim (((Sql.quoteName column.name).isPrefixOf? column.definition).getD column.definition)

/-- An index that is neither a key constraint nor unique. -/
structure Index where
  name : Text
  definition : Text
  deriving DecidableEq

/-- The kinds of constraint. -/
inductive ConstraintKind where
  | primaryKey
  | uniqueKey
  | foreignKey
  deriving DecidableEq

/-- The words that name a kind of constraint. -/
def ConstraintKind.label : ConstraintKind → Text
  | .primaryKey => "PRIMARY KEY"
  | .uniqueKey => "UNIQUE KEY"
  | .foreignKey => "FOREIGN KEY"

/-- The kind that these words name. -/
def ConstraintKind.ofLabel? (label : Text) : Option ConstraintKind :=
  [.primaryKey, .uniqueKey, .foreignKey].find? fun kind => kind.label = label

/-- A constraint. Only a primary key lists its columns. -/
structure Constraint where
  name : Text
  kind : ConstraintKind
  columns : List Text
  definition : Text
  deriving DecidableEq

/-- The name under which the primary key of a table is kept. -/
def Constraint.primaryName : Text := "PRIMARY"

/-- The primary key over these columns. -/
def Constraint.primaryKey (columns : List Text) (definition : Text) : Constraint :=
  ⟨primaryName, .primaryKey, columns, definition⟩

/-- A constraint with a name of its own and no list of columns. -/
def Constraint.named (name : Text) (kind : ConstraintKind) (definition : Text) : Constraint :=
  ⟨name, kind, [], definition⟩

/-- A table. A table that only `ALTER TABLE` statements speak of has no statement of its own. -/
structure Table where
  name : Text
  columns : OrderedMap Column
  indexes : OrderedMap Index
  constraints : OrderedMap Constraint
  /-- The statement that creates the table. -/
  definition : Option Text
  /-- The statements that alter it, in order. -/
  alters : List Text
  deriving DecidableEq

namespace Table

/-- The table of which only the name is known. -/
def shell (name : Text) : Table := ⟨name, ∅, ∅, ∅, none, []⟩

/-- The table with a column under its name. -/
def addColumn (table : Table) (column : Column) : Table :=
  { table with columns := table.columns.insert column.name column }

/-- The table with an index under its name. -/
def addIndex (table : Table) (index : Index) : Table :=
  { table with indexes := table.indexes.insert index.name index }

/-- The table with a constraint under its name. -/
def addConstraint (table : Table) (constraint : Constraint) : Table :=
  { table with constraints := table.constraints.insert constraint.name constraint }

/-- The table with one more statement that alters it. -/
def addAlter (table : Table) (statement : Text) : Table :=
  { table with alters := table.alters ++ [statement] }

/-- Whether two tables agree in everything but the order of their maps. -/
def same (a b : Table) : Bool :=
  a.name == b.name && a.columns.sameEntries (· == ·) b.columns &&
    a.indexes.sameEntries (· == ·) b.indexes &&
    a.constraints.sameEntries (· == ·) b.constraints &&
    a.definition == b.definition && a.alters == b.alters

end Table

/-- A view. Either statement may be missing from the dump. -/
structure View where
  name : Text
  /-- The statement that creates the view. -/
  definition : Option Text
  /-- The statement that drops the view. -/
  dropStatement : Option Text
  deriving DecidableEq

/-- The view of which only the name is known. -/
def View.shell (name : Text) : View := ⟨name, none, none⟩

/-- The definition with single spaces for its runs of blanks, empty if there is none. -/
def View.normalizedDefinition (view : View) : Text :=
  (view.definition.map Text.normalizeBlanks).getD []

/-- The tables and views of a database, each under its name. -/
structure Schema where
  tables : OrderedMap Table
  views : OrderedMap View
  deriving DecidableEq

namespace Schema

/-- The schema without tables and views. -/
def empty : Schema := ⟨∅, ∅⟩

instance : EmptyCollection Schema := ⟨empty⟩

/-- The schema with a table under its name, in place of any other of that name. -/
def addTable (schema : Schema) (table : Table) : Schema :=
  { schema with tables := schema.tables.insert table.name table }

/-- The schema with a table changed, which is a mere shell if the schema does not have it. -/
def modifyTable (schema : Schema) (name : Text) (change : Table → Table) : Schema :=
  { schema with
    tables := schema.tables.alter name fun table => change (table.getD (.shell name)) }

/-- The schema with a view changed, which is a mere shell if the schema does not have it. -/
def modifyView (schema : Schema) (name : Text) (change : View → View) : Schema :=
  { schema with views := schema.views.alter name fun view => change (view.getD (.shell name)) }

/-- The table under a key, or a shell of that name. -/
def tableOrShell (schema : Schema) (name : Text) : Table :=
  (schema.tables.get? name).getD (.shell name)

/-- The view under a key, or a shell of that name. -/
def viewOrShell (schema : Schema) (name : Text) : View :=
  (schema.views.get? name).getD (.shell name)

/-- Whether two schemas agree in everything but the order of their maps. -/
def same (a b : Schema) : Bool :=
  a.tables.sameEntries Table.same b.tables && a.views.sameEntries (· == ·) b.views

end Schema

end SchemaDelta

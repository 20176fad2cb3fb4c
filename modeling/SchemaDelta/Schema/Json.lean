import SchemaDelta.Json.Printer
import SchemaDelta.Json.Reader
import SchemaDelta.Schema.Basic

/-!
# Schemas as JSON

Each part of a schema as a JSON value and back. Maps become objects in the order of the map, and
an object becomes a map in the order of its keys, of which the last of several equal ones wins.
A record may leave out a field that may be null. `Schema.ofJson?` takes back what
`Schema.toJson` gives, and `Schema.read?` what `Schema.print` writes in either layout.
-/

namespace SchemaDelta

open Json

/-- A map as an object. -/
def OrderedMap.toJson {α : Type} (content : α → Value) (m : OrderedMap α) : Value :=
  .object (m.entries.map fun entry => (entry.1, content entry.2))

/-- The map that an object stands for. -/
def OrderedMap.ofJson? {α : Type} (content : Value → Option α) : Value → Option (OrderedMap α)
  | .object members =>
    (members.mapM fun member => (content member.2).map (member.1, ·)).map OrderedMap.ofList
  | _ => none

/-- The names of the fields of a column. -/
def Column.fieldNames : List Text := ["name", "definition", "is_primary_key"]

/-- A column as a record. -/
def Column.toJson (column : Column) : Value :=
  .object (fieldNames.zip
    [.string column.name, .string column.definition, .bool column.isPrimaryKey])

/-- The column that a record stands for. -/
def Column.ofJson? (value : Value) : Option Column := do
  match ← value.fields? fieldNames with
  | [some name, some definition, some isPrimaryKey] =>
    pure ⟨← name.text?, ← definition.text?, ← isPrimaryKey.bool?⟩
  | _ => none

/-- The names of the fields of an index. -/
def Index.fieldNames : List Text := ["name", "definition"]

/-- An index as a record. -/
def Index.toJson (index : Index) : Value :=
  .object (fieldNames.zip [.string index.name, .string index.definition])

/-- The index that a record stands for. -/
def Index.ofJson? (value : Value) : Option Index := do
  match ← value.fields? fieldNames with
  | [some name, some definition] => pure ⟨← name.text?, ← definition.text?⟩
  | _ => none

/-- The kind of constraint that a word stands for. -/
def ConstraintKind.ofJson? (value : Value) : Option ConstraintKind := do
  ConstraintKind.ofLabel? (← value.word?)

/-- The names of the fields of a constraint. -/
def Constraint.fieldNames : List Text := ["name", "kind", "columns", "definition"]

/-- A constraint as a record. -/
def Constraint.toJson (constraint : Constraint) : Value :=
  .object (fieldNames.zip
    [.string constraint.name, .string constraint.kind.label, .ofTexts constraint.columns,
      .string constraint.definition])

/-- The constraint that a record stands for. -/
def Constraint.ofJson? (value : Value) : Option Constraint := do
  match ← value.fields? fieldNames with
  | [some name, some kind, some columns, some definition] =>
    pure ⟨← name.text?, ← ConstraintKind.ofJson? kind, ← columns.list? Value.text?,
      ← definition.text?⟩
  | _ => none

/-- The names of the fields of a table. -/
def Table.fieldNames : List Text :=
  ["name", "columns", "indexes", "constraints", "original_sql", "alters"]

/-- A table as a record. -/
def Table.toJson (table : Table) : Value :=
  .object (fieldNames.zip
    [.string table.name, table.columns.toJson Column.toJson, table.indexes.toJson Index.toJson,
      table.constraints.toJson Constraint.toJson, .ofText? table.definition,
      .ofTexts table.alters])

/-- The table that a record stands for. -/
def Table.ofJson? (value : Value) : Option Table := do
  match ← value.fields? fieldNames with
  | [some name, some columns, some indexes, some constraints, definition, some alters] =>
    pure
      { name := ← name.text?
        columns := ← OrderedMap.ofJson? Column.ofJson? columns
        indexes := ← OrderedMap.ofJson? Index.ofJson? indexes
        constraints := ← OrderedMap.ofJson? Constraint.ofJson? constraints
        definition := ← Value.optional? Value.text? definition
        alters := ← alters.list? Value.text? }
  | _ => none

/-- The word that says of what type a view is. -/
def View.typeLabel : Text := "VIEW"

/-- The names of the fields of a view. -/
def View.fieldNames : List Text := ["name", "definition", "drop_statement", "type"]

/-- A view as a record. -/
def View.toJson (view : View) : Value :=
  .object (fieldNames.zip
    [.string view.name, .ofText? view.definition, .ofText? view.dropStatement,
      .string typeLabel])

/-- The view that a record stands for. -/
def View.ofJson? (value : Value) : Option View := do
  match ← value.fields? fieldNames with
  | [some name, definition, dropStatement, some type] =>
    if (← type.word?) = typeLabel then
      pure ⟨← name.text?, ← Value.optional? Value.text? definition,
        ← Value.optional? Value.text? dropStatement⟩
    else none
  | _ => none

/-- The names of the fields of a schema. -/
def Schema.fieldNames : List Text := ["tables", "views"]

/-- A schema as a record. -/
def Schema.toJson (schema : Schema) : Value :=
  .object (fieldNames.zip
    [schema.tables.toJson Table.toJson, schema.views.toJson View.toJson])

/-- The schema that a record stands for. -/
def Schema.ofJson? (value : Value) : Option Schema := do
  match ← value.fields? fieldNames with
  | [some tables, some views] =>
    pure ⟨← OrderedMap.ofJson? Table.ofJson? tables, ← OrderedMap.ofJson? View.ofJson? views⟩
  | _ => none

/-- A schema as JSON text. -/
def Schema.print (layout : Layout) (schema : Schema) : Text := schema.toJson.toText layout

/-- The schema that a JSON text spells. -/
def Schema.read? (t : Text) : Option Schema := (Json.read? t).bind Schema.ofJson?

end SchemaDelta

import SchemaDelta.Sql.Token

/-!
# Statement headers

The header of a statement says what it does and to which table or view. Each kind of header has
a reader that takes the header from its first keyword to the name; `Header.ofStatement?` looks
for the kinds in a fixed order and the first one found decides.
-/

namespace SchemaDelta.Sql

open Reader

/-- What a statement does. -/
inductive StatementKind where
  | createView
  | dropView
  | createTable
  | alterTable
  deriving DecidableEq

/-- What a statement does and the name it does it to. A view drop may fail to give a name. -/
inductive Header where
  | createView (name : Text)
  | dropView (name : Option Text)
  | createTable (name : Text)
  | alterTable (table : Text)
  deriving DecidableEq

/-- The kind of statement that a header opens. -/
def Header.kind : Header → StatementKind
  | .createView _ => .createView
  | .dropView _ => .dropView
  | .createTable _ => .createTable
  | .alterTable _ => .alterTable

/-- The name of a view, bare or between name marks. -/
def viewName : Reader Text := do
  let _ ← mark [nameMark]
  word

/-- A name, bare or between quotation marks. -/
def markedName : Reader Text := do
  let _ ← mark nameMarks
  word

/-- The part of a table name up to the dot. -/
def qualifier : Reader Unit := do
  let _ ← markedName
  let _ ← mark nameMarks
  char '.'

/-- The name of a table without its qualifier, if it has one. -/
def tableName : Reader Text := (do qualifier; markedName) <|> markedName

/-- The words `IF EXISTS` and the blanks after them. -/
def ifExists : Reader Unit := do
  keyword "IF"; gap; keyword "EXISTS"; gap

/-- The words `IF NOT EXISTS` and the blanks after them. -/
def ifNotExists : Reader Unit := do
  keyword "IF"; gap; keyword "NOT"; gap; keyword "EXISTS"; gap

/-- The equals sign of a view option with the blanks around it. -/
def equalsSign : Reader Unit := do
  blanks; char '='; blanks

/-- The name of the view that a statement creates, behind the options a view may have. -/
def createdView : Reader Text := do
  keyword "CREATE"; gap
  maybe do keyword "OR"; gap; keyword "REPLACE"; gap
  maybe do keyword "ALGORITHM"; equalsSign; let _ ← word; gap
  maybe do keyword "DEFINER"; equalsSign; let _ ← many1 (!Text.isBlank ·); gap
  maybe do keyword "SQL"; gap; keyword "SECURITY"; gap; let _ ← word; gap
  keyword "VIEW"; gap
  viewName

/-- The name of the view that a statement drops. The words `IF EXISTS` may be missing after
`VIEW` but not after `TABLE`. -/
def droppedView : Reader Text := do
  keyword "DROP"; gap
  (do keyword "TABLE"; gap; ifExists; viewName) <|>
    (do keyword "VIEW"; gap; ifExists; viewName) <|>
    (do keyword "VIEW"; gap; viewName)

/-- The opening of a statement that drops a table or a view. -/
def dropOpening : Reader Unit := do
  blanks; keyword "DROP"; gap
  keyword "TABLE" <|> keyword "VIEW"
  wordEnd

/-- The name of the table that a statement creates. -/
def createdTable : Reader Text := do
  keyword "CREATE"; gap
  maybe do keyword "TEMPORARY"; gap
  keyword "TABLE"; gap
  (do ifNotExists; tableName) <|> tableName

/-- The name of the table that a statement alters. -/
def alteredTable : Reader Text := do
  keyword "ALTER"; gap; keyword "TABLE"; gap
  (do keyword "ONLY"; gap; tableName) <|> tableName

/-- Whether a statement drops a view: it opens as a drop and speaks of a view somewhere. -/
def dropsView (statement : Text) : Bool :=
  (dropOpening.run statement).isSome && Text.containsCaseless statement "VIEW"

/-- The header of a statement: a view definition if there is one anywhere, else a view drop,
else a table definition anywhere, else a table change anywhere. -/
def Header.ofStatement? (statement : Text) : Option Header :=
  match first createdView statement with
  | some name => some (.createView name)
  | none =>
    if dropsView statement then some (.dropView (first droppedView statement))
    else match first createdTable statement with
      | some name => some (.createTable name)
      | none => (first alteredTable statement).map .alterTable

/-- The kind of a statement, if it is of a known kind. -/
def StatementKind.ofStatement? (statement : Text) : Option StatementKind :=
  (Header.ofStatement? statement).map Header.kind

end SchemaDelta.Sql

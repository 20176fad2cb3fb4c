import SchemaDelta.Text.Basic

/-!
# Lines of a script

A line of a script is blank, a comment or a statement. Only statements do anything when a script
is run.
-/

namespace SchemaDelta

/-- A line of a script. -/
inductive Line where
  | blank
  | comment (note : Text)
  /-- A statement, without the semicolon that ends it. -/
  | statement (sql : Text)
  deriving DecidableEq

/-- A line as the script shows it. -/
def Line.text : Line → Text
  | .blank => []
  | .comment note => "-- " ++ note
  | .statement sql => sql ++ ";"

end SchemaDelta

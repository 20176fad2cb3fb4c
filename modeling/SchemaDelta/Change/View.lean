import SchemaDelta.OrderedMap.Compare
import SchemaDelta.Schema.Basic
import SchemaDelta.Script.Line

/-!
# Changes of views

Views are compared by their definitions up to blanks. A view that is created or replaced is
dropped first, so that a script can be run again. A view of the target that has no definition
gives rise to no statement.
-/

namespace SchemaDelta

open Sql

/-- What happens to a view. -/
inductive ViewChange where
  | create (name definition : Text)
  | remove (name : Text)
  | replace (name definition : Text)
  deriving DecidableEq

namespace ViewChange

/-- The view that a change is about. -/
def name : ViewChange → Text
  | .create name _ => name
  | .remove name => name
  | .replace name _ => name

/-- The statement that drops a view. -/
def dropLine (name : Text) : Line := .statement ("DROP VIEW IF EXISTS " ++ quoteName name)

/-- The statements of a change in the order in which they are run. -/
def statements : ViewChange → List Line
  | .create name definition => [dropLine name, .statement definition]
  | .remove name => [dropLine name]
  | .replace name definition => [dropLine name, .statement definition]

end ViewChange

/-- Whether two views differ by more than blanks. -/
def View.differs (old new : View) : Bool :=
  old.normalizedDefinition ≠ new.normalizedDefinition

/-- What happens to the views: first those that only the target has, then those that only the
current schema has, then those that differ. -/
def viewChanges (current target : OrderedMap View) : List ViewChange :=
  (OrderedMap.added current target).filterMap (fun entry =>
      entry.2.definition.map (ViewChange.create entry.1)) ++
    (OrderedMap.removed current target).map (fun entry => .remove entry.1) ++
    (OrderedMap.changed View.differs current target).filterMap fun change =>
      change.2.2.definition.map (ViewChange.replace change.1)

end SchemaDelta

import SchemaDelta.Text.Basic

/-!
# TOML values

A document is a table. Every table remembers how it came about, since this decides what may
still be added to it.
-/

namespace SchemaDelta.Toml

/-- How a table came about. -/
inductive Origin where
  /-- By a header of its own, as the document itself or as an element of an array of tables. -/
  | header
  /-- By the header of a table inside it. -/
  | implied
  /-- By a dotted key. -/
  | dotted
  /-- By a table written in braces. -/
  | inline
  deriving DecidableEq

/-- A TOML value. Numbers with a point or exponent and points in time are kept as they are
written. -/
inductive Value where
  | string (content : Text)
  | integer (value : Int)
  | float (literal : Text)
  | boolean (value : Bool)
  | dateTime (literal : Text)
  | array (items : List Value)
  | table (origin : Origin) (entries : List (Text × Value))
  /-- An array of tables that headers wrote, the last one first. -/
  | tables (elements : List (List (Text × Value)))

/-- The entries of a table, in the order in which the keys came. -/
abbrev Entries := List (Text × Value)

/-- The value under a key. -/
def Entries.get? (key : Text) : Entries → Option Value
  | [] => none
  | (k, v) :: rest => if k = key then some v else Entries.get? key rest

/-- The items of an array, also of one that headers wrote. -/
def Value.items? : Value → Option (List Value)
  | .array items => some items
  | .tables elements => some (elements.reverse.map (.table .header))
  | _ => none

end SchemaDelta.Toml

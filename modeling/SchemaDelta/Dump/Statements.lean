import SchemaDelta.Dump.Clean
import SchemaDelta.Sql.Body
import SchemaDelta.Text.Caseless

/-!
# The statements of a dump

A clean dump is cut at its semicolons, and a walk over the fragments decides what each one is: a
statement, the start or a part of a table definition that semicolons cut apart, or nothing of
interest. A table definition is complete when its parentheses balance. The outcomes of the walk
come in the order of the fragments that complete them; `statements` keeps the statements.
-/

namespace SchemaDelta.Dump

open SchemaDelta.Sql

/-- What a fragment announces by the words in it. -/
inductive Head where
  | createTable
  | createView
  | drop
  | alterTable
  deriving DecidableEq

/-- The head of a fragment. The words may stand anywhere in it, in any case, and the first kind
that fits decides. -/
def Head.ofFragment? (fragment : Text) : Option Head :=
  let speaksOf (words : Text) : Bool := Text.containsCaseless fragment words
  if speaksOf "CREATE TABLE" then some .createTable
  else if speaksOf "CREATE" && speaksOf "VIEW" then some .createView
  else if speaksOf "DROP TABLE" || speaksOf "DROP VIEW" then some .drop
  else if speaksOf "ALTER TABLE" then some .alterTable
  else none

/-- A table definition whose parentheses do not balance yet. The balance is idealized: it is an
integer without bounds, where a machine counts in 64 bits. -/
structure OpenTable where
  statement : Text
  balance : Int
  deriving DecidableEq

/-- The definition with one more fragment, behind the semicolon that cut it off. -/
def OpenTable.extend (table : OpenTable) (fragment : Text) : OpenTable :=
  ⟨table.statement ++ ';' :: fragment, table.balance + parenBalance fragment⟩

/-- What the walk makes of one or several fragments. -/
inductive Outcome where
  /-- A statement. -/
  | statement (statement : Text)
  /-- A fragment without a head. -/
  | ignored (fragment : Text)
  /-- A table definition that the dump leaves open. -/
  | unterminated (table : OpenTable)
  deriving DecidableEq

/-- The walk over the fragments, with the table definition that is open. A blank fragment is
passed over unless it continues such a definition. -/
def walk : Option OpenTable → List Text → List Outcome
  | none, [] => []
  | some table, [] => [.unterminated table]
  | some table, fragment :: rest =>
    let longer := table.extend fragment
    if longer.balance = 0 then .statement (Text.trim longer.statement) :: walk none rest
    else walk (some longer) rest
  | none, fragment :: rest =>
    let trimmed := Text.trim fragment
    if trimmed = [] then walk none rest
    else match Head.ofFragment? trimmed with
      | none => .ignored trimmed :: walk none rest
      | some .createTable =>
        if parenBalance trimmed = 0 then .statement trimmed :: walk none rest
        else walk (some ⟨trimmed, parenBalance trimmed⟩) rest
      | some _ => .statement trimmed :: walk none rest

/-- The fragments of a dump: its clean text cut at the semicolons. -/
def fragments (text : Text) : List Text := Text.pieces (· == ';') (clean text)

/-- What the walk over a dump comes to. -/
def outcomes (text : Text) : List Outcome := walk none (fragments text)

/-- The statement of an outcome. -/
def Outcome.statement? : Outcome → Option Text
  | .statement s => some s
  | _ => none

/-- The statements of a dump in order. -/
def statements (text : Text) : List Text := (outcomes text).filterMap Outcome.statement?

end SchemaDelta.Dump

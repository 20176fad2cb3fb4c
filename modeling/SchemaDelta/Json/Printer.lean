import SchemaDelta.Json.Basic

/-!
# Printing JSON

A value is printed on one line or with one item to a line, two blanks further in for each level.
Strings escape the quotation mark, the backslash and the control characters below U+0020.
-/

namespace SchemaDelta.Json

/-- How values are laid out. -/
inductive Layout where
  /-- Everything on one line, without blanks. -/
  | compact
  /-- One item to a line, with empty arrays and objects on one line. -/
  | pretty
  deriving DecidableEq

/-- A character as a string shows it. -/
def escapeChar (c : Char) : Text :=
  if c = '\x22' then ['\\', '\x22']
  else if c = '\\' then ['\\', '\\']
  else if c = '\n' then ['\\', 'n']
  else if c = '\r' then ['\\', 'r']
  else if c = '\t' then ['\\', 't']
  else if c = '\x08' then ['\\', 'b']
  else if c = '\x0c' then ['\\', 'f']
  else if c.toNat < 0x20 then
    ['\\', 'u', '0', '0', Nat.digitChar (c.toNat / 16), Nat.digitChar (c.toNat % 16)]
  else [c]

/-- A text as a string with its quotation marks. -/
def printString (t : Text) : Text := '\x22' :: t.flatMap escapeChar ++ ['\x22']

/-- What stands in front of an item: a new line in the pretty layout, else nothing. -/
def Layout.lineBreak (layout : Layout) (depth : Nat) : Text :=
  match layout with
  | .compact => []
  | .pretty => '\n' :: List.replicate (2 * depth) ' '

/-- What stands between a key and its value. -/
def Layout.colon : Layout → Text
  | .compact => [':']
  | .pretty => [':', ' ']

mutual

/-- The text of a value whose items are `depth + 1` levels in. -/
def Value.print (layout : Layout) (depth : Nat) : Value → Text
  | .null => "null"
  | .bool true => "true"
  | .bool false => "false"
  | .number literal => literal
  | .string content => printString content
  | .unpaired => ['\x22', '\\', 'u', 'd', '8', '0', '0', '\x22']
  | .array [] => ['[', ']']
  | .array (item :: rest) =>
    '[' :: layout.lineBreak (depth + 1) ++ item.print layout (depth + 1) ++
      printItems layout (depth + 1) rest ++ layout.lineBreak depth ++ [']']
  | .object [] => ['\x7b', '\x7d']
  | .object ((key, value) :: rest) =>
    '\x7b' :: layout.lineBreak (depth + 1) ++ printString key ++ layout.colon ++
      value.print layout (depth + 1) ++ printMembers layout (depth + 1) rest ++
      layout.lineBreak depth ++ ['\x7d']

/-- The items after the first one, each behind a comma. -/
def printItems (layout : Layout) (depth : Nat) : List Value → Text
  | [] => []
  | item :: rest =>
    ',' :: layout.lineBreak depth ++ item.print layout depth ++ printItems layout depth rest

/-- The members after the first one, each behind a comma. -/
def printMembers (layout : Layout) (depth : Nat) : List (Text × Value) → Text
  | [] => []
  | (key, value) :: rest =>
    ',' :: layout.lineBreak depth ++ printString key ++ layout.colon ++
      value.print layout depth ++ printMembers layout depth rest

end

/-- The text of a value. -/
def Value.toText (layout : Layout) (value : Value) : Text := value.print layout 0

end SchemaDelta.Json

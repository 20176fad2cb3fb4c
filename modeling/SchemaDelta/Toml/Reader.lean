import SchemaDelta.Toml.Quoted
import SchemaDelta.Toml.Scalar
import SchemaDelta.Toml.Table

/-!
# Reading TOML

A document is read line by line into its parts, headers and entries, and the parts are put
together to a table. A text that is no document, or whose parts clash, is refused as a whole.
-/

namespace SchemaDelta.Toml

open Reader

/-- How many brackets may be open at once, and how many parts a key may have. -/
def depthLimit : Nat := 79

/-- Takes the blanks inside a line. -/
def blanks : Reader Unit := do let _ ← many fun c => c == ' ' || c == '\t'

/-- Takes a comment. -/
def comment : Reader Unit := do
  char '#'
  let _ ← many isPlain

/-- Takes a line break. -/
def lineBreak : Reader Unit := char '\n' <|> (do char '\r'; char '\n')

/-- Takes blanks, comments and line breaks; `fuel` bounds the number of lines. -/
def gap : Nat → Reader Unit
  | 0 => blanks
  | fuel + 1 => do
    blanks
    maybe do
      maybe comment
      lineBreak
      gap fuel

/-- Takes one part of a key. -/
def simpleKey : Reader Text :=
  quotedLine <|> many1 fun c => c.isAlphanum || c == '-' || c == '_'

/-- Takes the parts of a key behind the first one; `fuel` bounds their number. -/
def moreKeys : Nat → Reader (List Text)
  | 0 => pure []
  | fuel + 1 =>
    (do
      blanks; char '.'; blanks
      let key ← simpleKey
      let keys ← moreKeys fuel
      pure (key :: keys)) <|> pure []

/-- Takes a key and gives the path to its last part, and that part. -/
def key : Reader (List Text × Text) := do
  let first ← simpleKey
  let others ← moreKeys (depthLimit - 1)
  pure ((first :: others).dropLast, others.getLast?.getD first)

mutual

/-- Takes a value. `depth` is the number of brackets that may still be opened and `fuel` bounds
the number of brackets and commas. -/
def value : Nat → Nat → Reader Value
  | _, 0 => failure
  | depth, fuel + 1 =>
    (do let content ← quoted; pure (.string content)) <|>
      (do
        char '['
        let items ← arrayItems (depth - 1) fuel
        if depth = 0 then failure else pure (.array items)) <|>
      (do
        char '\x7b'; blanks
        let pairs ← (do char '\x7d'; pure []) <|> inlineEntries (depth - 1) fuel
        match if depth = 0 then none else inlineTable pairs with
        | some table => pure table
        | none => failure) <|>
      scalar

/-- Takes the items of an array and the closing bracket. -/
def arrayItems : Nat → Nat → Reader (List Value)
  | _, 0 => failure
  | depth, fuel + 1 => do
    gap fuel
    (do char ']'; pure []) <|> do
      let item ← value depth fuel
      gap fuel
      (do
        char ','
        let items ← arrayItems depth fuel
        pure (item :: items)) <|> do
        char ']'
        pure [item]

/-- Takes the entries of a table in braces and the closing brace. -/
def inlineEntries : Nat → Nat → Reader (List (List Text × Text × Value))
  | _, 0 => failure
  | depth, fuel + 1 => do
    let (path, last) ← key
    blanks; char '='; blanks
    let content ← value depth fuel
    blanks
    (do
      char ','; blanks
      let entries ← inlineEntries depth fuel
      pure ((path, last, content) :: entries)) <|> do
      char '\x7d'
      pure [(path, last, content)]

end

/-- Takes the key inside the brackets of a header. -/
def headerKey : Reader (List Text × Text) := do
  blanks
  let names ← key
  blanks
  pure names

/-- Takes a header or an entry; `fuel` bounds the number of brackets and commas. -/
def part (fuel : Nat) : Reader Part :=
  (do
    char '['; char '['
    let (path, last) ← headerKey
    char ']'; char ']'
    pure (.element path last)) <|>
    (do
      char '['
      let (path, last) ← headerKey
      char ']'
      pure (.header path last)) <|> do
    let (path, last) ← key
    blanks; char '='; blanks
    let content ← value depthLimit fuel
    pure (.entry path last content)

/-- Takes the lines of a document; `fuel` bounds their number. -/
def lines : Nat → Reader (List Part)
  | 0 => failure
  | fuel + 1 => do
    blanks
    let found ← (do let found ← part (fuel + 1); pure [found]) <|> pure []
    blanks
    maybe comment
    (do atEnd; pure found) <|> do
      lineBreak
      let rest ← lines fuel
      pure (found ++ rest)

/-- A text without the byte order mark in front, if there is one. -/
def dropMark : Text → Text
  | '\uFEFF' :: rest => rest
  | t => t

/-- The entries of the document that a text spells. -/
def read? (t : Text) : Option Entries := do
  let parts ← whole (lines (t.length + 1)) (dropMark t)
  entriesOfParts parts

end SchemaDelta.Toml

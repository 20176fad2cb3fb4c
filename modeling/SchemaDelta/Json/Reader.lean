import SchemaDelta.Json.Basic
import SchemaDelta.Text.Reader

/-!
# Reading JSON

A text is read as one value with blanks around it. The grammar is the strict one: no leading
zeros, no control characters inside strings, no comma before a closing bracket. An escape that
stands for half of a surrogate pair is taken only together with its other half; alone it leaves
a string without text.
-/

namespace SchemaDelta.Json

/-- The blanks between the tokens of a value. -/
def isBlank (c : Char) : Bool := c == ' ' || c == '\n' || c == '\t' || c == '\r'

/-- The text without the blanks in front. -/
def skipBlanks (t : Text) : Text := t.dropWhile isBlank

/-- The value of a hexadecimal digit. -/
def hexDigit? (c : Char) : Option Nat :=
  if c.isDigit then some (c.toNat - 48)
  else if 97 ≤ c.toNat ∧ c.toNat ≤ 102 then some (c.toNat - 87)
  else if 65 ≤ c.toNat ∧ c.toNat ≤ 70 then some (c.toNat - 55)
  else none

/-- The number that hexadecimal digits spell, highest first. -/
def hexNumber? (digits : Text) : Option Nat :=
  digits.foldlM (fun n c => (hexDigit? c).map (16 * n + ·)) 0

/-- What one place in a string stands for: a character or half of a surrogate pair. -/
inductive StringUnit where
  | char (c : Char)
  | half (code : Nat)
  deriving DecidableEq

/-- What an escape with this code stands for. -/
def StringUnit.ofCode (code : Nat) : StringUnit :=
  if 0xD800 ≤ code ∧ code ≤ 0xDFFF then .half code else .char (Char.ofNat code)

/-- The character that a backslash and this letter stand for. -/
def escaped? (c : Char) : Option Char :=
  if c = '\x22' ∨ c = '\\' ∨ c = '/' then some c
  else if c = 'b' then some '\x08'
  else if c = 'f' then some '\x0c'
  else if c = 'n' then some '\n'
  else if c = 'r' then some '\r'
  else if c = 't' then some '\t'
  else none

/-- Takes a string behind its opening quotation mark, place by place. -/
def stringUnits : Text → Option (List StringUnit × Text)
  | [] => none
  | ['\\'] => none
  | '\\' :: 'u' :: a :: b :: c :: d :: rest => do
    let code ← hexNumber? [a, b, c, d]
    let (units, rest) ← stringUnits rest
    pure (.ofCode code :: units, rest)
  | '\\' :: e :: rest => do
    let c ← escaped? e
    let (units, rest) ← stringUnits rest
    pure (.char c :: units, rest)
  | c :: rest =>
    if c = '\x22' then some ([], rest)
    else if c.toNat < 0x20 then none
    else do
      let (units, rest) ← stringUnits rest
      pure (.char c :: units, rest)

/-- The text of a string, if every half of a surrogate pair is followed by its other half. -/
def textOfUnits : List StringUnit → Option Text
  | [] => some []
  | .char c :: rest => (textOfUnits rest).map (c :: ·)
  | .half high :: .half low :: rest =>
    if high < 0xDC00 ∧ 0xDC00 ≤ low then
      (textOfUnits rest).map
        (Char.ofNat (0x10000 + (high - 0xD800) * 0x400 + (low - 0xDC00)) :: ·)
    else none
  | .half _ :: _ => none

/-- Takes a string behind its opening quotation mark. -/
def stringBody (t : Text) : Option (Option Text × Text) :=
  (stringUnits t).map fun (units, rest) => (textOfUnits units, rest)

/-- Takes the digits before the point of a number: a zero, or digits that start with no zero. -/
def wholeDigits : Reader Text := do
  let digits ← Reader.many1 Char.isDigit
  if digits.head? = some '0' ∧ digits ≠ ['0'] then failure else pure digits

/-- Takes the digits behind the point of a number with the point, or nothing. -/
def fraction : Reader Text :=
  (do Reader.char '.'; let digits ← Reader.many1 Char.isDigit; pure ('.' :: digits)) <|> do
    let rest ← get
    if rest.head? = some '.' then failure else pure []

/-- Takes the exponent of a number, or nothing. -/
def exponent : Reader Text :=
  (do
    let e ← Reader.satisfy fun c => c == 'e' || c == 'E'
    let sign ← (do let c ← Reader.satisfy fun c => c == '+' || c == '-'; pure [c]) <|> pure []
    let digits ← Reader.many1 Char.isDigit
    pure (e :: sign ++ digits)) <|> do
    let rest ← get
    if rest.head? = some 'e' ∨ rest.head? = some 'E' then failure else pure []

/-- Takes a number. -/
def number : Reader Value := do
  let sign ← (do Reader.char '-'; pure ['-']) <|> pure []
  let digits ← wholeDigits
  let behind ← fraction
  let power ← exponent
  pure (.number (sign ++ digits ++ behind ++ power))

/-- Takes null, a boolean or a number. -/
def scalar : Reader Value :=
  (do Reader.exactly "null"; pure .null) <|>
    (do Reader.exactly "true"; pure (.bool true)) <|>
    (do Reader.exactly "false"; pure (.bool false)) <|> number

/-- The object with these members, if each of its keys is a text. -/
def Value.ofMembers (members : List (Option Text × Value)) : Value :=
  match members.mapM fun member => member.1.map (·, member.2) with
  | some members => .object members
  | none => .unpaired

mutual

/-- Takes a value; `fuel` bounds the number of brackets and commas. -/
def value : Nat → Text → Option (Value × Text)
  | 0, _ => none
  | fuel + 1, t =>
    match t with
    | '\x22' :: rest =>
      (stringBody rest).map fun (content, rest) =>
        (match content with
          | some content => .string content
          | none => .unpaired, rest)
    | '[' :: rest =>
      match skipBlanks rest with
      | ']' :: rest => some (.array [], rest)
      | rest => do
        let (item, rest) ← value fuel rest
        let (items, rest) ← moreItems fuel (skipBlanks rest)
        pure (.array (item :: items), rest)
    | '\x7b' :: rest =>
      match skipBlanks rest with
      | '\x7d' :: rest => some (.object [], rest)
      | rest => do
        let (entry, rest) ← member fuel rest
        let (entries, rest) ← moreMembers fuel (skipBlanks rest)
        pure (.ofMembers (entry :: entries), rest)
    | t => scalar.run t

/-- Takes the items after one and the closing bracket. -/
def moreItems : Nat → Text → Option (List Value × Text)
  | fuel + 1, ',' :: rest => do
    let (item, rest) ← value fuel (skipBlanks rest)
    let (items, rest) ← moreItems fuel (skipBlanks rest)
    pure (item :: items, rest)
  | _, ']' :: rest => some ([], rest)
  | _, _ => none

/-- Takes a key, the colon and the value under the key. -/
def member : Nat → Text → Option ((Option Text × Value) × Text)
  | fuel + 1, '\x22' :: rest => do
    let (key, rest) ← stringBody rest
    match skipBlanks rest with
    | ':' :: rest =>
      let (content, rest) ← value fuel (skipBlanks rest)
      pure ((key, content), rest)
    | _ => none
  | _, _ => none

/-- Takes the members after one and the closing brace. -/
def moreMembers : Nat → Text → Option (List (Option Text × Value) × Text)
  | fuel + 1, ',' :: rest => do
    let (entry, rest) ← member fuel (skipBlanks rest)
    let (entries, rest) ← moreMembers fuel (skipBlanks rest)
    pure (entry :: entries, rest)
  | _, '\x7d' :: rest => some ([], rest)
  | _, _ => none

end

/-- The value that a text spells. -/
def read? (t : Text) : Option Value :=
  match value (2 * t.length + 1) (skipBlanks t) with
  | some (v, rest) => if skipBlanks rest = [] then some v else none
  | none => none

end SchemaDelta.Json

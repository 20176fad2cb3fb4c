import SchemaDelta.Text.Basic

/-!
# JSON values

Objects keep the order of their members and may repeat a key; what a repeated key means is
decided by whoever reads the object. Numbers are kept as they are written.
-/

namespace SchemaDelta.Json

/-- A JSON value. -/
inductive Value where
  | null
  | bool (value : Bool)
  /-- A number, by its literal. -/
  | number (literal : Text)
  | string (content : Text)
  | array (items : List Value)
  | object (members : List (Text × Value))
  /-- A string, or an object with a key, that holds half of a surrogate pair. It is well-formed
  JSON but spells no text. -/
  | unpaired

namespace Value

/-- A natural number as a JSON number. -/
def ofNat (n : Nat) : Value := .number (Text.ofNat n)

/-- An integer as a JSON number. -/
def ofInt (n : Int) : Value := .number (Text.ofInt n)

/-- A text as a JSON string, or null if there is none. -/
def ofText? : Option Text → Value
  | none => .null
  | some t => .string t

/-- Texts as an array of strings. -/
def ofTexts (texts : List Text) : Value := .array (texts.map .string)

/-- The text of a string. -/
def text? : Value → Option Text
  | .string content => some content
  | _ => none

/-- The truth value of a boolean. -/
def bool? : Value → Option Bool
  | .bool value => some value
  | _ => none

/-- The values that an array holds, each taken by `item`. -/
def list? {α : Type} (item : Value → Option α) : Value → Option (List α)
  | .array items => items.mapM item
  | _ => none

/-- The values of the named fields of a record, in the order of the names. A record is an
object, in which no named field may come twice and other fields are passed over, or an array of
just these values. -/
def fields? (names : List Text) : Value → Option (List (Option Value))
  | .object members => names.mapM fun name =>
    match members.filter (·.1 = name) with
    | [] => some none
    | [member] => some (some member.2)
    | _ => none
  | .array items => if items.length = names.length then some (items.map some) else none
  | _ => none

/-- The value of a field that may be missing or null. -/
def optional? {α : Type} (content : Value → Option α) : Option Value → Option (Option α)
  | none => some none
  | some .null => some none
  | some value => (content value).map some

/-- The word that a value without content of its own is written as: a string, or an object with
that one key and null under it. -/
def word? : Value → Option Text
  | .string content => some content
  | .object [(key, .null)] => some key
  | _ => none

end Value

end SchemaDelta.Json

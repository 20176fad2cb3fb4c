import SchemaDelta.Json.Printer
import SchemaDelta.Text.Caseless

/-!
# Log records

A record says how important it is, where it comes from, what happened, and the values that
belong to it. A record is written as one line: plain, with terminal colours, or as JSON. Times
are texts that the caller supplies.
-/

namespace SchemaDelta.Log

open Json

/-- How important a record is. -/
inductive Level where
  | trace
  | debug
  | info
  | warn
  | error
  deriving DecidableEq

namespace Level

/-- The word for a level. -/
def label : Level → Text
  | .trace => "TRACE"
  | .debug => "DEBUG"
  | .info => "INFO"
  | .warn => "WARN"
  | .error => "ERROR"

/-- The place of a level, the least important first. -/
def rank : Level → Nat
  | .trace => 0
  | .debug => 1
  | .info => 2
  | .warn => 3
  | .error => 4

/-- The level that a word in any case names; a word that names none stands for `info`. -/
def ofText (word : Text) : Level :=
  ([.trace, .debug, .info, .warn, .error].find? fun level =>
    Text.sameCaseless level.label word).getD .info

/-- The terminal colour of a level. -/
def colour : Level → Text
  | .trace => "35"
  | .debug => "34"
  | .info => "32"
  | .warn => "33"
  | .error => "31"

/-- The word for a level in five columns. -/
def column (level : Level) : Text :=
  List.replicate (5 - level.label.length) ' ' ++ level.label

end Level

/-- A value that belongs to a record. -/
inductive FieldValue where
  | text (content : Text)
  | number (value : Int)
  deriving DecidableEq

/-- A value as plain text. -/
def FieldValue.toText : FieldValue → Text
  | .text content => content
  | .number value => Text.ofInt value

/-- A value as JSON. -/
def FieldValue.toJson : FieldValue → Value
  | .text content => .string content
  | .number value => .ofInt value

/-- A record. -/
structure Record where
  level : Level
  /-- The part of the program that the record comes from. -/
  target : Text
  message : Text
  fields : List (Text × FieldValue)
  deriving DecidableEq

/-- How records are written. -/
inductive Format where
  | plain
  | coloured
  | json
  deriving DecidableEq

/-- What a terminal has to be sent to switch to a style. -/
def escape (style : Text) : Text := '\x1b' :: '[' :: style ++ ['m']

/-- A text in a style, and the usual style after it. -/
def styled (style text : Text) : Text := escape style ++ text ++ escape "0"

namespace Record

/-- Whether a record is important enough for a log of this level. -/
def isEnabled (record : Record) (level : Level) : Bool := level.rank ≤ record.level.rank

/-- A field in a line of plain text. -/
def plainField (field : Text × FieldValue) : Text := " " ++ field.1 ++ "=" ++ field.2.toText

/-- A record as a line of plain text. -/
def plainLine (time : Text) (record : Record) : Text :=
  time ++ " " ++ record.level.column ++ " " ++ record.target ++ ": " ++ record.message ++
    record.fields.flatMap plainField

/-- A field in a line with terminal colours. -/
def colouredField (field : Text × FieldValue) : Text :=
  " " ++ styled "3" field.1 ++ styled "2" "=" ++ field.2.toText

/-- A record as a line with terminal colours. -/
def colouredLine (time : Text) (record : Record) : Text :=
  styled "2" time ++ " " ++ styled record.level.colour record.level.column ++ " " ++
    styled "2" record.target ++ styled "2" ":" ++ " " ++ record.message ++
    record.fields.flatMap colouredField

/-- A record as a JSON value. -/
def toJson (time : Text) (record : Record) : Value :=
  .object [("timestamp", .string time), ("level", .string record.level.label),
    ("fields", .object (("message", .string record.message) ::
      record.fields.map fun field => (field.1, field.2.toJson))),
    ("target", .string record.target)]

/-- A record as a line. -/
def line (format : Format) (time : Text) (record : Record) : Text :=
  match format with
  | .plain => record.plainLine time
  | .coloured => record.colouredLine time
  | .json => (record.toJson time).toText .compact

end Record

end SchemaDelta.Log

import SchemaDelta.Json.Printer
import SchemaDelta.Toml.Basic

/-!
# Settings

What a configuration document can set: a limit on the size of dumps, where and how the result is
written, and logging. Whatever it leaves out has a default; what it sets beyond that is passed
over.
-/

namespace SchemaDelta

open Toml (Value Entries)

/-- The greatest size of a dump, in bytes, where nothing else is set: 50 MiB. -/
def defaultMaxFileSize : Nat := 50 * 1024 * 1024

/-- How and where the result is written. -/
structure OutputSettings where
  format : Json.Layout
  file : Option Text
  deriving DecidableEq

/-- What is logged, in which format, and where to. -/
structure LoggingSettings where
  level : Text
  file : Option Text
  format : Text
  stdout : Bool
  deriving DecidableEq

/-- All settings. -/
structure Settings where
  /-- The greatest size of a dump in bytes. -/
  maxFileSize : Nat
  output : OutputSettings
  logging : Option LoggingSettings
  deriving DecidableEq

/-- The output settings where nothing is set. -/
def OutputSettings.default : OutputSettings := ⟨.compact, none⟩

/-- The logging settings where nothing is set. -/
def LoggingSettings.default : LoggingSettings := ⟨"info", none, "text", false⟩

/-- The settings where nothing is set. -/
def Settings.default : Settings := ⟨defaultMaxFileSize, .default, none⟩

/-- The fields of a section, which is a table or gives its fields as an array in order. -/
inductive Section where
  | named (entries : Entries)
  | ordered (items : List Value)

namespace Section

/-- The section that a value is. A point in time is a section that sets nothing. -/
def ofValue? : Value → Option Section
  | .table _ entries => some (.named entries)
  | .dateTime _ => some (.named [])
  | value => value.items?.map .ordered

/-- The value of a field by its place or name. -/
def field (place : Nat) (name : Text) : Section → Option Value
  | .named entries => entries.get? name
  | .ordered items => items[place]?

/-- A field with a default. -/
def withDefault {α : Type} (section_ : Section) (place : Nat) (name : Text) (default : α)
    (content : Value → Option α) : Option α :=
  match section_.field place name with
  | none => some default
  | some value => content value

/-- A field that a table may leave out but an array may not. -/
def optional {α : Type} (section_ : Section) (place : Nat) (name : Text)
    (content : Value → Option α) : Option (Option α) :=
  match section_.field place name with
  | some value => (content value).map some
  | none =>
    match section_ with
    | .named _ => some none
    | .ordered _ => none

end Section

/-- The text of a string. -/
def textSetting? : Value → Option Text
  | .string content => some content
  | _ => none

/-- The truth value of a boolean. -/
def boolSetting? : Value → Option Bool
  | .boolean value => some value
  | _ => none

/-- The number that an integer is unless it is negative. -/
def sizeSetting? : Value → Option Nat
  | .integer (.ofNat n) => some n
  | _ => none

/-- Whether a value is a table or an array with nothing in it. -/
def isVoid : Value → Bool
  | .table _ entries => entries.isEmpty
  | value => value.items?.any List.isEmpty

/-- The layout that a word names. The word is a string or the only key of a table, with nothing
under it. -/
def layoutSetting? (value : Value) : Option Json.Layout := do
  let word ← match value with
    | .string content => some content
    | .table _ [(key, content)] => if isVoid content then some key else none
    | _ => none
  if word = ("json" : Text) then some .compact
  else if word = ("pretty" : Text) then some .pretty
  else none

/-- The size limit that an input section sets. -/
def inputSetting? (value : Value) : Option Nat := do
  let section_ ← Section.ofValue? value
  section_.withDefault 0 "max_file_size_bytes" defaultMaxFileSize sizeSetting?

/-- What an output section sets. -/
def OutputSettings.ofToml? (value : Value) : Option OutputSettings := do
  let section_ ← Section.ofValue? value
  pure
    { format := ← section_.withDefault 0 "format" .compact layoutSetting?
      file := ← section_.optional 1 "file" textSetting? }

/-- What a logging section sets. -/
def LoggingSettings.ofToml? (value : Value) : Option LoggingSettings := do
  let section_ ← Section.ofValue? value
  pure
    { level := ← section_.withDefault 0 "level" default.level textSetting?
      file := ← section_.optional 1 "file" textSetting?
      format := ← section_.withDefault 2 "format" default.format textSetting?
      stdout := ← section_.withDefault 3 "stdout" default.stdout boolSetting? }

/-- The settings that a configuration document makes, or nothing if it sets something to a value
that does not fit. -/
def Settings.ofToml? (document : Entries) : Option Settings := do
  let root : Section := .named document
  pure
    { maxFileSize := ← root.withDefault 0 "input" defaultMaxFileSize inputSetting?
      output := ← root.withDefault 1 "output" .default OutputSettings.ofToml?
      logging := ← root.optional 2 "logging" LoggingSettings.ofToml? }

end SchemaDelta

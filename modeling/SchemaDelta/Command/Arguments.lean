import SchemaDelta.Text.Basic

/-!
# Arguments

What is asked for on the command line. An option is written in full behind two hyphens or as one
letter behind one hyphen, and its value follows as the next word, behind an equals sign or right
behind the letter. A value is never empty, and a word that starts with a hyphen, other than a
single hyphen, is not taken for a value. Behind two hyphens alone no word is an option.
-/

namespace SchemaDelta.Command

/-- What is to be done. -/
inductive Task where
  /-- Compare two dumps. -/
  | diff (current target : Text) (output : Option Text)
  /-- Read one dump. -/
  | parse (file : Text) (output : Option Text)
  deriving DecidableEq

/-- A task and the file to take the settings from. -/
structure Arguments where
  settings : Option Text
  task : Task
  deriving DecidableEq

/-- What is asked for. -/
inductive Request where
  | run (arguments : Arguments)
  | showVersion
  | showHelp
  deriving DecidableEq

/-- The options that take a value. -/
inductive OptionName where
  | config
  | current
  | target
  | output
  deriving DecidableEq

/-- The name of an option in full. -/
def OptionName.long : OptionName → Text
  | .config => "config"
  | .current => "current"
  | .target => "target"
  | .output => "output"

/-- The letter of an option, if it has one. -/
def OptionName.letter : OptionName → Option Char
  | .config => some 'c'
  | .output => some 'o'
  | _ => none

/-- What may stand at one level of the command line. -/
structure Level where
  options : List OptionName
  /-- Whether the version can be asked for. -/
  hasVersion : Bool
  /-- How many words that belong to no option may stand here. Where there is no number, the first
  such word ends the level. -/
  words : Option Nat

/-- The level in front of the name of a task. -/
def topLevel : Level := ⟨[.config], true, none⟩

/-- The level behind `diff`. -/
def diffLevel : Level := ⟨[.config, .current, .target, .output], false, some 0⟩

/-- The level behind `parse`. -/
def parseLevel : Level := ⟨[.config, .output], false, some 1⟩

/-- What was found at a level: options with their values, and words. -/
structure Found where
  values : List (OptionName × Text)
  words : List Text

/-- How the reading of a level ends. -/
inductive Ending where
  /-- With what was found and the arguments behind it. -/
  | found (found : Found) (rest : List Text)
  | version
  | help
  | wrong

/-- What an argument is taken for. -/
inductive Form where
  | word (content : Text)
  | separator
  | version
  | help
  /-- An option, with its value if the argument holds it. -/
  | option (name : OptionName) (value : Option Text)
  | wrong

/-- An argument behind two hyphens. -/
def Level.longForm (level : Level) (content : Text) : Form :=
  let name := content.takeWhile (· ≠ '=')
  let value := match content.dropWhile (· ≠ '=') with
    | [] => none
    | _ :: value => some value
  match level.options.find? (·.long = name) with
  | some option => .option option value
  | none =>
    if value.isSome then .wrong
    else if name = ("help" : Text) then .help
    else if name = ("version" : Text) ∧ level.hasVersion then .version
    else .wrong

/-- An argument behind one hyphen. -/
def Level.shortForm (level : Level) (letter : Char) (rest : Text) : Form :=
  match level.options.find? (·.letter = some letter) with
  | some option =>
    .option option (match rest with
      | [] => none
      | '=' :: value => some value
      | value => some value)
  | none =>
    if letter = 'h' then .help
    else if letter = 'V' ∧ level.hasVersion then .version
    else .wrong

/-- What an argument is taken for at a level. -/
def Level.form (level : Level) : Text → Form
  | ['-', '-'] => .separator
  | '-' :: '-' :: content => level.longForm content
  | '-' :: letter :: rest => level.shortForm letter rest
  | content => .word content

/-- Whether a word can be the value of an option that stands before it. -/
def isValue : Text → Bool
  | [] => false
  | ['-'] => true
  | c :: _ => c ≠ '-'

/-- The find with an option and its value, unless the option was there before or the value is
empty. -/
def Found.add (found : Found) (name : OptionName) (value : Text) : Option Found :=
  if value = [] ∨ found.values.any (·.1 = name) then none
  else some { found with values := (name, value) :: found.values }

/-- The find with a word, unless the level has no place for it or the word is empty. -/
def Found.addWord (found : Found) (places : Nat) (word : Text) : Option Found :=
  if word = [] ∨ places ≤ found.words.length then none
  else some { found with words := found.words ++ [word] }

/-- Reads the arguments of a level in order. The first one that does not fit, or that asks for
help or for the version, decides. -/
def Level.read (level : Level) (found : Found) : List Text → Ending
  | [] => .found found []
  | argument :: rest =>
    match level.form argument with
    | .word content =>
      match level.words with
      | none => .found found (argument :: rest)
      | some places =>
        match found.addWord places content with
        | some found => level.read found rest
        | none => .wrong
    | .separator =>
      match level.words with
      | none => .wrong
      | some places =>
        match rest.foldlM (·.addWord places ·) found with
        | some found => .found found []
        | none => .wrong
    | .version => .version
    | .help => .help
    | .wrong => .wrong
    | .option name (some value) =>
      match found.add name value with
      | some found => level.read found rest
      | none => .wrong
    | .option name none =>
      match rest with
      | value :: rest =>
        if isValue value then
          match found.add name value with
          | some found => level.read found rest
          | none => .wrong
        else .wrong
      | [] => .wrong

/-- The value of an option. -/
def Found.value? (found : Found) (name : OptionName) : Option Text :=
  (found.values.find? (·.1 = name)).map (·.2)

/-- The names of the tasks, and the word for help on them. -/
def taskNames : List Text := ["diff", "parse", "help"]

/-- The request that what was found behind the name of a task makes. -/
def requestOf (task : Text) (top found : Found) : Option Request := do
  let settings := (found.value? .config).or (top.value? .config)
  let output := found.value? .output
  if task = ("diff" : Text) then
    match found.value? .current, found.value? .target with
    | some current, some target => some (.run ⟨settings, .diff current target output⟩)
    | _, _ => none
  else
    match found.words with
    | [file] => some (.run ⟨settings, .parse file output⟩)
    | _ => none

/-- What the arguments ask for, or nothing if they do not fit. -/
def Request.ofArguments? (arguments : List Text) : Option Request :=
  match topLevel.read ⟨[], []⟩ arguments with
  | .version => some .showVersion
  | .help => some .showHelp
  | .wrong => none
  | .found _ [] => none
  | .found top (task :: rest) =>
    if task = ("help" : Text) then
      match rest with
      | [] => some .showHelp
      | [name] => if taskNames.contains name then some .showHelp else none
      | _ => none
    else if task = ("diff" : Text) ∨ task = ("parse" : Text) then
      match (if task = ("diff" : Text) then diffLevel else parseLevel).read ⟨[], []⟩ rest with
      | .found found _ => requestOf task top found
      | .help => some .showHelp
      | .version => none
      | .wrong => none
    else none

end SchemaDelta.Command

import SchemaDelta.Text.Utf8

/-!
# Failures

Why a run can fail, and the report on it: the outermost message first, the causes below it.
-/

namespace SchemaDelta.Command

/-- Why a file cannot be read or written. -/
inductive FileError where
  | notFound
  | alreadyExists
  | notADirectory
  | isADirectory
  /-- A part of the path, or the whole path, has too many bytes. -/
  | nameTooLong
  /-- The path holds the character with the code zero. -/
  | nameHasNul
  | notText
  /-- Any other reason, in the words of the system. -/
  | other (words : Text)
  deriving DecidableEq

/-- The reason in words. -/
def FileError.message : FileError → Text
  | .notFound => "No such file or directory (os error 2)"
  | .alreadyExists => "File exists (os error 17)"
  | .notADirectory => "Not a directory (os error 20)"
  | .isADirectory => "Is a directory (os error 21)"
  | .nameTooLong => "File name too long (os error 36)"
  | .nameHasNul => "file name contained an unexpected NUL byte"
  | .notText => "stream did not contain valid UTF-8"
  | .other words => words

/-- What goes wrong with the settings or with a dump. -/
inductive Problem where
  | settingsUnreadable (cause : FileError)
  | settingsMalformed
  | file (cause : FileError)
  | dumpTooLarge (path : Text) (size limit : Nat)
  | dumpNotText (path : Text) (cause : Text.Utf8.DecodeError)
  deriving DecidableEq

namespace Problem

/-- The problem in words. -/
def message : Problem → Text
  | .settingsUnreadable cause =>
    "Configuration error: Failed to read config file: " ++ cause.message
  | .settingsMalformed => "Configuration error: Failed to parse config file: TOML parse error"
  | .file cause => "IO error: " ++ cause.message
  | .dumpTooLarge path size limit =>
    "Input '" ++ path ++ "' is " ++ Text.ofNat size ++ " bytes, which exceeds the limit of " ++
      Text.ofNat limit ++ " bytes"
  | .dumpNotText path cause => "Input '" ++ path ++ "' is not valid UTF-8: " ++ cause.message

/-- The problem and what is behind it, in words. -/
def chain : Problem → List Text
  | .file cause => [message (.file cause), cause.message]
  | problem => [problem.message]

end Problem

/-- Why a run fails. -/
inductive Failure where
  | settings (path : Text) (problem : Problem)
  | starting (problem : Problem)
  | comparing (problem : Problem)
  | parsing (problem : Problem)
  | writing (path : Text) (cause : FileError)
  deriving DecidableEq

/-- The messages of a failure, the outermost first. -/
def Failure.chain : Failure → List Text
  | .settings path problem => ("Failed to load configuration from " ++ path) :: problem.chain
  | .starting problem => problem.chain
  | .comparing problem =>
    "An error occurred while processing the schemas; check that both files are valid schema dumps"
      :: problem.chain
  | .parsing problem => problem.chain
  | .writing path cause => ["Failed to write output to " ++ path, cause.message]

/-- A message behind a margin that goes with its first line; its other lines are set as far
in. -/
def indented (margin : Text) (message : Text) : Text :=
  let lines := Text.pieces (· == '\n') message
  margin ++ Text.join ('\n' :: List.replicate margin.length ' ') lines

/-- A cause with its number in front. -/
def numbered (cause : Text) (place : Nat) : Text :=
  let number := Text.ofNat place
  indented (List.replicate (5 - number.length) ' ' ++ number ++ [':', ' ']) cause

/-- The causes below the outermost message, numbered if there are several. -/
def causeLines : List Text → List Text
  | [cause] => [indented "    " cause]
  | causes => causes.zipIdx.map fun cause => numbered cause.1 cause.2

/-- What the report says of the causes. -/
def causeSection (causes : List Text) : Text :=
  if causes.isEmpty then [] else "\n\nCaused by:\n" ++ Text.join "\n" (causeLines causes)

/-- The report on a failure. -/
def Failure.report (failure : Failure) : Text :=
  "Error: " ++ failure.chain.head?.getD [] ++ causeSection failure.chain.tail

end SchemaDelta.Command

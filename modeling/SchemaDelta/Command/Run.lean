import SchemaDelta.Command.Arguments
import SchemaDelta.Command.Host
import SchemaDelta.Command.Path
import SchemaDelta.Dump.Json
import SchemaDelta.Dump.Record
import SchemaDelta.Script
import SchemaDelta.Settings
import SchemaDelta.Toml.Reader

/-!
# Runs

A run reads its settings, starts the log, reads the dumps, and writes the script or the report.
The first thing that goes wrong ends it.
-/

namespace SchemaDelta.Command

open Log

variable {m : Type → Type} [Monad m]

/-- An action that may fail, with the failure told in other words. -/
def orElse {ε ε' α : Type} (action : m (Except ε α)) (failure : ε → ε') : ExceptT ε' m α :=
  ExceptT.mk do return (← action).mapError failure

/-- A result, or a failure. -/
def result {ε α : Type} (r : Except ε α) : ExceptT ε m α := ExceptT.mk (pure r)

/-- Reads settings from a file. -/
def readSettings (host : Host m) (path : Text) : ExceptT Problem m Settings := do
  let bytes ← orElse (host.read path) .settingsUnreadable
  let text ← result ((Text.Utf8.decode bytes).mapError fun _ => .settingsUnreadable .notText)
  match (Toml.read? text).bind Settings.ofToml? with
  | some settings => pure settings
  | none => throw .settingsMalformed

/-- The format that log lines have: JSON if the settings say so, else plain text in files and
coloured text on a terminal. -/
def logFormat (settings : LoggingSettings) : Format :=
  if Text.sameCaseless settings.format "json" then .json
  else if settings.file.isSome then .plain
  else .coloured

/-- Writes a record to the log, if it is important enough. The log is the file that the settings
name, else the standard output if they say so, else the standard error output. -/
def emit (host : Host m) (settings : LoggingSettings) (record : Record) : m Unit := do
  if record.isEnabled (Level.ofText settings.level) then
    let line := record.line (logFormat settings) (← host.now) ++ "\n"
    if settings.file.isSome then host.log line
    else if settings.stdout then host.print line
    else host.warn line

/-- Opens the file to log to, if the settings name one, and makes the directory it lies in. -/
def startLog (host : Host m) (settings : LoggingSettings) : ExceptT Problem m Unit := do
  match settings.file with
  | none => pure ()
  | some path =>
    match Path.parent? path with
    | none => pure ()
    | some parent => orElse (host.makeDirectories parent) .file
    orElse (host.openLog path) .file

/-- The part of the program that reads files and puts the parts together. -/
def programTarget : Text := "schema_diff"

/-- Reads a dump whose size is within the limit. What there is to log goes to `log`. -/
def readDump (host : Host m) (log : Record → m Unit) (limit : Nat) (path : Text) :
    ExceptT Problem m Text := do
  let size ← orElse (host.size path) .file
  if limit < size then throw (.dumpTooLarge path size limit)
  let bytes ← orElse (host.read path) .file
  log ⟨.debug, programTarget, "Read schema dump",
    [("path", .text path), ("bytes", .number bytes.length)]⟩
  result ((Text.Utf8.decode bytes).mapError fun e => .dumpNotText path e)

/-- Reads the schema of a dump and logs what there is to say about it. -/
def readSchema (log : Record → m Unit) (text : Text) : m Schema := do
  (Dump.records text).forM log
  pure (Dump.schemaOfText text)

/-- Reads two dumps and gives their script. -/
def compare (host : Host m) (log : Record → m Unit) (limit : Nat) (current target : Text) :
    ExceptT Problem m Text := do
  let currentText ← readDump host log limit current
  let targetText ← readDump host log limit target
  let currentSchema ← (readSchema log currentText : m Schema)
  let targetSchema ← (readSchema log targetText : m Schema)
  let delta : Delta := ⟨currentSchema, targetSchema⟩
  log ⟨.info, programTarget, "Parsed schemas",
    [("current_tables", Dump.count delta.current.tables.size),
      ("target_tables", Dump.count delta.target.tables.size),
      ("current_views", Dump.count delta.current.views.size),
      ("target_views", Dump.count delta.target.views.size)]⟩
  pure (Script.ofDelta delta)

/-- Reads a dump and gives the report on it as JSON. -/
def report (host : Host m) (log : Record → m Unit) (limit : Nat) (layout : Json.Layout)
    (path : Text) : ExceptT Problem m Text := do
  let text ← readDump host log limit path
  (Dump.records text).forM fun record => log record
  pure ((Dump.Report.ofText text).toJson.toText layout)

/-- Writes the result to a file, or to the standard output with a line feed behind it. -/
def writeResult (host : Host m) (text : Text) : Option Text → ExceptT Failure m Unit
  | none => host.print (text ++ "\n")
  | some path => orElse (host.write path (Text.Utf8.encode text)) (.writing path)

/-- Carries a task out. -/
def Arguments.execute (host : Host m) (arguments : Arguments) : ExceptT Failure m Unit := do
  let settings ← match arguments.settings with
    | none => pure Settings.default
    | some path => orElse (readSettings host path).run (.settings path)
  let logging := settings.logging.getD .default
  let log := emit host logging
  orElse (startLog host logging).run .starting
  match arguments.task with
  | .diff current target output =>
    let script ← orElse (compare host log settings.maxFileSize current target).run .comparing
    writeResult host script (output.or settings.output.file)
    log ⟨.info, programTarget, "Script generated successfully", []⟩
  | .parse file output =>
    let json ←
      orElse (report host log settings.maxFileSize settings.output.format file).run .parsing
    writeResult host json (output.or settings.output.file)

/-- The name and the number of this version. -/
def versionLine : Text := "schema_diff 0.1.0\n"

/-- How the program is used. -/
def usage : Text :=
  "Usage: schema_diff [-c FILE] diff --current FILE --target FILE [-o FILE]\n" ++
    "       schema_diff [-c FILE] parse FILE [-o FILE]\n"

/-- How a run ends. -/
inductive Outcome where
  | done
  | failed (failure : Failure)
  | misused
  deriving DecidableEq

/-- The number with which the program ends. -/
def Outcome.exitCode : Outcome → Nat
  | .done => 0
  | .failed _ => 1
  | .misused => 2

/-- What is written to the standard error output at the end of a run. -/
def Outcome.notice : Outcome → Text
  | .done => []
  | .failed failure => failure.report ++ "\n"
  | .misused => usage

/-- A run of the program with these arguments. -/
def run (host : Host m) (arguments : List Text) : m Outcome := do
  match Request.ofArguments? arguments with
  | none => pure .misused
  | some .showVersion => host.print versionLine; pure .done
  | some .showHelp => host.print usage; pure .done
  | some (.run arguments) =>
    match ← (arguments.execute host).run with
    | .ok () => pure .done
    | .error failure => pure (.failed failure)

end SchemaDelta.Command

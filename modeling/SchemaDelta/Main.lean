import SchemaDelta.Command.Run
import Std.Time.Format

/-!
# The command line program

Runs the library on the real system: its files, its outputs and its clock.
-/

namespace SchemaDelta.Command

/-- The number of an error. The system may give it with a minus sign, in 32 bits. -/
def errorNumber (code : UInt32) : Nat :=
  if code.toNat < 0x80000000 then code.toNat else 0x100000000 - code.toNat

/-- The reason for which the system refuses an operation. -/
def FileError.ofError (e : IO.Error) : FileError :=
  let ofNumber (code : UInt32) : FileError :=
    match errorNumber code with
    | 20 => .notADirectory
    | 21 => .isADirectory
    | 36 => .nameTooLong
    | _ => .other (toString e).toList
  match e with
  | .noFileOrDirectory .. => .notFound
  | .alreadyExists .. => .alreadyExists
  | .inappropriateType _ code _ => ofNumber code
  | .invalidArgument _ code _ => ofNumber code
  | e => .other (toString e).toList

/-- The result of an operation on a path, or the reason for which the system refuses it. -/
def attempt {α : Type} (path : Text) (action : String → IO α) : IO (Except FileError α) := do
  if path.contains '\x00' then return .error .nameHasNul
  try return .ok (← action (String.ofList path))
  catch e => return .error (.ofError e)

/-- The time in universal time, to the microsecond. -/
def timestamp : IO Text := do
  let now := Std.Time.DateTime.ofTimestampWithZone (← Std.Time.Timestamp.now) .UTC
  return now.toPlainDateTime.format "uuuu-MM-dd'T'HH:mm:ss.SSSSSS'Z'"

/-- The host that the real system is. The file to log to is kept open in `log`. -/
def systemHost (log : IO.Ref (Option IO.FS.Handle)) : Host IO where
  size path := attempt path fun name => do return (← IO.FS.readBinFile name).size
  read path := attempt path fun name => do return (← IO.FS.readBinFile name).toList
  write path bytes := attempt path fun name => IO.FS.writeBinFile name ⟨bytes.toArray⟩
  makeDirectories path := attempt path fun name =>
    unless path.isEmpty do IO.FS.createDirAll name
  openLog path := attempt path fun name => do
    log.set (some (← IO.FS.Handle.mk name .write))
  log line := do
    if let some handle ← log.get then
      handle.putStr (String.ofList line)
      handle.flush
  print t := do IO.print (String.ofList t)
  warn t := do IO.eprint (String.ofList t)
  now := timestamp

end SchemaDelta.Command

open SchemaDelta.Command

/-- Runs the program and ends it with the number that says how the run went. -/
def main (arguments : List String) : IO UInt32 := do
  let log ← IO.mkRef none
  let outcome ← run (systemHost log) (arguments.map String.toList)
  IO.eprint (String.ofList outcome.notice)
  return outcome.exitCode.toUInt32

import SchemaDelta.Command.Failure

/-!
# Hosts

What a run needs from the system it runs on. The logic of a run is the same on every host, be it
the real system or a directory in memory.
-/

namespace SchemaDelta.Command

/-- The operations of a system, as actions of `m`. -/
structure Host (m : Type → Type) where
  /-- The size of a file in bytes. -/
  size : Text → m (Except FileError Nat)
  /-- The bytes of a file. -/
  read : Text → m (Except FileError (List UInt8))
  /-- Writes a file, in place of one that is there. -/
  write : Text → List UInt8 → m (Except FileError Unit)
  /-- Makes a directory and those it lies in, where they are missing. -/
  makeDirectories : Text → m (Except FileError Unit)
  /-- Opens an empty file to log to, in place of one that is there. -/
  openLog : Text → m (Except FileError Unit)
  /-- Adds to the file that was opened to log to. -/
  log : Text → m Unit
  /-- Writes to the standard output. -/
  print : Text → m Unit
  /-- Writes to the standard error output. -/
  warn : Text → m Unit
  /-- The time, as logs show it. -/
  now : m Text

end SchemaDelta.Command

import SchemaDelta.Command.Host
import SchemaDelta.Command.Path
import SchemaDelta.OrderedMap.Basic

/-!
# A working directory in memory

A host that keeps its files in memory. Paths are followed part by part, so that a missing
directory and a file in place of a directory are told apart. Above the working directory and at
the root there are directories without anything else in them.
-/

namespace SchemaDelta.Command

/-- A file with its bytes, or a directory. -/
inductive Node where
  | file (bytes : List UInt8)
  | directory
  deriving DecidableEq

/-- The working directory: its nodes under their paths. -/
structure Directory where
  nodes : OrderedMap Node

/-- A place that a path can lead to: the names to it from the working directory or from the
root. Names that lead up from the working directory come first. -/
abbrev Place := List Text

namespace Place

/-- The root. -/
def root : Place := [['/']]

/-- The place where a path starts. -/
def startOf (path : Text) : Place := if Path.isAbsolute path then root else []

/-- Whether a place is the root, the working directory or one above it. -/
def isFixed (place : Place) : Bool := place = root || place.all (· = Path.above)

/-- The directory that a place lies in. The root lies in itself. -/
def up (place : Place) : Place :=
  if place = root then root
  else if place.isFixed then place ++ [Path.above]
  else place.dropLast

/-- The key under which a place is kept. -/
def key (place : Place) : Text := Text.join ['/'] place

end Place

namespace Directory

/-- The working directory without files. -/
def empty : Directory := ⟨∅⟩

/-- The node at a place. -/
def node? (directory : Directory) (place : Place) : Option Node :=
  if place.isFixed then some .directory else directory.nodes.get? place.key

/-- The directory with a node set at a place. -/
def put (directory : Directory) (place : Place) (node : Node) : Directory :=
  ⟨directory.nodes.insert place.key node⟩

/-- The directory that parts lead to from the directory `place`. -/
def follow (directory : Directory) (place : Place) : List Text → Except FileError Place
  | [] => .ok place
  | part :: rest =>
    if part = Path.here then directory.follow place rest
    else if part = Path.above then directory.follow place.up rest
    else if Path.isLongPart part then .error .nameTooLong
    else match directory.node? (place ++ [part]) with
      | some .directory => directory.follow (place ++ [part]) rest
      | some (.file _) => .error .notADirectory
      | none => .error .notFound

/-- Where a path leads. -/
structure Location where
  /-- The directory that the last name is in. -/
  directory : Place
  /-- The last name, or nothing where the path leads to the directory itself. -/
  name : Option Text
  /-- Whether the path ends in a slash and so can only lead to a directory. -/
  slash : Bool

/-- The place of a location. -/
def Location.place (location : Location) : Except FileError Place :=
  match location.name with
  | none => .ok location.directory
  | some name =>
    if Path.isLongPart name then .error .nameTooLong else .ok (location.directory ++ [name])

/-- Where a path leads, if all but its last part are directories. -/
def locate (directory : Directory) (path : Text) : Except FileError Location := do
  if path.contains '\x00' then throw .nameHasNul
  if path = [] then throw .notFound
  if Path.isLong path then throw .nameTooLong
  let parts := Path.parts path
  let place ← directory.follow (.startOf path) parts.dropLast
  match parts.getLast? with
  | none => pure ⟨place, none, true⟩
  | some last =>
    if last = Path.here then pure ⟨place, none, true⟩
    else if last = Path.above then pure ⟨place.up, none, true⟩
    else pure ⟨place, some last, path.getLast? = some '/'⟩

/-- The node that a path leads to. -/
def lookUp (directory : Directory) (path : Text) : Except FileError Node := do
  let location ← directory.locate path
  match directory.node? (← location.place) with
  | none => throw .notFound
  | some .directory => pure .directory
  | some (.file bytes) => if location.slash then throw .notADirectory else pure (.file bytes)

/-- The size of a file; a directory takes one block. -/
def size (directory : Directory) (path : Text) : Except FileError Nat := do
  match ← directory.lookUp path with
  | .directory => pure 4096
  | .file bytes => pure bytes.length

/-- The bytes of a file. -/
def read (directory : Directory) (path : Text) : Except FileError (List UInt8) := do
  match ← directory.lookUp path with
  | .directory => throw .isADirectory
  | .file bytes => pure bytes

/-- The directory with a file written, and the place of the file. -/
def write (directory : Directory) (path : Text) (bytes : List UInt8) :
    Except FileError (Directory × Place) := do
  let location ← directory.locate path
  if location.slash then throw .isADirectory
  let place ← location.place
  if directory.node? place = some .directory then throw .isADirectory
  pure (directory.put place (.file bytes), place)

/-- The directory with one directory made in a directory that is there. -/
def makeDirectory (directory : Directory) (path : Text) : Except FileError Directory := do
  let location ← directory.locate path
  if location.name.isNone then throw .alreadyExists
  let place ← location.place
  if (directory.node? place).isSome then throw .alreadyExists
  pure (directory.put place .directory)

/-- Whether a path leads to a directory. -/
def isDirectory (directory : Directory) (path : Text) : Bool :=
  match directory.lookUp path with
  | .ok .directory => true
  | _ => false

/-- What comes of making a directory, where one that is there already does for it. -/
def orThere (directory : Directory) (path : Text) :
    Except FileError Directory → Except FileError Directory
  | .ok made => .ok made
  | .error e => if directory.isDirectory path then .ok directory else .error e

/-- The directory with a directory made and those it lies in where they are missing. Its parts
are given with the last one first. -/
def makeParts (directory : Directory) (absolute : Bool) : List Text → Except FileError Directory
  | [] => .ok directory
  | last :: before =>
    let path := Path.ofParts absolute (last :: before).reverse
    match directory.makeDirectory path with
    | .error .notFound => do
      let directory ← directory.makeParts absolute before
      directory.orThere path (directory.makeDirectory path)
    | made => directory.orThere path made

/-- The directory with a directory made and those it lies in where they are missing. -/
def makeDirectories (directory : Directory) (path : Text) : Except FileError Directory :=
  directory.makeParts (Path.isAbsolute path) (Path.plainParts path).reverse

end Directory

/-- The bytes of a file after some are written at an offset; a gap is filled with zeros. -/
def overwrite (old : List UInt8) (offset : Nat) (new : List UInt8) : List UInt8 :=
  old.take offset ++ List.replicate (offset - old.length) 0 ++ new ++
    old.drop (offset + new.length)

/-- A machine in memory: its files, what was written to its outputs, the file that is logged to
with the number of bytes logged so far, and the time its clock shows. -/
structure Machine where
  directory : Directory
  stdout : Text
  stderr : Text
  log : Option (Place × Nat)
  clock : Text

namespace Machine

/-- Runs an operation that may change the files. -/
def onDirectory {α : Type} (f : Directory → Except FileError (α × Directory)) :
    StateM Machine (Except FileError α) := do
  let machine ← get
  match f machine.directory with
  | .error e => pure (.error e)
  | .ok (a, directory) =>
    set { machine with directory }
    pure (.ok a)

/-- Adds to the file that is logged to, behind what was logged before. -/
def addToLog (line : Text) : StateM Machine Unit := modify fun machine =>
  match machine.log with
  | none => machine
  | some (place, offset) =>
    let bytes := Text.Utf8.encode line
    let old := match machine.directory.node? place with
      | some (.file old) => old
      | _ => []
    { machine with
      directory := machine.directory.put place (.file (overwrite old offset bytes))
      log := some (place, offset + bytes.length) }

/-- The host that a machine in memory is. -/
def host : Host (StateM Machine) where
  size path := do return (← get).directory.size path
  read path := do return (← get).directory.read path
  write path bytes := onDirectory fun directory =>
    (directory.write path bytes).map fun (directory, _) => ((), directory)
  makeDirectories path := onDirectory fun directory =>
    (directory.makeDirectories path).map fun directory => ((), directory)
  openLog path := do
    match ← onDirectory fun directory =>
        (directory.write path []).map fun (directory, place) => (place, directory) with
    | .error e => pure (.error e)
    | .ok place =>
      modify fun machine => { machine with log := some (place, 0) }
      pure (.ok ())
  log := addToLog
  print t := modify fun machine => { machine with stdout := machine.stdout ++ t }
  warn t := modify fun machine => { machine with stderr := machine.stderr ++ t }
  now := do return (← get).clock

end Machine

end SchemaDelta.Command

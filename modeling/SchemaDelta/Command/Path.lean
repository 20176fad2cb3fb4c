import SchemaDelta.Text.Utf8

/-!
# Paths

A path is a text whose parts have slashes between them. It starts at the root if it starts with
a slash and at the working directory otherwise. `parts` says which names a path goes through,
and `parent?` which directory it lies in.
-/

namespace SchemaDelta.Command.Path

/-- The part that stands for the directory itself. -/
def here : Text := ['.']

/-- The part that stands for the directory above. -/
def above : Text := ['.', '.']

/-- Whether a path starts at the root. -/
def isAbsolute (path : Text) : Bool := path.head? = some '/'

/-- The parts of a path in order. Several slashes in a row count as one. -/
def parts (path : Text) : List Text := (Text.pieces (· == '/') path).filter (· ≠ [])

/-- The parts of a path without those that stand for the directory they are in. One that the
path starts with is kept. -/
def plainParts (path : Text) : List Text :=
  match parts path with
  | [] => []
  | first :: others =>
    if isAbsolute path then (first :: others).filter (· ≠ here)
    else first :: others.filter (· ≠ here)

/-- The path with these parts, from the root on if `absolute` says so. -/
def ofParts (absolute : Bool) (parts : List Text) : Text :=
  (if absolute then ['/'] else []) ++ Text.join ['/'] parts

/-- The directory that a path lies in: all but its last part, and nothing for a path without
parts. -/
def parent? (path : Text) : Option Text :=
  match plainParts path with
  | [] => none
  | parts => some (ofParts (isAbsolute path) parts.dropLast)

/-- The greatest number of bytes in a part. -/
def partLimit : Nat := 255

/-- The greatest number of bytes in a path. -/
def pathLimit : Nat := 4095

/-- Whether a part has too many bytes to be the name of anything. -/
def isLongPart (part : Text) : Bool := partLimit < (Text.Utf8.encode part).length

/-- Whether a path has too many bytes to lead anywhere. -/
def isLong (path : Text) : Bool := pathLimit < (Text.Utf8.encode path).length

/-- A part is not empty. -/
theorem ne_nil_of_mem_parts {path part : Text} (h : part ∈ parts path) : part ≠ [] := by
  simpa using (List.mem_filter.1 h).2

end SchemaDelta.Command.Path

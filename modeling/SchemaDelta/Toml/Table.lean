import SchemaDelta.Toml.Basic

/-!
# Building tables

A document is built from its headers and entries in order. A path of keys leads through tables
and through the last element of an array of tables; what is missing on the way is made. A key
can be set once, a header can name a table once, and a dotted key reaches neither into a table
that has a header of its own nor into one written in braces.
-/

namespace SchemaDelta.Toml

/-- The entries with the value under a key changed, or set at the end if the key is new. -/
def change (key : Text) (f : Option Value → Option Value) : Entries → Option Entries
  | [] => (f none).map fun v => [(key, v)]
  | (k, v) :: rest =>
    if k = key then (f (some v)).map fun v => (k, v) :: rest
    else (change key f rest).map ((k, v) :: ·)

/-- The entries of a table with the table at the end of a path changed by `f`, which is told how
that table came about. Missing tables are made with the origin `made`. -/
def within (made : Origin) (f : Origin → Entries → Option Entries) :
    List Text → Origin → Entries → Option Entries
  | [], origin, entries => f origin entries
  | key :: path, _, entries =>
    change key (fun
      | none => (within made f path made []).map (.table made)
      | some (.table origin inner) =>
        if origin = .inline ∨ (made = .dotted ∧ origin = .header) then none
        else (within made f path origin inner).map (.table origin)
      | some (.tables (latest :: earlier)) =>
        (within made f path .header latest).map fun latest => .tables (latest :: earlier)
      | some _ => none) entries

/-- The entries of a table with a value under a dotted key, whose last part is `key`. -/
def setKey (path : List Text) (key : Text) (value : Value) (origin : Origin)
    (entries : Entries) : Option Entries :=
  within .dotted (fun origin entries =>
    if path ≠ [] ∧ origin ≠ .dotted then none
    else change key (fun old => if old.isNone then some value else none) entries)
    path origin entries

/-- A table from the entries that braces enclose, or nothing if two of them clash. -/
def inlineTable (pairs : List (List Text × Text × Value)) : Option Value :=
  (pairs.foldlM (fun entries pair => setKey pair.1 pair.2.1 pair.2.2 .inline entries) []).map
    (.table .inline)

/-- A part of a document. -/
inductive Part where
  /-- The header of a table: its path and its last key. -/
  | header (path : List Text) (key : Text)
  /-- The header of an element of an array of tables. -/
  | element (path : List Text) (key : Text)
  /-- An entry: the path and the last key of its dotted key, and its value. -/
  | entry (path : List Text) (key : Text) (value : Value)

/-- A document so far: its entries and the path of the header in force. -/
structure Document where
  entries : Entries
  header : List Text

/-- The document with one more part, or nothing if the part clashes with what is there. -/
def Document.add (document : Document) : Part → Option Document
  | .header path key => do
    let entries ← within .implied (fun _ entries =>
      change key (fun
        | none => some (.table .header [])
        | some (.table .implied inner) => some (.table .header inner)
        | some _ => none) entries) path .header document.entries
    pure ⟨entries, path ++ [key]⟩
  | .element path key => do
    let entries ← within .implied (fun _ entries =>
      change key (fun
        | none => some (.tables [[]])
        | some (.tables elements) => some (.tables ([] :: elements))
        | some _ => none) entries) path .header document.entries
    pure ⟨entries, path ++ [key]⟩
  | .entry path key value => do
    let entries ← within .implied (setKey path key value) document.header .header
      document.entries
    pure ⟨entries, document.header⟩

/-- The entries of the document that these parts make, or nothing if some of them clash. -/
def entriesOfParts (parts : List Part) : Option Entries :=
  (parts.foldlM Document.add ⟨[], []⟩).map Document.entries

end SchemaDelta.Toml

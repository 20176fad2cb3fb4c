import SchemaDelta.Dump.Event
import SchemaDelta.Proofs.Dump.LastWrite

/-!
# Reading with a log

What cannot be read is put on record twice: an event is logged where it is met, and an entry goes
to a list that is reported in the end. `Reading.statement` reads one statement like this, clause
by clause if it defines a table, and gives up where it fails. `foldl_statement` says that reading
the statements of a dump one after another leaves just the schema, the list and the events that
`Report.ofText` and `events` give, and `Reading.Agrees` that event by event the log tells what
the list does, which every step keeps.
-/

namespace SchemaDelta.Dump

open Sql Text

/-- What an event says was left out. -/
def Event.skipped? : Event → Option Skipped
  | .clauseSkipped table clause reason => some ⟨some table, preview clause, reason⟩
  | .statementSkipped statement reason => some ⟨none, preview statement, reason⟩
  | _ => none

/-- What has been read of a table definition: the table, what was left out of it, and the whole
log. -/
structure TableReading where
  table : Table
  skipped : List Skipped
  log : List Event

/-- What has been read of a dump: the schema, what was left out, and the log. -/
structure Reading where
  schema : Schema
  skipped : List Skipped
  log : List Event

/-- Reads one clause. -/
def TableReading.clause (reading : TableReading) (clause : Text) : TableReading :=
  match Clause.ofText clause with
  | .ok declared => { reading with table := declared.addTo reading.table }
  | .error reason =>
    { reading with
      skipped := reading.skipped ++ [⟨some reading.table.name, preview clause, reason⟩]
      log := reading.log ++ [.clauseSkipped reading.table.name (preview clause) reason] }

namespace Reading

/-- Logs an event. -/
def say (reading : Reading) (event : Event) : Reading :=
  { reading with log := reading.log ++ [event] }

/-- Records an entry. -/
def record (reading : Reading) (entry : Entry) : Reading :=
  { reading with schema := entry.record reading.schema }

/-- Gives up a statement. -/
def giveUp (reading : Reading) (statement : Text) (reason : SkipReason) : Reading :=
  { reading with
    skipped := reading.skipped ++ [⟨none, preview statement, reason⟩]
    log := reading.log ++ [.statementSkipped statement reason] }

/-- Reads the body of a table definition. -/
def body (reading : Reading) (name statement body : Text) : Reading :=
  let read := (clauses body).foldl TableReading.clause
    ⟨{ Table.shell name with definition := some statement }, [], reading.log⟩
  ⟨reading.schema.addTable read.table, reading.skipped ++ read.skipped,
    read.log ++ [.tableRead read.table]⟩

/-- Reads one statement. -/
def statement (reading : Reading) (statement : Text) : Reading :=
  match Header.ofStatement? statement with
  | none => reading.giveUp statement .unclassified
  | some header =>
    let classified := reading.say (.statementClassified header.kind statement)
    match header with
    | .createView name => classified.record (.view name (trim statement))
    | .dropView none => classified.giveUp statement (.missingName .view)
    | .dropView (some name) => classified.record (.viewDrop name (trim statement))
    | .createTable name =>
      match tableBody statement with
      | none => classified.giveUp statement .missingBody
      | some text => classified.body name statement text
    | .alterTable name => classified.record (.alter name statement)

end Reading

/-! ## What has been read -/

/-- Read one after another, clauses make the table, and those that are left out are listed and
logged. -/
theorem foldl_clause (clauses : List Text) (reading : TableReading) :
    clauses.foldl TableReading.clause reading =
      ⟨(clauses.filterMap fun clause => (Clause.ofText clause).toOption).foldl Clause.addTo
          reading.table,
        reading.skipped ++ clauses.filterMap (skippedClause? reading.table.name),
        reading.log ++ (clauses.filterMap (skippedClause? reading.table.name)).filterMap
          Skipped.clauseEvent?⟩ := by
  induction clauses generalizing reading with
  | nil => simp
  | cons first rest ih =>
      rw [List.foldl_cons, ih, TableReading.clause]
      cases hread : Clause.ofText first with
      | ok declared =>
          have hname : (declared.addTo reading.table).name = reading.table.name :=
            (foldl_addTo_frame [declared] reading.table).1
          simp [hread, hname, skippedClause?, Except.toOption]
      | error reason => simp [hread, skippedClause?, Except.toOption, Skipped.clauseEvent?]

namespace Reading

/-- Read with a log, a body gives the table and the list that it gives at once. -/
theorem body_eq (reading : Reading) (name statement body : Text) :
    reading.body name statement body =
      ⟨reading.schema.addTable (tableOfClauses name statement (clauses body)),
        reading.skipped ++ (clauses body).filterMap (skippedClause? name),
        reading.log ++ (((clauses body).filterMap (skippedClause? name)).filterMap
          Skipped.clauseEvent? ++ [.tableRead (tableOfClauses name statement (clauses body))])⟩ := by
  rw [Reading.body, foldl_clause, List.append_assoc]
  rfl

/-- Read with a log, a statement adds to the schema, to the list and to the log what it gives on
its own. -/
theorem statement_eq (reading : Reading) (statement : Text) : reading.statement statement =
    ⟨recordStatement reading.schema statement, reading.skipped ++ skippedIn statement,
      reading.log ++ statementEvents statement⟩ := by
  rw [Reading.statement, recordStatement, skippedIn, statementEvents, StatementKind.ofStatement?,
    Entry.ofStatement]
  cases hheader : Header.ofStatement? statement with
  | none => rfl
  | some header =>
      cases header with
      | createView name => simp [say, record]
      | dropView name => cases name <;> simp [say, record, giveUp]
      | alterTable name => simp [say, record]
      | createTable name =>
          cases hbody : tableBody statement with
          | none => simp [say, giveUp]
          | some body => simp [say, body_eq, Entry.record]

/-- So do statements that are read one after another. -/
theorem foldl_statement (statements : List Text) (reading : Reading) :
    statements.foldl Reading.statement reading =
      ⟨statements.foldl recordStatement reading.schema,
        reading.skipped ++ statements.flatMap skippedIn,
        reading.log ++ statements.flatMap statementEvents⟩ := by
  induction statements generalizing reading with
  | nil => simp
  | cons first rest ih => rw [List.foldl_cons, ih, statement_eq]; simp

end Reading

/-! ## The log and the list -/

theorem preview_preview (t : Text) : preview (preview t) = preview t := by
  rw [preview, preview, List.take_take, Nat.min_self]

/-- The log tells what the list has, and before the table what `before` has. -/
def TableReading.Agrees (before : List Skipped) (reading : TableReading) : Prop :=
  reading.log.filterMap Event.skipped? = before ++ reading.skipped

/-- A clause is left out in both places or in none. -/
theorem TableReading.Agrees.clause {before : List Skipped} {reading : TableReading}
    (h : reading.Agrees before) (clause : Text) : (reading.clause clause).Agrees before := by
  rw [Agrees] at h
  rw [TableReading.clause]
  cases hread : Clause.ofText clause with
  | ok declared => exact h
  | error reason =>
      show (reading.log ++ [_]).filterMap _ = before ++ (reading.skipped ++ [_])
      rw [List.filterMap_append, h, List.append_assoc]
      simp [Event.skipped?, preview_preview]

/-- So are clauses that are read one after another. -/
theorem TableReading.Agrees.foldl {before : List Skipped} {reading : TableReading}
    (h : reading.Agrees before) (clauses : List Text) :
    (clauses.foldl TableReading.clause reading).Agrees before := by
  induction clauses generalizing reading with
  | nil => exact h
  | cons first rest ih => exact ih (h.clause first)

namespace Reading

/-- The log tells what the list has. -/
def Agrees (reading : Reading) : Prop :=
  reading.log.filterMap Event.skipped? = reading.skipped

variable {reading : Reading}

/-- Events that speak of nothing left out are not in the list. -/
theorem Agrees.say (h : reading.Agrees) (event : Event) (hevent : event.skipped? = none) :
    (reading.say event).Agrees := by
  show (reading.log ++ [event]).filterMap _ = reading.skipped
  rw [List.filterMap_append, show reading.log.filterMap _ = _ from h]
  simp [hevent]

/-- A statement that is given up is in both. -/
theorem Agrees.giveUp (h : reading.Agrees) (statement : Text) (reason : SkipReason) :
    (reading.giveUp statement reason).Agrees := by
  show (reading.log ++ [_]).filterMap _ = reading.skipped ++ [_]
  rw [List.filterMap_append, show reading.log.filterMap _ = _ from h]
  rfl

/-- The list of a table goes behind the list before it, as its events do in the log. -/
theorem Agrees.body (h : reading.Agrees) (name statement body : Text) :
    (reading.body name statement body).Agrees := by
  -- The clauses go on with the log of the dump but start a list of their own, so the list before
  -- them is what the log tells in front.
  have hstart : TableReading.Agrees reading.skipped
      ⟨{ Table.shell name with definition := some statement }, [], reading.log⟩ := by
    rw [TableReading.Agrees, List.append_nil]
    exact h
  have hclauses := hstart.foldl (clauses body)
  show (_ ++ [_]).filterMap _ = _ ++ _
  rw [List.filterMap_append, show List.filterMap _ _ = _ from hclauses]
  exact List.append_nil _

/-- Each statement is left out in both places or in none. -/
theorem Agrees.statement (h : reading.Agrees) (statement : Text) :
    (reading.statement statement).Agrees := by
  rw [Reading.statement]
  cases Header.ofStatement? statement with
  | none => exact h.giveUp _ _
  | some header =>
      have hsaid := h.say (.statementClassified header.kind statement) rfl
      cases header with
      | createView name => exact hsaid
      | dropView name =>
          cases name with
          | none => exact hsaid.giveUp _ _
          | some name => exact hsaid
      | alterTable name => exact hsaid
      | createTable name =>
          cases tableBody statement with
          | none => exact hsaid.giveUp _ _
          | some body => exact hsaid.body name statement body

/-- So are statements that are read one after another. -/
theorem Agrees.foldl (h : reading.Agrees) (statements : List Text) :
    (statements.foldl Reading.statement reading).Agrees := by
  induction statements generalizing reading with
  | nil => exact h
  | cons first rest ih => exact ih (h.statement first)

end Reading

end SchemaDelta.Dump

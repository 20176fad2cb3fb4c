import SchemaDelta.Dump.Report
import SchemaDelta.Proofs.Dump.Clause
import SchemaDelta.Proofs.Dump.Statements
import SchemaDelta.Proofs.OrderedMap.Entries
import SchemaDelta.Proofs.Sql.Body

/-!
# The schema of a dump

What a schema records stands under its own name, and every text in it is a statement of the dump
whose header gives that name, or is cut out of one. Recording one entry keeps this
(`Schema.Recorded.record`), and so it holds of the schema of every dump
(`recorded_schemaOfText`).
-/

namespace SchemaDelta

open Sql Text

variable {statements : List Text}

/-- The table stands under its name, what it declares can be read back, and its statements are
among the given ones, with headers that name it. -/
structure Table.Recorded (statements : List Text) (key : Text) (table : Table) : Prop where
  name_eq : table.name = key
  isName : IsName key
  columns : table.columns.Holds fun name column => column.name = name ∧ column.Declared
  indexes : table.indexes.Holds fun name index => index.name = name ∧ index.Declared
  constraints : table.constraints.Holds fun name constraint =>
    constraint.name = name ∧ constraint.Declared
  definition : ∀ sql ∈ table.definition,
    sql ∈ statements ∧ Header.ofStatement? sql = some (.createTable key)
  alters : ∀ sql ∈ table.alters,
    sql ∈ statements ∧ Header.ofStatement? sql = some (.alterTable key)

/-- The view stands under its name, and its statements are among the given ones, with headers
that name it. -/
structure View.Recorded (statements : List Text) (key : Text) (view : View) : Prop where
  name_eq : view.name = key
  isName : IsName key
  definition : ∀ sql ∈ view.definition,
    sql ∈ statements ∧ Header.ofStatement? sql = some (.createView key)
  dropStatement : ∀ sql ∈ view.dropStatement,
    sql ∈ statements ∧ Header.ofStatement? sql = some (.dropView (some key))

/-- Every table and every view of the schema is recorded under its key. -/
structure Schema.Recorded (statements : List Text) (schema : Schema) : Prop where
  tables : schema.tables.Holds (Table.Recorded statements)
  views : schema.views.Holds (View.Recorded statements)

theorem Table.recorded_shell {name : Text} (hname : IsName name) :
    (Table.shell name).Recorded statements name :=
  ⟨rfl, hname, OrderedMap.holds_empty, OrderedMap.holds_empty, OrderedMap.holds_empty,
    by simp [Table.shell], by simp [Table.shell]⟩

theorem View.recorded_shell {name : Text} (hname : IsName name) :
    (View.shell name).Recorded statements name :=
  ⟨rfl, hname, by simp [View.shell], by simp [View.shell]⟩

theorem Schema.recorded_empty : (∅ : Schema).Recorded statements :=
  ⟨OrderedMap.holds_empty, OrderedMap.holds_empty⟩

namespace Dump

/-- Adding what a clause declares keeps a table recorded. -/
theorem Clause.Declared.addTo {declared : Clause} (hdeclared : declared.Declared)
    {key : Text} {table : Table} (h : table.Recorded statements key) :
    (Clause.addTo table declared).Recorded statements key := by
  cases declared with
  | column c => exact { h with columns := h.columns.insert ⟨rfl, hdeclared⟩ }
  | index i => exact { h with indexes := h.indexes.insert ⟨rfl, hdeclared⟩ }
  | constraint c => exact { h with constraints := h.constraints.insert ⟨rfl, hdeclared⟩ }

/-- So does adding what each of several clauses declares. -/
theorem recorded_foldl_addTo {clauses : List Clause}
    (hclauses : ∀ declared ∈ clauses, declared.Declared) {key : Text} {table : Table}
    (h : table.Recorded statements key) :
    (clauses.foldl Clause.addTo table).Recorded statements key := by
  induction clauses generalizing table with
  | nil => exact h
  | cons first rest ih =>
      refine ih (fun declared hmem => hclauses declared (List.mem_cons_of_mem first hmem)) ?_
      exact (hclauses first List.mem_cons_self).addTo h

/-- What is kept of a reading that may fail has been read. -/
theorem ok_of_toOption {ε α : Type} {reading : Except ε α} {a : α}
    (h : reading.toOption = some a) : reading = .ok a := by
  cases reading with
  | error reason => simp [Except.toOption] at h
  | ok found => exact congrArg Except.ok (Option.some.inj h)

/-- The table that the clauses of a tidy statement declare is recorded. -/
theorem recorded_tableOfClauses {statement body name : Text} (hmem : statement ∈ statements)
    (htidy : Tidy statement) (hheader : Header.ofStatement? statement = some (.createTable name))
    (hbody : tableBody statement = some body) :
    (tableOfClauses name statement (clauses body)).Recorded statements name := by
  have hstart : ({ Table.shell name with definition := some statement } : Table).Recorded
      statements name := by
    refine { Table.recorded_shell (named_of_header hheader) with definition := fun sql hsql => ?_ }
    obtain rfl := Option.some.inj hsql
    exact ⟨hmem, hheader⟩
  refine recorded_foldl_addTo (fun declared hdeclared => ?_) hstart
  obtain ⟨clause, hclause, hread⟩ := List.mem_filterMap.1 hdeclared
  exact declared_of_ofText (tidy_of_mem_clauses htidy.toSingleSpaced hbody hclause)
    (ok_of_toOption hread)

/-- What the entry records comes from the given statements. -/
def Entry.Recorded (statements : List Text) : Entry → Prop
  | .view name sql => sql ∈ statements ∧ Header.ofStatement? sql = some (.createView name)
  | .viewDrop name sql =>
    sql ∈ statements ∧ Header.ofStatement? sql = some (.dropView (some name))
  | .table defined _ => defined.Recorded statements defined.name
  | .alter name sql => sql ∈ statements ∧ Header.ofStatement? sql = some (.alterTable name)

/-- The entry that a tidy statement makes is recorded. -/
theorem recorded_of_ofStatement {statement : Text} (hmem : statement ∈ statements)
    (htidy : Tidy statement) {entry : Entry} (h : Entry.ofStatement statement = .ok entry) :
    entry.Recorded statements := by
  unfold Entry.ofStatement at h
  rw [htidy.trim_eq] at h
  split at h
  · simp at h
  · next name hheader =>
    obtain rfl := Except.ok.inj h
    exact ⟨hmem, hheader⟩
  · simp at h
  · next name hheader =>
    obtain rfl := Except.ok.inj h
    exact ⟨hmem, hheader⟩
  · next name hheader =>
    split at h
    · simp at h
    · next body hbody =>
      obtain rfl := Except.ok.inj h
      have htable := recorded_tableOfClauses hmem htidy hheader hbody
      show Table.Recorded statements (tableOfClauses name statement (clauses body)).name _
      rw [htable.name_eq]
      exact htable
  · next name hheader =>
    obtain rfl := Except.ok.inj h
    exact ⟨hmem, hheader⟩

/-- Recording an entry keeps the schema recorded. -/
theorem Entry.Recorded.record {entry : Entry} (hentry : entry.Recorded statements)
    {schema : Schema} (h : schema.Recorded statements) :
    (Entry.record schema entry).Recorded statements := by
  cases entry with
  | view name sql =>
      refine { h with views := h.views.alter fun hold => ?_ }
      have hview : ((schema.views.get? name).getD (.shell name)).Recorded statements name := by
        cases hget : schema.views.get? name with
        | none => exact View.recorded_shell (named_of_header hentry.2)
        | some view => exact hold view hget
      refine { hview with definition := fun other hother => ?_ }
      exact Option.some.inj hother ▸ hentry
  | viewDrop name sql =>
      refine { h with views := h.views.alter fun hold => ?_ }
      have hview : ((schema.views.get? name).getD (.shell name)).Recorded statements name := by
        cases hget : schema.views.get? name with
        | none => exact View.recorded_shell (named_of_header hentry.2 name rfl)
        | some view => exact hold view hget
      refine { hview with dropStatement := fun other hother => ?_ }
      exact Option.some.inj hother ▸ hentry
  | table defined _ => exact { h with tables := h.tables.insert hentry }
  | alter name sql =>
      refine { h with tables := h.tables.alter fun hold => ?_ }
      have htable : ((schema.tables.get? name).getD (.shell name)).Recorded statements name := by
        cases hget : schema.tables.get? name with
        | none => exact Table.recorded_shell (named_of_header hentry.2)
        | some table => exact hold table hget
      refine { htable with alters := fun other hother => ?_ }
      rcases List.mem_append.1 hother with hother | hother
      · exact htable.alters other hother
      · exact List.mem_singleton.1 hother ▸ hentry

/-- Recording several entries keeps the schema recorded. -/
theorem recorded_foldl_record {entries : List Entry}
    (hentries : ∀ entry ∈ entries, entry.Recorded statements) {schema : Schema}
    (h : schema.Recorded statements) :
    (entries.foldl Entry.record schema).Recorded statements := by
  induction entries generalizing schema with
  | nil => exact h
  | cons first rest ih =>
      refine ih (fun entry hmem => hentries entry (List.mem_cons_of_mem first hmem)) ?_
      exact (hentries first List.mem_cons_self).record h

/-- The schema of a dump is recorded from the statements of the dump. -/
theorem recorded_schemaOfText (text : Text) :
    (schemaOfText text).Recorded (Dump.statements text) := by
  refine recorded_foldl_record (fun entry hentry => ?_) Schema.recorded_empty
  obtain ⟨statement, hstatement, hread⟩ := List.mem_filterMap.1 hentry
  exact recorded_of_ofStatement hstatement (tidy_of_mem_statements hstatement)
    (ok_of_toOption hread)

end Dump

end SchemaDelta

import Mathlib.Logic.Function.Basic
import SchemaDelta.Change.Table
import SchemaDelta.Dump.Clause

/-!
# Layouts and the operations on them

A layout is what a database server would keep of a table: for each place in it, what stands
there. A statement is read as an operation on one such place, which finds it free or taken. The
operations on different places do not touch each other, so a run is made up of one run for each
place (`execute_of_slots`).
-/

namespace SchemaDelta

open Sql Dump

/-- A place in a table: one for each name of a column, one for the primary key, one for each
name of an index, unique or not, and one for each name of a foreign key. -/
inductive Slot where
  | column (name : Text)
  | primaryKey
  | key (name : Text)
  | foreignKey (name : Text)
  deriving DecidableEq

/-- What stands in a place: definitions as they are written, and of a primary key its columns. -/
inductive Content where
  | column (definition : Text)
  | primaryKey (columns : List Text)
  | index (definition : Text)
  | uniqueKey (definition : Text)
  | foreignKey (definition : Text)
  deriving DecidableEq

/-- What stands in each place of a table, if anything does. -/
abbrev Layout := Slot → Option Content

/-- The place of a constraint. -/
def Constraint.slot (constraint : Constraint) : Slot :=
  match constraint.kind with
  | .primaryKey => .primaryKey
  | .uniqueKey => .key constraint.name
  | .foreignKey => .foreignKey constraint.name

/-- What stands in the place of a constraint. -/
def Constraint.content (constraint : Constraint) : Content :=
  match constraint.kind with
  | .primaryKey => .primaryKey constraint.columns
  | .uniqueKey => .uniqueKey constraint.definition
  | .foreignKey => .foreignKey constraint.definition

/-- What a constraint, if there is one, puts into a place. -/
def Constraint.contentAt (slot : Slot) (constraint : Option Constraint) : Option Content :=
  constraint.bind fun c => if c.slot = slot then some c.content else none

/-- The layout of a table. -/
def Layout.ofTable (table : Table) : Layout
  | .column name => (table.columns.get? name).map fun column => .column column.definition
  | .primaryKey =>
    Constraint.contentAt .primaryKey (table.constraints.get? Constraint.primaryName)
  | .key name => ((table.indexes.get? name).map fun index => .index index.definition) <|>
    Constraint.contentAt (.key name) (table.constraints.get? name)
  | .foreignKey name => Constraint.contentAt (.foreignKey name) (table.constraints.get? name)

/-- What an operation does to its place. -/
inductive Step where
  | add (content : Content)
  | modify (content : Content)
  | drop
  deriving DecidableEq

/-- What a statement does: a step at one place, or nothing if it is a comment. -/
inductive Operation where
  | nothing
  | on (slot : Slot) (step : Step)
  deriving DecidableEq

/-- A place after a step. What is added needs a free place, and what is modified or dropped has
to be there. -/
def Step.apply : Step → Option Content → Option (Option Content)
  | .add content, none => some (some content)
  | .modify content, some _ => some (some content)
  | .drop, some _ => some none
  | _, _ => none

/-- A layout after an operation. -/
def Operation.apply (layout : Layout) : Operation → Option Layout
  | .nothing => some layout
  | .on slot step => (step.apply (layout slot)).map (Function.update layout slot)

/-- A layout after several operations, each of which has to succeed. -/
def Layout.execute (layout : Layout) : List Operation → Option Layout
  | [] => some layout
  | operation :: rest => (operation.apply layout).bind fun next => next.execute rest

/-! ## Statements as operations -/

/-- The place of what a clause declares. -/
def Dump.Clause.slot : Clause → Slot
  | .column c => .column c.name
  | .index i => .key i.name
  | .constraint c => c.slot

/-- What a clause puts into its place. -/
def Dump.Clause.content : Clause → Content
  | .column c => .column c.definition
  | .index i => .index i.definition
  | .constraint c => c.content

/-- The column that a clause declares. -/
def columnOf? (clause : Text) : Option Column :=
  match Clause.ofText clause with
  | .ok (.column c) => some c
  | _ => none

/-- The name between two name marks. -/
def unquoted? : Text → Option Text
  | [] => none
  | c :: rest => if c = nameMark then [nameMark].isSuffixOf? rest else none

/-- What the words behind `ALTER TABLE` and the name of the table do. The words `ADD COLUMN` are
taken as such where a column follows; the clause behind `ADD` is read like a clause of a table
definition. -/
def Operation.ofWords? (words : Text) : Option Operation :=
  match ("ADD COLUMN ".toList.isPrefixOf? words).bind columnOf? with
  | some column => some (.on (.column column.name) (.add (.column column.definition)))
  | none =>
    match "ADD ".toList.isPrefixOf? words with
    | some clause =>
      (Clause.ofText clause).toOption.map fun declared =>
        .on declared.slot (.add declared.content)
    | none =>
      match "MODIFY COLUMN ".toList.isPrefixOf? words with
      | some clause => (columnOf? clause).map fun column =>
        .on (.column column.name) (.modify (.column column.definition))
      | none =>
        if words = "DROP PRIMARY KEY" then some (.on .primaryKey .drop)
        else match "DROP INDEX ".toList.isPrefixOf? words with
          | some quoted => (unquoted? quoted).map fun name => .on (.key name) .drop
          | none => (("DROP FOREIGN KEY ".toList.isPrefixOf? words).bind unquoted?).map
            fun name => .on (.foreignKey name) .drop

/-- What a line does to the table of this name. -/
def Operation.ofLine? (table line : Text) : Option Operation :=
  if "--".toList.isPrefixOf line then some .nothing
  else (("ALTER TABLE " ++ quoteName table ++ " ").isPrefixOf? line).bind fun rest =>
    ([';'].isSuffixOf? rest).bind Operation.ofWords?

/-- A layout after the statements in these lines, each read on its own. -/
def Layout.run (table : Text) (layout : Layout) (lines : List Text) : Option Layout :=
  (lines.mapM (Operation.ofLine? table)).bind layout.execute

/-! ## One place at a time -/

/-- The steps of an operation at a place. -/
def Operation.stepsAt (slot : Slot) : Operation → List Step
  | .nothing => []
  | .on other step => if other = slot then [step] else []

/-- A place after several steps. -/
def Step.applyAll (content : Option Content) : List Step → Option (Option Content)
  | [] => some content
  | step :: rest => (step.apply content).bind fun next => Step.applyAll next rest

/-- Steps that go on from where others ended run after them. -/
theorem applyAll_append {first middle last : Option Content} {a b : List Step}
    (ha : Step.applyAll first a = some middle) (hb : Step.applyAll middle b = some last) :
    Step.applyAll first (a ++ b) = some last := by
  induction a generalizing first with
  | nil =>
      obtain rfl := Option.some.inj ha
      exact hb
  | cons step rest ih =>
      obtain ⟨next, hstep, hrest⟩ := Option.bind_eq_some_iff.1 ha
      rw [List.cons_append, Step.applyAll, hstep]
      exact ih hrest

/-- A run succeeds if at every place its steps there do, and it ends with what they leave. -/
theorem execute_of_slots {layout final : Layout} {operations : List Operation}
    (h : ∀ slot, Step.applyAll (layout slot) (operations.flatMap (Operation.stepsAt slot)) =
      some (final slot)) :
    layout.execute operations = some final := by
  -- The first operation changes its own place only, so the rest runs from the updated layout
  -- with fewer steps at that place and the same steps elsewhere.
  induction operations generalizing layout with
  | nil =>
      have hfinal : layout = final := funext fun slot => Option.some.inj (h slot)
      rw [hfinal]
      rfl
  | cons operation rest ih =>
      cases operation with
      | nothing => exact ih h
      | on slot step =>
          have hslot := h slot
          rw [List.flatMap_cons, Operation.stepsAt, if_pos rfl, List.singleton_append,
            Step.applyAll] at hslot
          obtain ⟨next, hnext, hrest⟩ := Option.bind_eq_some_iff.1 hslot
          have hexecute : Layout.execute (Function.update layout slot next) rest = some final := by
            refine ih fun other => ?_
            by_cases hother : other = slot
            · subst hother
              rw [Function.update_self]
              exact hrest
            · have hsame := h other
              rw [List.flatMap_cons, Operation.stepsAt, if_neg (Ne.symm hother),
                List.nil_append] at hsame
              rw [Function.update_of_ne hother]
              exact hsame
          rw [Layout.execute, Operation.apply, hnext]
          exact hexecute

end SchemaDelta

import SchemaDelta.Proofs.Change.Edit
import SchemaDelta.Proofs.Change.Layout

/-!
# Edits read as operations

An edit stands for an operation on one place of a table, and the line that a script has for it is
read as that operation (`ofLine?_line`). The one thing that could be read in two ways is the
addition of an index whose definition starts with the word `COLUMN` and goes on like a column;
`AddsNoColumn` excludes it.
-/

namespace SchemaDelta

open Sql Text Dump

/-- The operation that an edit stands for. -/
def Edit.operation : Edit → Operation
  | .addColumn name type =>
    .on (.column name) (.add (.column (quoteName name ++ ' ' :: type)))
  | .suggestDropColumn _ => .nothing
  | .modifyColumn name type =>
    .on (.column name) (.modify (.column (quoteName name ++ ' ' :: type)))
  | .addIndex key definition => .on (.key key) (.add (.index definition))
  | .dropIndex key => .on (.key key) .drop
  | .addConstraint constraint => .on constraint.slot (.add constraint.content)
  | .dropConstraint constraint => .on constraint.slot .drop

/-- Behind the word `ADD` the definition does not read like the addition of a column. -/
def AddsNoColumn (definition : Text) : Prop :=
  ("COLUMN ".toList.isPrefixOf? definition).bind columnOf? = none

instance (definition : Text) : Decidable (AddsNoColumn definition) :=
  inferInstanceAs (Decidable (_ = none))

/-- What the edit adds is read as what it is: an index or a unique key not as a column, and a
foreign key under its own name. -/
def Edit.Unambiguous : Edit → Prop
  | .addIndex _ definition => AddsNoColumn definition
  | .addConstraint constraint =>
    (constraint.kind = .uniqueKey → AddsNoColumn constraint.definition) ∧
      (constraint.kind = .foreignKey → opensWithConstraint constraint.definition)
  | _ => True

/-- A line that alters the table is read by the words behind its name. -/
theorem ofLine?_alter (table words : Text) :
    Operation.ofLine? table ("ALTER TABLE " ++ quoteName table ++ " " ++ words ++ [';']) =
      Operation.ofWords? words := by
  have hcomment : "--".toList.isPrefixOf
      ("ALTER TABLE " ++ quoteName table ++ " " ++ words ++ [';']) = false := rfl
  have hrest : ("ALTER TABLE " ++ quoteName table ++ " ").isPrefixOf?
      ("ALTER TABLE " ++ quoteName table ++ " " ++ words ++ [';']) = some (words ++ [';']) :=
    List.isPrefixOf?_eq_some_iff_append_eq.2 (by simp)
  have hwords : [';'].isSuffixOf? (words ++ [';']) = some words :=
    List.isSuffixOf?_eq_some_iff_append_eq.2 rfl
  rw [Operation.ofLine?, hcomment, if_neg Bool.false_ne_true, hrest, Option.bind_some, hwords,
    Option.bind_some]

/-- A name in name marks is read as the name. -/
theorem unquoted?_quoteName (name : Text) : unquoted? (quoteName name) = some name := by
  have hquoted : [nameMark].isSuffixOf? (name ++ [nameMark]) = some name :=
    List.isSuffixOf?_eq_some_iff_append_eq.2 rfl
  show (if nameMark = nameMark then [nameMark].isSuffixOf? (name ++ [nameMark]) else none) = _
  rw [if_pos rfl, hquoted]

/-- A quoted name, a space and a type are read as the column they declare. -/
theorem columnOf?_quoted {name type : Text} (hname : IsName name) (hword : startsWord type) :
    ∃ isPrimaryKey, columnOf? (quoteName name ++ ' ' :: type) =
      some ⟨name, quoteName name ++ ' ' :: type, isPrimaryKey⟩ := by
  have hhead := columnHead?_quoted hname hword
  exact ⟨_, by rw [columnOf?, Clause.ofText, hhead]; rfl⟩

theorem ofWords?_addColumn {name type : Text} (hname : IsName name) (hword : startsWord type) :
    Operation.ofWords? ("ADD COLUMN " ++ (quoteName name ++ ' ' :: type)) =
      some (Edit.addColumn name type).operation := by
  obtain ⟨isPrimaryKey, hcolumn⟩ := columnOf?_quoted hname hword
  have hprefix : "ADD COLUMN ".toList.isPrefixOf?
      ("ADD COLUMN " ++ (quoteName name ++ ' ' :: type)) = some (quoteName name ++ ' ' :: type) :=
    List.isPrefixOf?_eq_some_iff_append_eq.2 rfl
  rw [Operation.ofWords?, hprefix, Option.bind_some, hcolumn]
  rfl

theorem ofWords?_modifyColumn {name type : Text} (hname : IsName name) (hword : startsWord type) :
    Operation.ofWords? ("MODIFY COLUMN " ++ (quoteName name ++ ' ' :: type)) =
      some (Edit.modifyColumn name type).operation := by
  obtain ⟨isPrimaryKey, hcolumn⟩ := columnOf?_quoted hname hword
  have hprefix : "MODIFY COLUMN ".toList.isPrefixOf?
      ("MODIFY COLUMN " ++ (quoteName name ++ ' ' :: type)) =
        some (quoteName name ++ ' ' :: type) :=
    List.isPrefixOf?_eq_some_iff_append_eq.2 rfl
  have hadd : "ADD COLUMN ".toList.isPrefixOf?
      ("MODIFY COLUMN " ++ (quoteName name ++ ' ' :: type)) = none := rfl
  have hclause : "ADD ".toList.isPrefixOf?
      ("MODIFY COLUMN " ++ (quoteName name ++ ' ' :: type)) = none := rfl
  simp only [Operation.ofWords?, hadd, hclause, hprefix, hcolumn, Option.bind_none,
    Option.map_some]
  rfl

/-- Behind the word `ADD` stands a clause, unless it reads like the addition of a column. -/
theorem ofWords?_add {clause : Text} (hcolumn : AddsNoColumn clause) {declared : Clause}
    (hclause : Clause.ofText clause = .ok declared) :
    Operation.ofWords? ("ADD " ++ clause) =
      some (.on declared.slot (.add declared.content)) := by
  -- The longer words are tried first.
  have hadd : "ADD COLUMN ".toList.isPrefixOf? ("ADD " ++ clause) =
      "COLUMN ".toList.isPrefixOf? clause := rfl
  have hprefix : "ADD ".toList.isPrefixOf? ("ADD " ++ clause) = some clause :=
    List.isPrefixOf?_eq_some_iff_append_eq.2 rfl
  have hnone : ("COLUMN ".toList.isPrefixOf? clause).bind columnOf? = none := hcolumn
  simp only [Operation.ofWords?, hadd, hnone, hprefix, hclause, Except.toOption,
    Option.map_some]

theorem ofWords?_dropPrimaryKey :
    Operation.ofWords? "DROP PRIMARY KEY" = some (.on .primaryKey .drop) := rfl

theorem ofWords?_dropIndex (name : Text) :
    Operation.ofWords? ("DROP INDEX " ++ quoteName name) = some (.on (.key name) .drop) := by
  have hadd : "ADD COLUMN ".toList.isPrefixOf? ("DROP INDEX " ++ quoteName name) = none := rfl
  have hclause : "ADD ".toList.isPrefixOf? ("DROP INDEX " ++ quoteName name) = none := rfl
  have hmodify : "MODIFY COLUMN ".toList.isPrefixOf? ("DROP INDEX " ++ quoteName name) =
      none := rfl
  have hprimary : "DROP INDEX " ++ quoteName name ≠ "DROP PRIMARY KEY" := by simp
  have hprefix : "DROP INDEX ".toList.isPrefixOf? ("DROP INDEX " ++ quoteName name) =
      some (quoteName name) :=
    List.isPrefixOf?_eq_some_iff_append_eq.2 rfl
  simp only [Operation.ofWords?, hadd, hclause, hmodify, if_neg hprimary, hprefix,
    unquoted?_quoteName, Option.bind_none, Option.map_some]

theorem ofWords?_dropForeignKey (name : Text) :
    Operation.ofWords? ("DROP FOREIGN KEY " ++ quoteName name) =
      some (.on (.foreignKey name) .drop) := by
  have hadd : "ADD COLUMN ".toList.isPrefixOf? ("DROP FOREIGN KEY " ++ quoteName name) =
      none := rfl
  have hclause : "ADD ".toList.isPrefixOf? ("DROP FOREIGN KEY " ++ quoteName name) = none := rfl
  have hmodify : "MODIFY COLUMN ".toList.isPrefixOf? ("DROP FOREIGN KEY " ++ quoteName name) =
      none := rfl
  have hprimary : "DROP FOREIGN KEY " ++ quoteName name ≠ "DROP PRIMARY KEY" := by simp
  have hindex : "DROP INDEX ".toList.isPrefixOf? ("DROP FOREIGN KEY " ++ quoteName name) =
      none := rfl
  have hprefix : "DROP FOREIGN KEY ".toList.isPrefixOf? ("DROP FOREIGN KEY " ++ quoteName name) =
      some (quoteName name) :=
    List.isPrefixOf?_eq_some_iff_append_eq.2 rfl
  simp only [Operation.ofWords?, hadd, hclause, hmodify, if_neg hprimary, hindex, hprefix,
    unquoted?_quoteName, Option.bind_none, Option.bind_some, Option.map_some]

/-- A definition that starts with the word `CONSTRAINT` does not read like the addition of a
column. -/
theorem addsNoColumn_of_opensWithConstraint {definition : Text}
    (h : opensWithConstraint definition) : AddsNoColumn definition := by
  have hprefix : "COLUMN ".toList.isPrefixOf? definition = none := by
    rw [Option.eq_none_iff_forall_ne_some]
    intro rest hrest
    obtain rfl := List.isPrefixOf?_eq_some_iff_append_eq.1 hrest
    simp [opensWithConstraint, sameCaseless, upper] at h
  rw [AddsNoColumn, hprefix]
  rfl

/-- The clause of a primary key does not read like the addition of a column. -/
theorem addsNoColumn_primaryKeyClause (columns : List Text) :
    AddsNoColumn (primaryKeyClause columns) := by
  have hprefix : "COLUMN ".toList.isPrefixOf? (primaryKeyClause columns) = none := rfl
  rw [AddsNoColumn, hprefix]
  rfl

/-- The clause that a script writes for a declared constraint is read as the constraint. -/
theorem ofWords?_addConstraint {constraint : Constraint} (h : constraint.Declared)
    (hadds : Edit.Unambiguous (.addConstraint constraint)) :
    Operation.ofWords? ("ADD " ++ constraint.clause) =
      some (.on constraint.slot (.add constraint.content)) := by
  cases hkind : constraint.kind with
  | primaryKey =>
      have hclause : constraint.clause = primaryKeyClause constraint.columns := by
        simp only [Constraint.clause, hkind]
        rfl
      rw [hclause, ofWords?_add (addsNoColumn_primaryKeyClause constraint.columns)
        (ofText_primaryKey (h.primary hkind).2)]
      simp [Clause.slot, Clause.content, Constraint.slot, Constraint.content,
        Constraint.primaryKey, hkind]
  | uniqueKey =>
      have hclause : constraint.clause = constraint.definition := by
        simp [Constraint.clause, hkind]
      rw [hclause, ofWords?_add (hadds.1 hkind) h.ofText_definition]
      rfl
  | foreignKey =>
      have hopens := hadds.2 hkind
      have hclause : constraint.clause = constraint.definition := by
        simp [Constraint.clause, hkind, hopens]
      rw [hclause, ofWords?_add (addsNoColumn_of_opensWithConstraint hopens) h.ofText_definition]
      rfl

/-- The handle of a constraint behind the word `DROP` is read as the drop of the constraint. -/
theorem ofWords?_dropConstraint (constraint : Constraint) :
    Operation.ofWords? ("DROP " ++ constraint.handle) = some (.on constraint.slot .drop) := by
  cases hkind : constraint.kind with
  | primaryKey =>
      simp only [Constraint.handle, Constraint.slot, hkind]
      exact ofWords?_dropPrimaryKey
  | uniqueKey =>
      simp only [Constraint.handle, Constraint.slot, hkind]
      exact ofWords?_dropIndex constraint.name
  | foreignKey =>
      simp only [Constraint.handle, Constraint.slot, hkind]
      exact ofWords?_dropForeignKey constraint.name

/-- The line that a script has for a declared edit is read as the operation that the edit stands
for, unless it is ambiguous. -/
theorem ofLine?_line {edit : Edit} (h : edit.Declared) (hadds : edit.Unambiguous)
    (table : Text) : Operation.ofLine? table (edit.line table).text = some edit.operation := by
  have halter : ∀ {sql words : Text}, sql = "ALTER TABLE " ++ quoteName table ++ " " ++ words →
      Operation.ofLine? table (Line.statement sql).text = Operation.ofWords? words := by
    rintro sql words rfl
    exact ofLine?_alter table words
  cases edit with
  | addColumn name type =>
      obtain ⟨hname, -, hword⟩ := h
      refine (halter ?_).trans (ofWords?_addColumn hname hword)
      simp
  | suggestDropColumn name => rfl
  | modifyColumn name type =>
      obtain ⟨hname, -, hword⟩ := h
      refine (halter ?_).trans (ofWords?_modifyColumn hname hword)
      simp
  | addIndex key definition =>
      refine (halter ?_).trans (ofWords?_add hadds (Index.Declared.ofText_definition h))
      simp
  | dropIndex key =>
      refine (halter ?_).trans (ofWords?_dropIndex key)
      simp
  | addConstraint constraint =>
      refine (halter ?_).trans (ofWords?_addConstraint h hadds)
      simp
  | dropConstraint constraint =>
      refine (halter ?_).trans (ofWords?_dropConstraint constraint)
      simp

end SchemaDelta
